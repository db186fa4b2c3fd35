import StorageControl.Proofs.Noting

/-! The conversation of a program with the server.

What is left of a program after some exchanges depends on their replies alone. A run over
any transport is such a conversation: what the transport sees are the exchanges in their
order, and at most one call beyond them that was never answered.
-/

set_option autoImplicit false

namespace StorageControl

variable {σ α : Type}

/-- A call that was answered. -/
structure Exchange where
  call : Call
  reply : call.Reply

def Exchange.sightings (e : Exchange) : List Sighting :=
  [.started e.call, .landed e.call (some e.reply)]

namespace Program

/-- What is left of a program after exchanges. -/
inductive Reaches : Program α → List Exchange → Program α → Prop where
  | here (program : Program α) : Reaches program [] program
  | next {c : Call} {next : c.Reply → Program α} {reply : c.Reply} {history : List Exchange}
      {rest : Program α} :
      Reaches (next reply) history rest → Reaches (.call c next) (⟨c, reply⟩ :: history) rest

theorem Reaches.trans {p q r : Program α} {before after : List Exchange}
    (first : Reaches p before q) (second : Reaches q after r) :
    Reaches p (before ++ after) r := by
  induction first with
  | here => exact second
  | next _ ih => exact .next (ih second)

/-- Whether a program makes its calls one after the other. -/
def Sequential : Program α → Prop
  | .done _ => True
  | .call _ next => ∀ reply, (next reply).Sequential
  | .gather _ _ _ => False

/-- How a run ends at what is left of its program, and what its transport sees last. -/
inductive Halts : Program α → Landing (Except ApiFault α) → List Sighting → Prop where
  | finished (result : Except ApiFault α) : Halts (.done result) (.landed result) []
  | unanswered (c : Call) (next : c.Reply → Program α) :
      Halts (.call c next) .waiting [.started c, .landed c none]
  | dropped (c : Call) (next : c.Reply → Program α) (stop : Stop) :
      Halts (.call c next) (.stopped stop) [.started c]
  | abandoned (c : Call) (next : c.Reply → Program α) (stop : Stop) :
      Halts (.call c next) (.stopped stop) [.started c, .landed c none]

end Program

open Program (Reaches Halts)

/-- A run is a conversation of its program. -/
theorem Machine.run_seen (T : Transport σ) (limits : Limits) (program : Program α)
    (sequential : program.Sequential) (m : Machine (Noted σ)) :
    ∃ history rest last, Reaches program history rest ∧
      Halts rest (run T.noting limits program m).1 last ∧
      (run T.noting limits program m).2.server.seen =
        m.server.seen ++ history.flatMap Exchange.sightings ++ last := by
  -- The replies decide which branch goes on, so the machine is general in the induction.
  induction program generalizing m with
  | done result => exact ⟨[], .done result, [], .here _, .finished result, by simp [run]⟩
  | gather => exact sequential.elim
  | call c next ih =>
    obtain ⟨sightings, seen, attempt⟩ := perform_attempt T limits c m
    rw [run]
    generalize perform T.noting limits c m = performed at seen attempt
    obtain ⟨outcome, after⟩ := performed
    cases attempt with
    | answered reply =>
      obtain ⟨history, rest, last, reached, halts, told⟩ := ih reply (sequential reply) after
      refine ⟨⟨c, reply⟩ :: history, rest, last, .next reached, halts, ?_⟩
      simp only at seen
      simp only [told, seen, List.flatMap_cons, Exchange.sightings, List.append_assoc]
    | unanswered => exact ⟨[], _, _, .here _, .unanswered c next, by simpa using seen⟩
    | dropped stop => exact ⟨[], _, _, .here _, .dropped c next stop, by simpa using seen⟩
    | abandoned stop => exact ⟨[], _, _, .here _, .abandoned c next stop, by simpa using seen⟩

/-! ### Runs that nothing stops -/

namespace Machine

theorem perform_unstopped (T : Transport σ) (c : Call) (m : Machine σ) (stop : Stop) :
    (perform T .none c m).1 ≠ .stopped stop := by
  simp only [perform, Limits.stop?, Limits.none, Option.filter_none]
  cases (touchDown T c (launch T c m).1.due ((launch T c m).2.drop (launch T c m).1)).1 with
  | some reply => intro stopped; cases stopped
  | none => intro stopped; cases stopped

theorem landAll_unstopped (T : Transport σ) (ended : Option Nat) (agenda : List Listing)
    (m : Machine σ) : (landAll T .none ended agenda m).1.stop = none := by
  induction agenda generalizing ended m with
  | nil => rfl
  | cons l rest ih =>
    rw [landAll]
    split
    · rfl
    · generalize touchDown T (.listVolumes l.scope) l.due (m.drop l.flight) = landing
      obtain ⟨reply, landed⟩ := landing
      cases reply with
      | none => exact ih ended landed
      | some reply => exact ih _ landed

theorem gather_unstopped (T : Transport σ) (scopes : List NamespaceId) (m : Machine σ) :
    (gather T .none scopes m).1.stop = none := by
  rw [gather]
  split
  next fired => cases fired
  next => exact landAll_unstopped T none _ _

theorem join_unstopped {policy : ScopePolicy} {scopes : List NamespaceId} {g : Gathered}
    {m : Machine σ} {stop : Stop} (unstopped : g.stop = none) :
    (join .none policy scopes g m).1 ≠ .stopped stop := by
  rw [join, unstopped]
  simp only
  split
  · intro stopped; cases stopped
  · intro stopped; cases stopped

/-- Without a token and without a deadline, nothing stops a run. -/
theorem run_unstopped (T : Transport σ) (program : Program α) (m : Machine σ) (stop : Stop) :
    (run T .none program m).1 ≠ .stopped stop := by
  induction program generalizing m with
  | done result => intro stopped; cases stopped
  | call c next ih =>
    have unstopped := perform_unstopped T c m
    rw [run]
    generalize perform T .none c m = performed at unstopped
    rcases performed with ⟨reply | stop | _, after⟩
    · exact ih reply after
    · exact absurd rfl (unstopped stop)
    · intro stopped; cases stopped
  | gather policy scopes next ih =>
    have unstopped := gather_unstopped T scopes m
    rw [run]
    generalize gather T .none scopes m = gathering at unstopped
    obtain ⟨gathered, after⟩ := gathering
    have unstopped (stop : Stop) : (join .none policy scopes gathered after).1 ≠ .stopped stop :=
      join_unstopped unstopped
    simp only
    generalize join .none policy scopes gathered after = joined at unstopped
    rcases joined with ⟨result | stop | _, late⟩
    · exact ih result late
    · exact absurd rfl (unstopped stop)
    · intro stopped; cases stopped

end Machine

namespace Client

def outcome (client : Client) (operation : Operation α) :
    Landing (Except ApiFault α) → Option (Except ApiFault α)
  | .landed result => some result
  | .stopped stop => some (.error (client.stopFault operation.name stop))
  | .waiting => none

theorem perform_of_unfired {client : Client} {m : Machine σ}
    (unfired : (client.limits m).hasFired m.clock = false) (T : Transport σ)
    (operation : Operation α) :
    client.perform T operation m =
      Prod.map (client.outcome operation) id (m.run T (client.limits m) operation.program) := by
  rw [perform, if_neg (by simp [unfired])]
  rcases m.run T (client.limits m) operation.program with ⟨result | stop | _, after⟩ <;> rfl

/-- An operation that neither the token nor its deadline ends. -/
structure Undisturbed (client : Client) (T : Transport σ) (operation : Operation α)
    (m : Machine σ) : Prop where
  unfired : (client.limits m).hasFired m.clock = false
  unstopped : ∀ stop, (m.run T (client.limits m) operation.program).1 ≠ .stopped stop

variable {client : Client} {T : Transport σ} {operation : Operation α} {m : Machine σ}

theorem Undisturbed.of_free (timeless : client.timeout = none) (unset : m.cancelAt = none) :
    client.Undisturbed T operation m := by
  have limits : client.limits m = .none := by rw [Client.limits, timeless, unset]; rfl
  constructor
  · rw [limits]
    rfl
  · rw [limits]
    exact Machine.run_unstopped T operation.program m

/-- How an operation that nothing disturbs ends, and what its transport sees last. -/
inductive Settles : Program α → Option (Except ApiFault α) → List Sighting → Prop where
  | finished (result : Except ApiFault α) : Settles (.done result) (some result) []
  | unanswered (c : Call) (next : c.Reply → Program α) :
      Settles (.call c next) none [.started c, .landed c none]

theorem seen_of_undisturbed (undisturbed : client.Undisturbed T operation m)
    (sequential : operation.program.Sequential) :
    ∃ history rest last, Reaches operation.program history rest ∧
      Settles rest (client.perform T operation m).1 last ∧
      client.seen T operation m = history.flatMap Exchange.sightings ++ last := by
  obtain ⟨unfired, unstopped⟩ := undisturbed
  obtain ⟨history, rest, last, reached, halts, told⟩ :=
    Machine.run_seen T (client.limits m) operation.program sequential m.fresh
  have same := Machine.run_map T.noting_covers (client.limits m) operation.program m.fresh
  rw [Machine.map_fresh] at same
  refine ⟨history, rest, last, reached, ?_, ?_⟩
  · rw [perform_of_unfired unfired, same]
    rw [same] at unstopped
    generalize Machine.run T.noting (client.limits m) operation.program m.fresh = ran
      at halts unstopped
    obtain ⟨ending, after⟩ := ran
    cases halts with
    | finished result => exact .finished result
    | unanswered c next => exact .unanswered c next
    | dropped c next stop => exact absurd rfl (unstopped stop)
    | abandoned c next stop => exact absurd rfl (unstopped stop)
  · rw [seen, perform_of_unfired (m := m.fresh) unfired]
    exact told

end Client

end StorageControl
