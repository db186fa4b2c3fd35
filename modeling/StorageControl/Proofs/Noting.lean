import StorageControl.Client

/-! What a transport sees of an operation.

A transport can be made to note every call that starts and everything that a call brings
when it takes effect. The notes are kept beside the server and nothing reads them, so an
operation has the same result, at the same moment, over the noting transport.
-/

set_option autoImplicit false

namespace StorageControl

/-- What a transport sees: a call that starts, or one that takes effect and its reply. -/
inductive Sighting where
  | started (c : Call)
  | landed (c : Call) (reply : Option c.Reply)

/-- A server, and what the transport to it has seen so far. -/
structure Noted (σ : Type) where
  server : σ
  seen : List Sighting

variable {σ τ α : Type}

def Transport.noting (T : Transport σ) : Transport (Noted σ) where
  start c n :=
    let (wait, server) := T.start c n.server
    (wait, ⟨server, n.seen ++ [.started c]⟩)
  land c n :=
    let (reply, server) := T.land c n.server
    (reply, ⟨server, n.seen ++ [.landed c reply]⟩)

/-- One transport carries calls out as another does on a part of its state. -/
structure Transport.Covers (T : Transport τ) (part : τ → σ) (U : Transport σ) : Prop where
  start : ∀ c t, U.start c (part t) = Prod.map id part (T.start c t)
  land : ∀ c t, U.land c (part t) = Prod.map id part (T.land c t)

theorem Transport.noting_covers (T : Transport σ) : T.noting.Covers Noted.server T :=
  ⟨fun _ _ => rfl, fun _ _ => rfl⟩

namespace Machine

def map (part : τ → σ) (m : Machine τ) : Machine σ :=
  ⟨part m.server, m.clock, m.flights, m.cancelAt⟩

section Covered

variable {T : Transport τ} {part : τ → σ} {U : Transport σ}

@[simp]
theorem map_clock (m : Machine τ) : (m.map part).clock = m.clock := rfl

@[simp]
theorem map_cancelAt (m : Machine τ) : (m.map part).cancelAt = m.cancelAt := rfl

theorem reach_map (m : Machine τ) (moment : Nat) :
    (m.map part).reach moment = (m.reach moment).map part := rfl

theorem drop_map (m : Machine τ) (flight : Flight) :
    (m.map part).drop flight = (m.drop flight).map part := rfl

theorem dropAll_map (m : Machine τ) (agenda : List Listing) :
    (m.map part).dropAll agenda = (m.dropAll agenda).map part := by
  induction agenda generalizing m with
  | nil => rfl
  | cons l rest ih => exact ih (m.drop l.flight)

theorem waitOn_map (limits : Limits) (m : Machine τ) :
    (waitOn limits (m.map part) : Landing α × Machine σ) =
      Prod.map id (map part) (waitOn limits m) := by
  unfold waitOn
  cases limits.stop? none <;> rfl

theorem launch_map (covers : T.Covers part U) (c : Call) (m : Machine τ) :
    launch U c (m.map part) = Prod.map id (map part) (launch T c m) := by
  have start : U.start c (m.map part).server = _ := covers.start c m.server
  rw [launch, start]
  rfl

theorem touchDown_map (covers : T.Covers part U) (c : Call) (due : Nat) (m : Machine τ) :
    touchDown U c due (m.map part) = Prod.map id (map part) (touchDown T c due m) := by
  have land : U.land c (m.map part).server = _ := covers.land c m.server
  rw [touchDown, land]
  rfl

theorem perform_map (covers : T.Covers part U) (limits : Limits) (c : Call) (m : Machine τ) :
    perform U limits c (m.map part) = Prod.map id (map part) (perform T limits c m) := by
  simp only [perform, launch_map covers, Prod.map_fst, Prod.map_snd, id_eq]
  cases limits.stop? (some (launch T c m).1.due) with
  | some stop => rfl
  | none =>
    simp only [drop_map, touchDown_map covers, Prod.map_fst, Prod.map_snd, id_eq]
    cases (touchDown T c (launch T c m).1.due ((launch T c m).2.drop (launch T c m).1)).1 with
    | some reply => rfl
    | none => exact waitOn_map limits _

theorem launchAll_map (covers : T.Covers part U) (scopes : List NamespaceId)
    (agenda : List Listing) (m : Machine τ) :
    launchAll U scopes agenda (m.map part) =
      Prod.map id (map part) (launchAll T scopes agenda m) := by
  induction scopes generalizing agenda m with
  | nil => rfl
  | cons scope rest ih =>
    simp only [launchAll, launch_map covers, Prod.map_fst, Prod.map_snd, id_eq]
    exact ih _ _

theorem landAll_map (covers : T.Covers part U) (limits : Limits) (ended : Option Nat)
    (agenda : List Listing) (m : Machine τ) :
    landAll U limits ended agenda (m.map part) =
      Prod.map id (map part) (landAll T limits ended agenda m) := by
  induction agenda generalizing ended m with
  | nil => rfl
  | cons l rest ih =>
    simp only [landAll]
    split
    · rw [dropAll_map]
      rfl
    · cases limits.stop? (some l.due) with
      | some stop =>
        simp only [dropAll_map, reach_map]
        rfl
      | none =>
        simp only [drop_map, touchDown_map covers, Prod.map_fst, Prod.map_snd, id_eq]
        cases (touchDown T (.listVolumes l.scope) l.due (m.drop l.flight)).1 with
        | none =>
          simp only [ih]
          rfl
        | some reply =>
          simp only [ih]
          rfl

theorem gather_map (covers : T.Covers part U) (limits : Limits) (scopes : List NamespaceId)
    (m : Machine τ) :
    gather U limits scopes (m.map part) = Prod.map id (map part) (gather T limits scopes m) := by
  rw [gather, gather, map_clock]
  split
  · rfl
  · rw [launchAll_map covers]
    exact landAll_map covers limits none _ _

theorem join_map (limits : Limits) (policy : ScopePolicy) (scopes : List NamespaceId)
    (g : Gathered) (m : Machine τ) :
    join limits policy scopes g (m.map part) =
      Prod.map id (map part) (join limits policy scopes g m) := by
  simp only [join]
  cases g.stop with
  | some stop => rfl
  | none =>
    simp only
    split
    · rfl
    · exact waitOn_map limits m

/-- A program runs over a covering transport as over the covered one. -/
theorem run_map (covers : T.Covers part U) (limits : Limits) (program : Program α)
    (m : Machine τ) :
    run U limits program (m.map part) = Prod.map id (map part) (run T limits program m) := by
  induction program generalizing m with
  | done result => rfl
  | call c next ih =>
    simp only [run, perform_map covers]
    rcases perform T limits c m with ⟨reply | stop | _, after⟩
    · exact ih reply after
    · rfl
    · rfl
  | gather policy scopes next ih =>
    simp only [run, gather_map covers, Prod.map_fst, Prod.map_snd, id_eq, join_map]
    rcases join limits policy scopes (gather T limits scopes m).1 (gather T limits scopes m).2
      with ⟨result | stop | _, after⟩
    · exact ih result after
    · rfl
    · rfl

end Covered

def fresh (m : Machine σ) : Machine (Noted σ) := ⟨⟨m.server, []⟩, m.clock, m.flights, m.cancelAt⟩

@[simp]
theorem map_fresh (m : Machine σ) : m.fresh.map Noted.server = m := rfl

/-- What a call comes to, and what the transport sees of it. -/
inductive Attempt (c : Call) : Landing c.Reply → List Sighting → Prop where
  | answered (reply : c.Reply) : Attempt c (.landed reply) [.started c, .landed c (some reply)]
  | unanswered : Attempt c .waiting [.started c, .landed c none]
  | dropped (stop : Stop) : Attempt c (.stopped stop) [.started c]
  | abandoned (stop : Stop) : Attempt c (.stopped stop) [.started c, .landed c none]

theorem waitOn_cases {limits : Limits} {m after : Machine σ} {ending : Landing α}
    (waited : waitOn limits m = (ending, after)) :
    after.server = m.server ∧ (ending = .waiting ∨ ∃ stop, ending = .stopped stop) := by
  rw [waitOn] at waited
  split at waited
  next stop _ _ =>
    cases waited
    exact ⟨rfl, .inr ⟨stop, rfl⟩⟩
  next =>
    cases waited
    exact ⟨rfl, .inl rfl⟩

theorem perform_attempt (T : Transport σ) (limits : Limits) (c : Call) (m : Machine (Noted σ)) :
    ∃ sightings, (perform T.noting limits c m).2.server.seen = m.server.seen ++ sightings ∧
      Attempt c (perform T.noting limits c m).1 sightings := by
  simp only [perform]
  cases limits.stop? (some (launch T.noting c m).1.due) with
  | some stop => exact ⟨[.started c], rfl, .dropped stop.1⟩
  | none =>
    simp only [touchDown, launch, drop, Transport.noting]
    cases (T.land c (T.start c m.server.server).2).1 with
    | some reply => exact ⟨_, List.append_assoc _ _ _, .answered reply⟩
    | none =>
      simp only
      generalize waited : (waitOn limits _ : Landing c.Reply × Machine (Noted σ)) = ending
      obtain ⟨ending, after⟩ := ending
      obtain ⟨kept, rfl | ⟨stop, rfl⟩⟩ := waitOn_cases waited
      · exact ⟨_, by rw [kept]; exact List.append_assoc _ _ _, .unanswered⟩
      · exact ⟨_, by rw [kept]; exact List.append_assoc _ _ _, .abandoned stop⟩

end Machine

namespace Client

theorem perform_map {T : Transport τ} {part : τ → σ} {U : Transport σ}
    (covers : T.Covers part U) (client : Client) (operation : Operation α) (m : Machine τ) :
    client.perform U operation (m.map part) =
      Prod.map id (Machine.map part) (client.perform T operation m) := by
  have limits : client.limits (m.map part) = client.limits m := rfl
  rw [perform, perform, limits, Machine.map_clock, Machine.run_map covers]
  split
  · rfl
  · rcases m.run T (client.limits m) operation.program with ⟨result | stop | _, after⟩ <;> rfl

/-- What the transport sees of an operation. -/
def seen (client : Client) (T : Transport σ) (operation : Operation α) (m : Machine σ) :
    List Sighting :=
  (client.perform T.noting operation m.fresh).2.server.seen

end Client

end StorageControl
