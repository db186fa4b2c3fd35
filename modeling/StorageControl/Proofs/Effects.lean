import StorageControl.Proofs.Flights

/-! What calls do to a server, one by one.

A transport can be made to keep a view of the server before and after every call that
lands. When calls do nothing before they land, and nothing without a reply, whatever
changed in the view is the work of calls that were answered; and a program that ends with
such a call gives the result that the reply decides.
-/

set_option autoImplicit false

namespace StorageControl

variable {σ ε α : Type}

/-- A call that landed, and the view of the server around it. -/
structure Effect (ε : Type) where
  call : Call
  reply : Option call.Reply
  before : ε
  after : ε

structure Observed (σ ε : Type) where
  server : σ
  effects : List (Effect ε)

def Transport.observing (T : Transport σ) (view : σ → ε) : Transport (Observed σ ε) where
  start c o :=
    let (wait, server) := T.start c o.server
    (wait, { o with server })
  land c o :=
    let (reply, server) := T.land c o.server
    (reply, ⟨server, o.effects ++ [⟨c, reply, view o.server, view server⟩]⟩)

theorem Transport.observing_covers (T : Transport σ) (view : σ → ε) :
    (T.observing view).Covers Observed.server T :=
  ⟨fun _ _ => rfl, fun _ _ => rfl⟩

/-- Calls take effect as they complete: not when they start, and not without a reply. -/
structure Transport.EffectiveOnReply (T : Transport σ) (view : σ → ε) : Prop where
  start : ∀ c s, view (T.start c s).2 = view s
  unanswered : ∀ c s, (T.land c s).1 = none → view (T.land c s).2 = view s

/-- Effects that lead from one view to another, each from where the last one ended. -/
inductive Chronicle : ε → List (Effect ε) → ε → Prop where
  | nil (view : ε) : Chronicle view [] view
  | cons (effect : Effect ε) {rest : List (Effect ε)} {last : ε} :
      Chronicle effect.after rest last → Chronicle effect.before (effect :: rest) last

theorem Chronicle.single (effect : Effect ε) : Chronicle effect.before [effect] effect.after :=
  .cons effect (.nil _)

theorem Chronicle.append {first middle last : ε} {before after : List (Effect ε)}
    (one : Chronicle first before middle) (two : Chronicle middle after last) :
    Chronicle first (before ++ after) last := by
  induction one with
  | nil => exact two
  | cons effect _ ih => exact .cons effect (ih two)

namespace Machine

/-- What a call comes to, and the effects that it has. -/
inductive Upshot (c : Call) : Landing c.Reply → List (Effect ε) → Prop where
  | answered (reply : c.Reply) (before after : ε) :
      Upshot c (.landed reply) [⟨c, some reply, before, after⟩]
  | unanswered (view : ε) : Upshot c .waiting [⟨c, none, view, view⟩]
  | dropped (stop : Stop) : Upshot c (.stopped stop) []
  | abandoned (stop : Stop) (view : ε) : Upshot c (.stopped stop) [⟨c, none, view, view⟩]

theorem perform_effects {T : Transport σ} {view : σ → ε} (effective : T.EffectiveOnReply view)
    (limits : Limits) (c : Call) (m : Machine (Observed σ ε)) :
    ∃ effects,
      (perform (T.observing view) limits c m).2.server.effects = m.server.effects ++ effects ∧
      Chronicle (view m.server.server) effects
        (view (perform (T.observing view) limits c m).2.server.server) ∧
      Upshot c (perform (T.observing view) limits c m).1 effects := by
  have started := effective.start c m.server.server
  simp only [perform]
  cases limits.stop? (some (launch (T.observing view) c m).1.due) with
  | some stop =>
    refine ⟨[], by simp [launch, drop, reach, Transport.observing], ?_, .dropped stop.1⟩
    simp only [launch, drop, reach, Transport.observing, started]
    exact .nil _
  | none =>
    have silent := effective.unanswered c (T.start c m.server.server).2
    simp only [touchDown, launch, drop, Transport.observing, ← started]
    cases replied : (T.land c (T.start c m.server.server).2).1 with
    | some reply => exact ⟨_, rfl, .single ⟨c, some reply, _, _⟩, .answered reply _ _⟩
    | none =>
      -- A call that brings no reply has left the view as it was.
      simp only [silent replied]
      generalize waited : (waitOn limits _ : Landing c.Reply × Machine (Observed σ ε)) = ending
      obtain ⟨ending, late⟩ := ending
      obtain ⟨kept, rfl | ⟨stop, rfl⟩⟩ := waitOn_cases waited
      · refine ⟨_, by rw [kept], ?_, .unanswered _⟩
        rw [kept, silent replied]
        exact .single ⟨c, none, _, _⟩
      · refine ⟨_, by rw [kept], ?_, .abandoned stop _⟩
        rw [kept, silent replied]
        exact .single ⟨c, none, _, _⟩

end Machine

/-- The result of an operation that is one call. -/
def Call.conclude (c : Call) : c.Reply → Except ApiFault c.Answer
  | .ok answer => .ok answer
  | .error fault => .error fault.sort

namespace Program

theorem only_eq (c : Call) : only c = .call c fun reply => .done (c.conclude reply) := by
  unfold only ask
  congr 1
  funext reply
  cases reply <;> rfl

theorem of_reaches_only {c : Call} {history : List Exchange} {e : Exchange}
    {result : Except ApiFault c.Answer}
    (reached : (only c).Reaches (history ++ [e]) (.done result)) :
    ∃ reply, e = ⟨c, reply⟩ ∧ result = c.conclude reply := by
  rw [only_eq] at reached
  generalize exchanges : history ++ [e] = all at reached
  generalize finished : Program.done result = rest at reached
  cases reached with
  | here => cases finished
  | @next _ _ reply _ _ later =>
    cases later with
    | here =>
      cases finished
      have last : history ++ [e] = [] ++ [⟨c, reply⟩] := exchanges
      exact ⟨reply, List.singleton_inj.mp (List.append_inj' last rfl).2, rfl⟩

/-- Whether a program makes its calls one after the other, and one of some kind last. -/
def EndsWith (final : Call → Prop) : Program α → Prop
  | .done _ => True
  | .call c next =>
    ∀ reply, (next reply).EndsWith final ∧ (final c → ∃ result, next reply = .done result)
  | .gather _ _ _ => False

theorem only_endsWith (c : Call) (final : Call → Prop) : (only c).EndsWith final := by
  rw [only_eq]
  exact fun reply => ⟨trivial, fun _ => ⟨_, rfl⟩⟩

end Program

open Program (Reaches EndsWith)

/-- A call that changes something and ends its program has been answered, and the result
is what the program makes of the reply. -/
theorem Machine.run_effects {T : Transport σ} {view : σ → ε} {final : Call → Prop}
    (effective : T.EffectiveOnReply view) (limits : Limits) (program : Program α)
    (ends : program.EndsWith final) (m : Machine (Observed σ ε)) :
    ∃ effects,
      (run (T.observing view) limits program m).2.server.effects = m.server.effects ++ effects ∧
      Chronicle (view m.server.server) effects
        (view (run (T.observing view) limits program m).2.server.server) ∧
      ∀ e ∈ effects, final e.call → e.after ≠ e.before →
        ∃ history reply result, e.reply = some reply ∧
          program.Reaches (history ++ [⟨e.call, reply⟩]) (.done result) ∧
          (run (T.observing view) limits program m).1 = .landed result := by
  induction program generalizing m with
  | done result => exact ⟨[], by simp [run], .nil _, by simp⟩
  | gather => exact ends.elim
  | call c next ih =>
    obtain ⟨effects, kept, chronicle, upshot⟩ := perform_effects effective limits c m
    rw [run]
    generalize perform (T.observing view) limits c m = performed at kept chronicle upshot
    obtain ⟨outcome, after⟩ := performed
    cases upshot with
    | answered reply first last =>
      obtain ⟨rest, final⟩ := ends reply
      obtain ⟨more, kept', chronicle', decided⟩ := ih reply rest after
      refine ⟨_ ++ more, ?_, chronicle.append chronicle', ?_⟩
      · rw [kept', kept, List.append_assoc]
      · intro e member weighty changed
        rcases List.mem_append.mp member with here | later
        · obtain rfl := List.mem_singleton.mp here
          obtain ⟨result, finished⟩ := final weighty
          refine ⟨[], reply, result, rfl, .next ?_, by simp [finished, run]⟩
          rw [finished]
          exact .here _
        · obtain ⟨history, reply', result, replied, reached, landed⟩ :=
            decided e later weighty changed
          exact ⟨⟨c, reply⟩ :: history, reply', result, replied, .next reached, landed⟩
    -- In all other cases nothing has changed.
    | unanswered same => exact ⟨_, kept, chronicle, by simp⟩
    | dropped stop => exact ⟨_, kept, chronicle, by simp⟩
    | abandoned stop same => exact ⟨_, kept, chronicle, by simp⟩

def Machine.unobserved (ε : Type) (m : Machine σ) : Machine (Observed σ ε) :=
  ⟨⟨m.server, []⟩, m.clock, m.flights, m.cancelAt⟩

@[simp]
theorem Machine.map_unobserved (ε : Type) (m : Machine σ) :
    (m.unobserved ε).map Observed.server = m := rfl

namespace Client

/-- What the calls of an operation do to a view of the server, in their order. -/
def effects (client : Client) (T : Transport σ) (view : σ → ε) (operation : Operation α)
    (m : Machine σ) : List (Effect ε) :=
  (client.perform (T.observing view) operation (m.unobserved ε)).2.server.effects

variable {client : Client} {T : Transport σ} {operation : Operation α} {m : Machine σ}
  {final : Call → Prop}

theorem effects_decide {view : σ → ε} (effective : T.EffectiveOnReply view)
    (ends : operation.program.EndsWith final) :
    Chronicle (view m.server) (client.effects T view operation m)
      (view (client.perform T operation m).2.server) ∧
    ∀ e ∈ client.effects T view operation m, final e.call → e.after ≠ e.before →
      ∃ history reply result, e.reply = some reply ∧
        operation.program.Reaches (history ++ [⟨e.call, reply⟩]) (.done result) ∧
        (client.perform T operation m).1 = some result := by
  have same := perform_map (T.observing_covers view) client operation (m.unobserved ε)
  rw [Machine.map_unobserved] at same
  rw [same, effects]
  cases fired : (client.limits m).hasFired m.clock with
  | true =>
    rw [perform_of_fired (m := m.unobserved ε) fired]
    exact ⟨.nil _, by simp [Machine.unobserved]⟩
  | false =>
    rw [perform_of_unfired (m := m.unobserved ε) fired]
    obtain ⟨effects, kept, chronicle, decided⟩ :=
      Machine.run_effects effective (client.limits m) operation.program ends (m.unobserved ε)
    rw [show (m.unobserved ε).server.effects = [] from rfl, List.nil_append] at kept
    subst kept
    refine ⟨chronicle, fun e member weighty changed => ?_⟩
    obtain ⟨history, reply, result, replied, reached, landed⟩ := decided e member weighty changed
    refine ⟨history, reply, result, replied, reached, ?_⟩
    exact congrArg (client.outcome operation) landed

end Client

end StorageControl
