import StorageControl.Command.Procedure
import StorageControl.Proofs.Transcript

/-! What a transport sees of a procedure, and what holds of every way it can go.

A procedure performs operations one after the other, each with a deadline of its own, so
that it always comes to an end. What holds of all its transcripts is found step by step:
an operation that failed ends the procedure, and one that succeeded is followed by what
the procedure makes of its result.
-/

set_option autoImplicit false

namespace StorageControl

variable {σ τ α β : Type}

/-! ### What every call keeps -/

namespace Machine

variable {T : Transport σ} {holds : σ → Prop}

theorem run_keeps (keeps : Keeps T (fun _ => True) holds) (limits : Limits)
    (program : Program α) (m : Machine σ) (held : holds m.server) :
    holds (run T limits program m).2.server := by
  induction program generalizing m with
  | done result => exact held
  | call c next ih =>
    have kept := perform_keeps keeps limits (c := c) trivial m held
    rw [run]
    generalize perform T limits c m = performed at kept
    rcases performed with ⟨reply | stop | _, after⟩
    · exact ih reply after kept
    · exact kept
    · exact kept
  | gather policy scopes next ih =>
    obtain ⟨_, _, _, _, kept⟩ :=
      gather_arrivals keeps limits scopes (fun _ _ => trivial) m held
    rw [run]
    generalize gather T limits scopes m = gathering at kept
    obtain ⟨g, after⟩ := gathering
    simp only at kept ⊢
    rw [← (join_joins limits policy scopes g after).2] at kept
    generalize join limits policy scopes g after = joined at kept
    rcases joined with ⟨result | stop | _, late⟩
    · exact ih result late kept
    · exact kept
    · exact kept

/-! ### Deadlines -/

theorem waitOn_timed {limits : Limits} (timed : limits.deadline.isSome = true) (m : Machine σ) :
    (waitOn limits m : Landing α × Machine σ).1 ≠ .waiting := by
  obtain ⟨deadline, set⟩ := Option.isSome_iff_exists.mp timed
  -- A deadline is before a moment that never comes.
  have stops : ∃ stop, limits.stop? none = some stop := by
    rw [Limits.stop?, set]
    cases limits.cancelAt with
    | none => exact ⟨_, rfl⟩
    | some c =>
      simp only [Option.filter, Limits.isBy, Limits.isBefore, if_true]
      split <;> exact ⟨_, rfl⟩
  obtain ⟨stop, stops⟩ := stops
  rw [waitOn, stops]
  simp

theorem perform_timed {limits : Limits} (timed : limits.deadline.isSome = true)
    (T : Transport σ) (c : Call) (m : Machine σ) : (perform T limits c m).1 ≠ .waiting := by
  simp only [perform]
  cases limits.stop? (some (launch T c m).1.due) with
  | some stop => simp
  | none =>
    generalize touchDown T c _ _ = touched
    obtain ⟨reply, after⟩ := touched
    cases reply with
    | some reply => simp
    | none => exact waitOn_timed timed after

theorem join_timed {limits : Limits} (timed : limits.deadline.isSome = true)
    (policy : ScopePolicy) (scopes : List NamespaceId) (g : Gathered) (m : Machine σ) :
    (join limits policy scopes g m).1 ≠ .waiting := by
  rw [join]
  split
  · simp
  · split
    · simp
    · exact waitOn_timed timed m

theorem run_timed {limits : Limits} (timed : limits.deadline.isSome = true) (T : Transport σ)
    (program : Program α) (m : Machine σ) : (run T limits program m).1 ≠ .waiting := by
  induction program generalizing m with
  | done result => simp [run]
  | call c next ih =>
    have ends := perform_timed timed T c m
    rw [run]
    generalize perform T limits c m = performed at ends
    rcases performed with ⟨reply | stop | _, after⟩
    · exact ih reply after
    · simp
    · exact absurd rfl ends
  | gather policy scopes next ih =>
    rw [run]
    generalize gather T limits scopes m = gathering
    obtain ⟨g, after⟩ := gathering
    have ends := join_timed timed policy scopes g after
    simp only
    generalize join limits policy scopes g after = joined at ends
    rcases joined with ⟨result | stop | _, late⟩
    · exact ih result late
    · simp
    · exact absurd rfl ends

end Machine

namespace Client

theorem perform_keeps {T : Transport σ} {holds : σ → Prop}
    (keeps : Machine.Keeps T (fun _ => True) holds) (client : Client) (operation : Operation α)
    (m : Machine σ) (held : holds m.server) :
    holds (client.perform T operation m).2.server := by
  by_cases fired : (client.limits m).hasFired m.clock = true
  · rw [perform, if_pos fired]
    exact held
  · rw [perform_of_unfired (Bool.not_eq_true _ ▸ fired)]
    exact Machine.run_keeps keeps _ operation.program m held

theorem perform_timed {client : Client} (timed : client.timeout.isSome = true)
    (T : Transport σ) (operation : Operation α) (m : Machine σ) :
    (client.perform T operation m).1 ≠ none := by
  by_cases fired : (client.limits m).hasFired m.clock = true
  · rw [perform, if_pos fired]
    simp
  · have deadline : (client.limits m).deadline.isSome = true := by simpa [limits] using timed
    have ends := Machine.run_timed deadline T operation.program m
    rw [perform_of_unfired (Bool.not_eq_true _ ▸ fired), Prod.map_fst]
    generalize (m.run T (client.limits m) operation.program).1 = ending at ends
    cases ending with
    | landed result => simp [outcome]
    | stopped stop => simp [outcome]
    | waiting => exact absurd rfl ends

end Client

/-! ### Procedures -/

namespace Procedure

/-- What a transport sees of a procedure up to its result, if it comes to one. -/
inductive Transcript (client : Client) :
    Procedure α → List Sighting → Option (Except Failure α) → Prop where
  | done (result : Except Failure α) : Transcript client (.done result) [] (some result)
  | performed {β : Type} {operation : Operation β} {next : Except ApiFault β → Procedure α}
      {first rest : List Sighting} {result : Except ApiFault β}
      {final : Option (Except Failure α)} (step : operation.Transcript client first (some result))
      (later : Transcript client (next result) rest final) :
      Transcript client (.perform operation next) (first ++ rest) final
  | endless {β : Type} {operation : Operation β} {next : Except ApiFault β → Procedure α}
      {seen : List Sighting} (step : operation.Transcript client seen none) :
      Transcript client (.perform operation next) seen none

theorem run_transcript (client : Client) (T : Transport σ) (procedure : Procedure α)
    (m : Machine (Noted σ)) :
    ∃ sightings,
      (procedure.run client T.noting m).2.server.seen = m.server.seen ++ sightings ∧
        procedure.Transcript client sightings (procedure.run client T.noting m).1 := by
  induction procedure generalizing m with
  | done result => exact ⟨[], by simp [run], .done result⟩
  | perform operation next ih =>
    obtain ⟨first, seen, step⟩ := client.perform_transcript T operation m
    rw [run]
    generalize client.perform T.noting operation m = performed at seen step
    obtain ⟨result, after⟩ := performed
    cases result with
    | none => exact ⟨first, seen, .endless step⟩
    | some result =>
      obtain ⟨rest, told, later⟩ := ih result after
      simp only at seen
      rw [seen, List.append_assoc] at told
      exact ⟨_, told, .performed step later⟩

theorem run_map {T : Transport τ} {part : τ → σ} {U : Transport σ} (covers : T.Covers part U)
    (client : Client) (procedure : Procedure α) (m : Machine τ) :
    procedure.run client U (m.map part) =
      Prod.map id (Machine.map part) (procedure.run client T m) := by
  induction procedure generalizing m with
  | done result => rfl
  | perform operation next ih =>
    rw [run, run, client.perform_map covers]
    generalize client.perform T operation m = performed
    obtain ⟨result, after⟩ := performed
    cases result with
    | none => rfl
    | some result => exact ih result after

theorem run_keeps {T : Transport σ} {holds : σ → Prop}
    (keeps : Machine.Keeps T (fun _ => True) holds) (client : Client) (procedure : Procedure α)
    (m : Machine σ) (held : holds m.server) :
    holds (procedure.run client T m).2.server := by
  induction procedure generalizing m with
  | done result => exact held
  | perform operation next ih =>
    have kept := client.perform_keeps keeps operation m held
    rw [run]
    generalize client.perform T operation m = performed at kept
    obtain ⟨result, after⟩ := performed
    cases result with
    | none => exact kept
    | some result => exact ih result after kept

theorem run_timed (client : Client) (timed : client.timeout.isSome = true) (T : Transport σ)
    (procedure : Procedure α) (m : Machine σ) : (procedure.run client T m).1 ≠ none := by
  induction procedure generalizing m with
  | done result => exact nofun
  | perform operation next ih =>
    have ends := client.perform_timed timed T operation m
    rw [run]
    generalize client.perform T operation m = performed at ends
    obtain ⟨result, after⟩ := performed
    cases result with
    | none => exact absurd rfl ends
    | some result => exact ih result after

/-! ### What holds of every transcript -/

/-- What holds of all that may be seen of a procedure that comes to a result. -/
def Ensures (client : Client) (procedure : Procedure α)
    (holds : List Sighting → Except Failure α → Prop) : Prop :=
  ∀ seen result, procedure.Transcript client seen (some result) → holds seen result

section Rules

variable {client : Client} {holds : List Sighting → Except Failure α → Prop}

theorem ensures_done {result : Except Failure α} (here : holds [] result) :
    (done result).Ensures client holds := by
  intro seen final transcript
  cases transcript
  exact here

theorem ensures_perform {operation : Operation β} {next : Except ApiFault β → Procedure α}
    (step : ∀ first result, operation.Transcript client first (some result) →
      (next result).Ensures client fun rest final => holds (first ++ rest) final) :
    (perform operation next).Ensures client holds := by
  intro seen final transcript
  cases transcript with
  | performed performed later => exact step _ _ performed _ _ later

variable {operation : Operation β} {next : β → Procedure α}

/-- An operation that goes on with its result, or ends the procedure with its fault. -/
theorem ensures_perform_or {failure : ApiFault → Failure}
    (failed : ∀ first fault, operation.Transcript client first (some (.error fault)) →
      ∀ failure, holds first (.error failure))
    (answered : ∀ first b, operation.Transcript client first (some (.ok b)) →
      (next b).Ensures client fun rest final => holds (first ++ rest) final) :
    (perform operation fun
      | .ok b => next b
      | .error fault => .done (.error (failure fault))).Ensures client holds := by
  refine ensures_perform fun first result step => ?_
  cases result with
  | error fault =>
    refine ensures_done ?_
    rw [List.append_nil]
    exact failed first fault step _
  | ok b => exact answered first b step

theorem ensures_ask
    (failed : ∀ first fault, operation.Transcript client first (some (.error fault)) →
      ∀ failure, holds first (.error failure))
    (answered : ∀ first b, operation.Transcript client first (some (.ok b)) →
      (next b).Ensures client fun rest final => holds (first ++ rest) final) :
    (ask operation next).Ensures client holds :=
  ensures_perform_or failed answered

theorem ensures_askWithin {activity : String}
    (failed : ∀ first fault, operation.Transcript client first (some (.error fault)) →
      ∀ failure, holds first (.error failure))
    (answered : ∀ first b, operation.Transcript client first (some (.ok b)) →
      (next b).Ensures client fun rest final => holds (first ++ rest) final) :
    (askWithin activity operation next).Ensures client holds :=
  ensures_perform_or failed answered

theorem ensures_check {argument : Except ConfigFault β}
    (failed : ∀ fault, argument = .error fault → ∀ failure, holds [] (.error failure))
    (passed : ∀ b, argument = .ok b → (next b).Ensures client holds) :
    (check argument next).Ensures client holds := by
  cases argument with
  | error fault => exact ensures_done (failed fault rfl _)
  | ok b => exact passed b rfl

end Rules

end Procedure

end StorageControl
