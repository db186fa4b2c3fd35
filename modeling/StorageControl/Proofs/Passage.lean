import StorageControl.Proofs.Conversation

/-! The passage of time.

Whatever a machine does, its clock never goes back, and nothing that it does sets the
moment of a token.
-/

set_option autoImplicit false

namespace StorageControl

variable {σ α : Type}

namespace Machine

/-- One machine comes after another: it is not earlier, and has the same token set. -/
structure Precedes (m after : Machine σ) : Prop where
  clock : m.clock ≤ after.clock
  cancelAt : after.cancelAt = m.cancelAt

theorem Precedes.refl (m : Machine σ) : m.Precedes m := ⟨Nat.le_refl _, rfl⟩

theorem Precedes.trans {m middle after : Machine σ} (earlier : m.Precedes middle)
    (later : middle.Precedes after) : m.Precedes after :=
  ⟨Nat.le_trans earlier.clock later.clock, later.cancelAt.trans earlier.cancelAt⟩

theorem isCancelled_iff (m : Machine σ) :
    m.isCancelled = true ↔ ∃ moment, m.cancelAt = some moment ∧ moment ≤ m.clock := by
  simp only [isCancelled, Limits.hasFired]
  cases m.cancelAt <;> simp

theorem reach_precedes (m : Machine σ) (moment : Nat) : m.Precedes (m.reach moment) :=
  ⟨Nat.le_max_left _ _, rfl⟩

theorem drop_precedes (m : Machine σ) (flight : Flight) : m.Precedes (m.drop flight) :=
  ⟨Nat.le_refl _, rfl⟩

theorem dropAll_precedes (m : Machine σ) (agenda : List Listing) :
    m.Precedes (m.dropAll agenda) := by
  induction agenda generalizing m with
  | nil => exact .refl m
  | cons l rest ih => exact (m.drop_precedes l.flight).trans (ih _)

theorem waitOn_precedes (limits : Limits) (m : Machine σ) :
    m.Precedes (waitOn limits m : Landing α × Machine σ).2 := by
  rw [waitOn]
  split
  · exact m.reach_precedes _
  · exact .refl m

theorem launch_precedes (T : Transport σ) (c : Call) (m : Machine σ) :
    m.Precedes (launch T c m).2 := ⟨Nat.le_refl _, rfl⟩

theorem touchDown_precedes (T : Transport σ) (c : Call) (due : Nat) (m : Machine σ) :
    m.Precedes (touchDown T c due m).2 := ⟨Nat.le_max_left _ _, rfl⟩

theorem perform_precedes (T : Transport σ) (limits : Limits) (c : Call) (m : Machine σ) :
    m.Precedes (perform T limits c m).2 := by
  have launched := (launch_precedes T c m).trans (drop_precedes _ (launch T c m).1)
  simp only [perform]
  cases limits.stop? (some (launch T c m).1.due) with
  | some stop => exact launched.trans (reach_precedes _ _)
  | none =>
    have landed := launched.trans (touchDown_precedes T c (launch T c m).1.due _)
    generalize touchDown T c _ _ = touched at landed
    obtain ⟨reply, after⟩ := touched
    cases reply with
    | some reply => exact landed
    | none => exact landed.trans (waitOn_precedes limits after)

theorem launchAll_precedes (T : Transport σ) (scopes : List NamespaceId) (agenda : List Listing)
    (m : Machine σ) : m.Precedes (launchAll T scopes agenda m).2 := by
  induction scopes generalizing agenda m with
  | nil => exact .refl m
  | cons scope rest ih => exact (launch_precedes T (.listVolumes scope) m).trans (ih _ _)

theorem landAll_precedes (T : Transport σ) (limits : Limits) (ended : Option Nat)
    (agenda : List Listing) (m : Machine σ) : m.Precedes (landAll T limits ended agenda m).2 := by
  induction agenda generalizing ended m with
  | nil => exact .refl m
  | cons l rest ih =>
    rw [landAll]
    split
    · exact m.dropAll_precedes _
    · split
      · exact (m.dropAll_precedes _).trans (reach_precedes _ _)
      · have landed := (m.drop_precedes l.flight).trans
          (touchDown_precedes T (.listVolumes l.scope) l.due _)
        generalize touchDown T (.listVolumes l.scope) l.due _ = touched at landed
        obtain ⟨reply, after⟩ := touched
        cases reply with
        | none => exact landed.trans (ih ended after)
        | some reply => exact landed.trans (ih _ after)

theorem gather_precedes (T : Transport σ) (limits : Limits) (scopes : List NamespaceId)
    (m : Machine σ) : m.Precedes (gather T limits scopes m).2 := by
  rw [gather]
  split
  · exact .refl m
  · exact (launchAll_precedes T scopes [] m).trans (landAll_precedes T limits none _ _)

theorem join_precedes (limits : Limits) (policy : ScopePolicy) (scopes : List NamespaceId)
    (g : Gathered) (m : Machine σ) : m.Precedes (join limits policy scopes g m).2 := by
  rw [join]
  split
  · exact .refl m
  · split
    · exact .refl m
    · exact waitOn_precedes limits m

/-! ### Programs -/

/-- What follows the wait for a call or a joint listing. -/
def goOn {β : Type} (T : Transport σ) (limits : Limits) (next : β → Program α) :
    Landing β × Machine σ → Landing (Except ApiFault α) × Machine σ
  | (.landed b, m) => run T limits (next b) m
  | (.stopped stop, m) => (.stopped stop, m)
  | (.waiting, m) => (.waiting, m)

theorem run_call (T : Transport σ) (limits : Limits) {c : Call} (next : c.Reply → Program α)
    (m : Machine σ) :
    run T limits (.call c next) m = goOn T limits next (perform T limits c m) := by
  rw [run]
  rcases perform T limits c m with ⟨reply | stop | _, after⟩ <;> rfl

theorem run_gather (T : Transport σ) (limits : Limits) (policy : ScopePolicy)
    (scopes : List NamespaceId) (next : Except ApiFault (Aggregation Volume) → Program α)
    (m : Machine σ) :
    run T limits (.gather policy scopes next) m =
      goOn T limits next (join limits policy scopes (gather T limits scopes m).1
        (gather T limits scopes m).2) := by
  simp only [run]
  rcases join limits policy scopes _ _ with ⟨result | stop | _, after⟩ <;> rfl

/-- What every call and every joint listing does to a machine, a run does to it. -/
theorem run_related {T : Transport σ} {limits : Limits} (related : Machine σ → Machine σ → Prop)
    (refl : ∀ m, related m m)
    (trans : ∀ m middle after, related m middle → related middle after → related m after)
    (performs : ∀ c m, related m (perform T limits c m).2)
    (gathers : ∀ scopes m, related m (gather T limits scopes m).2)
    (joins : ∀ policy scopes g m, related m (join limits policy scopes g m).2)
    (program : Program α) (m : Machine σ) : related m (run T limits program m).2 := by
  have goesOn {β : Type} {next : β → Program α}
      (rest : ∀ b m, related m (run T limits (next b) m).2) (ended : Landing β × Machine σ) :
      related ended.2 (goOn T limits next ended).2 := by
    rcases ended with ⟨b | stop | _, after⟩
    · exact rest b after
    · exact refl after
    · exact refl after
  induction program generalizing m with
  | done result => exact refl m
  | call c next ih =>
    rw [run_call]
    exact trans _ _ _ (performs c m) (goesOn ih _)
  | gather policy scopes next ih =>
    rw [run_gather]
    exact trans _ _ _ (trans _ _ _ (gathers scopes m) (joins policy scopes _ _)) (goesOn ih _)

theorem run_precedes (T : Transport σ) (limits : Limits) (program : Program α) (m : Machine σ) :
    m.Precedes (run T limits program m).2 :=
  run_related Precedes Precedes.refl (fun _ _ _ => Precedes.trans) (perform_precedes T limits)
    (gather_precedes T limits) (join_precedes limits) program m

theorem advance_precedes (T : Transport σ) (milliseconds : Nat) (m : Machine σ) :
    m.Precedes (m.advance T milliseconds) := ⟨Nat.le_add_right _ _, rfl⟩

end Machine

theorem Client.perform_precedes (client : Client) (T : Transport σ) (operation : Operation α)
    (m : Machine σ) : m.Precedes (client.perform T operation m).2 := by
  cases fired : (client.limits m).hasFired m.clock with
  | true =>
    rw [perform, if_pos fired]
    exact .refl m
  | false =>
    rw [perform_of_unfired fired]
    exact Machine.run_precedes T _ operation.program m

end StorageControl
