import StorageControl.Command.Report

/-! What a failed command says, and its exit code.

A failure is a reason inside the activities that it made fail. What is said of it follows
the errors it is made of, from the outermost to the last: each has a text and may have
another error behind it. An error that only passes on another one shows that one's text and
what is behind that one, and so takes no place of its own. The exit code is that of the
reason, whatever is around it.
-/

set_option autoImplicit false

namespace StorageControl

/-! ### Errors behind one another -/

/-- An error that a failure is made of. -/
inductive Cause where
  | activity (text : String) (inner : Cause)
  | api (fault : ApiFault)
  | config (fault : ConfigFault)
  | transport (fault : TransportFault)
  | label (flaw : Labels.Flaw)
  | other (message : String)

namespace Cause

/-- The error that shows: one that is only passed on shows through the other. -/
def shown : Cause → Cause
  | api (.transport fault) => transport fault
  | config (.labels flaw) => label flaw
  | cause => cause

def text (cause : Cause) : String :=
  match cause.shown with
  | activity text _ => text
  | api fault => fault.message
  | config fault => fault.message
  | transport fault => fault.message
  | label flaw => flaw.message
  | other message => message

def source? (cause : Cause) : Option Cause :=
  match cause.shown with
  | activity _ inner => some inner
  | _ => none

theorem source?_eq_some_iff {cause inner : Cause} :
    cause.source? = some inner ↔ ∃ text, cause = activity text inner := by
  cases cause with
  | activity text other => simp [source?, shown]
  | api fault => cases fault <;> simp [source?, shown]
  | config fault => cases fault <;> simp [source?, shown]
  | transport fault | label flaw | other message => simp [source?, shown]

/-- The texts of an error and of all that are behind it. -/
def told (cause : Cause) : List String :=
  cause.text :: match _behind : cause.source? with
    | some inner => inner.told
    | none => []
termination_by cause
decreasing_by
  -- Only an activity has an error behind it, and that one is a part of it.
  obtain ⟨text, rfl⟩ := source?_eq_some_iff.mp _behind
  simp only [activity.sizeOf_spec]
  omega

theorem told_activity (text : String) (inner : Cause) :
    (activity text inner).told = text :: inner.told := by
  rw [told]
  rfl

theorem told_of_last {cause : Cause} (last : cause.source? = none) : cause.told = [cause.text] := by
  rw [told]
  split
  next inner behind => rw [last] at behind; cases behind
  next => rfl

end Cause

def Reason.cause : Reason → Cause
  | .api fault => .api fault
  | .config fault => .config fault
  | .transport fault => .transport fault
  | .other message => .other message

def Failure.cause : Failure → Cause
  | of reason => reason.cause
  | within activity inner => .activity activity inner.cause

/-- A reason says one text, also when it passes on another error. -/
theorem Reason.told_cause (reason : Reason) : reason.cause.told = [reason.message] := by
  cases reason with
  | api fault => cases fault <;> exact Cause.told_of_last rfl
  | config fault => cases fault <;> exact Cause.told_of_last rfl
  | transport fault => exact Cause.told_of_last rfl
  | other message => exact Cause.told_of_last rfl

theorem Failure.told_cause (failure : Failure) : failure.cause.told = failure.chain := by
  induction failure with
  | of reason => exact reason.told_cause
  | within activity inner ih => rw [cause, Cause.told_activity, ih, chain]

/-! ### Reasons inside activities -/

/-- The failure of activities, the outermost first, for one reason. -/
def Reason.within (activities : List String) (reason : Reason) : Failure :=
  activities.foldr .within (.of reason)

theorem Failure.exists_within (failure : Failure) :
    ∃ activities reason, failure = Reason.within activities reason := by
  induction failure with
  | of reason => exact ⟨[], reason, rfl⟩
  | within activity inner ih =>
    obtain ⟨activities, reason, rfl⟩ := ih
    exact ⟨activity :: activities, reason, rfl⟩

theorem Failure.chain_within (activities : List String) (reason : Reason) :
    (reason.within activities).chain = activities ++ [reason.message] := by
  induction activities with
  | nil => rfl
  | cons activity activities ih => exact congrArg (activity :: ·) ih

/-! ### Exits -/

namespace Exit

theorem ofKind_bounds (kind : FaultKind) : 0 < ofKind kind ∧ ofKind kind < 256 := by
  cases kind with
  | refused refusal => cases refusal <;> decide
  | _ => decide

def ofReason : Reason → Nat
  | .api fault => ofKind fault.kind
  | .config _ => 2
  | .transport _ | .other _ => 1

theorem ofReason_bounds (reason : Reason) : 0 < ofReason reason ∧ ofReason reason < 256 := by
  cases reason with
  | api fault => exact ofKind_bounds fault.kind
  | config _ | transport _ | other _ => simp [ofReason]

theorem ofFailure_within (activities : List String) (reason : Reason) :
    ofFailure (reason.within activities) = ofReason reason := by
  induction activities with
  | nil => cases reason <;> rfl
  | cons activity activities ih => exact ih

theorem ofFailure_bounds (failure : Failure) : 0 < ofFailure failure ∧ ofFailure failure < 256 := by
  obtain ⟨activities, reason, rfl⟩ := failure.exists_within
  rw [ofFailure_within]
  exact ofReason_bounds reason

end Exit

/-- Every failure is a reason inside activities. Whatever these are, its exit code is that of
the reason, a byte other than zero, and its line tells each activity, from the outermost on,
and the reason behind them once: these are the texts of the errors it is made of. -/
theorem Failure.seen_through :
    (∀ failure : Failure, ∃ activities reason, failure = Reason.within activities reason) ∧
    ∀ activities reason,
      let failure := Reason.within activities reason
      Exit.ofFailure failure = Exit.ofReason reason ∧
      0 < Exit.ofFailure failure ∧ Exit.ofFailure failure < 256 ∧
      failure.cause.told = activities ++ [reason.message] ∧
      failure.line = "error: " ++ ": ".intercalate (activities ++ [reason.message]) ∧
      Report.ofResult (.error failure) = ⟨Exit.ofReason reason, some failure.line, ""⟩ := by
  refine ⟨exists_within, ?_⟩
  intro activities reason failure
  have code : Exit.ofFailure failure = Exit.ofReason reason :=
    Exit.ofFailure_within activities reason
  have chain : failure.chain = activities ++ [reason.message] := chain_within activities reason
  obtain ⟨fails, fits⟩ := Exit.ofFailure_bounds failure
  refine ⟨code, fails, fits, ?_, ?_, ?_⟩
  · rw [told_cause, chain]
  · rw [line, chain]
  · rw [Report.ofResult, code]

end StorageControl
