import Mathlib.Data.List.Basic
import StorageControl.Aggregation
import StorageControl.Proofs.Sorting

/-! What the join of listings makes of the ends of tasks.

A task lists one namespace and ends with its reply, or because it saw that a token had
fired. An end is clear when it brings a list or a refusal of access. The join takes up
clear ends without losing anything, and fails with the first end that is not clear.
-/

set_option autoImplicit false

namespace StorageControl

variable {α : Type}

/-! ### Outcomes -/

namespace ScopeOutcome

def items : ScopeOutcome α → List α
  | .listed items => items
  | .denied | .failed _ | .cancelled => []

def isDenied : ScopeOutcome α → Bool
  | .denied => true
  | .listed _ | .failed _ | .cancelled => false

def fault? : ScopeOutcome α → Option ApiFault
  | .listed _ | .denied => none
  | .failed fault => some fault
  | .cancelled => some (.cancelled Aggregation.operation)

theorem fault?_eq_none_iff (outcome : ScopeOutcome α) :
    outcome.fault? = none ↔ outcome.isFinal = false := by
  cases outcome <;> simp [fault?, isFinal]

end ScopeOutcome

namespace Aggregation

theorem absorb_of_clear (merged : Aggregation α) (arrival : Arrival α)
    (clear : arrival.outcome.isFinal = false) :
    merged.absorb arrival = .ok ⟨merged.items ++ arrival.outcome.items,
      merged.denied ++ ([arrival].filter (·.outcome.isDenied)).map Arrival.scope⟩ := by
  obtain ⟨scope, outcome⟩ := arrival
  cases outcome with
  | listed items => simp [absorb, ScopeOutcome.items, ScopeOutcome.isDenied]
  | denied => simp [absorb, ScopeOutcome.items, ScopeOutcome.isDenied]
  | failed fault => simp [ScopeOutcome.isFinal] at clear
  | cancelled => simp [ScopeOutcome.isFinal] at clear

theorem absorb_of_fault (merged : Aggregation α) (arrival : Arrival α) {fault : ApiFault}
    (final : arrival.outcome.fault? = some fault) : merged.absorb arrival = .error fault := by
  obtain ⟨scope, outcome⟩ := arrival
  cases outcome with
  | listed items => cases final
  | denied => cases final
  | failed other => cases final; rfl
  | cancelled => cases final; rfl

theorem clear_of_absorb {merged next : Aggregation α} {arrival : Arrival α}
    (taken : merged.absorb arrival = .ok next) : arrival.outcome.isFinal = false := by
  cases final : arrival.outcome.fault? with
  | none => exact (ScopeOutcome.fault?_eq_none_iff _).mp final
  | some fault => rw [absorb_of_fault _ _ final] at taken; cases taken

/-- The join goes on exactly when nothing ends it, and loses nothing of what it takes up. -/
theorem merge_of_clear (merged : Aggregation α) (arrivals : List (Arrival α))
    (clear : ∀ arrival ∈ arrivals, arrival.outcome.isFinal = false) :
    merged.merge arrivals = .ok ⟨merged.items ++ arrivals.flatMap (·.outcome.items),
      merged.denied ++ (arrivals.filter (·.outcome.isDenied)).map Arrival.scope⟩ := by
  induction arrivals generalizing merged with
  | nil => simp [merge]
  | cons first rest ih =>
    obtain ⟨firstClear, restClear⟩ := List.forall_mem_cons.mp clear
    rw [merge, absorb_of_clear merged first firstClear]
    simp only
    rw [ih _ restClear]
    simp only [List.append_assoc, List.flatMap_cons, ← List.map_append, ← List.filter_append,
      List.singleton_append]

theorem merge_of_fault (merged : Aggregation α) (before : List (Arrival α)) (arrival : Arrival α)
    (after : List (Arrival α)) {fault : ApiFault}
    (clear : ∀ arrival ∈ before, arrival.outcome.isFinal = false)
    (final : arrival.outcome.fault? = some fault) :
    merged.merge (before ++ arrival :: after) = .error fault := by
  induction before generalizing merged with
  | nil => simp [merge, absorb_of_fault merged arrival final]
  | cons first rest ih =>
    obtain ⟨firstClear, restClear⟩ := List.forall_mem_cons.mp clear
    rw [List.cons_append, merge, absorb_of_clear merged first firstClear]
    exact ih _ restClear

theorem merge_append (merged : Aggregation α) (arrivals later : List (Arrival α))
    {joined : Aggregation α} (before : merged.merge arrivals = .ok joined) :
    merged.merge (arrivals ++ later) = joined.merge later := by
  induction arrivals generalizing merged with
  | nil => cases before; rfl
  | cons first rest ih =>
    rw [merge] at before
    rw [List.cons_append, merge]
    cases step : merged.absorb first with
    | ok next => rw [step] at before; exact ih next before
    | error fault => rw [step] at before; cases before

theorem merge_concat (merged : Aggregation α) (arrivals : List (Arrival α)) (last : Arrival α)
    {joined : Aggregation α} (before : merged.merge arrivals = .ok joined) :
    merged.merge (arrivals ++ [last]) = joined.absorb last := by
  rw [merge_append _ _ _ before, merge]
  cases joined.absorb last <;> rfl

theorem clear_of_merge {merged joined : Aggregation α} {arrivals : List (Arrival α)}
    (taken : merged.merge arrivals = .ok joined) :
    ∀ arrival ∈ arrivals, arrival.outcome.isFinal = false := by
  induction arrivals generalizing merged with
  | nil => simp
  | cons first rest ih =>
    rw [merge] at taken
    cases step : merged.absorb first with
    | ok next =>
      rw [step] at taken
      exact List.forall_mem_cons.mpr ⟨clear_of_absorb step, ih taken⟩
    | error fault => rw [step] at taken; cases taken

end Aggregation

/-! ### Tasks -/

/-- The listing of one namespace, and the reply that its call brings. -/
structure Task (α : Type) where
  scope : NamespaceId
  reply : Except TransportFault (List α)

namespace Task

def isRefused (task : Task α) : Bool :=
  match task.reply with
  | .error (.response 403 _) => true
  | _ => false

/-- The list that the server gives, if it gives one. -/
def items? (task : Task α) : Option (List α) :=
  match task.reply with
  | .ok items => some items
  | .error _ => none

def items (task : Task α) : List α := task.items?.getD []

end Task

/-- The end of a task: with its reply, or at the sight of a token that has fired. -/
structure TaskEnd (α : Type) where
  task : Task α
  sawToken : Bool

namespace TaskEnd

def arrival (ending : TaskEnd α) : Arrival α :=
  ⟨ending.task.scope, if ending.sawToken then .cancelled else .ofReply ending.task.reply⟩

/-- Whether a task has listed its namespace or has been refused. -/
def isClear (ending : TaskEnd α) : Bool :=
  !ending.sawToken && (ending.task.items?.isSome || ending.task.isRefused)

end TaskEnd

theorem TransportFault.sort_ne_cancelled (fault : TransportFault) (operation : String) :
    fault.sort ≠ .cancelled operation := by
  obtain ⟨_, _, _, -, -, sorted⟩ | ⟨-, sorted⟩ := fault.sort_cases
  · rw [sorted]
    nofun
  · rw [sorted]
    nofun

/-- A reply is a list, a refusal or any other failure, which is sorted by its status. -/
theorem ScopeOutcome.ofReply_cases (task : Task α) :
    (∃ items, task.reply = .ok items ∧ ofReply task.reply = .listed items) ∨
    (task.isRefused ∧ task.items? = none ∧ ofReply task.reply = .denied) ∨
    (∃ fault, task.reply = .error fault ∧ task.isRefused = false ∧
      ofReply task.reply = .failed fault.sort) := by
  obtain ⟨scope, reply⟩ := task
  cases reply with
  | ok items => exact .inl ⟨items, rfl, rfl⟩
  | error fault =>
    refine .inr ?_
    by_cases refused : ∃ payload, fault = .response 403 payload
    · obtain ⟨payload, rfl⟩ := refused
      exact .inl ⟨rfl, rfl, rfl⟩
    · refine .inr ⟨fault, rfl, ?_, ?_⟩
      · simp only [Task.isRefused]
        split
        next same => cases same; exact absurd ⟨_, rfl⟩ refused
        next => rfl
      · simp only [ofReply]
        split
        next details sorted =>
          obtain ⟨payload, same, _⟩ := TransportFault.sort_eq_refused_iff.mp sorted
          exact absurd ⟨payload, same⟩ refused
        next => rfl

namespace TaskEnd

theorem isClear_iff (ending : TaskEnd α) :
    ending.isClear = true ↔ ending.sawToken = false ∧
      (ending.task.isRefused = true ∨ ∃ items, ending.task.reply = .ok items) := by
  obtain ⟨⟨scope, reply⟩, sawToken⟩ := ending
  cases reply with
  | ok items => simp [isClear, Task.items?]
  | error fault => simp [isClear, Task.items?]

theorem isFinal_outcome (ending : TaskEnd α) :
    ending.arrival.outcome.isFinal = !ending.isClear := by
  obtain ⟨⟨scope, reply⟩, sawToken⟩ := ending
  cases sawToken with
  | true => rfl
  | false =>
    simp only [arrival, isClear]
    rcases ScopeOutcome.ofReply_cases ⟨scope, reply⟩ with
      ⟨items, rfl, listed⟩ | ⟨refused, _, denied⟩ | ⟨fault, rfl, unrefused, failed⟩
    · rfl
    · simp [denied, refused, ScopeOutcome.isFinal]
    · simp [failed, unrefused, ScopeOutcome.isFinal, Task.items?]

theorem outcome_of_clear (ending : TaskEnd α) (clear : ending.isClear = true) :
    ending.arrival.outcome.items = ending.task.items ∧
      ending.arrival.outcome.isDenied = ending.task.isRefused := by
  obtain ⟨⟨scope, reply⟩, sawToken⟩ := ending
  cases sawToken with
  | true => cases clear
  | false =>
    simp only [arrival]
    rcases ScopeOutcome.ofReply_cases ⟨scope, reply⟩ with
      ⟨items, rfl, listed⟩ | ⟨refused, none, denied⟩ | ⟨fault, rfl, unrefused, failed⟩
    · exact ⟨rfl, rfl⟩
    · simp [denied, refused, none, ScopeOutcome.items, ScopeOutcome.isDenied, Task.items]
    · simp [isClear, unrefused, Task.items?] at clear

/-- Any other end is the sight of a token, or a failure that its status does not excuse. -/
theorem fault_of_unclear (ending : TaskEnd α) (unclear : ending.isClear = false) :
    (ending.sawToken = true ∧
      ending.arrival.outcome.fault? = some (.cancelled Aggregation.operation)) ∨
    (ending.sawToken = false ∧ ∃ fault, ending.task.reply = .error fault ∧
      ending.arrival.outcome.fault? = some fault.sort) := by
  obtain ⟨⟨scope, reply⟩, sawToken⟩ := ending
  cases sawToken with
  | true => exact .inl ⟨rfl, rfl⟩
  | false =>
    refine .inr ⟨rfl, ?_⟩
    simp only [arrival]
    rcases ScopeOutcome.ofReply_cases ⟨scope, reply⟩ with
      ⟨items, rfl, listed⟩ | ⟨refused, none, denied⟩ | ⟨fault, rfl, unrefused, failed⟩
    · cases unclear
    · simp [isClear, refused] at unclear
    · exact ⟨fault, rfl, by simp [failed, ScopeOutcome.fault?]⟩

end TaskEnd

namespace Aggregation

/-- What tasks bring together: their lists, in order, and the namespaces that refused. -/
def harvest (tasks : List (Task α)) : Aggregation α :=
  ⟨tasks.flatMap Task.items, (tasks.filter Task.isRefused).map Task.scope⟩

theorem merge_of_clear_endings (endings : List (TaskEnd α))
    (clear : ∀ ending ∈ endings, ending.isClear = true) :
    Aggregation.empty.merge (endings.map TaskEnd.arrival) =
      .ok (harvest (endings.map TaskEnd.task)) := by
  have passes : ∀ arrival ∈ endings.map TaskEnd.arrival, arrival.outcome.isFinal = false := by
    intro arrival arrived
    obtain ⟨ending, member, rfl⟩ := List.mem_map.mp arrived
    rw [ending.isFinal_outcome, clear ending member]
    rfl
  rw [merge_of_clear empty _ passes]
  simp only [empty, harvest, List.nil_append, List.flatMap_map, List.filter_map, List.map_map]
  congr 2
  · exact List.flatMap_congr fun ending member => (ending.outcome_of_clear (clear ending member)).1
  · rw [List.filter_congr fun ending member => (ending.outcome_of_clear (clear ending member)).2]
    rfl

/-- The first of some ends that is neither a list nor a refusal. -/
def firstUnclear? (endings : List (TaskEnd α)) : Option (TaskEnd α) :=
  endings.find? fun ending => !ending.isClear

theorem firstUnclear?_eq_none_iff (endings : List (TaskEnd α)) :
    firstUnclear? endings = none ↔ ∀ ending ∈ endings, ending.isClear = true := by
  simp [firstUnclear?]

theorem firstUnclear?_append {endings : List (TaskEnd α)} {first : TaskEnd α}
    (found : firstUnclear? endings = some first) (later : List (TaskEnd α)) :
    firstUnclear? (endings ++ later) = some first := by
  rw [firstUnclear?, List.find?_append]
  exact congrArg (Option.or · _) found

theorem merge_of_unclear {endings : List (TaskEnd α)} {first : TaskEnd α} {fault : ApiFault}
    (found : firstUnclear? endings = some first)
    (final : first.arrival.outcome.fault? = some fault) :
    Aggregation.empty.merge (endings.map TaskEnd.arrival) = .error fault := by
  obtain ⟨-, before, after, rfl, clear⟩ := List.find?_eq_some_iff_append.mp found
  rw [List.map_append, List.map_cons]
  refine merge_of_fault empty _ first.arrival _ ?_ final
  intro arrival arrived
  obtain ⟨ending, member, rfl⟩ := List.mem_map.mp arrived
  rw [ending.isFinal_outcome]
  simpa using clear ending member

/-- The join closes with a failure only when every task was refused and that is to fail. -/
theorem close_harvest (policy : ScopePolicy) (tasks : List (Task α)) :
    (harvest tasks).close policy tasks.length =
      if (∀ task ∈ tasks, task.isRefused = true) ∧ policy = .fail then
        .error (allDenied tasks.length)
      else .ok (harvest tasks) := by
  simp only [close, harvest, List.length_map, List.length_filter_eq_length_iff]

end Aggregation

end StorageControl
