import StorageControl.Proofs.Aggregation

/-! The joint listing as tasks that run side by side.

One task lists each namespace. Tasks end in any order; the client's token may fire at any
moment, and the join fires a token of its own, with which it also aborts its tasks, when it
gives up. A task that can see a fired token may end because of it. The join takes up the
ends of tasks one by one, in the order in which they ended.

Every result of a run is that of joining the ends in their order. So a list is only ever
brought when each namespace is in it or noted as refused, and a failure is always that of
the first task that was neither listed nor refused.
-/

set_option autoImplicit false

namespace StorageControl

variable {α : Type}

/-- A joint listing under way. -/
structure Gathering (α : Type) where
  running : List (Task α)
  /-- The ends that the join has still to take up, in their order; none is that of a task
  that was aborted. -/
  queue : List (Option (Arrival α))
  fired : Bool
  /-- Whether the join has fired the token of its tasks and aborted them. -/
  stopped : Bool
  merged : Aggregation α
  result : Option (Except ApiFault (Aggregation α))

namespace Gathering

/-- All tasks start together; without namespaces there is nothing to wait for. -/
def start (tasks : List (Task α)) : Gathering α :=
  { running := tasks, queue := [], fired := false, stopped := false, merged := .empty
    result := if tasks.isEmpty then some (.ok .empty) else none }

inductive Event (α : Type) where
  | fire
  | finish (ending : TaskEnd α)
  | abort (task : Task α)
  | join
  | conclude

/-- What may happen next in a joint listing of so many namespaces. -/
inductive Step (policy : ScopePolicy) (total : Nat) :
    Gathering α → Event α → Gathering α → Prop where
  | fire {g : Gathering α} : Step policy total g .fire { g with fired := true }
  /-- A task ends. The sight of a token needs one that has fired, but one that has fired
  need not be seen: the reply may be there first. -/
  | finish {g : Gathering α} {before after : List (Task α)} {ending : TaskEnd α}
      (runs : g.running = before ++ ending.task :: after)
      (visible : ending.sawToken = true → g.fired = true ∨ g.stopped = true) :
      Step policy total g (.finish ending)
        { g with running := before ++ after, queue := g.queue ++ [some ending.arrival] }
  /-- A task ends because it was aborted, and brings nothing. -/
  | abort {g : Gathering α} {before after : List (Task α)} {task : Task α}
      (runs : g.running = before ++ task :: after) (aborted : g.stopped = true) :
      Step policy total g (.abort task)
        { g with running := before ++ after, queue := g.queue ++ [none] }
  | skip {g : Gathering α} {rest : List (Option (Arrival α))}
      (waiting : g.result = none) (next : g.queue = none :: rest) :
      Step policy total g .join { g with queue := rest }
  | absorb {g : Gathering α} {arrival : Arrival α} {rest : List (Option (Arrival α))}
      {merged : Aggregation α} (waiting : g.result = none) (next : g.queue = some arrival :: rest)
      (taken : g.merged.absorb arrival = .ok merged) :
      Step policy total g .join { g with queue := rest, merged }
  /-- The join gives up, and stops the tasks that are left. -/
  | giveUp {g : Gathering α} {arrival : Arrival α} {rest : List (Option (Arrival α))}
      {fault : ApiFault} (waiting : g.result = none) (next : g.queue = some arrival :: rest)
      (failed : g.merged.absorb arrival = .error fault) :
      Step policy total g .join
        { g with queue := rest, stopped := true, result := some (.error fault) }
  | conclude {g : Gathering α} (waiting : g.result = none) (idle : g.running = [])
      (empty : g.queue = []) :
      Step policy total g .conclude { g with result := some (g.merged.close policy total) }

/-- The states that the listing of some namespaces reaches, with what has happened. -/
inductive Run (policy : ScopePolicy) (tasks : List (Task α)) :
    List (Event α) → Gathering α → Prop where
  | start : Run policy tasks [] (start tasks)
  | step {trace : List (Event α)} {g next : Gathering α} {event : Event α} :
      Run policy tasks trace g → Step policy tasks.length g event next →
      Run policy tasks (trace ++ [event]) next

def Event.ending? : Event α → Option (TaskEnd α)
  | .finish ending => some ending
  | .fire | .abort _ | .join | .conclude => none

def endings (trace : List (Event α)) : List (TaskEnd α) := trace.filterMap Event.ending?

def Fired (trace : List (Event α)) : Prop := Event.fire ∈ trace

@[simp] theorem endings_concat (trace : List (Event α)) (event : Event α) :
    endings (trace ++ [event]) = endings trace ++ event.ending?.toList := by
  cases ending : event.ending? <;> simp [endings, ending]

theorem Fired.concat {trace : List (Event α)} (fired : Fired trace) (event : Event α) :
    Fired (trace ++ [event]) := List.mem_append_left _ fired

/-- The join waits: what it has taken up lets it go on, the rest is in the queue, and its
own token has not fired. -/
structure Joining (tasks : List (Task α)) (trace : List (Event α)) (g : Gathering α)
    (joined later : List (TaskEnd α)) : Prop where
  waiting : g.result = none
  nonempty : tasks ≠ []
  unstopped : g.stopped = false
  ends : endings trace = joined ++ later
  queued : g.queue = later.map fun ending => some ending.arrival
  merged : Aggregation.empty.merge (joined.map TaskEnd.arrival) = .ok g.merged
  spread : ((joined ++ later).map TaskEnd.task ++ g.running).Perm tasks
  seen : ∀ ending ∈ joined ++ later, ending.sawToken = true → Fired trace
  fired : g.fired = true → Fired trace

/-- The join has a result: that of the ends up to some point, where one of these ended the
whole or no task was left. -/
structure Closed (policy : ScopePolicy) (tasks : List (Task α)) (trace : List (Event α))
    (g : Gathering α) (joined later : List (TaskEnd α)) (left : List (Task α)) : Prop where
  given : g.result =
    some (Aggregation.collect policy (tasks.map Task.scope) (joined.map TaskEnd.arrival))
  ends : endings trace = joined ++ later
  spread : (joined.map TaskEnd.task ++ left).Perm tasks
  decided : (∃ ending ∈ joined, ending.isClear = false) ∨
    (left = [] ∧ later = [] ∧ g.running = [])
  seen : ∀ ending ∈ joined, ending.sawToken = true → Fired trace

def Phase (policy : ScopePolicy) (tasks : List (Task α)) (trace : List (Event α))
    (g : Gathering α) : Prop :=
  (∃ joined later, Joining tasks trace g joined later) ∨
    ∃ joined later left, Closed policy tasks trace g joined later left

variable {policy : ScopePolicy} {tasks : List (Task α)} {trace : List (Event α)}
  {g next : Gathering α} {event : Event α}

theorem Phase.start (policy : ScopePolicy) (tasks : List (Task α)) :
    Phase policy tasks [] (start tasks) := by
  cases tasks with
  | nil => exact .inr ⟨[], [], [], rfl, rfl, .rfl, .inr ⟨rfl, rfl, rfl⟩, by simp⟩
  | cons first rest =>
    exact .inl ⟨[], [], rfl, by simp, rfl, rfl, rfl, rfl, by simp [Gathering.start], by simp,
      by simp [Gathering.start]⟩

/-- What has a result keeps it: later events only add ends behind those that decided it. -/
theorem Closed.step {joined later : List (TaskEnd α)} {left : List (Task α)}
    (closed : Closed policy tasks trace g joined later left)
    (step : Step policy tasks.length g event next) :
    Phase policy tasks (trace ++ [event]) next := by
  have seen : ∀ ending ∈ joined, ending.sawToken = true → Fired (trace ++ [event]) :=
    fun ending member saw => (closed.seen ending member saw).concat event
  have ends : endings (trace ++ [event]) = joined ++ (later ++ event.ending?.toList) := by
    rw [endings_concat, closed.ends, List.append_assoc]
  have given := closed.given
  -- Tasks and the client may still act; the join, which has its result, does not.
  cases step with
  | fire =>
    exact .inr ⟨joined, _, left, given, ends, closed.spread,
      by simpa [Event.ending?] using closed.decided, seen⟩
  | @finish before after ending runs visible =>
    refine .inr ⟨joined, _, left, given, ends, closed.spread, ?_, seen⟩
    rcases closed.decided with final | ⟨-, -, idle⟩
    · exact .inl final
    · rw [runs] at idle; simp at idle
  | @abort before after task runs aborted =>
    refine .inr ⟨joined, _, left, given, ends, closed.spread, ?_, seen⟩
    rcases closed.decided with final | ⟨-, -, idle⟩
    · exact .inl final
    · rw [runs] at idle; simp at idle
  | skip waiting next => rw [waiting] at given; cases given
  | absorb waiting next taken => rw [waiting] at given; cases given
  | giveUp waiting next failed => rw [waiting] at given; cases given
  | conclude waiting idle empty => rw [waiting] at given; cases given

theorem collect_of_merge (nonempty : tasks ≠ []) (arrivals : List (Arrival α)) :
    Aggregation.collect policy (tasks.map Task.scope) arrivals =
      match Aggregation.empty.merge arrivals with
      | .error fault => .error fault
      | .ok merged => merged.close policy tasks.length := by
  have size : (tasks.map Task.scope).length = tasks.length := List.length_map Task.scope
  rw [← size]
  cases tasks with
  | nil => exact absurd rfl nonempty
  | cons task rest => rfl

/-- The end that the join takes up next is the oldest that it has not taken up. -/
theorem Joining.next_end {joined later : List (TaskEnd α)} {arrival : Arrival α}
    {rest : List (Option (Arrival α))} (joining : Joining tasks trace g joined later)
    (next : g.queue = some arrival :: rest) :
    ∃ first others, later = first :: others ∧ first.arrival = arrival ∧
      rest = others.map fun ending => some ending.arrival := by
  rw [joining.queued] at next
  cases later with
  | nil => cases next
  | cons first others =>
    simp only [List.map_cons, List.cons.injEq, Option.some.injEq] at next
    exact ⟨first, others, rfl, next.1, next.2.symm⟩

/-- While the join waits, every event leaves it waiting or gives it the result of what it
has taken up. -/
theorem Joining.step {joined later : List (TaskEnd α)}
    (joining : Joining tasks trace g joined later)
    (step : Step policy tasks.length g event next) :
    Phase policy tasks (trace ++ [event]) next := by
  have seen : ∀ ending ∈ joined ++ later, ending.sawToken = true → Fired (trace ++ [event]) :=
    fun ending member saw => (joining.seen ending member saw).concat event
  have fired : g.fired = true → Fired (trace ++ [event]) :=
    fun set => (joining.fired set).concat event
  have nonempty := joining.nonempty
  have ends := joining.ends
  have spread := joining.spread
  -- The join has not fired its own token: nothing is aborted, and a token that a task sees
  -- is the client's.
  cases step with
  | fire =>
    exact .inl ⟨joined, later, joining.waiting, nonempty, joining.unstopped,
      by simpa [Event.ending?] using ends, joining.queued, joining.merged, spread, seen,
      fun _ => List.mem_append_right _ List.mem_cons_self⟩
  | @finish before after ending runs visible =>
    refine .inl ⟨joined, later ++ [ending], joining.waiting, nonempty, joining.unstopped,
      by simp [Event.ending?, ends], by simp [joining.queued], joining.merged, ?_, ?_, fired⟩
    · rw [runs] at spread
      refine List.Perm.trans ?_ spread
      simp only [List.map_append, List.map_cons, List.map_nil, List.append_assoc,
        List.singleton_append]
      exact (List.perm_middle.symm.append_left _).append_left _
    · intro other member saw
      rw [← List.append_assoc] at member
      rcases List.mem_append.mp member with earlier | last
      · exact seen other earlier saw
      · cases List.mem_singleton.mp last
        rcases visible saw with client | own
        · exact fired client
        · rw [joining.unstopped] at own; cases own
  | @abort before after task runs aborted => rw [joining.unstopped] at aborted; cases aborted
  | @skip rest _ next =>
    rw [joining.queued] at next
    cases later <;> simp at next
  | @absorb arrival rest joint _ next taken =>
    obtain ⟨first, others, rfl, rfl, rfl⟩ := joining.next_end next
    refine .inl ⟨joined ++ [first], others, joining.waiting, nonempty, joining.unstopped,
      by simp [Event.ending?, ends], rfl, ?_, by simpa using spread, by simpa using seen, fired⟩
    rw [List.map_append, List.map_singleton, Aggregation.merge_concat _ _ _ joining.merged, taken]
  | @giveUp arrival rest fault _ next failed =>
    obtain ⟨first, others, rfl, rfl, rfl⟩ := joining.next_end next
    refine .inr ⟨joined ++ [first], others, others.map TaskEnd.task ++ g.running, ?_,
      by simp [Event.ending?, ends], by simpa using spread, .inl ⟨first, by simp, ?_⟩, ?_⟩
    · rw [collect_of_merge nonempty, List.map_append, List.map_singleton,
        Aggregation.merge_concat _ _ _ joining.merged, failed]
    · cases clear : first.isClear with
      | false => rfl
      | true =>
        rw [Aggregation.absorb_of_clear _ _ (by simp [TaskEnd.isFinal_outcome, clear])] at failed
        cases failed
    · intro ending member
      refine seen ending ?_
      rw [← List.singleton_append, ← List.append_assoc]
      exact List.mem_append_left _ member
  | conclude _ idle empty =>
    rw [joining.queued] at empty
    obtain rfl := List.map_eq_nil_iff.mp empty
    refine .inr ⟨joined, [], [], ?_, by simpa [Event.ending?] using ends,
      by simpa [idle] using spread, .inr ⟨rfl, rfl, idle⟩, by simpa using seen⟩
    rw [collect_of_merge nonempty, joining.merged]

theorem Run.phase (run : Run policy tasks trace g) : Phase policy tasks trace g := by
  induction run with
  | start => exact .start policy tasks
  | step _ step ih =>
    rcases ih with ⟨joined, later, joining⟩ | ⟨joined, later, left, closed⟩
    · exact joining.step step
    · exact closed.step step

/-! ### Schedules -/

/-- Running tasks may end one after the other, in any order and with any sight of a token
that they can see. -/
theorem Run.finishAll (run : Run policy tasks trace g) (more : List (TaskEnd α))
    (rest : List (Task α)) (spread : (more.map TaskEnd.task ++ rest).Perm g.running)
    (visible : ∀ ending ∈ more, ending.sawToken = true → g.fired = true ∨ g.stopped = true) :
    ∃ running, running.Perm rest ∧
      Run policy tasks (trace ++ more.map Event.finish)
        { g with running, queue := g.queue ++ more.map fun ending => some ending.arrival } := by
  induction more generalizing trace g with
  | nil => exact ⟨g.running, spread.symm, by simpa using run⟩
  | cons first more ih =>
    obtain ⟨firstVisible, moreVisible⟩ := List.forall_mem_cons.mp visible
    obtain ⟨before, after, runs⟩ :=
      List.append_of_mem (spread.mem_iff.mp (by simp : first.task ∈ _))
    have others : (more.map TaskEnd.task ++ rest).Perm (before ++ after) := by
      rw [runs] at spread
      exact (spread.trans List.perm_middle).cons_inv
    obtain ⟨running, left, final⟩ :=
      ih (run.step (.finish runs firstVisible)) others moreVisible
    exact ⟨running, left, by simpa using final⟩

def Event.isOwn : Event α → Bool
  | .join | .conclude => true
  | .fire | .finish _ | .abort _ => false

theorem endings_append_own (trace : List (Event α)) {own : List (Event α)}
    (joins : ∀ event ∈ own, event.isOwn = true) : endings (trace ++ own) = endings trace := by
  have silent : endings own = [] := by
    refine List.filterMap_eq_nil_iff.mpr fun event member => ?_
    cases event with
    | join => rfl
    | conclude => rfl
    | fire => cases joins _ member
    | finish => cases joins _ member
    | abort => cases joins _ member
  simpa only [endings, List.filterMap_append, List.append_right_eq_self] using silent

theorem Fired.of_append_own {trace own : List (Event α)} (fired : Fired (trace ++ own))
    (joins : ∀ event ∈ own, event.isOwn = true) : Fired trace := by
  rcases List.mem_append.mp fired with earlier | later
  · exact earlier
  · cases joins _ later

/-- The join can always take up the ends that are there, up to one that ends the whole, and
conclude when no task is left. -/
theorem Run.joinAll (run : Run policy tasks trace g) (waiting : g.result = none)
    (arrivals : List (Arrival α)) (queued : g.queue = arrivals.map some)
    (decided : g.running = [] ∨ ∃ arrival ∈ arrivals, arrival.outcome.isFinal = true) :
    ∃ own final, (∀ event ∈ own, event.isOwn = true) ∧ Run policy tasks (trace ++ own) final ∧
      final.result = some (match g.merged.merge arrivals with
        | .error fault => .error fault
        | .ok merged => merged.close policy tasks.length) := by
  induction arrivals generalizing trace g with
  | nil =>
    rcases decided with idle | ⟨_, member, _⟩
    · exact ⟨[.conclude], _, by simp [Event.isOwn], run.step (.conclude waiting idle queued), rfl⟩
    · cases member
  | cons first rest ih =>
    cases taken : g.merged.absorb first with
    | error fault =>
      exact ⟨[.join], _, by simp [Event.isOwn], run.step (.giveUp waiting queued taken),
        by simp [Aggregation.merge, taken]⟩
    | ok merged =>
      have clear := Aggregation.clear_of_absorb taken
      -- This one lets the join go on, so whatever ends it is still to come.
      have decided' : g.running = [] ∨ ∃ arrival ∈ rest, arrival.outcome.isFinal = true := by
        refine decided.imp_right ?_
        rintro ⟨arrival, member, final⟩
        rcases List.mem_cons.mp member with rfl | member
        · rw [clear] at final; cases final
        · exact ⟨arrival, member, final⟩
      obtain ⟨own, final, joins, more, result⟩ :=
        ih (run.step (.absorb waiting queued taken)) waiting rfl decided'
      refine ⟨.join :: own, final, by simpa [Event.isOwn] using joins, by simpa using more, ?_⟩
      rw [result, Aggregation.merge, taken]

/-- No run is stuck: whatever has happened, the tasks can end and the join give a result. -/
theorem Run.carries_on (run : Run policy tasks trace g) :
    ∃ more final result, Run policy tasks (trace ++ more) final ∧ final.result = some result := by
  rcases run.phase with ⟨joined, later, joining⟩ | ⟨joined, later, left, closed⟩
  · obtain ⟨running, left, ended⟩ := run.finishAll (g.running.map (TaskEnd.mk · false)) []
      (by simp [Function.comp_def]) (by simp)
    obtain ⟨own, final, -, more, result⟩ := ended.joinAll joining.waiting
      ((later ++ g.running.map (TaskEnd.mk · false)).map TaskEnd.arrival)
      (by simp [joining.queued, Function.comp_def]) (.inl left.eq_nil)
    exact ⟨_, final, _, by simpa using more, result⟩
  · exact ⟨[], g, _, by simpa using run, closed.given⟩

/-- Every order of ends is that of some run: those of any tasks, of which some may see the
client's token, as long as one of them ends the whole or no task is left. -/
theorem exists_run_of_endings (policy : ScopePolicy) (tasks : List (Task α))
    (ends : List (TaskEnd α)) (left : List (Task α))
    (spread : (ends.map TaskEnd.task ++ left).Perm tasks)
    (decided : (∃ ending ∈ ends, ending.isClear = false) ∨ left = []) :
    ∃ trace g, Run policy tasks trace g ∧ endings trace = ends ∧
      (Fired trace → ∃ ending ∈ ends, ending.sawToken = true) ∧
      g.result =
        some (Aggregation.collect policy (tasks.map Task.scope) (ends.map TaskEnd.arrival)) := by
  by_cases none : tasks = []
  · subst none
    obtain ⟨rfl, rfl⟩ : ends = [] ∧ left = [] := by simpa using spread.eq_nil
    exact ⟨[], _, .start, rfl, nofun, rfl⟩
  -- The client's token fires at the start if some end is to see it.
  have begun : ∃ trace fired, Run policy tasks trace { start tasks with fired } ∧
      endings trace = [] ∧ (Fired trace → ∃ ending ∈ ends, ending.sawToken = true) ∧
      (∀ ending ∈ ends, ending.sawToken = true → fired = true) := by
    by_cases saw : ∃ ending ∈ ends, ending.sawToken = true
    · exact ⟨[.fire], true, Run.start.step .fire, rfl, fun _ => saw, fun _ _ _ => rfl⟩
    · exact ⟨[], false, .start, rfl, nofun,
        fun ending member seen => absurd ⟨ending, member, seen⟩ saw⟩
  obtain ⟨trace, fired, run, silent, fires, visible⟩ := begun
  obtain ⟨running, rest, ended⟩ := run.finishAll ends left spread
    fun ending member saw => .inl (visible ending member saw)
  have decided' : running = [] ∨
      ∃ arrival ∈ ends.map TaskEnd.arrival, arrival.outcome.isFinal = true := by
    rcases decided with ⟨ending, member, unclear⟩ | rfl
    · exact .inr ⟨_, List.mem_map_of_mem member, by rw [ending.isFinal_outcome, unclear]; rfl⟩
    · exact .inl rest.eq_nil
  obtain ⟨own, final, joins, more, result⟩ := ended.joinAll (by simp [start, none])
    (ends.map TaskEnd.arrival) (by simp [start]) decided'
  refine ⟨_, final, more, ?_, ?_, ?_⟩
  · rw [endings_append_own _ joins]
    simp only [endings, List.filterMap_append] at silent ⊢
    rw [silent, List.nil_append, List.filterMap_map]
    exact List.filterMap_some
  · intro fired
    rcases List.mem_append.mp (fired.of_append_own joins) with earlier | later
    · exact fires earlier
    · simp at later
  · rw [result, collect_of_merge none]
    rfl

/-! ### Results -/

open Aggregation (firstUnclear? harvest)

/-- What a result comes from: the first end that was not clear, or all of them clear. -/
theorem Run.result_cases (run : Run policy tasks trace g)
    {result : Except ApiFault (Aggregation α)} (given : g.result = some result) :
    (∃ ending fault, firstUnclear? (endings trace) = some ending ∧
      ending.arrival.outcome.fault? = some fault ∧ result = .error fault ∧
      (ending.sawToken = true → Fired trace)) ∨
    ((∀ ending ∈ endings trace, ending.isClear = true) ∧
      ((endings trace).map TaskEnd.task).Perm tasks ∧
      result = if tasks = [] then .ok .empty
        else (harvest ((endings trace).map TaskEnd.task)).close policy tasks.length) := by
  rcases run.phase with ⟨joined, later, joining⟩ | ⟨joined, later, left, closed⟩
  · rw [joining.waiting] at given; cases given
  have result_eq := Option.some.inj (given.symm.trans closed.given)
  -- An end that is not clear among those taken up is the first of all; without one, all
  -- ends have been taken up.
  cases found : firstUnclear? joined with
  | some ending =>
    have unclear := List.find?_some found
    simp only [Bool.not_eq_eq_eq_not, Bool.not_true] at unclear
    have member := List.mem_of_find?_eq_some found
    have nonempty : tasks ≠ [] := by
      rintro rfl
      have spread := closed.spread.eq_nil
      simp only [List.append_eq_nil_iff, List.map_eq_nil_iff] at spread
      rw [spread.1] at member
      cases member
    obtain ⟨fault, final⟩ : ∃ fault, ending.arrival.outcome.fault? = some fault := by
      rcases ending.fault_of_unclear unclear with ⟨-, final⟩ | ⟨-, fault, -, final⟩
      · exact ⟨_, final⟩
      · exact ⟨_, final⟩
    refine .inl ⟨ending, fault, ?_, final, ?_, closed.seen ending member⟩
    · rw [closed.ends]; exact Aggregation.firstUnclear?_append found later
    · rw [result_eq, collect_of_merge nonempty, Aggregation.merge_of_unclear found final]
  | none =>
    have clear := (Aggregation.firstUnclear?_eq_none_iff joined).mp found
    rcases closed.decided with ⟨ending, member, unclear⟩ | ⟨rfl, rfl, -⟩
    · rw [clear ending member] at unclear; cases unclear
    · have ends : endings trace = joined := by rw [closed.ends, List.append_nil]
      have spread : (joined.map TaskEnd.task).Perm tasks := by simpa using closed.spread
      refine .inr ⟨ends ▸ clear, ends ▸ spread, ?_⟩
      rw [result_eq, ends]
      by_cases none : tasks = []
      · simp [none, Aggregation.collect]
      · rw [collect_of_merge none, Aggregation.merge_of_clear_endings joined clear, if_neg none]

/-- A list is the whole list. Every task has ended, once, with its list or with a refusal;
the lists stand one after the other in the order in which the tasks ended, and so do the
namespaces that refused. -/
theorem result_accounts_for_every_task (run : Run policy tasks trace g)
    {merged : Aggregation α} (given : g.result = some (.ok merged)) :
    ((endings trace).map TaskEnd.task).Perm tasks ∧
      (∀ task ∈ tasks, task.isRefused = true ∨ ∃ items, task.reply = .ok items) ∧
      merged.items = ((endings trace).map TaskEnd.task).flatMap Task.items ∧
      merged.denied = (((endings trace).map TaskEnd.task).filter Task.isRefused).map Task.scope ∧
      merged.items.Perm (tasks.flatMap Task.items) ∧
      merged.denied.Perm ((tasks.filter Task.isRefused).map Task.scope) := by
  rcases run.result_cases given with ⟨ending, fault, -, -, failed, -⟩ | ⟨clear, spread, result_eq⟩
  · cases failed
  have merged_eq : merged = harvest ((endings trace).map TaskEnd.task) := by
    by_cases none : tasks = []
    · rw [if_pos none] at result_eq
      rw [none] at spread
      rw [Except.ok.inj result_eq, spread.eq_nil]
      rfl
    · rw [if_neg none, ← spread.length_eq, Aggregation.close_harvest] at result_eq
      split at result_eq
      · cases result_eq
      · exact Except.ok.inj result_eq
  subst merged_eq
  refine ⟨spread, ?_, rfl, rfl, spread.flatMap_right _, (spread.filter _).map _⟩
  intro task member
  obtain ⟨ending, ended, rfl⟩ := List.mem_map.mp (spread.mem_iff.mpr member)
  exact (ending.isClear_iff.mp (clear ending ended)).2

theorem result_accounts_for_repeated_namespace :
    let full : Task Nat := ⟨⟨⟨"a", by decide⟩⟩, .ok [1, 2]⟩
    let refused : Task Nat := ⟨⟨⟨"b", by decide⟩⟩, .error (.response 403 (.raw ""))⟩
    let again : Task Nat := ⟨⟨⟨"a", by decide⟩⟩, .ok [3]⟩
    ∃ trace g, Run .fail [full, refused, again] trace g ∧
      g.result = some (.ok ⟨[3, 1, 2], [refused.scope]⟩) ∧
      ((endings trace).map TaskEnd.task).Perm [full, refused, again] ∧
      [3, 1, 2].Perm ([full, refused, again].flatMap Task.items) := by
  intro full refused again
  obtain ⟨trace, g, run, -, -, given⟩ := exists_run_of_endings .fail [full, refused, again]
    [⟨again, false⟩, ⟨refused, false⟩, ⟨full, false⟩] []
    (List.reverse_perm [full, refused, again]) (.inr rfl)
  obtain ⟨spread, -, -, -, items, -⟩ := result_accounts_for_every_task run given
  exact ⟨trace, g, run, given, spread, items⟩

/-- What makes a joint listing fail, and with what. -/
inductive Trigger (policy : ScopePolicy) (tasks : List (Task α)) (ends : List (TaskEnd α)) :
    ApiFault → Prop where
  /-- The first task that neither listed nor was refused failed. -/
  | failed {task : Task α} {fault : TransportFault}
      (first : firstUnclear? ends = some ⟨task, false⟩) (reply : task.reply = .error fault) :
      Trigger policy tasks ends fault.sort
  /-- That task stopped at the sight of the token. -/
  | cancelled {task : Task α} (first : firstUnclear? ends = some ⟨task, true⟩) :
      Trigger policy tasks ends (.cancelled "list across namespaces")
  /-- Every task was refused, there is one, and that is to fail. -/
  | denied (fails : policy = .fail) (nonempty : tasks ≠ [])
      (ended : (ends.map TaskEnd.task).Perm tasks)
      (refused : ∀ ending ∈ ends, ending.sawToken = false ∧ ending.task.isRefused = true) :
      Trigger policy tasks ends (.refused .unauthorised
        (some ("access denied to all " ++ toString tasks.length ++ " namespaces")))

/-- The token of the client, if it fired, is the only one that a result can tell of. -/
theorem Run.fired_of_cancelled (run : Run policy tasks trace g) {operation : String}
    (given : g.result = some (.error (.cancelled operation))) : Fired trace := by
  rcases run.result_cases given with
    ⟨ending, fault, found, final, failed, saw⟩ | ⟨-, spread, result_eq⟩
  · obtain rfl := Except.error.inj failed
    rcases ending.fault_of_unclear (by simpa using List.find?_some found) with
      ⟨seen, -⟩ | ⟨-, reason, -, sorted⟩
    · exact saw seen
    · exact absurd (Option.some.inj (sorted.symm.trans final)) (reason.sort_ne_cancelled _)
  · split at result_eq
    · cases result_eq
    · rw [← spread.length_eq, Aggregation.close_harvest] at result_eq
      split at result_eq <;> cases result_eq

theorem Run.triggered (run : Run policy tasks trace g) {fault : ApiFault}
    (given : g.result = some (.error fault)) : Trigger policy tasks (endings trace) fault := by
  rcases run.result_cases given with
    ⟨⟨task, sawToken⟩, reason, found, final, failed, -⟩ | ⟨clear, spread, result_eq⟩
  · obtain rfl := Except.error.inj failed
    rcases (TaskEnd.mk task sawToken).fault_of_unclear (by simpa using List.find?_some found) with
      ⟨rfl, cancelled⟩ | ⟨rfl, cause, reply, sorted⟩
    · rw [cancelled] at final
      cases final
      exact .cancelled found
    · rw [sorted] at final
      cases final
      exact .failed found reply
  · by_cases none : tasks = []
    · rw [if_pos none] at result_eq; cases result_eq
    · rw [if_neg none, ← spread.length_eq, Aggregation.close_harvest] at result_eq
      split at result_eq
      next all =>
        cases result_eq
        rw [spread.length_eq]
        refine .denied all.2 none spread fun ending member => ?_
        exact ⟨(ending.isClear_iff.mp (clear ending member)).1,
          all.1 _ (List.mem_map_of_mem member)⟩
      next => cases result_eq

theorem Run.failed_of_trigger (run : Run policy tasks trace g)
    {result : Except ApiFault (Aggregation α)} (given : g.result = some result) {fault : ApiFault}
    (trigger : Trigger policy tasks (endings trace) fault) : result = .error fault := by
  rcases run.result_cases given with
    ⟨ending, reason, found, final, failed, -⟩ | ⟨clear, spread, result_eq⟩
  · rw [failed]
    cases trigger with
    | @failed task cause first reply =>
      obtain rfl := Option.some.inj (found.symm.trans first)
      rcases TaskEnd.fault_of_unclear ⟨task, false⟩ (by simpa using List.find?_some first) with
        ⟨saw, -⟩ | ⟨-, other, same, sorted⟩
      · cases saw
      · rw [reply] at same
        cases same
        rw [sorted] at final
        cases final
        rfl
    | @cancelled task first =>
      obtain rfl := Option.some.inj (found.symm.trans first)
      cases final
      rfl
    | denied fails nonempty ended refused =>
      obtain ⟨unseen, denied⟩ := refused ending (List.mem_of_find?_eq_some found)
      have unclear := List.find?_some found
      simp [TaskEnd.isClear, unseen, denied] at unclear
  · have allClear := (Aggregation.firstUnclear?_eq_none_iff _).mpr clear
    cases trigger with
    | failed first reply => rw [allClear] at first; cases first
    | cancelled first => rw [allClear] at first; cases first
    | denied fails nonempty ended refused =>
      rw [result_eq, if_neg nonempty, ← spread.length_eq, Aggregation.close_harvest, if_pos]
      · rfl
      refine ⟨fun task member => ?_, fails⟩
      obtain ⟨ending, ended, rfl⟩ := List.mem_map.mp member
      exact (refused ending ended).2

/-- Every run can come to a result, and a result is a failure exactly when something
triggers it, which is then what the result tells. When the client's token has not fired, no
result says that the listing was cancelled, although the join cancels its own tasks. -/
theorem result_fails_iff_triggered (run : Run policy tasks trace g) :
    (∃ more final result, Run policy tasks (trace ++ more) final ∧ final.result = some result) ∧
    ∀ result, g.result = some result →
      (∀ fault, result = .error fault ↔ Trigger policy tasks (endings trace) fault) ∧
      (¬Fired trace → ∀ operation, result ≠ .error (.cancelled operation)) := by
  refine ⟨run.carries_on, fun result given => ⟨fun fault => ⟨?_, ?_⟩, ?_⟩⟩
  · rintro rfl
    exact run.triggered given
  · exact run.failed_of_trigger given
  · rintro unfired operation rfl
    exact unfired (run.fired_of_cancelled given)

/-- A sibling that the join cancelled leaves the failure as it is; and two refusals, with no
other end, are a failure that tells their number. -/
theorem result_fails_beside_cancelled_sibling :
    let slow : Task Nat := ⟨⟨⟨"a", by decide⟩⟩, .ok [1]⟩
    let refused : Task Nat := ⟨⟨⟨"b", by decide⟩⟩, .error (.response 403 (.raw ""))⟩
    let broken : Task Nat := ⟨⟨⟨"c", by decide⟩⟩, .error (.response 500 (.raw "boom"))⟩
    let barred : Task Nat := ⟨⟨⟨"d", by decide⟩⟩, .error (.response 403 (.structured "no"))⟩
    let denial : ApiFault := .refused .unauthorised (some "access denied to all 2 namespaces")
    (∃ trace g, Run .fail [slow, refused, broken] trace g ∧
      endings trace = [⟨refused, false⟩, ⟨broken, false⟩, ⟨slow, true⟩] ∧
      g.result = some (.error (.refused .server (some "boom"))) ∧
      Trigger .fail [slow, refused, broken] (endings trace) (.refused .server (some "boom"))) ∧
    ∃ trace g, Run .fail [refused, barred] trace g ∧ g.result = some (.error denial) ∧
      Trigger .fail [refused, barred] (endings trace) denial := by
  intro slow refused broken barred denial
  have first : Run .fail [slow, refused, broken] _ _ :=
    Run.start.step (.finish (@rfl _ ([slow] ++ (TaskEnd.mk refused false).task :: [broken])) nofun)
  have second := first.step
    (.finish (@rfl _ ([slow] ++ (TaskEnd.mk broken false).task :: [])) nofun)
  have taken := second.step (.absorb rfl rfl rfl)
  have failed := taken.step (.giveUp rfl rfl rfl)
  have last := failed.step
    (.finish (@rfl _ ([] ++ (TaskEnd.mk slow true).task :: [])) fun _ => .inr rfl)
  obtain ⟨-, results⟩ := result_fails_iff_triggered last
  refine ⟨⟨_, _, last, rfl, rfl, ((results _ rfl).1 _).mp rfl⟩, ?_⟩
  have spread := List.reverse_perm [refused, barred]
  obtain ⟨trace, g, run, ends, -, given⟩ := exists_run_of_endings .fail [refused, barred]
    [⟨barred, false⟩, ⟨refused, false⟩] [] spread (.inr rfl)
  have denied : Trigger .fail [refused, barred] (endings trace) denial := by
    show Trigger _ _ _ (.refused .unauthorised
      (some ("access denied to all " ++ toString 2 ++ " namespaces")))
    rw [ends]
    exact .denied rfl (List.cons_ne_nil _ _) spread
      (List.forall_mem_cons.mpr ⟨⟨rfl, rfl⟩, List.forall_mem_singleton.mpr ⟨rfl, rfl⟩⟩)
  obtain ⟨-, results⟩ := result_fails_iff_triggered run
  exact ⟨trace, g, run, given.trans (congrArg some (((results _ given).1 _).mpr denied)), denied⟩

end Gathering

end StorageControl
