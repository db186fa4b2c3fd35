import StorageControl.Proofs.Selection
import StorageControl.Proofs.Steady
import StorageControl.World

/-! Selecting volumes from all namespaces, whatever the order of their listings.

The joint listing comes in the order in which the single ones ended. A selection by
identifiers does not show that order, as long as no identifier that is asked for is that of
two volumes. Identifiers tell volumes apart within a namespace only; one that two
namespaces have selects the volume of the namespace whose listing ended last. A selection by
names never shows the order: a name that several volumes have is refused with their number.
-/

set_option autoImplicit false

namespace StorageControl

open Aggregation (allDenied harvest)
open Program (Yields allVolumes)

namespace Gathering

variable {α : Type} {policy : ScopePolicy} {tasks : List (Task α)} {trace : List (Event α)}
  {g : Gathering α}

theorem Run.among (run : Run policy tasks trace g) :
    (∀ task ∈ g.running, task ∈ tasks) ∧ ∀ ending ∈ endings trace, ending.task ∈ tasks := by
  induction run with
  | start => exact ⟨fun _ member => member, by simp [endings]⟩
  | step _ step ih =>
    obtain ⟨running, ended⟩ := ih
    -- Whatever leaves the running tasks was one of them; the rest stays.
    have others {before after : List (Task α)} {task : Task α}
        (runs : ∀ other ∈ before ++ task :: after, other ∈ tasks) :
        (∀ other ∈ before ++ after, other ∈ tasks) ∧ task ∈ tasks := by
      refine ⟨fun other member => runs other ?_, runs task (by simp)⟩
      rcases List.mem_append.mp member with early | late
      · exact List.mem_append_left _ early
      · exact List.mem_append_right _ (List.mem_cons_of_mem _ late)
    cases step with
    | finish runs visible =>
      obtain ⟨left, own⟩ := others (runs ▸ running)
      refine ⟨left, fun ending member => ?_⟩
      rw [endings_concat] at member
      rcases List.mem_append.mp member with earlier | last
      · exact ended ending earlier
      · obtain rfl := by simpa [Event.ending?] using last
        exact own
    | abort runs aborted =>
      exact ⟨(others (runs ▸ running)).1, by simpa [Event.ending?] using ended⟩
    | _ => exact ⟨running, by simpa [Event.ending?] using ended⟩

/-- The tasks can end in every order, each by itself. -/
theorem exists_run_in_order (policy : ScopePolicy) {order : List (Task α)}
    (perm : order.Perm tasks) :
    ∃ trace g result, Run policy tasks trace g ∧ ¬Fired trace ∧
      endings trace = order.map (TaskEnd.mk · false) ∧ g.result = some result := by
  obtain ⟨trace, g, run, ends, fired, given⟩ := exists_run_of_endings policy tasks
    (order.map (TaskEnd.mk · false)) [] (by simpa [Function.comp_def] using perm) (.inr rfl)
  refine ⟨trace, g, _, run, fun fires => ?_, ends, given⟩
  obtain ⟨ending, member, saw⟩ := fired fires
  obtain ⟨task, -, rfl⟩ := List.mem_map.mp member
  cases saw

/-- When every listing brings a list or a refusal, a run joins all of them, in the order in
which they ended. -/
theorem Run.result_of_clear (run : Run policy tasks trace g) (unfired : ¬Fired trace)
    (clear : ∀ task ∈ tasks, task.isRefused = true ∨ ∃ items, task.reply = .ok items)
    {result : Except ApiFault (Aggregation α)} (given : g.result = some result) :
    ((endings trace).map TaskEnd.task).Perm tasks ∧
      result = if tasks ≠ [] ∧ (∀ task ∈ tasks, task.isRefused = true) ∧ policy = .fail then
        .error (allDenied tasks.length)
      else .ok (harvest ((endings trace).map TaskEnd.task)) := by
  rcases run.result_cases given with ⟨ending, fault, found, -, -, fires⟩ | ⟨-, spread, result_eq⟩
  · have unclear := List.find?_some found
    have member := List.mem_of_find?_eq_some found
    have cleared : ending.isClear = true := by
      refine ending.isClear_iff.mpr ⟨?_, clear _ (run.among.2 ending member)⟩
      exact Bool.eq_false_iff.mpr fun saw => unfired (fires saw)
    simp [cleared] at unclear
  · refine ⟨spread, result_eq.trans ?_⟩
    -- Without namespaces nobody is denied, so the policy does not matter.
    by_cases none : tasks = []
    · subst none
      simp [spread.eq_nil, harvest, Aggregation.empty]
    · rw [if_neg none, ← spread.length_eq, Aggregation.close_harvest]
      simp only [spread.mem_iff, ne_eq, none, not_false_eq_true, true_and]

end Gathering

variable {answers : (c : Call) → c.Reply} {α : Type}

def tasksOf (answers : (c : Call) → c.Reply) : List (Task Volume) :=
  match answers .listNamespaces with
  | .ok namespaces => (namespaces.map Namespace.id).map (taskOf answers)
  | .error _ => []

def Clear (answers : (c : Call) → c.Reply) : Prop :=
  ∀ task ∈ tasksOf answers, task.isRefused = true ∨ ∃ items, task.reply = .ok items

/-- The end of a selection, given the joint listing. -/
def pickFrom (pick : List Volume → Except ApiFault α) :
    Except ApiFault (Aggregation Volume) → Except ApiFault α
  | .ok aggregation => pick aggregation.items
  | .error fault => .error fault

/-- A selection from all namespaces yields what it picks from the joint listing. -/
theorem Program.yields_allVolumes {policy : ScopePolicy} {pick : List Volume → Except ApiFault α}
    {namespaces : List Namespace} (listed : answers .listNamespaces = .ok namespaces)
    (result : Except ApiFault α) :
    Yields answers (allVolumes policy pick) result ↔
      ∃ trace g joined, Gathering.Run policy (tasksOf answers) trace g ∧
        ¬Gathering.Fired trace ∧ g.result = some joined ∧ result = pickFrom pick joined := by
  rw [tasksOf, listed]
  constructor
  · intro yields
    cases yields with
    | call yields =>
      rw [listed] at yields
      cases yields with
      | @gather _ _ _ _ _ joined _ run unfired given yields =>
        refine ⟨_, _, joined, run, unfired, given, ?_⟩
        cases joined <;> cases yields <;> rfl
  · rintro ⟨trace, g, joined, run, unfired, given, rfl⟩
    refine .call ?_
    rw [listed]
    refine .gather run unfired given ?_
    cases joined <;> exact .done _

theorem Program.allVolumes_asks (policy : ScopePolicy)
    (pick : List Volume → Except ApiFault α) :
    (allVolumes policy pick).Asks fun c => c.isListing = true := by
  refine ⟨rfl, fun reply => ?_⟩
  cases reply with
  | error fault => trivial
  | ok namespaces => exact ⟨fun _ _ => rfl, fun joined => by cases joined <;> trivial⟩

theorem Gathering.Run.selection_of_clear {policy : ScopePolicy} {tasks : List (Task Volume)}
    {trace : List (Gathering.Event Volume)} {g : Gathering Volume}
    (run : Gathering.Run policy tasks trace g) (unfired : ¬Gathering.Fired trace)
    (clear : ∀ task ∈ tasks, task.isRefused = true ∨ ∃ items, task.reply = .ok items)
    {pick : List Volume → Except ApiFault α}
    (blind : ∀ items, items.Perm (tasks.flatMap Task.items) →
      pick items = pick (tasks.flatMap Task.items))
    {joined : Except ApiFault (Aggregation Volume)} (given : g.result = some joined) :
    pickFrom pick joined =
      if tasks ≠ [] ∧ (∀ task ∈ tasks, task.isRefused = true) ∧ policy = .fail then
        .error (allDenied tasks.length)
      else pick (tasks.flatMap Task.items) := by
  obtain ⟨spread, settled⟩ := run.result_of_clear unfired clear given
  split at settled
  next all =>
    rw [if_pos all, settled]
    rfl
  next listing =>
    rw [if_neg listing, settled]
    exact blind _ (spread.flatMap_right _)

/-- A selection that does not see the order of the joint listing comes to one result. -/
theorem Program.selection_settled (policy : ScopePolicy) (clear : Clear answers)
    {pick : List Volume → Except ApiFault α}
    (blind : ∀ items, items.Perm ((tasksOf answers).flatMap Task.items) →
      pick items = pick ((tasksOf answers).flatMap Task.items)) :
    ∃ result, Yields answers (allVolumes policy pick) result ∧
      ∀ other, Yields answers (allVolumes policy pick) other → other = result := by
  cases listed : answers .listNamespaces with
  | error fault =>
    refine ⟨.error fault.sort, .call (by rw [listed]; exact .done _), fun other yields => ?_⟩
    cases yields with
    | call yields =>
      rw [listed] at yields
      cases yields
      rfl
  | ok namespaces =>
    obtain ⟨trace, g, joined, run, unfired, -, given⟩ :=
      Gathering.exists_run_in_order policy (.refl (tasksOf answers))
    refine ⟨_, (Program.yields_allVolumes listed _).mpr
      ⟨trace, g, joined, run, unfired, given, rfl⟩, fun other yields => ?_⟩
    obtain ⟨trace', g', joined', run', unfired', given', rfl⟩ :=
      (Program.yields_allVolumes listed other).mp yields
    rw [run'.selection_of_clear unfired' clear blind given',
      run.selection_of_clear unfired clear blind given]

/-- What can only come to one result returns it in every run that nothing disturbs. -/
theorem Client.perform_settled {σ : Type} {operation : Operation α}
    (asks : operation.program.Asks fun c => c.isListing = true) {result : Except ApiFault α}
    (unique : ∀ other, Yields answers operation.program other → other = result)
    {T : Transport σ} {holds : σ → Prop} {client : Client} {m : Machine σ}
    (steady : Machine.Steady T (fun c => c.isListing = true) holds answers)
    (held : holds m.server) (undisturbed : client.Undisturbed T operation m) :
    (client.perform T operation m).1 = some result := by
  obtain ⟨other, returned, yields⟩ := Client.perform_steady steady asks held undisturbed
  rw [returned, unique other yields]

/-- A selection by identifiers that tell volumes apart has one result, in whatever order the
listings end, and every run of the client that nothing disturbs returns it. -/
theorem selection_independent_of_timing (answers : (c : Call) → c.Reply) (policy : ScopePolicy)
    {ids : List VolumeId} (nonempty : ids ≠ []) (clear : Clear answers)
    (tells : Selection.Tells ((tasksOf answers).flatMap Task.items) ids) :
    let operation := Operation.getAllVolumes policy ids
    ∃ result, Yields answers operation.program result ∧
      (∀ other, Yields answers operation.program other → other = result) ∧
      ∀ {σ : Type} (T : Transport σ) (holds : σ → Prop) (client : Client) (m : Machine σ),
        Machine.Steady T (fun c => c.isListing = true) holds answers → holds m.server →
        client.Undisturbed T operation m → (client.perform T operation m).1 = some result := by
  intro operation
  have asks : operation.program.Asks fun c => c.isListing = true :=
    Program.allVolumes_asks policy fun all => Selection.byIds all ids
  obtain ⟨result, yields, unique⟩ := Program.selection_settled policy clear fun items perm =>
    (Selection.byIds_of_perm perm.symm nonempty tells).symm
  exact ⟨result, yields, unique, fun T holds client m steady held undisturbed =>
    Client.perform_settled asks unique steady held undisturbed⟩

/-- The volume that a namespace has for an identifier is selected whenever the listing of the
namespace ends last. So timing shows as soon as two namespaces have different ones. -/
theorem last_listing_decides (policy : ScopePolicy) (clear : Clear answers) {task : Task Volume}
    (listed : task ∈ tasksOf answers) {id : VolumeId} {v : Volume}
    (found : Selection.byId task.items id = .ok v) :
    Yields answers (Operation.getAllVolumes policy [id]).program (.ok [v]) := by
  obtain ⟨earlier, later, split⟩ := List.append_of_mem listed
  -- The task ends after all others.
  have perm : (earlier ++ later ++ [task]).Perm (tasksOf answers) := by
    rw [split, List.append_assoc]
    exact (List.perm_append_singleton task later).append_left earlier
  obtain ⟨trace, g, joined, run, unfired, ends, given⟩ :=
    Gathering.exists_run_in_order policy perm
  obtain ⟨-, settled⟩ := run.result_of_clear unfired clear given
  have unrefused : ¬∀ other ∈ tasksOf answers, other.isRefused = true := fun refused => by
    obtain ⟨scope, reply⟩ := task
    cases reply with
    | ok items => cases refused _ listed
    | error fault => cases found
  rw [if_neg fun all => unrefused all.2.1, ends] at settled
  cases namespaces : answers .listNamespaces with
  | error fault => simp [tasksOf, namespaces] at listed
  | ok all =>
    show Yields answers (allVolumes policy (Selection.byIds · [id])) _
    refine (Program.yields_allVolumes namespaces _).mpr
      ⟨trace, g, joined, run, unfired, given, ?_⟩
    have selected := Selection.byId_append found ((earlier ++ later).flatMap Task.items)
    -- Its list stands at the end of the joint one, and later volumes count.
    have merged : (((earlier ++ later ++ [task]).map (TaskEnd.mk · false)).map
        TaskEnd.task).flatMap Task.items =
          (earlier ++ later).flatMap Task.items ++ task.items := by
      simp [Function.comp_def]
    rw [settled, pickFrom, harvest, merged, Selection.byIds_eq_mapM _ (by simp), List.mapM_cons,
      selected]
    rfl

theorem World.land_listing {c : Call} (lists : c.isListing = true) {w : World}
    (unfaulted : w.faults = []) (free : w.requireLogin = false) :
    w.land c = (some (w.act c).1, w.noteListing c) := by
  cases c <;> cases lists
  all_goals simp [land, noteListing, needsLogin, free, unfaulted, takeFault, act]

/-- The world shows in its listings what another one holds. -/
structure World.Shows (w shown : World) : Prop where
  namespaces : shown.namespaces = w.namespaces
  volumes : shown.volumes = w.volumes
  unfaulted : shown.faults = []
  free : shown.requireLogin = false

theorem World.Shows.act {w shown : World} (shows : w.Shows shown) {c : Call}
    (lists : c.isListing = true) : (shown.act c).1 = (w.act c).1 := by
  cases c <;> cases lists
  · simp only [World.act, shows.namespaces]
  · simp only [World.act, shows.volumes]

theorem World.steady (w : World) :
    Machine.Steady transport (fun c => c.isListing = true) w.Shows fun c => (w.act c).1 where
  start _ _ _ shows := ⟨shows.namespaces, shows.volumes, shows.unfaulted, shows.free⟩
  land c shown lists shows := by
    show w.Shows (shown.land c).2
    rw [land_listing lists shows.unfaulted shows.free]
    cases c <;> exact ⟨shows.namespaces, shows.volumes, shows.unfaulted, shows.free⟩
  answered c shown lists shows := by
    show (shown.land c).1 = _
    rw [land_listing lists shows.unfaulted shows.free, shows.act lists]

theorem World.clear (w : World) : Clear fun c => (w.act c).1 := fun task member => by
  obtain ⟨scope, -, rfl⟩ : ∃ scope ∈ w.namespaces.map Namespace.id, taskOf _ scope = task :=
    List.mem_map.mp member
  exact .inr ⟨_, rfl⟩

/-- Two namespaces with a volume each, whose listings end in either order. -/
theorem selection_the_same_when_delayed :
    let a : NamespaceId := ⟨⟨"a", by decide⟩⟩
    let b : NamespaceId := ⟨⟨"b", by decide⟩⟩
    let u : VolumeId := ⟨⟨"u", by decide⟩⟩
    let v : VolumeId := ⟨⟨"v", by decide⟩⟩
    let space (id : NamespaceId) : Namespace :=
      ⟨id, "space", .empty, none, none, World.firstVersion⟩
    let volume (id : VolumeId) (scope : NamespaceId) : Volume :=
      ⟨id, "disk", "", 1, scope, none, .empty, .ext4, 0, none, [], none, none, World.firstVersion⟩
    let w : World :=
      { World.empty with namespaces := [space a, space b], volumes := [volume u a, volume v b] }
    let m : Machine World := ⟨w, 0, [], none⟩
    let slow : Machine World :=
      ⟨{ w with delays := [⟨⟨"list_volumes", some "a"⟩, 50⟩] }, 0, [], none⟩
    let client : Client := ⟨none, .skip⟩
    let ran (m : Machine World) :=
      client.perform World.transport (.getAllVolumes .skip [v, u]) m
    (ran m).2.server.completed = [a, b] ∧ (ran slow).2.server.completed = [b, a] ∧
      (ran m).1 = (ran slow).1 ∧ (ran m).1 = some (.ok [volume v b, volume u a]) := by
  intro a b u v space volume w m slow client ran
  have tells : Selection.Tells ((tasksOf fun c => (w.act c).1).flatMap Task.items) [v, u] := by
    unfold Selection.Tells
    decide
  obtain ⟨result, -, -, returned⟩ :=
    selection_independent_of_timing (fun c => (w.act c).1) .skip (by simp) w.clear tells
  have same (m : Machine World) (shows : w.Shows m.server) (untimed : m.cancelAt = none) :
      (ran m).1 = some result :=
    returned World.transport w.Shows client m w.steady shows (.of_free rfl untimed)
  refine ⟨rfl, rfl, ?_, rfl⟩
  rw [same m ⟨rfl, rfl, rfl, rfl⟩ rfl, same slow ⟨rfl, rfl, rfl, rfl⟩ rfl]

/-- A volume identifier that two namespaces have: a delay of one listing changes which of the
two volumes is selected. -/
theorem selection_changed_by_delay :
    let a : NamespaceId := ⟨⟨"a", by decide⟩⟩
    let b : NamespaceId := ⟨⟨"b", by decide⟩⟩
    let v : VolumeId := ⟨⟨"v", by decide⟩⟩
    let space (id : NamespaceId) : Namespace :=
      ⟨id, "space", .empty, none, none, World.firstVersion⟩
    let volume (scope : NamespaceId) : Volume :=
      ⟨v, "disk", "", 1, scope, none, .empty, .ext4, 0, none, [], none, none, World.firstVersion⟩
    let w : World :=
      { World.empty with namespaces := [space a, space b], volumes := [volume a, volume b] }
    let slow : World := { w with delays := [⟨⟨"list_volumes", some "a"⟩, 50⟩] }
    let client : Client := ⟨none, .skip⟩
    let selected (w : World) :=
      (client.perform World.transport (.getAllVolumes .skip [v]) ⟨w, 0, [], none⟩).1
    selected w = some (.ok [volume b]) ∧ selected slow = some (.ok [volume a]) ∧
      volume a ≠ volume b :=
  ⟨rfl, rfl, by decide⟩

/-! ### By name -/

/-- A selection by names has one result, in whatever order the listings end, and every run of
the client that nothing disturbs returns it. -/
theorem selection_by_name_independent_of_timing (answers : (c : Call) → c.Reply)
    (policy : ScopePolicy) {names : List String} (nonempty : names ≠ [])
    (clear : Clear answers) :
    let operation := Operation.getAllVolumesByName policy names
    ∃ result, Yields answers operation.program result ∧
      (∀ other, Yields answers operation.program other → other = result) ∧
      ∀ {σ : Type} (T : Transport σ) (holds : σ → Prop) (client : Client) (m : Machine σ),
        Machine.Steady T (fun c => c.isListing = true) holds answers → holds m.server →
        client.Undisturbed T operation m → (client.perform T operation m).1 = some result := by
  intro operation
  have asks : operation.program.Asks fun c => c.isListing = true :=
    Program.allVolumes_asks policy fun all => Selection.byNames all names
  obtain ⟨result, yields, unique⟩ := Program.selection_settled policy clear fun items perm =>
    Selection.byNames_of_perm perm nonempty
  exact ⟨result, yields, unique, fun T holds client m steady held undisturbed =>
    Client.perform_settled asks unique steady held undisturbed⟩

/-- Two namespaces with a name in common, whose listings end in either order. -/
theorem names_the_same_when_delayed :
    let a : NamespaceId := ⟨⟨"a", by decide⟩⟩
    let b : NamespaceId := ⟨⟨"b", by decide⟩⟩
    let space (id : NamespaceId) : Namespace :=
      ⟨id, "space", .empty, none, none, World.firstVersion⟩
    let volume (name : String) (scope : NamespaceId) : Volume :=
      ⟨⟨⟨"v", by decide⟩⟩, name, "", 1, scope, none, .empty, .ext4, 0, none, [], none, none,
        World.firstVersion⟩
    let w : World := { World.empty with
      namespaces := [space a, space b]
      volumes := [volume "log" a, volume "disk" a, volume "swap" b, volume "disk" b] }
    let m : Machine World := ⟨w, 0, [], none⟩
    let slow : Machine World :=
      ⟨{ w with delays := [⟨⟨"list_volumes", some "a"⟩, 50⟩] }, 0, [], none⟩
    let client : Client := ⟨none, .fail⟩
    let ran (names : List String) (m : Machine World) :=
      client.perform World.transport (.getAllVolumesByName .fail names) m
    (ran ["swap", "log"] m).2.server.completed = [a, b] ∧
      (ran ["swap", "log"] slow).2.server.completed = [b, a] ∧
      (∀ names, names ≠ [] → (ran names m).1 = (ran names slow).1) ∧
      (ran ["swap", "log"] m).1 = some (.ok [volume "swap" b, volume "log" a]) ∧
      (ran ["log", "disk"] m).1 = some (.error (.ambiguousName .volume "disk" 2)) := by
  intro a b space volume w m slow client ran
  refine ⟨rfl, rfl, fun names nonempty => ?_, rfl, rfl⟩
  obtain ⟨result, -, -, returned⟩ :=
    selection_by_name_independent_of_timing (fun c => (w.act c).1) .fail nonempty w.clear
  have same (m : Machine World) (shows : w.Shows m.server) (untimed : m.cancelAt = none) :
      (ran names m).1 = some result :=
    returned World.transport w.Shows client m w.steady shows (.of_free rfl untimed)
  rw [same m ⟨rfl, rfl, rfl, rfl⟩ rfl, same slow ⟨rfl, rfl, rfl, rfl⟩ rfl]

end StorageControl
