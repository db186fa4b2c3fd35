import StorageControl.Proofs.Abandonment
import StorageControl.Proofs.Selection
import StorageControl.Proofs.Transcript

/-! The client passes faults on as they are.

A call that fails is the last one of its operation, and its fault, sorted by its status, is
the result. Only the joint listing of namespaces hears several faults: it leaves out the
namespaces that refuse access, and returns the first fault of any other kind. What the
operation was to select matters only when the listing succeeds.
-/

set_option autoImplicit false

namespace StorageControl

open Aggregation (allDenied harvest)

/-! ### Faults -/

theorem TransportFault.sort_eq_transport {fault other : TransportFault}
    (sorted : fault.sort = .transport other) :
    other = fault ∧
      ∀ status payload, fault = .response status payload → Refusal.ofStatus? status = none := by
  obtain ⟨same, unlisted⟩ := sort_eq_transport_iff.mp sorted
  refine ⟨same, fun status payload made => ?_⟩
  exact Refusal.ofStatus?_eq_none_iff.mpr fun refusal => unlisted status payload refusal made

theorem mapM_error {α β ε : Type} {f : α → Except ε β} {items : List α} {e : ε}
    (failed : items.mapM f = .error e) : ∃ a ∈ items, f a = .error e := by
  obtain ⟨before, a, after, rfl, -, own⟩ := mapM_eq_error_iff.mp failed
  exact ⟨a, List.mem_append_right _ List.mem_cons_self, own⟩

/-- A result that does not come from a transport. -/
def Local {α : Type} (result : Except ApiFault α) : Prop :=
  ∀ fault, result ≠ .error (.transport fault)

namespace Selection

variable {R : Type} [Named R]

theorem byName_local (items : List R) (name : String) : Local (byName items name) := by
  intro fault failed
  unfold byName at failed
  split at failed <;> cases failed

theorem byIds_local (items : List R) (ids : List (Id (Named.subject R))) :
    Local (byIds items ids) := by
  intro fault failed
  unfold byIds at failed
  split at failed
  · cases failed
  · obtain ⟨id, -, failed⟩ := mapM_error failed
    split at failed <;> cases failed

theorem byNames_local (items : List R) (names : List String) : Local (byNames items names) := by
  intro fault failed
  unfold byNames at failed
  split at failed
  · cases failed
  · obtain ⟨name, -, failed⟩ := mapM_error failed
    split at failed <;> cases failed

end Selection

/-! ### Listings of namespaces -/

namespace Task

variable {α : Type}

/-- The fault of a listing, unless it is a refusal of access. -/
def failure? (task : Task α) : Option TransportFault :=
  match task.reply with
  | .error fault => if task.isRefused then none else some fault
  | .ok _ => none

theorem isClear_eq (task : Task α) : (TaskEnd.mk task false).isClear = task.failure?.isNone := by
  obtain ⟨scope, reply⟩ := task
  cases reply with
  | ok items => rfl
  | error fault =>
    simp only [TaskEnd.isClear, failure?, items?]
    cases Task.isRefused ⟨scope, .error fault⟩ <;> rfl

theorem reply_of_failure {task : Task α} {fault : TransportFault}
    (failed : task.failure? = some fault) : task.reply = .error fault := by
  obtain ⟨scope, reply⟩ := task
  cases reply with
  | ok items => cases failed
  | error other =>
    simp only [failure?] at failed
    split at failed
    · cases failed
    · cases failed
      rfl

theorem fault_of_failure {task : Task α} {fault : TransportFault}
    (failed : task.failure? = some fault) :
    (TaskEnd.mk task false).arrival.outcome.fault? = some fault.sort := by
  have unclear : (TaskEnd.mk task false).isClear = false := by rw [isClear_eq, failed]; rfl
  obtain ⟨saw, -⟩ | ⟨-, other, reply, fault⟩ := (TaskEnd.mk task false).fault_of_unclear unclear
  · cases saw
  · rw [reply_of_failure failed] at reply
    cases reply
    exact fault

end Task

namespace Machine

variable {scopes : List NamespaceId} {listing : List Sighting} {g : Gathered}
  {policy : ScopePolicy}

theorem Survey.isFinal_iff (survey : Survey scopes listing g) :
    g.isFinal = true ↔ ∃ task ∈ tasksIn listing, task.failure? ≠ none := by
  simp only [Gathered.isFinal, survey.arrivals, List.any_map, List.any_eq_true,
    Function.comp_apply, TaskEnd.isFinal_outcome, Task.isClear_eq]
  simp [Option.isSome_iff_ne_none, ← Option.not_isSome]

theorem Survey.collect_of_failure (survey : Survey scopes listing g) {fault : TransportFault}
    (first : (tasksIn listing).findSome? Task.failure? = some fault) :
    Aggregation.collect policy scopes g.arrivals = .error fault.sort := by
  obtain ⟨before, task, after, split, failed, clear⟩ := List.findSome?_eq_some_iff.mp first
  -- Something was listed, so there was something to list.
  have nonempty : scopes ≠ [] := by
    rintro rfl
    have none := List.perm_nil.mp survey.spread
    rw [split] at none
    simp at none
  rw [Aggregation.collect, if_neg (by simpa using nonempty), survey.arrivals, split,
    List.map_append, List.map_cons]
  rw [Aggregation.merge_of_fault _ _ _ _ ?_ (Task.fault_of_failure failed)]
  intro arrival arrived
  obtain ⟨other, member, rfl⟩ := List.mem_map.mp arrived
  rw [TaskEnd.isFinal_outcome, Task.isClear_eq, clear other member]
  rfl

theorem Survey.collect_of_clear (survey : Survey scopes listing g)
    (clear : ∀ task ∈ tasksIn listing, task.failure? = none) (complete : g.missing = []) :
    Aggregation.collect policy scopes g.arrivals =
      if scopes ≠ [] ∧ (∀ task ∈ tasksIn listing, task.isRefused = true) ∧ policy = .fail then
        .error (allDenied scopes.length)
      else .ok (harvest (tasksIn listing)) := by
  have spread := survey.spread
  rw [complete, List.append_nil] at spread
  have total : (tasksIn listing).length = scopes.length := by simpa using spread.length_eq
  have merged := Aggregation.merge_of_clear_endings
    ((tasksIn listing).map fun task => TaskEnd.mk task false) (by
      intro ending member
      obtain ⟨task, listed, rfl⟩ := List.mem_map.mp member
      rw [Task.isClear_eq, clear task listed]
      rfl)
  simp only [List.map_map, Function.comp_def, List.map_id'] at merged
  by_cases none : scopes = []
  · subst none
    have empty : tasksIn listing = [] := List.length_eq_zero_iff.mp total
    rw [empty]
    rfl
  · rw [Aggregation.collect, if_neg (by simpa using none), survey.arrivals, merged, ← total]
    simp only [Aggregation.close_harvest, ne_eq, none, not_false_eq_true, true_and]

theorem Survey.collect_cases (survey : Survey scopes listing g)
    {result : Except ApiFault (Aggregation Volume)}
    (joins : Joins policy scopes g (.landed result)) :
    (∃ fault, (tasksIn listing).findSome? Task.failure? = some fault ∧
      result = .error fault.sort) ∨
    (∀ task ∈ tasksIn listing, task.failure? = none) ∧ g.missing = [] ∧
      result = if scopes ≠ [] ∧ (∀ task ∈ tasksIn listing, task.isRefused = true) ∧
          policy = .fail then
        .error (allDenied scopes.length)
      else .ok (harvest (tasksIn listing)) := by
  obtain ⟨settled⟩ := joins
  -- All came in, unless one of them failed.
  cases first : (tasksIn listing).findSome? Task.failure? with
  | some fault => exact .inl ⟨fault, rfl, survey.collect_of_failure first⟩
  | none =>
    have clear := List.findSome?_eq_none_iff.mp first
    have complete : g.missing = [] := settled.resolve_left fun final => by
      obtain ⟨task, member, failed⟩ := survey.isFinal_iff.mp final
      exact failed (clear task member)
    exact .inr ⟨clear, complete, survey.collect_of_clear clear complete⟩

end Machine

open Machine (Gathered Survey Joins)

/-! ### Programs -/

namespace Program

variable {α : Type}

/-- Whether a program passes on every fault as it is, and makes none of a transport itself. -/
def Transparent : Program α → Prop
  | .done result => Local result
  | .call _ next => (∀ fault, next (.error fault) = .done (.error fault.sort)) ∧
      ∀ answer, (next (.ok answer)).Transparent
  | .gather _ _ next => (∀ fault, next (.error fault) = .done (.error fault)) ∧
      ∀ joint, (next (.ok joint)).Transparent

theorem ask_transparent {c : Call} {next : c.Answer → Program α}
    (transparent : ∀ answer, (next answer).Transparent) : (ask c next).Transparent :=
  ⟨fun _ => rfl, transparent⟩

theorem only_transparent (c : Call) : (only c).Transparent :=
  ask_transparent fun _ _ failed => nomatch failed

theorem allVolumes_transparent (policy : ScopePolicy) {pick : List Volume → Except ApiFault α}
    (picks : ∀ volumes, Local (pick volumes)) : (allVolumes policy pick).Transparent :=
  ask_transparent fun _ => ⟨fun _ => rfl, fun joint => picks joint.items⟩

variable {program : Program α} {seen : List Sighting} {ending : Landing (Except ApiFault α)}

theorem Halts.no_answer {last : List Sighting} (halts : Halts program ending last) (c : Call)
    (reply : c.Reply) : .landed c (some reply) ∉ last := by
  cases halts with
  | finished => exact nofun
  | unanswered | dropped | abandoned =>
    intro member
    simp only [List.mem_cons, List.not_mem_nil, or_false, false_or, reduceCtorEq] at member
    try cases member

/-- What does not stand in the first of two lists stands in the second. -/
theorem split_of_not_mem {first second before after : List Sighting} {s : Sighting}
    (split : first ++ second = before ++ s :: after) (absent : s ∉ first) :
    ∃ later, second = later ++ s :: after := by
  obtain ⟨later, -, tail⟩ | ⟨later, rfl, tail⟩ := List.append_eq_append_iff.mp split
  · exact ⟨later, tail⟩
  · cases later with
    | nil => exact ⟨[], tail.symm⟩
    | cons other later =>
      obtain ⟨rfl, -⟩ := List.cons.inj tail
      exact absurd (List.mem_append_right _ List.mem_cons_self) absent

/-- A fault of a call that is not one of many listings is the last thing seen, and the end. -/
theorem Transcript.fault_last (transcript : program.Transcript seen ending)
    (transparent : program.Transparent) (unstopped : ∀ stop, ending ≠ .stopped stop)
    {before after : List Sighting} {c : Call} {fault : TransportFault}
    (split : seen = before ++ .landed c (some (.error fault)) :: after)
    (own : program.Sequential ∨ ∀ scope, c ≠ .listVolumes scope) :
    after = [] ∧ ending = .landed (.error fault.sort) := by
  induction transcript generalizing before with
  | halted halts =>
    refine absurd ?_ (halts.no_answer c (.error fault))
    rw [split]
    exact List.mem_append_right _ List.mem_cons_self
  | @answered c' next reply seen ending rest ih =>
    obtain ⟨passes, goesOn⟩ := transparent
    cases before with
    | nil => cases split
    | cons start before =>
      obtain ⟨-, tail⟩ := List.cons.inj split
      cases before with
      | nil =>
        -- The call itself failed: what is left of the program is its fault.
        obtain ⟨here, later⟩ := List.cons.inj tail
        cases here
        rw [passes] at rest
        obtain ⟨rfl, rfl⟩ := transcript_done rest
        exact ⟨later.symm, rfl⟩
      | cons answer before =>
        obtain ⟨-, later⟩ := List.cons.inj tail
        cases reply with
        | error other =>
          rw [passes] at rest
          obtain ⟨rfl, -⟩ := transcript_done rest
          simp at later
        | ok answer =>
          exact ih (goesOn answer) unstopped later (own.imp_left fun sequential => sequential _)
  | @joined policy scopes next listing seen g ending result survey joins rest ih =>
    obtain ⟨passes, goesOn⟩ := transparent
    have single := own.resolve_left id
    obtain ⟨later, tail⟩ := split_of_not_mem split fun member => by
      obtain ⟨scope, -, call⟩ := survey.lists _ member
      exact single scope call
    cases result with
    | error other =>
      rw [passes] at rest
      obtain ⟨rfl, -⟩ := transcript_done rest
      simp at tail
    | ok joint => exact ih (goesOn joint) unstopped tail (.inr single)
  | cut survey stop => exact absurd rfl (unstopped stop)
  | unjoined survey joins =>
    obtain ⟨scope, -, call⟩ := survey.lists (.landed c (some (.error fault))) (by simp [split])
    exact absurd call (own.resolve_left id scope)

/-- A fault of a transport that is returned is one that a call brought. -/
theorem Transcript.fault_brought (transcript : program.Transcript seen ending)
    (transparent : program.Transparent) {fault : TransportFault}
    (failed : ending = .landed (.error (.transport fault))) :
    ∃ c cause, .landed c (some (.error cause)) ∈ seen ∧ cause.sort = .transport fault := by
  -- A program makes no fault of a transport itself, so one is followed back to its call.
  induction transcript with
  | halted halts =>
    subst failed
    cases halts with
    | finished => exact absurd rfl (transparent fault)
  | @answered c next reply seen ending rest ih =>
    obtain ⟨passes, goesOn⟩ := transparent
    cases reply with
    | error other =>
      rw [passes] at rest
      obtain ⟨-, ended⟩ := transcript_done rest
      rw [failed] at ended
      injection ended with ended
      injection ended with sorted
      exact ⟨c, other, by simp, sorted.symm⟩
    | ok answer =>
      obtain ⟨c', cause, member, sorted⟩ := ih (goesOn answer) failed
      exact ⟨c', cause, List.mem_cons_of_mem _ (List.mem_cons_of_mem _ member), sorted⟩
  | @joined policy scopes next listing seen g ending result survey joins rest ih =>
    obtain ⟨passes, goesOn⟩ := transparent
    cases result with
    | error other =>
      rw [passes] at rest
      obtain ⟨-, ended⟩ := transcript_done rest
      rw [failed] at ended
      obtain rfl : ApiFault.transport fault = other := by simpa using ended
      obtain ⟨cause, first, brought⟩ | ⟨-, -, denied⟩ := survey.collect_cases joins
      · obtain ⟨before, task, after, tasks, reply, -⟩ := List.findSome?_eq_some_iff.mp first
        have member : task ∈ tasksIn listing := by rw [tasks]; simp
        rw [mem_tasksIn, Task.reply_of_failure reply] at member
        exact ⟨_, cause, List.mem_append_left _ member, (Except.error.inj brought).symm⟩
      · split at denied <;> cases denied
    | ok joint =>
      obtain ⟨c, cause, member, sorted⟩ := ih (goesOn joint) failed
      exact ⟨c, cause, List.mem_append_right _ member, sorted⟩
  | cut survey stop => cases failed
  | unjoined survey joins => cases failed

/-- How the volumes of many namespaces come to a result, given the listings that were
answered: with the first fault, with what is picked, or not at all. -/
inductive Joint (policy : ScopePolicy) (pick : List Volume → Except ApiFault α)
    (scopes : List NamespaceId) (tasks : List (Task Volume)) :
    Option (Except ApiFault α) → Prop where
  | failed {missing : List NamespaceId} {fault : TransportFault}
      (asked : (tasks.map Task.scope ++ missing).Perm scopes)
      (first : tasks.findSome? Task.failure? = some fault) :
      Joint policy pick scopes tasks (some (.error fault.sort))
  | denied (asked : (tasks.map Task.scope).Perm scopes) (nonempty : scopes ≠ [])
      (refused : ∀ task ∈ tasks, task.isRefused = true) (strict : policy = .fail) :
      Joint policy pick scopes tasks (some (.error (.refused .unauthorised
        (some ("access denied to all " ++ toString scopes.length ++ " namespaces")))))
  | picked (asked : (tasks.map Task.scope).Perm scopes)
      (clear : ∀ task ∈ tasks, task.failure? = none)
      (permitted : scopes = [] ∨ (∃ task ∈ tasks, task.isRefused = false) ∨ policy = .skip) :
      Joint policy pick scopes tasks (some (pick (tasks.flatMap Task.items)))
  | waiting {missing : List NamespaceId} (asked : (tasks.map Task.scope ++ missing).Perm scopes)
      (clear : ∀ task ∈ tasks, task.failure? = none) (unanswered : missing ≠ []) :
      Joint policy pick scopes tasks none

/-- A join that landed gives the result, since a failed one fails the whole. -/
theorem Joint.of_landed {policy : ScopePolicy} (pick : List Volume → Except ApiFault α)
    {scopes : List NamespaceId} {listing : List Sighting} {g : Gathered}
    {joined : Except ApiFault (Aggregation Volume)} (survey : Survey scopes listing g)
    (joins : Joins policy scopes g (.landed joined)) :
    Joint policy pick scopes (tasksIn listing) (some (joined.bind fun all => pick all.items)) := by
  obtain ⟨fault, first, rfl⟩ | ⟨clear, complete, settled⟩ := survey.collect_cases joins
  · exact .failed survey.spread first
  · have asked := survey.spread
    rw [complete, List.append_nil] at asked
    subst settled
    split
    next denied => exact .denied asked denied.1 denied.2.1 denied.2.2
    next permitted =>
      refine .picked asked clear ?_
      by_cases none : scopes = []
      · exact .inl none
      · by_cases refused : ∀ task ∈ tasksIn listing, task.isRefused = true
        · refine .inr (.inr ?_)
          cases policy with
          | skip => rfl
          | fail => exact absurd ⟨none, refused, rfl⟩ permitted
        · refine .inr (.inl ?_)
          simpa using refused

theorem Transcript.joint {policy : ScopePolicy} {pick : List Volume → Except ApiFault α}
    (transcript : (allVolumes policy pick).Transcript seen ending)
    (unstopped : ∀ stop, ending ≠ .stopped stop) {namespaces : List Namespace}
    (listed : .landed .listNamespaces (some (.ok namespaces)) ∈ seen)
    (client : Client) (operation : Operation α) :
    Joint policy pick (namespaces.map Namespace.id) (tasksIn seen)
      (client.outcome operation ending) := by
  cases transcript with
  | halted halts => exact absurd listed (halts.no_answer _ _)
  | @answered _ _ reply rest _ transcript =>
    have listed := (List.mem_cons.mp listed).resolve_left nofun
    cases reply with
    | error fault =>
      obtain ⟨rfl, -⟩ := transcript_done transcript
      simp at listed
    | ok all =>
      -- After the namespaces, only their volumes are listed.
      have only {g : Gathered} (survey : Survey (all.map Namespace.id) rest g) :
          namespaces = all := by
        rcases List.mem_cons.mp listed with same | later
        · cases same
          rfl
        · obtain ⟨scope, -, call⟩ := survey.lists _ later
          cases call
      cases transcript with
      | halted halts => cases halts
      | @joined _ _ _ listing seen _ _ joined survey joins transcript =>
        have finished : seen = [] ∧ ending = .landed (joined.bind fun all => pick all.items) := by
          cases joined with
          | error fault => exact transcript_done transcript
          | ok joint => exact transcript_done transcript
        obtain ⟨rfl, rfl⟩ := finished
        rw [List.append_nil] at only
        obtain rfl := only survey
        have joint := Joint.of_landed pick survey joins
        rw [List.append_nil]
        exact joint
      | cut survey stop => exact absurd rfl (unstopped stop)
      | unjoined survey joins =>
        obtain rfl := only survey
        cases joins with
        | undecided clear missing =>
          refine .waiting survey.spread (fun task member => ?_) missing
          by_contra failed
          have final := survey.isFinal_iff.mpr ⟨task, member, failed⟩
          rw [clear] at final
          cases final

end Program

/-! ### Operations -/

namespace Operation

/-- The operations of the client. -/
inductive Offered : {α : Type} → Operation α → Prop where
  | authenticate (username password : String) : Offered (.authenticate username password)
  | getCluster : Offered .getCluster
  | getNode (id : NodeId) : Offered (.getNode id)
  | getNodeByName (name : String) : Offered (.getNodeByName name)
  | getNodes (ids : List NodeId) : Offered (.getNodes ids)
  | getNodesByName (names : List String) : Offered (.getNodesByName names)
  | getNamespace (id : NamespaceId) : Offered (.getNamespace id)
  | getNamespaceByName (name : String) : Offered (.getNamespaceByName name)
  | getNamespaces (ids : List NamespaceId) : Offered (.getNamespaces ids)
  | getNamespacesByName (names : List String) : Offered (.getNamespacesByName names)
  | getUser (id : UserId) : Offered (.getUser id)
  | getUserByName (name : String) : Offered (.getUserByName name)
  | getUsers (ids : List UserId) : Offered (.getUsers ids)
  | getUsersByName (names : List String) : Offered (.getUsersByName names)
  | getVolume (scope : NamespaceId) (id : VolumeId) : Offered (.getVolume scope id)
  | getVolumeByName (scope : NamespaceId) (name : String) : Offered (.getVolumeByName scope name)
  | getNamespaceVolumes (scope : NamespaceId) (ids : List VolumeId) :
      Offered (.getNamespaceVolumes scope ids)
  | getNamespaceVolumesByName (scope : NamespaceId) (names : List String) :
      Offered (.getNamespaceVolumesByName scope names)
  | getAllVolumes (policy : ScopePolicy) (ids : List VolumeId) : Offered (.getAllVolumes policy ids)
  | getAllVolumesByName (policy : ScopePolicy) (names : List String) :
      Offered (.getAllVolumesByName policy names)
  | create (creation : Creation) : Offered creation.operation
  | alter (change : Change) (constraint : VersionConstraint) : Offered (change.operation constraint)

variable {α : Type} {operation : Operation α}

/-- Whether an operation lists the volumes of all namespaces at once. -/
def Gathers (operation : Operation α) : Prop :=
  ∃ policy pick, operation.program = .allVolumes policy pick

theorem sequential_of_ask {c : Call} {result : c.Answer → Except ApiFault α} :
    (Program.ask c fun answer => .done (result answer)).Sequential := by
  intro reply
  cases reply with
  | ok answer => trivial
  | error fault => trivial

end Operation

theorem Change.operation_transparent (change : Change) (constraint : VersionConstraint) :
    (change.operation constraint).program.Transparent := by
  have applying (v : Version) : (change.applying v).Transparent := by
    rw [← change.applying_eq]
    exact Program.ask_transparent fun _ _ failed => nomatch failed
  rw [change.operation_program]
  cases constraint with
  | conditional v => exact applying v
  | unconditional => exact ⟨fun _ => rfl, fun resource => applying (change.version resource)⟩

namespace Operation

variable {σ α : Type} {operation : Operation α}

theorem Offered.transparent (offered : operation.Offered) : operation.program.Transparent := by
  cases offered with
  | authenticate | getCluster | getNode | getNamespace | getUser | getVolume =>
    exact Program.only_transparent _
  | getNodeByName name | getNamespaceByName name | getUserByName name | getVolumeByName _ name =>
    exact Program.ask_transparent fun all => Selection.byName_local all name
  | getNodes ids | getNamespaces ids | getUsers ids | getNamespaceVolumes _ ids =>
    exact Program.ask_transparent fun all => Selection.byIds_local all ids
  | getNodesByName names | getNamespacesByName names | getUsersByName names
  | getNamespaceVolumesByName _ names =>
    exact Program.ask_transparent fun all => Selection.byNames_local all names
  | getAllVolumes policy ids =>
    exact Program.allVolumes_transparent policy fun all => Selection.byIds_local all ids
  | getAllVolumesByName policy names =>
    exact Program.allVolumes_transparent policy fun all => Selection.byNames_local all names
  | create creation =>
    rw [creation.operation_program]
    exact Program.only_transparent _
  | alter change constraint => exact change.operation_transparent constraint

theorem Offered.sequential_or_gathers (offered : operation.Offered) :
    operation.program.Sequential ∨ operation.Gathers := by
  cases offered with
  | getAllVolumes policy ids => exact .inr ⟨policy, (Selection.byIds · ids), rfl⟩
  | getAllVolumesByName policy names => exact .inr ⟨policy, (Selection.byNames · names), rfl⟩
  | alter change constraint => exact .inl (change.operation_sequential constraint)
  | create creation =>
    rw [creation.operation_program]
    exact .inl sequential_of_ask
  | _ => exact .inl sequential_of_ask

/-- Every fault of a call ends the operation and is returned as its status sorts it, and the
joint listing leaves out refused namespaces only. Nothing else reads as a fault of a
transport, and none that its status sorts is returned unsorted. -/
theorem faults_passed_on (offered : operation.Offered) {client : Client} {T : Transport σ}
    {m : Machine σ} (undisturbed : client.Undisturbed T operation m) :
    let seen := client.seen T operation m
    let result := (client.perform T operation m).1
    (∀ before c fault after, seen = before ++ .landed c (some (.error fault)) :: after →
      ¬(operation.Gathers ∧ ∃ scope, c = .listVolumes scope) →
        after = [] ∧ result = some (.error fault.sort)) ∧
    (∀ policy pick, operation.program = .allVolumes policy pick →
      ∀ namespaces, .landed .listNamespaces (some (.ok namespaces)) ∈ seen →
        Program.Joint policy pick (namespaces.map Namespace.id) (tasksIn seen) result) ∧
    ∀ status payload, result = some (.error (.transport (.response status payload))) →
      Refusal.ofStatus? status = none := by
  intro seen result
  obtain ⟨ending, transcript, unstopped, outcome⟩ := undisturbed.transcript
  have transparent := offered.transparent
  have landed {fault : ApiFault} (failed : result = some (.error fault)) :
      ending = .landed (.error fault) := by
    rw [show result = client.outcome operation ending from outcome] at failed
    cases ending with
    | landed returned =>
      cases failed
      rfl
    | stopped stop => exact absurd rfl (unstopped stop)
    | waiting => cases failed
  refine ⟨fun before c fault after split own => ?_, fun policy pick program namespaces listed => ?_,
    fun status payload failed => ?_⟩
  · have single : operation.program.Sequential ∨ ∀ scope, c ≠ .listVolumes scope :=
      offered.sequential_or_gathers.imp_right fun gathers scope listing =>
        own ⟨gathers, scope, listing⟩
    obtain ⟨last, rfl⟩ := transcript.fault_last transparent unstopped split single
    exact ⟨last, outcome⟩
  · rw [program] at transcript
    rw [show result = client.outcome operation ending from outcome]
    exact transcript.joint unstopped listed _ _
  · obtain ⟨c, cause, -, sorted⟩ := transcript.fault_brought transparent (landed failed)
    obtain ⟨rfl, unsorted⟩ := TransportFault.sort_eq_transport sorted
    exact unsorted status payload rfl

/-- A listing fails after another was refused; the name that is asked for is in neither. When
both are refused, and that is to fail, their number is told. -/
theorem fault_before_missing_name :
    let a : NamespaceId := ⟨⟨"a", by decide⟩⟩
    let b : NamespaceId := ⟨⟨"b", by decide⟩⟩
    let space (id : NamespaceId) : Namespace :=
      ⟨id, "space", .empty, none, none, World.firstVersion⟩
    let refusal : TransportFault := .response 403 (.raw "")
    let failure : TransportFault := .response 500 (.raw "boom")
    let world : World := { World.empty with
      namespaces := [space a, space b]
      faults := [⟨⟨"list_volumes", some "a"⟩, none, refusal⟩,
        ⟨⟨"list_volumes", some "b"⟩, none, failure⟩] }
    let m : Machine World := ⟨world, 0, [], none⟩
    let client : Client := ⟨none, .fail⟩
    let closed : Machine World := ⟨{ world with
      faults := [⟨⟨"list_volumes", none⟩, none, refusal⟩] }, 0, [], none⟩
    let operation : Operation (List Volume) := .getAllVolumesByName .fail ["disk"]
    let tasks : List (Task Volume) := [⟨a, .error refusal⟩, ⟨b, .error failure⟩]
    let refused : List (Task Volume) := [⟨a, .error refusal⟩, ⟨b, .error refusal⟩]
    (tasksIn (client.seen World.transport operation m) = tasks ∧
      Program.Joint .fail (Selection.byNames · ["disk"]) [a, b] tasks
        (client.perform World.transport operation m).1 ∧
      (client.perform World.transport operation m).1 =
        some (.error (.refused .server (some "boom")))) ∧
    tasksIn (client.seen World.transport operation closed) = refused ∧
      Program.Joint .fail (Selection.byNames · ["disk"]) [a, b] refused
        (client.perform World.transport operation closed).1 ∧
      (client.perform World.transport operation closed).1 =
        some (.error (.refused .unauthorised (some "access denied to all 2 namespaces"))) := by
  intro a b space refusal failure world m client closed operation tasks refused
  have accounts {start : Machine World}
      (undisturbed : client.Undisturbed World.transport operation start)
      {tasks : List (Task Volume)}
      (answered : tasksIn (client.seen World.transport operation start) = tasks)
      (listed : .landed .listNamespaces (some (.ok [space a, space b])) ∈
        client.seen World.transport operation start) :
      Program.Joint .fail (Selection.byNames · ["disk"]) [a, b] tasks
        (client.perform World.transport operation start).1 := by
    obtain ⟨-, joint, -⟩ := faults_passed_on (.getAllVolumesByName .fail ["disk"]) undisturbed
    have accounts := joint .fail (Selection.byNames · ["disk"]) rfl [space a, space b] listed
    rwa [answered] at accounts
  have listed : .landed .listNamespaces (some (.ok [space a, space b])) ∈
      client.seen World.transport operation m :=
    List.mem_cons_of_mem _ List.mem_cons_self
  refine ⟨⟨rfl, accounts (.of_free rfl rfl) rfl listed, rfl⟩,
    rfl, accounts (.of_free rfl rfl) rfl (List.mem_cons_of_mem _ List.mem_cons_self), ?_⟩
  decide +kernel

/-- Refusals by all namespaces do more than leave these out, when the policy is to fail. -/
theorem refusals_fail_the_listing :
    let a : NamespaceId := ⟨⟨"a", by decide⟩⟩
    let world : World := { World.empty with
      namespaces := [⟨a, "a", .empty, none, none, World.firstVersion⟩]
      faults := [⟨⟨"list_volumes", none⟩, none, .response 403 (.raw "")⟩] }
    let m : Machine World := ⟨world, 0, [], none⟩
    let client : Client := ⟨none, .fail⟩
    let operation : Operation (List Volume) := .getAllVolumes .fail []
    tasksIn (client.seen World.transport operation m) = [⟨a, .error (.response 403 (.raw ""))⟩] ∧
      Selection.byIds ([] : List Volume) [] = .ok [] ∧
      (client.perform World.transport operation m).1 =
        some (.error (.refused .unauthorised (some "access denied to all 1 namespaces"))) :=
  ⟨rfl, rfl, rfl⟩

end Operation

end StorageControl
