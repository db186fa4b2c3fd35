import StorageControl.Proofs.Provenance
import StorageControl.Proofs.Transparency

/-! What wrong input on the command line costs.

A command finds all that is wrong with its arguments before it asks the server for
anything. The process logs in before its command looks at them, so that wrong input may
cost the login, and the login may fail first; nothing else is ever asked.
-/

set_option autoImplicit false

namespace StorageControl

variable {σ α β : Type} {fault : ConfigFault}

/-! ### Wrong input -/

namespace Command

/-- Whether a command works in a namespace that has to be given. -/
def needsScope : Command → Bool
  | getVolume _ | createVolume _ _ _ _ _ _ | deleteVolume _ _ _ | setReplicas _ _ _
  | detachVolume _ _ => true
  | _ => false

/-- Whether a command looks at the namespace that is given. -/
def usesScope : Command → Bool
  | getVolumes _ => true
  | command => command.needsScope

/-- The arguments that may be identifiers, each with the kind that it is of. -/
def arguments : Command → List (String × String)
  | getNode name => [("node", name)]
  | getNodes names => names.map ("node", ·)
  | getNamespace name | deleteNamespace name _ => [("namespace", name)]
  | getNamespaces names => names.map ("namespace", ·)
  | getUser name | deleteUser name _ => [("user", name)]
  | getUsers names => names.map ("user", ·)
  | getVolume name | deleteVolume name _ _ | setReplicas name _ _ | detachVolume name _ =>
    [("volume", name)]
  | getVolumes names => names.map ("volume", ·)
  | getCluster | createVolume _ _ _ _ _ _ | createNamespace _ _ | createUser _ _ _ _ => []

def groups : Command → List String
  | createUser _ _ _ groups => groups
  | _ => []

def labels : Command → List String
  | createVolume _ _ _ _ labels _ | createNamespace _ labels => labels
  | _ => []

/-- Input that is wrong whatever the server says. -/
inductive Misuse (command : Command) (o : Options) : ConfigFault → Prop where
  | namespaceRequired (needs : command.needsScope = true) (missing : o.scope = none) :
      Misuse command o .namespaceRequired
  | emptyScope (uses : command.usesScope = true) (ids : o.useIds = true)
      (empty : o.scope = some "") : Misuse command o (.emptyId "namespace")
  | emptyId {kind : String} (ids : o.useIds = true) (empty : (kind, "") ∈ command.arguments) :
      Misuse command o (.emptyId kind)
  | emptyVersion (empty : command.version? = some "") : Misuse command o .emptyVersion
  | emptyGroup (empty : "" ∈ command.groups) : Misuse command o (.emptyId "policy group")
  | labels {flaw : Labels.Flaw} (flawed : Labels.ofPairs command.labels = .error flaw) :
      Misuse command o (.labels flaw)

end Command

/-- Wrong input to a process: that of its command, and endpoints that are all blank. -/
inductive Invocation.Misuse (i : Invocation) : ConfigFault → Prop where
  | noEndpoint (blank : ∀ endpoint ∈ i.options.endpoints, Text.trim endpoint = "") :
      Misuse i .noEndpoint
  | command {fault : ConfigFault} (misuse : i.command.Misuse i.options fault) : Misuse i fault

/-! ### Arguments -/

namespace Argument

variable {subject : Subject} {kind text : String}

theorem id_error_iff :
    (id kind text : Except ConfigFault (Id subject)) = .error fault ↔
      text = "" ∧ fault = .emptyId kind := by
  unfold id
  constructor
  · intro failed
    split at failed
    · cases failed
    next empty =>
      cases failed
      exact ⟨(Id.ofText?_eq_none_iff text).mp empty, rfl⟩
  · rintro ⟨rfl, rfl⟩
    rfl

theorem ids_error {texts : List String}
    (failed : (ids kind texts : Except ConfigFault (List (Id subject))) = .error fault) :
    "" ∈ texts ∧ fault = .emptyId kind := by
  obtain ⟨text, member, failed⟩ := mapM_error failed
  obtain ⟨rfl, named⟩ := id_error_iff.mp failed
  exact ⟨member, named⟩

theorem ids_of_empty {texts : List String} (empty : "" ∈ texts) :
    (ids kind texts : Except ConfigFault (List (Id subject))) = .error (.emptyId kind) := by
  obtain ⟨before, after, rfl, others⟩ := List.eq_append_cons_of_mem empty
  refine mapM_eq_error_iff.mpr
    ⟨before, "", after, rfl, fun text earlier => ?_, id_error_iff.mpr ⟨rfl, rfl⟩⟩
  cases read : (id kind text : Except ConfigFault (Id subject)) with
  | ok one => exact ⟨one, rfl⟩
  | error fault => exact absurd ((id_error_iff.mp read).1 ▸ earlier) others

theorem constraint_error_iff {version : Option String} :
    constraint version = .error fault ↔ version = some "" ∧ fault = .emptyVersion := by
  cases version with
  | none => simp [constraint]
  | some text =>
    by_cases empty : text = ""
    · subst empty
      simp [constraint, Version.ofText?, Token.ofText?, eq_comm]
    · simp [constraint, Version.ofText?, Token.ofText?, empty]

theorem labels_error_iff {pairs : List String} :
    labels pairs = .error fault ↔
      ∃ flaw, Labels.ofPairs pairs = .error flaw ∧ fault = .labels flaw := by
  unfold labels
  cases Labels.ofPairs pairs <;> simp [Except.mapError, eq_comm]

end Argument

/-! ### What ends a procedure before its first operation -/

/-- Whether a procedure ends with a fault of a kind, whatever the server says. -/
def Procedure.Refuses (procedure : Procedure α) (P : ConfigFault → Prop) : Prop :=
  ∃ fault, P fault ∧ procedure = .done (.error (.of (.config fault)))

section Rules

variable {P : ConfigFault → Prop} {o : Options}

theorem Procedure.refuses_check {argument : Except ConfigFault β} {next : β → Procedure α}
    (names : ∀ fault, argument = .error fault → P fault)
    (wrong : (∃ fault, argument = .error fault) ∨ ∀ b, (next b).Refuses P) :
    (check argument next).Refuses P := by
  cases argument with
  | error fault => exact ⟨fault, names fault rfl, rfl⟩
  | ok b => exact wrong.resolve_left nofun b

namespace Options

open Procedure (check refuses_check)

theorem refuses_id {subject : Subject} {kind text : String} {next : Id subject → Procedure α}
    {other : Procedure α} (ids : o.useIds = true) (names : text = "" → P (.emptyId kind))
    (wrong : text = "" ∨ ∀ id, (next id).Refuses P) :
    (if o.useIds then check (Argument.id kind text) next else other).Refuses P := by
  rw [if_pos ids]
  apply refuses_check
  · intro fault failed
    obtain ⟨empty, rfl⟩ := Argument.id_error_iff.mp failed
    exact names empty
  · exact wrong.imp_left fun empty => ⟨_, Argument.id_error_iff.mpr ⟨empty, rfl⟩⟩

theorem refuses_ids {subject : Subject} {kind : String} {texts : List String}
    {next : List (Id subject) → Procedure α} {other : Procedure α} (ids : o.useIds = true)
    (names : P (.emptyId kind)) (wrong : "" ∈ texts) :
    (if o.useIds then check (Argument.ids kind texts) next else other).Refuses P := by
  rw [if_pos ids]
  apply refuses_check
  · intro fault failed
    rw [(Argument.ids_error failed).2]
    exact names
  · exact .inl ⟨_, Argument.ids_of_empty wrong⟩

theorem refuses_withScope {next : NamespaceId → Procedure α}
    (requires : o.scope = none → P .namespaceRequired)
    (names : o.useIds = true → o.scope = some "" → P (.emptyId "namespace"))
    (wrong : o.scope = none ∨
      o.useIds = true ∧ (o.scope = some "" ∨ ∀ scope, (next scope).Refuses P)) :
    (o.withScope next).Refuses P := by
  unfold withScope requiredScope
  cases given : o.scope with
  | none => exact ⟨_, requires given, rfl⟩
  | some argument =>
    obtain ⟨ids, wrong⟩ := wrong.resolve_left (by simp [given])
    exact refuses_id ids (fun empty => names ids (by rw [given, empty]))
      (wrong.imp_left fun empty => by simpa [given] using empty)

/-- What is wrong with the use of one volume. -/
theorem refuses_onVolume {name : String} {next : NamespaceId → VolumeId → Procedure α}
    {other : NamespaceId → Procedure α} (requires : o.scope = none → P .namespaceRequired)
    (names : o.useIds = true → o.scope = some "" → P (.emptyId "namespace"))
    (calls : o.useIds = true → "" = name → P (.emptyId "volume"))
    (wrong : o.scope = none ∨ o.useIds = true ∧ (o.scope = some "" ∨ "" = name)) :
    (o.withScope fun scope => if o.useIds then check (Argument.id "volume" name) (next scope)
      else other scope).Refuses P := by
  refine refuses_withScope requires names (wrong.imp_right fun ⟨ids, wrong⟩ => ⟨ids, ?_⟩)
  exact wrong.imp_right fun empty scope =>
    refuses_id ids (fun _ => calls ids empty) (.inl empty.symm)

end Options

end Rules

namespace Command

open Options (refuses_id refuses_ids refuses_withScope refuses_onVolume)
open Procedure (refuses_check)

variable {o : Options} {command : Command}

/-- The places where the input of a command may be wrong, as the command comes to them. -/
theorem Misuse.split (misuse : command.Misuse o fault) :
    (∃ flaw, Labels.ofPairs command.labels = .error flaw) ∨ "" ∈ command.groups ∨
    command.version? = some "" ∨ (command.needsScope = true ∧ o.scope = none) ∨
    (o.useIds = true ∧ (command.usesScope = true ∧ o.scope = some "" ∨
      ∃ kind, (kind, "") ∈ command.arguments)) := by
  cases misuse with
  | labels flawed => exact .inl ⟨_, flawed⟩
  | emptyGroup empty => exact .inr (.inl empty)
  | emptyVersion empty => exact .inr (.inr (.inl empty))
  | namespaceRequired needs missing => exact .inr (.inr (.inr (.inl ⟨needs, missing⟩)))
  | emptyScope uses ids empty => exact .inr (.inr (.inr (.inr ⟨ids, .inl ⟨uses, empty⟩⟩)))
  | emptyId ids empty => exact .inr (.inr (.inr (.inr ⟨ids, .inr ⟨_, empty⟩⟩)))

theorem Misuse.split_plain (misuse : command.Misuse o fault) (bare : command.labels = [])
    (alone : command.groups = []) :
    command.version? = some "" ∨ (command.needsScope = true ∧ o.scope = none) ∨
    (o.useIds = true ∧ (command.usesScope = true ∧ o.scope = some "" ∨
      ∃ kind, (kind, "") ∈ command.arguments)) := by
  obtain ⟨flaw, flawed⟩ | group | others := misuse.split
  · rw [bare] at flawed
    cases flawed
  · rw [alone] at group
    cases group
  · exact others

/-- A version that is wrong, or what follows the version. -/
theorem refuses_constraint {version : Option String} (mine : command.version? = version)
    {next : VersionConstraint → Procedure α}
    (wrong : version = some "" ∨ ∀ constraint, (next constraint).Refuses (command.Misuse o)) :
    (Procedure.check (Argument.constraint version) next).Refuses (command.Misuse o) := by
  apply refuses_check
  · intro fault failed
    obtain ⟨rfl, rfl⟩ := Argument.constraint_error_iff.mp failed
    exact .emptyVersion mine
  · exact wrong.imp_left fun empty => ⟨_, Argument.constraint_error_iff.mpr ⟨empty, rfl⟩⟩

theorem refuses_labels {labels : List String} (mine : command.labels = labels)
    {next : Labels → Procedure α}
    (wrong : (∃ flaw, Labels.ofPairs labels = .error flaw) ∨
      ∀ read, (next read).Refuses (command.Misuse o)) :
    (Procedure.check (Argument.labels labels) next).Refuses (command.Misuse o) := by
  subst mine
  apply refuses_check
  · intro fault failed
    obtain ⟨flaw, flawed, rfl⟩ := Argument.labels_error_iff.mp failed
    exact .labels flawed
  · refine wrong.imp_left fun ⟨flaw, flawed⟩ => ?_
    exact ⟨_, Argument.labels_error_iff.mpr ⟨flaw, flawed, rfl⟩⟩

/-- A command whose input is wrong performs no operation. -/
theorem refuses_of_misuse (misuse : command.Misuse o fault) :
    (command.procedure o).Refuses (command.Misuse o) := by
  cases command with
  | getCluster =>
    have split := misuse.split_plain rfl rfl
    simp [needsScope, usesScope, arguments, version?] at split
  | getNode name | getNamespace name | getUser name =>
    have split := misuse.split_plain rfl rfl
    obtain ⟨ids, rfl⟩ : o.useIds = true ∧ "" = name := by
      simpa [needsScope, usesScope, arguments, version?] using split
    exact refuses_id ids (fun _ => .emptyId ids List.mem_cons_self) (.inl rfl)
  | getNodes names | getNamespaces names | getUsers names =>
    have split := misuse.split_plain rfl rfl
    obtain ⟨ids, empty⟩ : o.useIds = true ∧ "" ∈ names := by
      simpa [needsScope, usesScope, arguments, version?] using split
    exact refuses_ids ids (.emptyId ids (List.mem_map_of_mem empty)) empty
  | getVolume name =>
    have split := misuse.split_plain rfl rfl
    have wrong : o.scope = none ∨ o.useIds = true ∧ (o.scope = some "" ∨ "" = name) := by
      simpa [needsScope, usesScope, arguments, version?] using split
    exact refuses_onVolume (.namespaceRequired rfl) (.emptyScope rfl)
      (fun ids => by rintro rfl; exact .emptyId ids List.mem_cons_self) wrong
  | getVolumes names =>
    have split := misuse.split_plain rfl rfl
    obtain ⟨ids, wrong⟩ : o.useIds = true ∧ (o.scope = some "" ∨ "" ∈ names) := by
      simpa [needsScope, usesScope, arguments, version?] using split
    have named (empty : "" ∈ names) : (getVolumes names).Misuse o (.emptyId "volume") :=
      .emptyId ids (List.mem_map_of_mem empty)
    unfold procedure volumesProcedure
    cases given : o.scope with
    | none =>
      have empty := wrong.resolve_left (by simp [given])
      exact refuses_ids ids (named empty) empty
    | some argument =>
      refine refuses_id ids (fun empty => .emptyScope rfl ids (by rw [given, empty])) ?_
      rw [given, Option.some.injEq] at wrong
      exact wrong.imp_right fun empty scope => refuses_ids ids (named empty) empty
  | createVolume name description size filesystem labels asyncMax =>
    have wrong : (∃ flaw, Labels.ofPairs labels = .error flaw) ∨
        o.scope = none ∨ (o.useIds = true ∧ o.scope = some "") := by
      simpa [needsScope, usesScope, arguments, version?, groups, Command.labels]
        using misuse.split
    refine refuses_labels rfl (wrong.imp_right fun wrong read => ?_)
    exact refuses_withScope (.namespaceRequired rfl) (.emptyScope rfl)
      (wrong.imp_right fun ⟨ids, empty⟩ => ⟨ids, .inl empty⟩)
  | createNamespace name labels =>
    refine refuses_labels rfl (.inl ?_)
    simpa [needsScope, usesScope, arguments, version?, groups, Command.labels]
      using misuse.split
  | createUser username password isAdmin groups =>
    have empty : "" ∈ groups := by
      have bare : ¬∃ flaw, Labels.ofPairs [] = .error flaw := nofun
      simpa [needsScope, usesScope, arguments, version?, labels, bare, Command.groups]
        using misuse.split
    have failed : (Argument.ids "policy group" groups : Except ConfigFault (List PolicyGroupId)) =
        .error (.emptyId "policy group") := Argument.ids_of_empty empty
    exact ⟨_, .emptyGroup empty, by rw [procedure, failed]; rfl⟩
  | deleteVolume name version asyncMax | setReplicas name replicas version
  | detachVolume name version =>
    have split := misuse.split_plain rfl rfl
    have wrong : version = some "" ∨ o.scope = none ∨
        o.useIds = true ∧ (o.scope = some "" ∨ "" = name) := by
      simpa [needsScope, usesScope, arguments, version?] using split
    refine refuses_constraint rfl (wrong.imp_right fun wrong constraint => ?_)
    exact refuses_onVolume (.namespaceRequired rfl) (.emptyScope rfl)
      (fun ids => by rintro rfl; exact .emptyId ids List.mem_cons_self) wrong
  | deleteNamespace name version | deleteUser name version =>
    have split := misuse.split_plain rfl rfl
    have wrong : version = some "" ∨ o.useIds = true ∧ "" = name := by
      simpa [needsScope, usesScope, arguments, version?] using split
    refine refuses_constraint rfl (wrong.imp_right fun ⟨ids, empty⟩ constraint => ?_)
    subst empty
    exact refuses_id ids (fun _ => .emptyId ids List.mem_cons_self) (.inl rfl)

end Command

/-! ### Processes -/

theorem Service.Records.of_once {service : Service} {seen : List Sighting}
    {log : List (Http.Request × Http.Outcome)} (records : service.Records seen log) {c : Call}
    (once : callsIn seen = [] ∨ callsIn seen = [c]) : log = [] ∨ service.Traces c log := by
  rcases once with none | single
  · exact .inl (records.nil_of_calls none)
  · obtain ⟨calls, trails, among, traced, rfl⟩ := records.trails
    rw [single] at among
    rcases List.sublist_singleton.mp among with rfl | rfl
    · rw [List.forall₂_nil_left_iff.mp traced]
      exact .inl rfl
    · obtain ⟨trail, others, traces, none, rfl⟩ := List.forall₂_cons_left_iff.mp traced
      rw [List.forall₂_nil_left_iff.mp none, List.flatten_cons, List.flatten_nil, List.append_nil]
      exact .inr traces

namespace Invocation

open Http (Network)

variable {i : Invocation}

theorem service_of_blank (misuse : i.Misuse .noEndpoint) :
    i.service = .error (.of (.config .noEndpoint)) := by
  have blank : ∀ endpoint ∈ i.options.endpoints, Text.trim endpoint = "" := by
    cases misuse with
    | noEndpoint blank => exact blank
    | command misuse => cases misuse
  have none : (i.options.endpoints.map Text.trim).find? (· ≠ "") = none := by
    simpa [List.find?_eq_none] using blank
  rw [service, Options.endpoint, none]

def complaint (fault : ConfigFault) : Report :=
  ⟨Exit.usage, some ("error: " ++ fault.message), ""⟩

/-- A process with wrong input sends the login at most, prints nothing and fails. Once it
has logged in, or has nowhere to log in, it names wrong input and its exit code is 2. -/
theorem misuse_costs_at_most_a_login (misuse : i.Misuse fault) (network : Network σ)
    (server : σ) :
    ∃ report, (i.run network server).1 = some report ∧ report.exit ≠ 0 ∧ report.output = "" ∧
      (i.log network server = [] ∨
        ∃ service, i.service = .ok service ∧
          service.Traces i.loginCall (i.log network server)) ∧
      (i.Misuse .noEndpoint → i.log network server = []) ∧
      (i.Misuse .noEndpoint ∨ (∃ user, Answered (i.seen network server) i.loginCall user) →
        ∃ wrong, i.Misuse wrong ∧ report = complaint wrong) := by
  have watched := i.watched_run network server
  generalize i.seen network server = seen at watched ⊢
  generalize i.log network server = log at watched ⊢
  generalize (i.run network server).1 = report at watched
  cases watched with
  | unreachable unmade =>
    obtain ⟨fails, silent⟩ := Report.ofResult_of_error _
    refine ⟨_, rfl, fails, silent, .inl rfl, fun _ => rfl, ?_⟩
    rintro (blank | ⟨user, answered⟩)
    · rw [service_of_blank blank] at unmade
      cases unmade
      exact ⟨_, blank, rfl⟩
    · simp [Answered] at answered
  | @reached service _ _ result made transcript records answers =>
    -- There is an endpoint, so it is the command whose input is wrong.
    have placed : ¬i.Misuse .noEndpoint := fun blank => by
      rw [service_of_blank blank] at made
      cases made
    have misuse : i.command.Misuse i.options fault := by
      cases misuse with
      | noEndpoint blank => exact absurd (.noEndpoint blank) placed
      | command misuse => exact misuse
    obtain ⟨calls, ⟨failure, rfl⟩, failed⟩ | ⟨user, rest, rfl, later⟩ :=
      transcript_login transcript
    · -- The login failed, and the command was not looked at.
      obtain ⟨fails, silent⟩ := Report.ofResult_of_error failure
      refine ⟨_, rfl, fails, silent, ?_, fun blank => absurd blank placed, ?_⟩
      · exact (records.of_once calls).imp_right fun traces => ⟨service, made, traces⟩
      · rintro (blank | ⟨user, answered⟩)
        · exact absurd blank placed
        · exact absurd answered (failed user)
    · -- The login succeeded, and the command refused its input.
      obtain ⟨wrong, named, refused⟩ := Command.refuses_of_misuse misuse
      rw [refused] at later
      cases later
      obtain ⟨fails, silent⟩ := Report.ofResult_of_error (.of (.config wrong))
      refine ⟨_, rfl, fails, silent, ?_, fun blank => absurd blank placed, fun _ => ?_⟩
      · exact (records.of_once (.inr rfl)).imp_right fun traces => ⟨service, made, traces⟩
      · exact ⟨wrong, .command named, rfl⟩

/-- A login that went through. -/
def grants (username password : String) : Sighting → Bool
  | .landed (.authenticate u p) (some (.ok _)) => u == username && p == password
  | _ => false

theorem answered_of_grants {seen : List Sighting} {username password : String}
    (granted : seen.any (grants username password) = true) :
    ∃ user, Answered seen (.authenticate username password) user := by
  obtain ⟨s, member, granted⟩ := List.any_eq_true.mp granted
  unfold grants at granted
  split at granted
  next u p user =>
    rw [Bool.and_eq_true, beq_iff_eq, beq_iff_eq] at granted
    obtain ⟨rfl, rfl⟩ := granted
    exact ⟨user, member⟩
  next => cases granted

/-- An empty identifier is found out behind the login. -/
theorem empty_volume_costs_a_login :
    let words := ["delete", "volume", "", "--use-ids", "-n", "ns"]
    let user := Text.runes "\x7b\"id\":\"u\",\"username\":\"ann\",\"version\":\"1\"\x7d"
    let network : Network Unit := fun _ s =>
      (.reply ⟨200, [("Authorization", "Bearer tok")], user, true⟩, s)
    ∃ i wrong, ofWords (fun _ => none) words = .ok i ∧ i.Misuse (.emptyId "volume") ∧
      ((i.log network ()).map fun entry => (entry.1.method, entry.1.target)) =
        [(.post, "/v2/auth/login")] ∧
      i.Misuse wrong ∧ (i.run network ()).1 = some (complaint wrong) ∧
      (i.run network ()).1 =
        some ⟨2, some "error: volume identifier must not be empty", ""⟩ := by
  intro words user network
  let options : Options :=
    ⟨["localhost:5705"], Span.ofParts 5 0, "storageos", "storageos", true, some "ns", .skip, .text⟩
  let i : Invocation := ⟨options, .deleteVolume "" none none⟩
  have misuse : i.Misuse (.emptyId "volume") := .command (.emptyId rfl List.mem_cons_self)
  have ran : (i.run network ()).1 =
      some ⟨2, some "error: volume identifier must not be empty", ""⟩ := by
    decide +kernel
  have answered : ∃ user, Answered (i.seen network ()) i.loginCall user :=
    answered_of_grants (by decide +kernel)
  obtain ⟨report, reported, -, -, -, -, complains⟩ := misuse_costs_at_most_a_login misuse network ()
  obtain ⟨wrong, named, same⟩ := complains (.inr answered)
  refine ⟨i, wrong, rfl, misuse, by decide +kernel, named, by rw [reported, same], ran⟩

/-- Malformed labels go unnoticed when the login fails. -/
theorem malformed_label_costs_a_login :
    let words := ["create", "namespace", "n", "--labels", "env"]
    let network : Network Unit := fun _ s => (.reply ⟨401, [], [], true⟩, s)
    ∃ i, ofWords (fun _ => none) words = .ok i ∧ i.Misuse (.labels (.malformed "env")) ∧
      ((i.log network ()).map fun entry => (entry.1.method, entry.1.target)) =
        [(.post, "/v2/auth/login")] ∧
      (i.run network ()).1 =
        some ⟨4, some "error: authenticating as storageos: authentication failed", ""⟩ := by
  intro words network
  let options : Options :=
    ⟨["localhost:5705"], Span.ofParts 5 0, "storageos", "storageos", false, none, .skip, .text⟩
  let i : Invocation := ⟨options, .createNamespace "n" ["env"]⟩
  refine ⟨i, rfl, .command (.labels rfl), ?_, ?_⟩
  · decide +kernel
  · decide +kernel

end Invocation

end StorageControl
