import StorageControl.Proofs.Log
import StorageControl.Proofs.Steady
import StorageControl.Proofs.Transparency

/-! How commands conduct themselves.

A command reads before it changes anything, and changes one thing at most. It comes that
far, or to a document, only when all that it relies on has been found: its arguments are
right, the names that it was given stand for one resource each, and the version that it
was not given has been read.
-/

set_option autoImplicit false

namespace StorageControl

open StorageControl.Json (Value)

variable {σ α β : Type}

/-! ### Calls that took effect -/

def Sighting.landed? : Sighting → Option Call
  | landed c _ => some c
  | started _ => none

def callsIn (seen : List Sighting) : List Call := seen.filterMap Sighting.landed?

@[simp]
theorem callsIn_nil : callsIn [] = [] := rfl

@[simp]
theorem callsIn_started (c : Call) (seen : List Sighting) :
    callsIn (.started c :: seen) = callsIn seen := rfl

@[simp]
theorem callsIn_landed (c : Call) (reply : Option c.Reply) (seen : List Sighting) :
    callsIn (.landed c reply :: seen) = c :: callsIn seen := rfl

@[simp]
theorem callsIn_append (before after : List Sighting) :
    callsIn (before ++ after) = callsIn before ++ callsIn after :=
  List.filterMap_append

theorem mem_callsIn {seen : List Sighting} {c : Call} :
    c ∈ callsIn seen ↔ ∃ reply, .landed c reply ∈ seen := by
  rw [callsIn, List.mem_filterMap]
  constructor
  · rintro ⟨s, member, same⟩
    cases s with
    | started => cases same
    | landed c reply =>
      cases same
      exact ⟨reply, member⟩
  · rintro ⟨reply, member⟩
    exact ⟨_, member, rfl⟩

def Call.IsGet (c : Call) : Prop := c.route.method = .get

theorem Call.isMutation_method {c : Call} (changes : c.isMutation = true) :
    c.route.method.isMutation = true := by
  cases c <;> first | rfl | cases changes

theorem Call.IsGet.not_isMutation {c : Call} (get : c.IsGet) : c.isMutation = false := by
  cases changes : c.isMutation with
  | false => rfl
  | true =>
    have method := isMutation_method changes
    rw [get] at method
    cases method

/-- Whether a call lists resources, by which names are looked up. -/
def Call.isLookup : Call → Bool
  | .listNodes | .listNamespaces | .listUsers | .listVolumes _ => true
  | _ => false

theorem Call.isGet_of_isLookup {c : Call} (listing : c.isLookup = true) : c.IsGet := by
  cases c <;> first | rfl | cases listing

theorem gets_of_lists {seen : List Sighting} (lists : ∀ s ∈ seen, s.call.isLookup = true) :
    ∀ c ∈ callsIn seen, c.IsGet := by
  intro c member
  obtain ⟨reply, member⟩ := mem_callsIn.mp member
  exact Call.isGet_of_isLookup (lists _ member)

/-! ### Transcripts of operations -/

namespace Program

variable {seen : List Sighting} {ending : Landing (Except ApiFault α)}

theorem Transcript.asks {program : Program α} {asked : Call → Prop} (asks : program.Asks asked)
    (transcript : program.Transcript seen ending) : ∀ s ∈ seen, asked s.call := by
  -- Every sighting is of the first call, of a listing, or of what follows them.
  induction transcript with
  | halted halts =>
    cases halts with
    | finished => simp
    | unanswered c next | abandoned c next stop =>
      intro s member
      simp only [List.mem_cons, List.not_mem_nil, or_false] at member
      rcases member with rfl | rfl
      · exact asks.1
      · exact asks.1
    | dropped c next stop =>
      intro s member
      rw [List.mem_singleton.mp member]
      exact asks.1
  | @answered c next reply seen ending rest ih =>
    obtain ⟨here, later⟩ := asks
    intro s member
    rcases List.mem_cons.mp member with rfl | member
    · exact here
    · rcases List.mem_cons.mp member with rfl | member
      · exact here
      · exact ih (later reply) s member
  | joined survey joins rest ih =>
    obtain ⟨lists, later⟩ := asks
    intro s member
    rcases List.mem_append.mp member with listed | member
    · obtain ⟨scope, mentioned, call⟩ := survey.lists s listed
      rw [call]
      exact lists scope mentioned
    · exact ih (later _) s member
  | cut survey stop | unjoined survey joins =>
    intro s member
    obtain ⟨scope, mentioned, call⟩ := survey.lists s member
    rw [call]
    exact asks.1 scope mentioned

theorem ask_asks {c : Call} {next : c.Answer → Program α} {asked : Call → Prop} (here : asked c)
    (later : ∀ answer, (next answer).Asks asked) : (ask c next).Asks asked := by
  refine ⟨here, fun reply => ?_⟩
  cases reply with
  | ok answer => exact later answer
  | error fault => trivial

/-- A call whose program succeeded was answered. -/
theorem transcript_ask {c : Call} {next : c.Answer → Program α} {a : α}
    (transcript : (ask c next).Transcript seen (.landed (.ok a))) :
    ∃ answer rest, seen = .started c :: .landed c (some (.ok answer)) :: rest ∧
      (next answer).Transcript rest (.landed (.ok a)) := by
  cases transcript with
  | halted halts => cases halts
  | @answered _ _ reply rest _ later =>
    cases reply with
    | ok answer => exact ⟨answer, rest, rfl, later⟩
    | error fault =>
      obtain ⟨-, same⟩ := transcript_done later
      cases same

theorem transcript_only {c : Call} {ending : Landing (Except ApiFault c.Answer)}
    (transcript : (only c).Transcript seen ending) : callsIn seen = [] ∨ callsIn seen = [c] := by
  rw [only_eq] at transcript
  cases transcript with
  | halted halts =>
    cases halts with
    | dropped => exact .inl rfl
    | unanswered | abandoned => exact .inr rfl
  | answered later =>
    obtain ⟨rfl, -⟩ := transcript_done later
    exact .inr rfl

end Program

namespace Operation.Transcript

variable {client : Client} {operation : Operation α} {seen : List Sighting}

theorem program {result : Option (Except ApiFault α)}
    (transcript : operation.Transcript client seen result) :
    seen = [] ∨ ∃ ending, operation.program.Transcript seen ending ∧
      result = client.outcome operation ending := by
  cases transcript with
  | refused => exact .inl rfl
  | ran transcript => exact .inr ⟨_, transcript, rfl⟩

theorem of_ok {a : α} (transcript : operation.Transcript client seen (some (.ok a))) :
    operation.program.Transcript seen (.landed (.ok a)) := by
  generalize given : some (Except.ok a) = result at transcript
  cases transcript with
  | refused => cases given
  | @ran _ ending transcript =>
    cases ending with
    | landed result =>
      cases given
      exact transcript
    | stopped stop => cases given
    | waiting => cases given

theorem asks {result : Option (Except ApiFault α)} {asked : Call → Prop}
    (asks : operation.program.Asks asked) (transcript : operation.Transcript client seen result) :
    ∀ s ∈ seen, asked s.call := by
  obtain rfl | ⟨ending, transcript, -⟩ := transcript.program
  · simp
  · exact transcript.asks asks

theorem gets {result : Option (Except ApiFault α)} (gets : operation.program.Asks Call.IsGet)
    (transcript : operation.Transcript client seen result) : ∀ c ∈ callsIn seen, c.IsGet := by
  intro c member
  obtain ⟨reply, member⟩ := mem_callsIn.mp member
  exact transcript.asks gets _ member

theorem lists {result : Option (Except ApiFault α)} {c : Call}
    {pick : c.Answer → Except ApiFault α}
    (program : operation.program = .ask c fun answer => .done (pick answer))
    (listing : c.isLookup = true) (transcript : operation.Transcript client seen result) :
    ∀ s ∈ seen, s.call.isLookup = true := by
  have lists : operation.program.Asks fun c => c.isLookup = true := by
    rw [program]
    exact Program.ask_asks listing fun _ => trivial
  exact transcript.asks lists

end Operation.Transcript

/-- What was answered to a call. -/
def Answered (seen : List Sighting) (c : Call) (answer : c.Answer) : Prop :=
  .landed c (some (.ok answer)) ∈ seen

theorem Answered.after {seen : List Sighting} {c : Call} {answer : c.Answer}
    (answered : Answered seen c answer) (before : List Sighting) :
    Answered (before ++ seen) c answer :=
  List.mem_append_right _ answered

theorem Answered.before {seen : List Sighting} {c : Call} {answer : c.Answer}
    (answered : Answered seen c answer) (after : List Sighting) :
    Answered (seen ++ after) c answer :=
  List.mem_append_left _ answered

/-- What is found when an operation that only reads succeeds. -/
structure Operation.Reads (operation : Operation α) (found : List Sighting → α → Prop) :
    Prop where
  gets : operation.program.Asks Call.IsGet
  finds : ∀ seen a, operation.program.Transcript seen (.landed (.ok a)) → found seen a

theorem Operation.reads_of_ask {operation : Operation α} (c : Call)
    {pick : c.Answer → Except ApiFault α}
    (program : operation.program = .ask c fun answer => .done (pick answer)) (get : c.IsGet) :
    operation.Reads fun seen a => ∃ answer, Answered seen c answer ∧ pick answer = .ok a where
  gets := by
    rw [program]
    exact Program.ask_asks get fun _ => trivial
  finds seen a transcript := by
    rw [program] at transcript
    obtain ⟨answer, rest, rfl, later⟩ := Program.transcript_ask transcript
    obtain ⟨-, same⟩ := Program.transcript_done later
    injection same with same
    exact ⟨answer, by simp [Answered], same.symm⟩

/-- What is selected from all namespaces is selected from the listings that were answered. -/
theorem Operation.reads_of_allVolumes {operation : Operation α} {policy : ScopePolicy}
    {pick : List Volume → Except ApiFault α}
    (program : operation.program = .allVolumes policy pick) :
    operation.Reads fun seen a => ∃ all,
      (∃ listing, listing <:+ seen ∧ all = (tasksIn listing).flatMap Task.items) ∧
        pick all = .ok a where
  gets := by
    rw [program]
    refine Program.ask_asks rfl fun namespaces => ⟨fun _ _ => rfl, fun joined => ?_⟩
    cases joined <;> trivial
  finds seen a transcript := by
    rw [program] at transcript
    have listed : ∃ namespaces, .landed .listNamespaces (some (.ok namespaces)) ∈ seen := by
      obtain ⟨namespaces, rest, rfl, -⟩ := Program.transcript_ask transcript
      exact ⟨namespaces, by simp⟩
    obtain ⟨namespaces, listed⟩ := listed
    have joint := transcript.joint nofun listed ⟨none, policy⟩ operation
    generalize given : Client.outcome _ _ (Landing.landed (Except.ok a)) = result at joint
    cases joint with
    | failed => cases given
    | denied => cases given
    | picked => exact ⟨_, ⟨seen, List.suffix_rfl, rfl⟩, (Option.some.inj given).symm⟩
    | waiting => cases given

/-! ### Care -/

/-- Reads before at most one change. -/
def Orderly (seen : List Sighting) : Prop :=
  ∃ reads changes, callsIn seen = reads ++ changes ∧ (∀ c ∈ reads, c.IsGet) ∧
    changes.length ≤ 1 ∧ ∀ c ∈ changes, c.isMutation = true

theorem orderly_of_gets {seen : List Sighting} (gets : ∀ c ∈ callsIn seen, c.IsGet) :
    Orderly seen :=
  ⟨callsIn seen, [], (List.append_nil _).symm, gets, Nat.zero_le 1, by simp⟩

theorem Orderly.after_gets {before after : List Sighting} (orderly : Orderly after)
    (gets : ∀ c ∈ callsIn before, c.IsGet) : Orderly (before ++ after) := by
  obtain ⟨reads, changes, split, own, single, alter⟩ := orderly
  refine ⟨callsIn before ++ reads, changes, ?_, ?_, single, alter⟩
  · rw [callsIn_append, split, List.append_assoc]
  · intro c member
    rcases List.mem_append.mp member with early | late
    · exact gets c early
    · exact own c late

/-- Reading first, and going on to a change or a success only when ready for it. -/
structure Careful (ready : List Sighting → Prop) (seen : List Sighting)
    (result : Except Failure α) : Prop where
  orderly : Orderly seen
  changes : (∃ c ∈ callsIn seen, c.isMutation = true) → ready seen
  succeeds : (∃ a, result = .ok a) → ready seen

namespace Procedure

variable {client : Client} {ready : List Sighting → Prop}

theorem careful_failed {seen : List Sighting} (gets : ∀ c ∈ callsIn seen, c.IsGet)
    (failure : Failure) : Careful (α := α) ready seen (.error failure) where
  orderly := orderly_of_gets gets
  changes := by
    rintro ⟨c, member, changes⟩
    rw [(gets c member).not_isMutation] at changes
    cases changes
  succeeds := by
    rintro ⟨a, same⟩
    cases same

theorem careful_after {seen : List Sighting} (gets : ∀ c ∈ callsIn seen, c.IsGet)
    {procedure : Procedure α}
    (later : procedure.Ensures client (Careful fun rest => ready (seen ++ rest))) :
    procedure.Ensures client fun rest final => Careful ready (seen ++ rest) final := by
  intro rest result transcript
  obtain ⟨orderly, changes, succeeds⟩ := later rest result transcript
  refine ⟨orderly.after_gets gets, ?_, succeeds⟩
  -- The calls before are reads, so a change is among the ones behind them.
  rintro ⟨c, member, changing⟩
  rw [callsIn_append] at member
  rcases List.mem_append.mp member with early | late
  · rw [(gets c early).not_isMutation] at changing
    cases changing
  · exact changes ⟨c, late, changing⟩

theorem Ensures.imp {procedure : Procedure α} {others : List Sighting → Prop}
    (ensures : procedure.Ensures client (Careful ready))
    (imp : ∀ seen, ready seen → others seen) : procedure.Ensures client (Careful others) := by
  intro seen result transcript
  obtain ⟨orderly, changes, succeeds⟩ := ensures seen result transcript
  exact ⟨orderly, fun changing => imp seen (changes changing), fun ok => imp seen (succeeds ok)⟩

theorem careful_check {argument : Except ConfigFault β} {next : β → Procedure α}
    (passed : ∀ b, argument = .ok b → (next b).Ensures client (Careful ready)) :
    (check argument next).Ensures client (Careful ready) :=
  ensures_check (fun _ _ failure => careful_failed (by simp) failure) passed

section Reads

variable {operation : Operation β} {found : List Sighting → β → Prop} {next : β → Procedure α}

theorem careful_ask (reads : operation.Reads found)
    (answered : ∀ first b, found first b →
      (next b).Ensures client (Careful fun rest => ready (first ++ rest))) :
    (ask operation next).Ensures client (Careful ready) :=
  ensures_ask (fun _ _ step failure => careful_failed (step.gets reads.gets) failure)
    fun first b step => careful_after (step.gets reads.gets)
      (answered first b (reads.finds first b step.of_ok))

theorem careful_print (reads : operation.Reads found) {write : β → Value}
    (enough : ∀ seen b, found seen b → ready seen) :
    (print operation write).Ensures client (Careful ready) := by
  refine careful_ask reads fun first b here => ensures_done ?_
  have here := enough first b here
  rw [← List.append_nil first] at here
  exact ⟨orderly_of_gets (by simp), fun _ => here, fun _ => here⟩

end Reads

end Procedure

/-! ### What commands rely on -/

section Resolution

variable {R : Type} [Named R]

/-- Whether an argument stands for the resource with an identifier, given what is listed. -/
def Options.Finds (o : Options) (kind argument : String) (listed : List R → Prop)
    (id : Id (Named.subject R)) : Prop :=
  if o.useIds = true then Argument.id kind argument = .ok id
  else ∃ all r, listed all ∧ Selection.byName all argument = .ok r ∧ Named.id r = id

/-- Whether arguments stand for resources among those listed. -/
def Options.Selects (o : Options) (kind : String) (arguments : List String)
    (listed : List R → Prop) : Prop :=
  ∃ all found, listed all ∧
    if o.useIds = true then
      ∃ ids : List (Id (Named.subject R)), Argument.ids kind arguments = .ok ids ∧
        Selection.byIds all ids = .ok found
    else Selection.byNames all arguments = .ok found

theorem Options.finds_of_ids {o : Options} {kind argument : String} {listed : List R → Prop}
    {id : Id (Named.subject R)} (ids : o.useIds = true)
    (given : Argument.id kind argument = .ok id) : o.Finds kind argument listed id := by
  rw [Finds, if_pos ids]
  exact given

theorem Options.finds_of_names {o : Options} {kind argument : String} {listed : List R → Prop}
    (names : ¬o.useIds = true) {all : List R} {r : R} (here : listed all)
    (named : Selection.byName all argument = .ok r) :
    o.Finds kind argument listed (Named.id r) := by
  rw [Finds, if_neg names]
  exact ⟨all, r, here, named, rfl⟩

theorem Options.Finds.mono {o : Options} {kind argument : String} {listed more : List R → Prop}
    {id : Id (Named.subject R)} (finds : o.Finds kind argument listed id)
    (imp : ∀ all, listed all → more all) : o.Finds kind argument more id := by
  unfold Options.Finds at finds ⊢
  split
  next ids =>
    rw [if_pos ids] at finds
    exact finds
  next names =>
    rw [if_neg names] at finds
    obtain ⟨all, r, here, named, same⟩ := finds
    exact ⟨all, r, imp all here, named, same⟩

theorem Options.Selects.mono {o : Options} {kind : String} {arguments : List String}
    {listed more : List R → Prop} (selects : o.Selects kind arguments listed)
    (imp : ∀ all, listed all → more all) : o.Selects kind arguments more := by
  obtain ⟨all, found, here, selected⟩ := selects
  exact ⟨all, found, imp all here, selected⟩

end Resolution

namespace Options

def FindsNamespace (o : Options) (seen : List Sighting) (argument : String) (id : NamespaceId) :
    Prop :=
  o.Finds "namespace" argument (Answered seen .listNamespaces) id

def FindsVolume (o : Options) (seen : List Sighting) (scope : NamespaceId) (argument : String)
    (id : VolumeId) : Prop :=
  o.Finds "volume" argument (Answered seen (.listVolumes scope)) id

def FindsUser (o : Options) (seen : List Sighting) (argument : String) (id : UserId) : Prop :=
  o.Finds "user" argument (Answered seen .listUsers) id

def FindsNode (o : Options) (seen : List Sighting) (argument : String) (id : NodeId) : Prop :=
  o.Finds "node" argument (Answered seen .listNodes) id

/-- The namespace that commands on volumes work in. -/
def FindsScope (o : Options) (seen : List Sighting) (scope : NamespaceId) : Prop :=
  ∃ argument, o.requiredScope = .ok argument ∧ o.FindsNamespace seen argument scope

end Options

/-- Whether the version for a change is there: given, or read from the resource. -/
def Change.Informed (change : Change) (seen : List Sighting) : VersionConstraint → Prop
  | .conditional _ => True
  | .unconditional => ∃ resource, Answered seen change.read resource

namespace Command

/-- Whether a change may be made: the version argument is right, and the version is there. -/
def Versioned (seen : List Sighting) (version : Option String) (change : Change) : Prop :=
  ∃ constraint, Argument.constraint version = .ok constraint ∧ change.Informed seen constraint

/-- Whether everything is there that a command relies on. -/
def Ready (o : Options) (seen : List Sighting) : Command → Prop
  | getCluster => True
  | getNode name => ∃ id, o.FindsNode seen name id
  | getNodes names => o.Selects "node" names (Answered seen .listNodes)
  | getNamespace name => ∃ id, o.FindsNamespace seen name id
  | getNamespaces names => o.Selects "namespace" names (Answered seen .listNamespaces)
  | getUser name => ∃ id, o.FindsUser seen name id
  | getUsers names => o.Selects "user" names (Answered seen .listUsers)
  | getVolume name => ∃ scope id, o.FindsScope seen scope ∧ o.FindsVolume seen scope name id
  | getVolumes names =>
    match o.scope with
    | none => o.Selects "volume" names fun all =>
        ∃ listing, listing <:+ seen ∧ all = (tasksIn listing).flatMap Task.items
    | some argument => ∃ scope, o.FindsNamespace seen argument scope ∧
        o.Selects "volume" names (Answered seen (.listVolumes scope))
  | createVolume _ _ _ _ labels _ =>
    (∃ read, Argument.labels labels = .ok read) ∧ ∃ scope, o.FindsScope seen scope
  | createNamespace _ labels => ∃ read, Argument.labels labels = .ok read
  | createUser _ _ _ groups =>
    ∃ ids : List PolicyGroupId, Argument.ids "policy group" groups = .ok ids
  | deleteVolume name version asyncMax => ∃ scope id, o.FindsScope seen scope ∧
      o.FindsVolume seen scope name id ∧
        Versioned seen version (.volume scope id (.delete asyncMax))
  | deleteNamespace name version => ∃ id, o.FindsNamespace seen name id ∧
      Versioned seen version (.deleteNamespace id)
  | deleteUser name version => ∃ id, o.FindsUser seen name id ∧
      Versioned seen version (.deleteUser id)
  | setReplicas name replicas version => ∃ scope id, o.FindsScope seen scope ∧
      o.FindsVolume seen scope name id ∧
        Versioned seen version (.volume scope id (.setReplicas replicas))
  | detachVolume name version => ∃ scope id, o.FindsScope seen scope ∧
      o.FindsVolume seen scope name id ∧ Versioned seen version (.volume scope id .detach)

end Command

/-! ### Names -/

namespace Options

open Procedure

variable {client : Client} {o : Options} {argument : String}

section Resolving

variable {holds : List Sighting → Except Failure α → Prop}
  (failed : ∀ first failure, (∀ s ∈ first, s.call.isLookup = true) → holds first (.error failure))
include failed

theorem ensures_withNamespace {next : NamespaceId → Procedure α}
    (found : ∀ first scope, (∀ s ∈ first, s.call.isLookup = true) →
      o.FindsNamespace first argument scope →
        (next scope).Ensures client fun rest final => holds (first ++ rest) final) :
    (o.withNamespace argument next).Ensures client holds := by
  unfold withNamespace
  split
  next ids =>
    exact ensures_check (fun _ _ failure => failed [] failure (by simp)) fun scope given =>
      found [] scope (by simp) (finds_of_ids ids given)
  next names =>
    refine ensures_ask (fun first _ step failure => failed first failure (step.lists rfl rfl))
      fun first n step => ?_
    obtain ⟨all, answered, named⟩ :=
      (Operation.reads_of_ask .listNamespaces rfl rfl).finds first n step.of_ok
    exact found first n.id (step.lists rfl rfl) (finds_of_names names answered named)

theorem ensures_withScope {next : NamespaceId → Procedure α}
    (found : ∀ first scope, (∀ s ∈ first, s.call.isLookup = true) → o.FindsScope first scope →
      (next scope).Ensures client fun rest final => holds (first ++ rest) final) :
    (o.withScope next).Ensures client holds :=
  ensures_check (fun _ _ failure => failed [] failure (by simp)) fun argument given =>
    ensures_withNamespace failed fun first scope lists finds =>
      found first scope lists ⟨argument, given, finds⟩

theorem ensures_withVolume {scope : NamespaceId} {next : VolumeId → Procedure α}
    (found : ∀ first id, (∀ s ∈ first, s.call.isLookup = true) →
      o.FindsVolume first scope argument id →
        (next id).Ensures client fun rest final => holds (first ++ rest) final) :
    (o.withVolume scope argument next).Ensures client holds := by
  unfold withVolume
  split
  next ids =>
    exact ensures_check (fun _ _ failure => failed [] failure (by simp)) fun id given =>
      found [] id (by simp) (finds_of_ids ids given)
  next names =>
    refine ensures_askWithin (fun first _ step failure => failed first failure (step.lists rfl rfl))
      fun first v step => ?_
    obtain ⟨all, answered, named⟩ :=
      (Operation.reads_of_ask (.listVolumes scope) rfl rfl).finds first v step.of_ok
    exact found first v.id (step.lists rfl rfl) (finds_of_names names answered named)

theorem ensures_withUser {next : UserId → Procedure α}
    (found : ∀ first id, (∀ s ∈ first, s.call.isLookup = true) →
      o.FindsUser first argument id →
        (next id).Ensures client fun rest final => holds (first ++ rest) final) :
    (o.withUser argument next).Ensures client holds := by
  unfold withUser
  split
  next ids =>
    exact ensures_check (fun _ _ failure => failed [] failure (by simp)) fun id given =>
      found [] id (by simp) (finds_of_ids ids given)
  next names =>
    refine ensures_ask (fun first _ step failure => failed first failure (step.lists rfl rfl))
      fun first user step => ?_
    obtain ⟨all, answered, named⟩ :=
      (Operation.reads_of_ask .listUsers rfl rfl).finds first user step.of_ok
    exact found first user.id (step.lists rfl rfl) (finds_of_names names answered named)

end Resolving

variable {ready : List Sighting → Prop}

theorem careful_withNamespace {next : NamespaceId → Procedure α}
    (found : ∀ seen scope, o.FindsNamespace seen argument scope →
      (next scope).Ensures client (Careful fun rest => ready (seen ++ rest))) :
    (o.withNamespace argument next).Ensures client (Careful ready) :=
  ensures_withNamespace (fun _ failure lists => careful_failed (gets_of_lists lists) failure)
    fun seen scope lists finds => careful_after (gets_of_lists lists) (found seen scope finds)

theorem careful_withScope {next : NamespaceId → Procedure α}
    (found : ∀ seen scope, o.FindsScope seen scope →
      (next scope).Ensures client (Careful fun rest => ready (seen ++ rest))) :
    (o.withScope next).Ensures client (Careful ready) :=
  ensures_withScope (fun _ failure lists => careful_failed (gets_of_lists lists) failure)
    fun seen scope lists finds => careful_after (gets_of_lists lists) (found seen scope finds)

theorem careful_withVolume {scope : NamespaceId} {next : VolumeId → Procedure α}
    (found : ∀ seen id, o.FindsVolume seen scope argument id →
      (next id).Ensures client (Careful fun rest => ready (seen ++ rest))) :
    (o.withVolume scope argument next).Ensures client (Careful ready) :=
  ensures_withVolume (fun _ failure lists => careful_failed (gets_of_lists lists) failure)
    fun seen id lists finds => careful_after (gets_of_lists lists) (found seen id finds)

theorem careful_withUser {next : UserId → Procedure α}
    (found : ∀ seen id, o.FindsUser seen argument id →
      (next id).Ensures client (Careful fun rest => ready (seen ++ rest))) :
    (o.withUser argument next).Ensures client (Careful ready) :=
  ensures_withUser (fun _ failure lists => careful_failed (gets_of_lists lists) failure)
    fun seen id lists finds => careful_after (gets_of_lists lists) (found seen id finds)

end Options

/-! ### Changes -/

namespace Change

variable {change : Change} {constraint : VersionConstraint} {v : Version}

/-- What is seen of a change that came to its own call. -/
inductive Presented (change : Change) : VersionConstraint → Version → List Sighting → Prop where
  | given (v : Version) (reply : Option (change.present v).Reply) :
      Presented change (.conditional v) v
        [.started (change.present v), .landed (change.present v) reply]
  | read (resource : change.read.Answer)
      (reply : Option (change.present (change.version resource)).Reply) :
      Presented change .unconditional (change.version resource)
        [.started change.read, .landed change.read (some (.ok resource)),
          .started (change.present (change.version resource)),
          .landed (change.present (change.version resource)) reply]

variable {seen : List Sighting} {ending : Landing (Except ApiFault change.Answer)}

theorem transcript_applying (transcript : (change.applying v).Transcript seen ending) :
    (callsIn seen = [] ∧ ∀ answer, ending ≠ .landed (.ok answer)) ∨
      ∃ reply, seen = [.started (change.present v), .landed (change.present v) reply] := by
  cases transcript with
  | halted halts =>
    cases halts with
    | unanswered => exact .inr ⟨none, rfl⟩
    | dropped => exact .inl ⟨rfl, nofun⟩
    | abandoned => exact .inr ⟨none, rfl⟩
  | @answered _ _ reply _ _ later =>
    obtain ⟨rfl, -⟩ := Program.transcript_done later
    exact .inr ⟨some reply, rfl⟩

/-- A change comes to its own call, or reads at most and fails. -/
theorem transcript_cases
    (transcript : (change.operation constraint).program.Transcript seen ending) :
    ((∀ c ∈ callsIn seen, c = change.read) ∧ ∀ answer, ending ≠ .landed (.ok answer)) ∨
      ∃ v, change.Presented constraint v seen := by
  rw [operation_program] at transcript
  -- Without a version the resource is read first, and its answer has the version.
  cases constraint with
  | conditional v =>
    obtain ⟨calls, fails⟩ | ⟨reply, rfl⟩ := transcript_applying transcript
    · exact .inl ⟨by simp [calls], fails⟩
    · exact .inr ⟨v, .given v reply⟩
  | unconditional =>
    cases transcript with
    | halted halts =>
      cases halts with
      | unanswered | dropped | abandoned => exact .inl ⟨by simp, nofun⟩
    | @answered _ _ reply _ _ later =>
      cases reply with
      | error fault =>
        obtain ⟨rfl, rfl⟩ := Program.transcript_done later
        exact .inl ⟨by simp, nofun⟩
      | ok resource =>
        obtain ⟨calls, fails⟩ | ⟨reply, rfl⟩ := transcript_applying later
        · exact .inl ⟨by simp [calls], fails⟩
        · exact .inr ⟨_, .read resource reply⟩

theorem read_isGet (change : Change) : change.read.IsGet := by
  cases change <;> rfl

theorem Presented.orderly (presented : change.Presented constraint v seen) : Orderly seen := by
  cases presented with
  | given _ reply =>
    exact ⟨[], [change.present v], rfl, by simp, Nat.le_refl 1, by simp [present_isMutation]⟩
  | read resource reply =>
    exact ⟨[change.read], [change.present _], rfl, by simp [read_isGet], Nat.le_refl 1,
      by simp [present_isMutation]⟩

theorem Presented.informed (presented : change.Presented constraint v seen) :
    change.Informed seen constraint := by
  cases presented with
  | given => trivial
  | read resource reply => exact ⟨resource, by simp [Answered]⟩

end Change

namespace Procedure

variable {client : Client} {ready : List Sighting → Prop}

theorem careful_last {operation : Operation β} {write : β → α}
    (orderly : ∀ seen result, operation.Transcript client seen result → Orderly seen)
    (changes : ∀ seen result, operation.Transcript client seen result →
      (∃ c ∈ callsIn seen, c.isMutation = true) → ready seen)
    (succeeds : ∀ seen b, operation.Transcript client seen (some (.ok b)) → ready seen) :
    (ask operation fun b => .done (.ok (write b))).Ensures client (Careful ready) := by
  refine ensures_ask (fun seen fault step failure => ?_) fun seen b step => ensures_done ?_
  · exact ⟨orderly _ _ step, changes _ _ step, fun ⟨_, same⟩ => nomatch same⟩
  · rw [List.append_nil]
    exact ⟨orderly _ _ step, changes _ _ step, fun _ => succeeds _ _ step⟩

theorem careful_change (change : Change) {constraint : VersionConstraint}
    {write : change.Answer → α}
    (informed : ∀ seen, change.Informed seen constraint → ready seen) :
    (ask (change.operation constraint) fun answer => .done (.ok (write answer))).Ensures client
      (Careful ready) := by
  refine careful_last (fun seen result step => ?_) (fun seen result step => ?_) ?_
  · obtain rfl | ⟨ending, transcript, -⟩ := step.program
    · exact orderly_of_gets (by simp)
    · obtain ⟨reads, -⟩ | ⟨v, presented⟩ := Change.transcript_cases transcript
      · exact orderly_of_gets fun c member => by rw [reads c member]; exact change.read_isGet
      · exact presented.orderly
  · rintro ⟨c, member, changes⟩
    obtain rfl | ⟨ending, transcript, -⟩ := step.program
    · simp at member
    · obtain ⟨reads, -⟩ | ⟨v, presented⟩ := Change.transcript_cases transcript
      · rw [reads c member, change.read_isMutation] at changes
        cases changes
      · exact informed seen presented.informed
  · intro seen answer step
    obtain ⟨-, fails⟩ | ⟨v, presented⟩ := Change.transcript_cases step.of_ok
    · exact absurd rfl (fails answer)
    · exact informed seen presented.informed

theorem careful_create (creation : Creation) {write : creation.call.Answer → α}
    (always : ∀ seen, ready seen) :
    (ask creation.operation fun answer => .done (.ok (write answer))).Ensures client
      (Careful ready) := by
  refine careful_last (fun seen result step => ?_) (fun seen _ _ _ => always seen)
    fun seen _ _ => always seen
  obtain rfl | ⟨ending, transcript, -⟩ := step.program
  · exact orderly_of_gets (by simp)
  · have changes : creation.call.isMutation = true := by cases creation <;> rfl
    rw [creation.operation_program] at transcript
    rcases Program.transcript_only transcript with none | single
    · exact orderly_of_gets (by simp [none])
    · exact ⟨[], [creation.call], single, by simp, Nat.le_refl 1, by simp [changes]⟩

end Procedure

/-! ### Commands -/

namespace Options

variable {o : Options} {seen : List Sighting} {argument : String} {scope : NamespaceId}

theorem FindsNamespace.before (finds : o.FindsNamespace seen argument scope)
    (after : List Sighting) : o.FindsNamespace (seen ++ after) argument scope :=
  Finds.mono finds fun _ answered => answered.before after

theorem FindsNamespace.after (finds : o.FindsNamespace seen argument scope)
    (before : List Sighting) : o.FindsNamespace (before ++ seen) argument scope :=
  Finds.mono finds fun _ answered => answered.after before

theorem FindsScope.before (finds : o.FindsScope seen scope) (after : List Sighting) :
    o.FindsScope (seen ++ after) scope := by
  obtain ⟨argument, given, finds⟩ := finds
  exact ⟨argument, given, finds.before after⟩

theorem FindsScope.after (finds : o.FindsScope seen scope) (before : List Sighting) :
    o.FindsScope (before ++ seen) scope := by
  obtain ⟨argument, given, finds⟩ := finds
  exact ⟨argument, given, finds.after before⟩

theorem FindsVolume.before {id : VolumeId} (finds : o.FindsVolume seen scope argument id)
    (after : List Sighting) : o.FindsVolume (seen ++ after) scope argument id :=
  Finds.mono finds fun _ answered => answered.before after

theorem FindsVolume.after {id : VolumeId} (finds : o.FindsVolume seen scope argument id)
    (before : List Sighting) : o.FindsVolume (before ++ seen) scope argument id :=
  Finds.mono finds fun _ answered => answered.after before

theorem FindsUser.before {id : UserId} (finds : o.FindsUser seen argument id)
    (after : List Sighting) : o.FindsUser (seen ++ after) argument id :=
  Finds.mono finds fun _ answered => answered.before after

theorem FindsUser.after {id : UserId} (finds : o.FindsUser seen argument id)
    (before : List Sighting) : o.FindsUser (before ++ seen) argument id :=
  Finds.mono finds fun _ answered => answered.after before

end Options

theorem Change.Informed.after {change : Change} {seen : List Sighting}
    {constraint : VersionConstraint} (informed : change.Informed seen constraint)
    (before : List Sighting) : change.Informed (before ++ seen) constraint := by
  cases constraint with
  | conditional v => trivial
  | unconditional =>
    obtain ⟨resource, answered⟩ := informed
    exact ⟨resource, answered.after before⟩

namespace Command

open Procedure

variable {client : Client} {o : Options}

/-- A change of a volume follows its namespace and its name. -/
theorem careful_volumeChange {ready : List Sighting → Prop} {name : String}
    {version : Option String} (what : VolumeChange)
    {write : (scope : NamespaceId) → (id : VolumeId) → (Change.volume scope id what).Answer → α}
    (enough : ∀ seen scope id, o.FindsScope seen scope → o.FindsVolume seen scope name id →
      Versioned seen version (.volume scope id what) → ready seen) :
    (check (Argument.constraint version) fun constraint =>
      o.withScope fun scope => o.withVolume scope name fun id =>
        ask ((Change.volume scope id what).operation constraint) fun answer =>
          .done (.ok (write scope id answer))).Ensures client (Careful ready) := by
  refine careful_check fun constraint given => ?_
  refine Options.careful_withScope fun first scope scopes => ?_
  refine Options.careful_withVolume fun second id finds => ?_
  refine careful_change _ fun third informed => ?_
  -- The namespace was found before the volume, and both before the version was read.
  refine enough _ scope id (scopes.before _) ((finds.before third).after first) ?_
  exact ⟨constraint, given, (informed.after second).after first⟩

section Lookups

variable {R : Type} [Named R] {kind : String} {write : R → Value} {writeAll : List R → Value}

/-- A resource looked up by its identifier, or by its name in a listing. -/
theorem careful_lookup {name : String} (byId : Id (Named.subject R) → Operation R)
    (byName : Operation R) (listed : List Sighting → List R → Prop)
    (idReads : ∀ id, (byId id).Reads fun _ _ => True)
    (nameReads : byName.Reads fun seen r =>
      ∃ all, listed seen all ∧ Selection.byName all name = .ok r) :
    (if o.useIds then check (Argument.id kind name) fun id => print (byId id) write
      else print byName write).Ensures client
        (Careful fun seen => ∃ id, o.Finds kind name (listed seen) id) := by
  split
  next ids =>
    refine careful_check fun id given => careful_print (idReads id) fun seen r _ => ?_
    exact ⟨id, Options.finds_of_ids ids given⟩
  next names =>
    refine careful_print nameReads fun seen r found => ?_
    obtain ⟨all, here, picked⟩ := found
    exact ⟨Named.id r, Options.finds_of_names names here picked⟩

/-- Resources selected from a listing by identifiers or by names. -/
theorem careful_selection {names : List String}
    (byIds : List (Id (Named.subject R)) → Operation (List R)) (byNames : Operation (List R))
    (listed : List Sighting → List R → Prop)
    (idsRead : ∀ ids, (byIds ids).Reads fun seen found =>
      ∃ all, listed seen all ∧ Selection.byIds all ids = .ok found)
    (namesRead : byNames.Reads fun seen found =>
      ∃ all, listed seen all ∧ Selection.byNames all names = .ok found) :
    (if o.useIds then check (Argument.ids kind names) fun ids => print (byIds ids) writeAll
      else print byNames writeAll).Ensures client
        (Careful fun seen => o.Selects kind names (listed seen)) := by
  split
  next ids =>
    refine careful_check fun given passed => careful_print (idsRead given) fun seen found here => ?_
    obtain ⟨all, here, selected⟩ := here
    exact ⟨all, found, here, by rw [if_pos ids]; exact ⟨given, passed, selected⟩⟩
  next byName =>
    refine careful_print namesRead fun seen found here => ?_
    obtain ⟨all, here, selected⟩ := here
    exact ⟨all, found, here, by rw [if_neg byName]; exact selected⟩

end Lookups

theorem reads_only {operation : Operation α} (c : Call) {wrap : c.Answer → α}
    (program : operation.program = .ask c fun answer => .done (.ok (wrap answer)))
    (get : c.IsGet) : operation.Reads fun _ _ => True :=
  ⟨(Operation.reads_of_ask c program get).gets, fun _ _ _ => trivial⟩

theorem volumes_careful (names : List String) :
    (volumesProcedure o names).Ensures client
      (Careful fun seen => Ready o seen (.getVolumes names)) := by
  unfold volumesProcedure Ready
  cases o.scope with
  | none =>
    exact careful_selection (.getAllVolumes o.policy) (.getAllVolumesByName o.policy names) _
      (fun _ => Operation.reads_of_allVolumes rfl) (Operation.reads_of_allVolumes rfl)
  | some argument =>
    refine Options.careful_withNamespace fun first scope finds => ?_
    refine Ensures.imp
      (careful_selection (.getNamespaceVolumes scope) (.getNamespaceVolumesByName scope names)
        (fun rest => Answered rest (.listVolumes scope))
        (fun _ => Operation.reads_of_ask (.listVolumes scope) rfl rfl)
        (Operation.reads_of_ask (.listVolumes scope) rfl rfl)) fun rest selects => ?_
    exact ⟨scope, finds.before rest, selects.mono fun _ answered => answered.after first⟩

/-- Every command is careful. -/
theorem careful (o : Options) (client : Client) (command : Command) :
    (command.procedure o).Ensures client (Careful fun seen => command.Ready o seen) := by
  cases command with
  | getCluster => exact careful_print (reads_only .getCluster rfl rfl) fun _ _ _ => trivial
  | getNode name =>
    exact careful_lookup .getNode (.getNodeByName name) _
      (fun id => reads_only (.getNode id) rfl rfl)
      (Operation.reads_of_ask .listNodes rfl rfl)
  | getNodes names =>
    exact careful_selection .getNodes (.getNodesByName names) _
      (fun _ => Operation.reads_of_ask .listNodes rfl rfl)
      (Operation.reads_of_ask .listNodes rfl rfl)
  | getNamespace name =>
    exact careful_lookup .getNamespace (.getNamespaceByName name) _
      (fun id => reads_only (.getNamespace id) rfl rfl)
      (Operation.reads_of_ask .listNamespaces rfl rfl)
  | getNamespaces names =>
    exact careful_selection .getNamespaces (.getNamespacesByName names) _
      (fun _ => Operation.reads_of_ask .listNamespaces rfl rfl)
      (Operation.reads_of_ask .listNamespaces rfl rfl)
  | getUser name =>
    exact careful_lookup .getUser (.getUserByName name) _
      (fun id => reads_only (.getUser id) rfl rfl)
      (Operation.reads_of_ask .listUsers rfl rfl)
  | getUsers names =>
    exact careful_selection .getUsers (.getUsersByName names) _
      (fun _ => Operation.reads_of_ask .listUsers rfl rfl)
      (Operation.reads_of_ask .listUsers rfl rfl)
  | getVolume name =>
    refine Options.careful_withScope fun first scope scopes => ?_
    refine Ensures.imp
      (careful_lookup (.getVolume scope) (.getVolumeByName scope name)
        (fun rest => Answered rest (.listVolumes scope))
        (fun id => reads_only (.getVolume scope id) rfl rfl)
        (Operation.reads_of_ask (.listVolumes scope) rfl rfl)) fun rest found => ?_
    obtain ⟨id, finds⟩ := found
    exact ⟨scope, id, scopes.before rest, finds.mono fun _ answered => answered.after first⟩
  | getVolumes names => exact volumes_careful names
  | createVolume name description size filesystem labels asyncMax =>
    refine careful_check fun read labelled => ?_
    refine Options.careful_withScope fun first scope scopes => ?_
    refine careful_create (.volume scope _ asyncMax) fun rest => ?_
    exact ⟨⟨read, labelled⟩, scope, scopes.before rest⟩
  | createNamespace name labels =>
    refine careful_check fun read labelled => ?_
    exact careful_create (.nspace _) fun _ => ⟨read, labelled⟩
  | createUser username password isAdmin groups =>
    refine careful_check fun ids given => ?_
    exact careful_create (.user _) fun _ => ⟨ids, given⟩
  | deleteVolume name version asyncMax =>
    exact careful_volumeChange (.delete asyncMax) fun seen scope id scopes finds versioned =>
      ⟨scope, id, scopes, finds, versioned⟩
  | setReplicas name replicas version =>
    exact careful_volumeChange (.setReplicas replicas) fun seen scope id scopes finds versioned =>
      ⟨scope, id, scopes, finds, versioned⟩
  | detachVolume name version =>
    exact careful_volumeChange .detach fun seen scope id scopes finds versioned =>
      ⟨scope, id, scopes, finds, versioned⟩
  | deleteNamespace name version =>
    refine careful_check fun constraint given => ?_
    refine Options.careful_withNamespace fun first id finds => ?_
    refine careful_change (.deleteNamespace id) fun second informed => ?_
    exact ⟨id, finds.before second, constraint, given, informed.after first⟩
  | deleteUser name version =>
    refine careful_check fun constraint given => ?_
    refine Options.careful_withUser fun first id finds => ?_
    refine careful_change (.deleteUser id) fun second informed => ?_
    exact ⟨id, finds.before second, constraint, given, informed.after first⟩

end Command

end StorageControl
