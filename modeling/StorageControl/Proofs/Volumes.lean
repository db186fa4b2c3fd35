import Mathlib.Data.List.Induction
import Mathlib.Data.List.Forall2
import StorageControl.Proofs.Instant
import StorageControl.Proofs.Labels
import StorageControl.Proofs.Record

/-! Lists of volumes.

A volume lacks what its copies lack, and then its own identifier, namespace or version if
they are empty. A list whose volumes lack nothing becomes the list of those volumes, each
with everything its model has. Any other list is refused for the first lack.
-/

set_option autoImplicit false

namespace StorageControl

/-! ### Attributes, labels and instants -/

theorem Health.ofName_name (name : String) :
    (ofName name).name = name ∨ ofName name = .unknown ∧ ∀ h : Health, h.name ≠ name := by
  unfold ofName
  cases found : all.find? (·.name == name) with
  | some h => exact .inl (by simpa using List.find?_some found)
  | none =>
    rw [List.find?_eq_none] at found
    refine .inr ⟨rfl, fun h same => found h ?_ (by simp [same])⟩
    cases h <;> decide

theorem Filesystem.ofName_name (name : String) :
    (ofName name).name = name ∨ ofName name = .unknown ∧ ∀ fs : Filesystem, fs.name ≠ name := by
  unfold ofName
  cases found : all.find? (·.name == name) with
  | some fs => exact .inl (by simpa using List.find?_some found)
  | none =>
    rw [List.find?_eq_none] at found
    refine .inr ⟨rfl, fun fs same => found fs ?_ (by simp [same])⟩
    cases fs <;> decide

namespace Labels

theorem find?_insertEntry (key value : String) (entries : List (String × String))
    (wanted : String) :
    (insertEntry key value entries).find? (·.1 == wanted) =
      if key = wanted then some (key, value) else entries.find? (·.1 == wanted) := by
  induction entries with
  | nil => by_cases same : key = wanted <;> simp [insertEntry, same]
  | cons head rest ih =>
    obtain ⟨k, v⟩ := head
    rw [insertEntry]
    split
    · by_cases same : key = wanted <;> simp [same]
    · split
      next replaced =>
        subst replaced
        by_cases same : key = wanted <;> simp [same]
      next differs =>
        by_cases same : k = wanted
        · have other : key ≠ wanted := fun both => differs (both.trans same.symm)
          simp [same, other]
        · simp [same, ih]

theorem get?_insert (labels : Labels) (key value wanted : String) :
    (labels.insert key value).get? wanted =
      if key = wanted then some value else labels.get? wanted := by
  rw [get?, insert, find?_insertEntry]
  split <;> rfl

/-- Of two pairs with one key the later counts. -/
theorem get?_ofList (pairs : List (String × String)) (wanted : String) :
    (ofList pairs).get? wanted = pairs.reverse.lookup wanted := by
  unfold ofList
  induction pairs using List.reverseRecOn with
  | nil => rfl
  | append_singleton front last ih =>
    rw [List.foldl_append, List.foldl_cons, List.foldl_nil, get?_insert, ih,
      List.reverse_append, List.reverse_singleton, List.singleton_append]
    by_cases same : last.1 = wanted
    · subst same
      rw [if_pos rfl, List.lookup_cons_self]
    · rw [if_neg same, List.lookup_cons, beq_false_of_ne (Ne.symm same)]

end Labels

theorem Instant.text_eq_unset_iff (i : Instant) :
    i.text = "0001-01-01T00:00:00Z" ↔ i = .unset := by
  have written : unset.text = "0001-01-01T00:00:00Z" := by decide +kernel
  refine ⟨fun same => ?_, fun same => same ▸ written⟩
  have read : ofText i.text = ofText unset.text := by rw [same, written]
  rw [ofText_text, ofText_text] at read
  exact Except.ok.inj read

namespace Wire

/-- The main copy of a volume, if there is one. -/
def masterOf : Option Deployment → Except TransportFault (Option StorageControl.Deployment)
  | none => .ok none
  | some d => some <$> d.resource

/-- A volume is made of its copies first, and then of what it needs itself. -/
theorem Volume.resource_eq (m : Volume) : m.resource = (do
    let master ← masterOf m.master
    let replicas ← all Deployment.resource (m.replicas.getD [])
    let id ← needed "volume" "id" (Id.ofText? m.id)
    let scope ← needed "volume" "namespace" (Id.ofText? m.namespaceId)
    let version ← needed "volume" "version" (Version.ofText? m.version)
    pure {
      id
      name := m.name
      description := m.description
      sizeBytes := m.sizeBytes
      scope
      attachedOn := Id.ofText? m.attachedOn
      labels := Labels.ofList m.labels
      filesystem := Filesystem.ofName m.fsType
      inode := m.inode
      master
      replicas
      createdAt := setInstant m.createdAt
      updatedAt := setInstant m.updatedAt
      version }) := by
  unfold Volume.resource
  cases m.master <;> rfl

/-! ### Lacks -/

/-- A field that a resource cannot do without. -/
structure Lack where
  resource : String
  field : String
  deriving DecidableEq, Repr

/-- What is said of a lack. -/
def Lack.fault (lack : Lack) : TransportFault :=
  .decode (lack.resource ++ " has no " ++ lack.field)

def lacking (resource field text : String) : List Lack :=
  if text = "" then [⟨resource, field⟩] else []

/-- What a copy of a volume lacks, in the order in which it is noticed. -/
def Deployment.lacks (m : Deployment) : List Lack :=
  lacking "deployment" "id" m.id ++ lacking "deployment" "node" m.nodeId

/-- What a volume lacks, in the order in which it is noticed. -/
def Volume.lacks (m : Volume) : List Lack :=
  m.master.toList.flatMap Deployment.lacks ++ ((m.replicas.getD []).flatMap Deployment.lacks ++
    (lacking "volume" "id" m.id ++ (lacking "volume" "namespace" m.namespaceId ++
      lacking "volume" "version" m.version)))

theorem lacking_eq_nil_iff (resource field text : String) :
    lacking resource field text = [] ↔ text ≠ "" := by
  simp [lacking]

structure Deployment.Complete (m : Deployment) : Prop where
  id : m.id ≠ ""
  node : m.nodeId ≠ ""

structure Volume.Complete (m : Volume) : Prop where
  master : ∀ d, m.master = some d → d.Complete
  replicas : ∀ d ∈ m.replicas.getD [], d.Complete
  id : m.id ≠ ""
  scope : m.namespaceId ≠ ""
  version : m.version ≠ ""

theorem Deployment.lacks_eq_nil_iff (m : Deployment) : m.lacks = [] ↔ m.Complete := by
  rw [lacks, List.append_eq_nil_iff, lacking_eq_nil_iff, lacking_eq_nil_iff]
  exact ⟨fun ⟨id, node⟩ => ⟨id, node⟩, fun ⟨id, node⟩ => ⟨id, node⟩⟩

theorem Volume.lacks_eq_nil_iff (m : Volume) : m.lacks = [] ↔ m.Complete := by
  simp only [lacks, List.append_eq_nil_iff, lacking_eq_nil_iff, List.flatMap_eq_nil_iff,
    Deployment.lacks_eq_nil_iff, Option.mem_toList]
  exact ⟨fun ⟨master, replicas, id, scope, version⟩ => ⟨master, replicas, id, scope, version⟩,
    fun ⟨master, replicas, id, scope, version⟩ => ⟨master, replicas, id, scope, version⟩⟩

instance (m : Volume) : Decidable m.Complete := decidable_of_iff _ m.lacks_eq_nil_iff

/-! ### Conversions that stop at the first lack -/

/-- A result that has a property, unless something is lacking; then it is the fault of the
first lack. -/
def Converts {R : Type} (result : Except TransportFault R) (lacks : List Lack) (holds : R → Prop) :
    Prop :=
  match lacks with
  | [] => ∃ r, result = .ok r ∧ holds r
  | first :: _ => result = .error first.fault

section Converts

variable {M R S : Type}

theorem converts_ok {r : R} {holds : R → Prop} (here : holds r) : Converts (.ok r) [] holds :=
  ⟨r, rfl, here⟩

theorem Converts.bind {result : Except TransportFault R} {next : R → Except TransportFault S}
    {lacks more : List Lack} {holds : R → Prop} {after : S → Prop}
    (first : Converts result lacks holds) (then' : ∀ r, holds r → Converts (next r) more after) :
    Converts (result >>= next) (lacks ++ more) after := by
  cases lacks with
  | nil =>
    obtain ⟨r, rfl, here⟩ := first
    exact then' r here
  | cons lack _ =>
    simp only [Converts] at first
    rw [first]
    rfl

theorem converts_needed (resource field text : String) {α : Type} {read : String → Option α}
    {holds : α → Prop} (none_iff : read text = none ↔ text = "")
    (reads : ∀ a, read text = some a → holds a) :
    Converts (needed resource field (read text)) (lacking resource field text) holds := by
  cases found : read text with
  | none =>
    rw [lacking, if_pos (none_iff.mp found)]
    rfl
  | some a =>
    have some : text ≠ "" := fun empty => nomatch found.symm.trans (none_iff.mpr empty)
    rw [lacking, if_neg some]
    exact converts_ok (reads a found)

theorem converts_id (resource field text : String) (subject : Subject) :
    Converts (needed resource field (Id.ofText? text : Option (Id subject)))
      (lacking resource field text) fun id => id.text = text :=
  converts_needed resource field text (Id.ofText?_eq_none_iff text) fun _ found => by
    obtain ⟨token, read, rfl⟩ := Option.map_eq_some_iff.mp found
    exact Token.text_of_ofText? read

theorem converts_version (resource text : String) :
    Converts (needed resource "version" (Version.ofText? text))
      (lacking resource "version" text) fun version => version.text = text :=
  converts_needed resource "version" text
    (by rw [Version.ofText?, Option.map_eq_none_iff, Token.ofText?_eq_none_iff])
    fun _ found => Version.text_of_ofText? found

variable {resource : M → Except TransportFault R} {lacks : M → List Lack} {becomes : M → R → Prop}

theorem converts_all (converts : ∀ m, Converts (resource m) (lacks m) (becomes m)) (ms : List M) :
    Converts (all resource ms) (ms.flatMap lacks) (List.Forall₂ becomes ms) := by
  induction ms with
  | nil => exact converts_ok .nil
  | cons m rest ih =>
    rw [all, List.flatMap_cons, ← List.append_nil (rest.flatMap lacks)]
    refine (converts m).bind fun r here => ih.bind fun more later => ?_
    exact converts_ok (.cons here later)

/-- The first lack of a list is that of the first model that lacks something. -/
theorem head?_flatMap_eq_some_iff {ms : List M} {lack : Lack} :
    (ms.flatMap lacks).head? = some lack ↔
      ∃ before bad after, ms = before ++ bad :: after ∧ (∀ m ∈ before, lacks m = []) ∧
        (lacks bad).head? = some lack := by
  induction ms with
  | nil => simp
  | cons m rest ih =>
    rw [List.flatMap_cons, List.head?_append]
    constructor
    · intro first
      cases here : lacks m with
      | cons found others =>
        rw [here] at first
        exact ⟨[], m, rest, rfl, nofun, here ▸ first⟩
      | nil =>
        rw [here] at first
        obtain ⟨before, bad, after, rfl, whole, named⟩ := ih.mp first
        refine ⟨m :: before, bad, after, rfl, ?_, named⟩
        exact List.forall_mem_cons.mpr ⟨here, whole⟩
    · rintro ⟨before, bad, after, split, whole, named⟩
      cases before with
      | nil =>
        obtain ⟨rfl, rfl⟩ := List.cons.inj split
        rw [named]
        rfl
      | cons _ before =>
        obtain ⟨rfl, rfl⟩ := List.cons.inj split
        obtain ⟨here, whole⟩ := List.forall_mem_cons.mp whole
        rw [here]
        exact ih.mpr ⟨before, bad, after, rfl, whole, named⟩

theorem Converts.ok_iff {result : Except TransportFault R} {lacks : List Lack} {holds : R → Prop}
    (converts : Converts result lacks holds) : (∃ r, result = .ok r) ↔ lacks = [] := by
  cases lacks with
  | nil =>
    obtain ⟨r, ok, -⟩ := converts
    exact iff_of_true ⟨r, ok⟩ rfl
  | cons lack _ =>
    refine iff_of_false ?_ nofun
    rintro ⟨r, ok⟩
    cases ok.symm.trans converts

theorem Converts.of_ok {result : Except TransportFault R} {lacks : List Lack} {holds : R → Prop}
    (converts : Converts result lacks holds) {r : R} (ok : result = .ok r) : holds r := by
  rw [converts.ok_iff.mp ⟨r, ok⟩] at converts
  obtain ⟨r', same, here⟩ := converts
  cases same.symm.trans ok
  exact here

theorem Converts.error_iff {result : Except TransportFault R} {lacks : List Lack} {holds : R → Prop}
    (converts : Converts result lacks holds) (fault : TransportFault) :
    result = .error fault ↔ ∃ lack, lacks.head? = some lack ∧ fault = lack.fault := by
  cases lacks with
  | nil =>
    obtain ⟨r, rfl, -⟩ := converts
    exact iff_of_false nofun nofun
  | cons lack _ =>
    simp only [Converts] at converts
    rw [converts]
    constructor
    · intro same
      exact ⟨lack, rfl, (Except.error.inj same).symm⟩
    · rintro ⟨_, found, rfl⟩
      cases found
      rfl

end Converts

/-! ### What a model becomes -/

/-- An instant is kept, unless it stands for an unset one. -/
structure KeptTime (given kept : Option Instant) : Prop where
  none_iff : kept = none ↔ ∀ i, given = some i → i.text = "0001-01-01T00:00:00Z"
  same : ∀ i, kept = some i → given = some i

theorem keptTime_setInstant (given : Option Instant) : KeptTime given (setInstant given) := by
  refine ⟨?_, fun i kept => (Option.filter_eq_some_iff.mp kept).1⟩
  simp only [Instant.text_eq_unset_iff, setInstant, Option.filter_eq_none_iff]
  simp

/-- Labels have under each key what the last pair with that key has; pairs in the order
of labels stay as they are. -/
structure KeptLabels (given : List (String × String)) (kept : Labels) : Prop where
  values : ∀ key, kept.get? key = given.reverse.lookup key
  entries : given.Pairwise (·.1 < ·.1) → kept.entries = given

theorem keptLabels_ofList (given : List (String × String)) :
    KeptLabels given (Labels.ofList given) where
  values := Labels.get?_ofList given
  entries := fun sorted => congrArg Labels.entries (Labels.ofList_entries ⟨given, sorted⟩)

structure Deployment.Becomes (m : Deployment) (d : StorageControl.Deployment) : Prop where
  id : d.id.text = m.id
  node : d.node.text = m.nodeId
  inode : d.inode = m.inode
  health : d.health.name = m.health ∨ d.health = .unknown ∧ ∀ h : Health, h.name ≠ m.health
  syncing : d.syncing = m.syncing

structure Volume.Becomes (m : Volume) (v : StorageControl.Volume) : Prop where
  id : v.id.text = m.id
  name : v.name = m.name
  description : v.description = m.description
  sizeBytes : v.sizeBytes = m.sizeBytes
  scope : v.scope.text = m.namespaceId
  attachedOn : v.attachedOn.map Id.text = if m.attachedOn = "" then none else some m.attachedOn
  labels : KeptLabels m.labels v.labels
  filesystem : v.filesystem.name = m.fsType ∨
    v.filesystem = .unknown ∧ ∀ fs : Filesystem, fs.name ≠ m.fsType
  inode : v.inode = m.inode
  master : Option.Rel Deployment.Becomes m.master v.master
  replicas : List.Forall₂ Deployment.Becomes (m.replicas.getD []) v.replicas
  createdAt : KeptTime m.createdAt v.createdAt
  updatedAt : KeptTime m.updatedAt v.updatedAt
  version : v.version.text = m.version

theorem map_text_ofText? (text : String) (subject : Subject) :
    (Id.ofText? text : Option (Id subject)).map Id.text =
      if text = "" then none else some text := by
  by_cases empty : text = "" <;> simp [Id.ofText?, Token.ofText?, Id.text, empty]

theorem Deployment.converts (m : Deployment) : Converts m.resource m.lacks m.Becomes := by
  rw [lacks, ← List.append_nil (lacking "deployment" "node" m.nodeId)]
  refine (converts_id _ _ _ _).bind fun id idText => ?_
  refine (converts_id _ _ _ _).bind fun node nodeText => ?_
  exact converts_ok ⟨idText, nodeText, rfl, Health.ofName_name _, rfl⟩

theorem converts_master (master : Option Deployment) :
    Converts (masterOf master) (master.toList.flatMap Deployment.lacks)
      (Option.Rel Deployment.Becomes master) := by
  cases master with
  | none => exact converts_ok .none
  | some d =>
    rw [Option.toList_some, List.flatMap_singleton, ← List.append_nil d.lacks]
    exact d.converts.bind fun _ becomes => converts_ok (.some becomes)

theorem Volume.converts (m : Volume) : Converts m.resource m.lacks m.Becomes := by
  rw [Volume.resource_eq, lacks, ← List.append_nil (lacking "volume" "version" m.version)]
  refine (converts_master m.master).bind fun master masterBecomes => ?_
  refine (converts_all Deployment.converts _).bind fun replicas replicasBecome => ?_
  refine (converts_id _ _ _ _).bind fun id idText => ?_
  refine (converts_id _ _ _ _).bind fun scope scopeText => ?_
  refine (converts_version _ _).bind fun version versionText => converts_ok ?_
  exact {
    id := idText, name := rfl, description := rfl, sizeBytes := rfl, scope := scopeText
    attachedOn := map_text_ofText? _ _
    labels := keptLabels_ofList _
    filesystem := Filesystem.ofName_name _
    inode := rfl, master := masterBecomes, replicas := replicasBecome
    createdAt := keptTime_setInstant _
    updatedAt := keptTime_setInstant _
    version := versionText }

/-! ### Lists of volumes -/

/-- A list of volumes reads exactly when each is complete, and then in order and with
everything each has. Otherwise the fault names the first lack of the first volume that
is not complete. -/
theorem volumes_read (ms : List Volume) :
    ((∃ vs, all Volume.resource ms = .ok vs) ↔ ∀ m ∈ ms, m.Complete) ∧
      (∀ vs, all Volume.resource ms = .ok vs → List.Forall₂ Volume.Becomes ms vs) ∧
      ∀ fault, all Volume.resource ms = .error fault ↔
        ∃ before bad after lack, ms = before ++ bad :: after ∧ (∀ m ∈ before, m.Complete) ∧
          bad.lacks.head? = some lack ∧ fault = lack.fault := by
  have converts := converts_all Volume.converts ms
  refine ⟨?_, fun vs ok => converts.of_ok ok, fun fault => ?_⟩
  · simp only [converts.ok_iff, List.flatMap_eq_nil_iff, Volume.lacks_eq_nil_iff]
  · simp only [converts.error_iff, head?_flatMap_eq_some_iff, Volume.lacks_eq_nil_iff]
    constructor
    · rintro ⟨lack, ⟨before, bad, after, parts, whole, first⟩, rfl⟩
      exact ⟨before, bad, after, lack, parts, whole, first, rfl⟩
    · rintro ⟨before, bad, after, lack, parts, whole, first, rfl⟩
      exact ⟨lack, ⟨before, bad, after, parts, whole, first⟩, rfl⟩

/-- A detached volume is read. With its namespace unnamed and a replica on no node after
it, the replica is what the fault names. -/
theorem volumes_read_pair :
    let whole : Volume := ⟨"v", "data", "", "", "n", [("b", "1"), ("a", "2")], "zfs", 9, none,
      none, 5, some .unset, none, "7"⟩
    let bad : Volume := { whole with namespaceId := "", replicas := some [⟨"d", "", 0, "", true⟩] }
    (∃ v, all Volume.resource [whole] = .ok [v] ∧ whole.Becomes v ∧ v.filesystem = .unknown ∧
      v.createdAt = none) ∧
      all Volume.resource [whole, bad, whole] = .error (.decode "deployment has no node") := by
  intro whole bad
  obtain ⟨made, kept, -⟩ := volumes_read [whole]
  obtain ⟨vs, ok⟩ := made.mpr (by decide)
  have becomes := kept vs ok
  obtain ⟨v, rfl⟩ : ∃ v, vs = [v] := List.length_eq_one_iff.mp becomes.length_eq.symm
  have becomes : whole.Becomes v := (List.forall₂_cons.mp becomes).1
  refine ⟨⟨v, ok, becomes, ?_, ?_⟩, ?_⟩
  · exact (becomes.filesystem.resolve_left (by cases v.filesystem <;> decide)).1
  · refine becomes.createdAt.none_iff.mpr fun i given => ?_
    cases given
    decide +kernel
  · exact ((volumes_read [whole, bad, whole]).2.2 _).mpr
      ⟨[whole], bad, [whole], ⟨"deployment", "node"⟩, rfl, by decide, by decide, rfl⟩

end Wire

end StorageControl
