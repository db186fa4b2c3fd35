import Mathlib.Data.List.Perm.Basic
import StorageControl.Service
import StorageControl.Proofs.Decode
import StorageControl.Proofs.Labels

/-! What is created, from an answer that repeats the request.

The service answers a creation with the resource. Where it repeats the members of the
request and adds an identifier and a version, the resource is the specification with
both: what a body is written with is what an answer is read for.
-/

set_option autoImplicit false

namespace StorageControl

/-! ### Documents that say the same -/

namespace Json

mutual

/-- Whether two documents differ at most in the order of members, at any depth. -/
inductive Alike : Value → Value → Prop where
  | null : Alike .null .null
  | boolean (b : Bool) : Alike (.boolean b) (.boolean b)
  | number (n : Nat) : Alike (.number n) (.number n)
  | string (text : String) : Alike (.string text) (.string text)
  | list {items others : List Value} : AlikeItems items others → Alike (.list items) (.list others)
  | object {members said others : List (String × Value)} :
    AlikeMembers members said → said.Perm others → Alike (.object members) (.object others)

inductive AlikeItems : List Value → List Value → Prop where
  | nil : AlikeItems [] []
  | cons {v w : Value} {items others : List Value} :
    Alike v w → AlikeItems items others → AlikeItems (v :: items) (w :: others)

/-- Members in the same order. -/
inductive AlikeMembers : List (String × Value) → List (String × Value) → Prop where
  | nil : AlikeMembers [] []
  | cons {name : String} {v w : Value} {members others : List (String × Value)} :
    Alike v w → AlikeMembers members others →
      AlikeMembers ((name, v) :: members) ((name, w) :: others)

end

mutual

theorem Alike.refl : ∀ v : Value, Alike v v
  | .null => .null
  | .boolean b => .boolean b
  | .number n => .number n
  | .string text => .string text
  | .list items => .list (AlikeItems.refl items)
  | .object members => .object (AlikeMembers.refl members) (.refl _)

theorem AlikeItems.refl : ∀ items : List Value, AlikeItems items items
  | [] => .nil
  | item :: rest => .cons (Alike.refl item) (AlikeItems.refl rest)

theorem AlikeMembers.refl : ∀ members : List (String × Value), AlikeMembers members members
  | [] => .nil
  | (_, value) :: rest => .cons (Alike.refl value) (AlikeMembers.refl rest)

end

/-! ### Members that say the same -/

namespace AlikeMembers

theorem names {members said : List (String × Value)} (alike : AlikeMembers members said) :
    said.map Prod.fst = members.map Prod.fst := by
  induction members generalizing said with
  | nil =>
    cases alike
    rfl
  | cons member rest ih =>
    cases alike with
    | cons _ later => rw [List.map_cons, List.map_cons, ih later]

theorem member? {members said : List (String × Value)} (alike : AlikeMembers members said)
    {name : String} {v : Value} (there : (Value.object members).member? name = some v) :
    ∃ w, (Value.object said).member? name = some w ∧ Alike v w := by
  induction members generalizing said with
  | nil => cases there
  | cons member rest ih =>
    cases alike with
    | cons here later =>
      rw [Value.member?_cons] at there ⊢
      split at there
      next same =>
        cases there
        exact ⟨_, if_pos same, here⟩
      next other =>
        rw [if_neg other]
        exact ih later there

end AlikeMembers

section Values

variable {w : Value}

theorem string_alike (text : String) (w : Value) (alike : Alike (.string text) w) :
    Decode.string w.tree = .ok text := by
  cases alike
  rfl

theorem boolean_alike (b : Bool) (w : Value) (alike : Alike (.boolean b) w) :
    Decode.boolean w.tree = .ok b := by
  cases alike
  rfl

theorem word64_alike {n : Nat} (small : n < Word.limit 64) (w : Value)
    (alike : Alike (.number n) w) : Decode.word64 w.tree = .ok n := by
  cases alike
  exact Decode.word64_tree small

theorem AlikeItems.of_texts {texts : List String} {items : List Value}
    (alike : AlikeItems (texts.map .string) items) : items = texts.map .string := by
  induction texts generalizing items with
  | nil =>
    cases alike
    rfl
  | cons text rest ih =>
    cases alike with
    | cons here later =>
      cases here
      rw [ih later, List.map_cons]

theorem texts_alike (texts : List String) (w : Value) (alike : Alike (.texts texts) w) :
    Decode.list Decode.string w.tree = .ok texts := by
  cases alike with
  | list same =>
    rw [same.of_texts]
    exact Decode.list_tree fun text _ => Decode.string_tree text

theorem AlikeMembers.of_pairs {pairs : List (String × String)} {said : List (String × Value)}
    (alike : AlikeMembers (pairs.map fun (key, value) => (key, .string value)) said) :
    said = pairs.map fun (key, value) => (key, .string value) := by
  induction pairs generalizing said with
  | nil =>
    cases alike
    rfl
  | cons pair rest ih =>
    cases alike with
    | cons here later =>
      cases here
      rw [ih later, List.map_cons]

/-- The pairs of an object of texts are read in the order in which they are said. -/
theorem map_alike {pairs : List (String × String)} {w : Value}
    (alike : Alike (.object (pairs.map fun (key, value) => (key, .string value))) w) :
    ∃ said, said.Perm pairs ∧ Decode.map Decode.string w.tree = .ok said := by
  cases alike with
  | object same perm =>
    rw [same.of_pairs] at perm
    obtain ⟨said, rfl, told⟩ := (congrFun₂ (List.eq_map_comp_perm _) _ _).mpr perm.symm
    exact ⟨said, told, Decode.map_tree said⟩

end Values

namespace Record

section Rules

variable {α β : Type} {front : Record (α → β)} {g : α → β} {name : String} {decode : Decoder α}
variable {members said : List (String × Value)}

/-- One more field whose member is said as it was written. -/
theorem Makes.told {absent : Except Cause α} {v : Value} {a : α} (made : front.Makes said g)
    (alike : AlikeMembers members said) (read : ∀ w, Alike v w → decode w.tree = .ok a)
    (there : (Value.object members).member? name = some v := by rfl) :
    (front.seq (field name decode absent)).Makes said (g a) := by
  obtain ⟨w, there, same⟩ := alike.member? there
  exact made.member (read w same) there

/-- One more field that has no member. -/
theorem Makes.untold {a : α} (made : front.Makes said g) (alike : AlikeMembers members said)
    (missing : (Value.object members).member? name = none := by rfl) :
    (front.seq (field name decode (.ok a))).Makes said (g a) := by
  rw [Value.member?_eq_none_iff, ← alike.names, ← Value.member?_eq_none_iff] at missing
  exact made.missing missing

/-- One more text that is empty unless it is there. -/
theorem Makes.text {front : Record (String → β)} {g : String → β} {text : Option String}
    (made : front.Makes said g) (alike : AlikeMembers members said)
    (there : (Value.object members).member? name = text.map .string := by rfl) :
    (front.seq (Wire.textField name)).Makes said (g (text.getD "")) := by
  cases text with
  | none => exact made.untold alike there
  | some text => exact made.told alike (string_alike text) there

end Rules

end Record

end Json

/-! ### Resources as they were specified -/

/-- A volume that is what was asked for, and nothing more. -/
def VolumeSpec.volume (spec : VolumeSpec) (within : NamespaceId) (id version : Token) : Volume where
  id := ⟨id⟩
  name := spec.name
  description := spec.description
  sizeBytes := spec.sizeBytes
  scope := within
  attachedOn := none
  labels := spec.labels
  filesystem := spec.filesystem
  inode := 0
  master := none
  replicas := []
  createdAt := none
  updatedAt := none
  version := ⟨version⟩

def NamespaceSpec.scope (spec : NamespaceSpec) (id version : Token) : Namespace where
  id := ⟨id⟩
  name := spec.name
  labels := spec.labels
  createdAt := none
  updatedAt := none
  version := ⟨version⟩

def UserSpec.user (spec : UserSpec) (id version : Token) : User where
  id := ⟨id⟩
  username := spec.username
  isAdmin := spec.isAdmin
  groups := spec.groups
  createdAt := none
  updatedAt := none
  version := ⟨version⟩

/-! ### Answers that repeat a request -/

namespace Wire

open Document (ofId ofLabels)
open Json (Alike AlikeMembers Value string_alike boolean_alike word64_alike texts_alike map_alike)
open Json.Record (makes_pure)

/-- What the service adds to the members of a request. -/
def added (id version : Token) : List (String × Value) :=
  [("id", .string id.text), ("version", .string version.text)]

theorem id_of_token {subject : Subject} (id : Token) :
    (Id.ofText? id.text : Option (Id subject)) = some ⟨id⟩ := Id.ofText?_text ⟨id⟩

theorem version_of_token (version : Token) : Version.ofText? version.text = some ⟨version⟩ :=
  Version.ofText?_text ⟨version⟩

/-- Whether a text says what was sent and adds an identifier and a version. -/
def Echoes (sent : Value) (id version : Token) (text : List Text.Rune) : Prop :=
  ∃ members answer, sent = .object members ∧
    Alike (.object (members ++ added id version)) answer ∧
    Json.Document.ofRunes text = ⟨answer.tree, false⟩

/-- There is an echo of every request, with what is added in front. -/
theorem echoes_added (sent : List (String × Value)) (id version : Token) :
    Echoes (.object sent) id version (Text.runes (Value.object (added id version ++ sent)).text) :=
  ⟨sent, .object (added id version ++ sent), rfl,
    .object (.refl _) List.perm_append_comm, Json.ofRunes_text _⟩

/-- A resource is read from every echo if all members that say the same make it. -/
theorem read_of_echoes {M R : Type} {record : Json.Record M} {what : String}
    {length : Json.Record.Length} {resource : M → Except TransportFault R} {sent : Value}
    {id version : Token} {text : List Text.Rune} {r : R} (echoes : Echoes sent id version text)
    (distinct : ∀ members, sent = .object members →
      ((members ++ added id version).map Prod.fst).Nodup)
    (makes : ∀ members said, sent = .object members →
      AlikeMembers (members ++ added id version) said →
      ∃ m, record.Makes said m ∧ resource m = .ok r) :
    read (record.decode what length) resource text = .ok r := by
  obtain ⟨members, answer, body, alike, document⟩ := echoes
  cases alike with
  | object same perm =>
    obtain ⟨m, made, brings⟩ := makes members _ body same
    have unique := same.names ▸ distinct members body
    have decoded := Json.Record.decode_tree (made.of_perm perm unique)
      ((perm.map Prod.fst).nodup_iff.mp unique) what length
    have whole : Json.readRunes (record.decode what length) text = .ok m := by
      rw [Json.readRunes, document]
      simp only [decoded]
      rfl
    rw [read, whole]
    exact brings

theorem labels_alike (labels : Labels) {members said : List (String × Value)}
    (same : AlikeMembers members said)
    (there : (Value.object members).member? "labels" = some (ofLabels labels) := by rfl) :
    ∃ w pairs, (Value.object said).member? "labels" = some w ∧
      Json.Decode.map Json.Decode.string w.tree = .ok pairs ∧ Labels.ofList pairs = labels := by
  obtain ⟨w, there, alike⟩ := same.member? there
  obtain ⟨pairs, told, read⟩ := map_alike alike
  exact ⟨w, pairs, there, read, Labels.ofList_of_perm told⟩

theorem volumeBody_distinct {within : NamespaceId} {spec : VolumeSpec} {id version : Token}
    (members : List (String × Value)) (body : volumeBody within spec = .object members) :
    ((members ++ added id version).map Prod.fst).Nodup := by
  rw [volumeBody] at body
  cases body
  cases spec.filesystem.sent? <;> simp [added]

theorem namespaceBody_distinct {spec : NamespaceSpec} {id version : Token}
    (members : List (String × Value)) (body : namespaceBody spec = .object members) :
    ((members ++ added id version).map Prod.fst).Nodup := by
  cases body
  simp [added]

theorem userBody_distinct {spec : UserSpec} {id version : Token}
    (members : List (String × Value)) (body : userBody spec = .object members) :
    ((members ++ added id version).map Prod.fst).Nodup := by
  cases body
  simp [added]

theorem namespace_echo {spec : NamespaceSpec} {id version : Token}
    (members said : List (String × Value)) (body : namespaceBody spec = .object members)
    (same : AlikeMembers (members ++ added id version) said) :
    ∃ m, scope.Makes said m ∧ m.resource = .ok (spec.scope id version) := by
  cases body
  obtain ⟨w, pairs, there, read, labels⟩ := labels_alike spec.labels same
  have makes : scope.Makes said ⟨id.text, spec.name, pairs, none, none, version.text⟩ :=
    makes_pure Namespace.mk
      |>.told same (string_alike id.text)
      |>.told same (string_alike spec.name)
      |>.member read there
      |>.untold same
      |>.untold same
      |>.told same (string_alike version.text)
  refine ⟨_, makes, ?_⟩
  simp only [Namespace.resource, id_of_token, version_of_token, labels]
  rfl

theorem user_echo {spec : UserSpec} {id version : Token} (members said : List (String × Value))
    (body : userBody spec = .object members)
    (same : AlikeMembers (members ++ added id version) said) :
    ∃ m, user.Makes said m ∧ m.resource = .ok (spec.user id version) := by
  cases body
  have written : Value.list (spec.groups.map ofId) = .texts (spec.groups.map Id.text) := by
    rw [Value.texts, List.map_map]
    rfl
  have groups := texts_alike (spec.groups.map Id.text)
  rw [← written] at groups
  have kept : (spec.groups.map Id.text).filterMap Id.ofText? = spec.groups := by
    simp [List.filterMap_map, Id.ofText?_text]
  have makes : user.Makes said ⟨id.text, spec.username, spec.isAdmin, spec.groups.map Id.text,
      none, none, version.text⟩ :=
    makes_pure User.mk
      |>.told same (string_alike id.text)
      |>.told same (string_alike spec.username)
      |>.told same (boolean_alike spec.isAdmin)
      |>.told same groups
      |>.untold same
      |>.untold same
      |>.told same (string_alike version.text)
  refine ⟨_, makes, ?_⟩
  simp only [User.resource, id_of_token, version_of_token, kept]
  rfl

theorem volume_echo {within : NamespaceId} {spec : VolumeSpec} {id version : Token}
    (small : spec.sizeBytes < Word.limit 64) (members said : List (String × Value))
    (body : volumeBody within spec = .object members)
    (same : AlikeMembers (members ++ added id version) said) :
    ∃ m, volume.Makes said m ∧ m.resource = .ok (spec.volume within id version) := by
  have filesystem : Filesystem.ofName (spec.filesystem.sent?.getD "") = spec.filesystem := by
    cases spec.filesystem <;> rfl
  generalize typed : spec.filesystem.sent? = fsType at filesystem
  obtain ⟨pairs, labels, makes⟩ : ∃ pairs, Labels.ofList pairs = spec.labels ∧
      volume.Makes said ⟨id.text, spec.name, spec.description, "", within.text, pairs,
        fsType.getD "", 0, none, none, spec.sizeBytes, none, none, version.text⟩ := by
    -- The type of the filesystem is sent or not; nothing else differs.
    cases fsType
    all_goals
      simp only [volumeBody, typed] at body
      cases body
      obtain ⟨w, pairs, there, read, labels⟩ := labels_alike spec.labels same
      refine ⟨pairs, labels, ?_⟩
      exact makes_pure Volume.mk
        |>.told same (string_alike id.text)
        |>.told same (string_alike spec.name)
        |>.told same (string_alike spec.description)
        |>.untold same
        |>.told same (string_alike within.text)
        |>.member read there
        |>.text same
        |>.untold same
        |>.untold same
        |>.untold same
        |>.told same (word64_alike small)
        |>.untold same
        |>.untold same
        |>.told same (string_alike version.text)
  refine ⟨_, makes, ?_⟩
  simp only [Volume.resource, id_of_token, version_of_token, Id.ofText?_text, labels, filesystem]
  rfl

end Wire

namespace Service

open Http (Network Reply)

variable {σ : Type}

/-- Whether the exchange of a call ends in a whole, successful reply that echoes its
request. -/
def Echoed (service : Service) (network : Network σ) (s : Session σ) (c : Call)
    (id version : Token) : Prop :=
  ∃ r server sent, service.send network c.route s.credential s.server = (.reply r, server) ∧
    r.isSuccess = true ∧ r.isWhole = true ∧
    c.route.body = some sent ∧ Wire.Echoes sent id version r.body

theorem request_of_echoed {service : Service} {network : Network σ} {s : Session σ} {c : Call}
    {id version : Token} {a : c.Answer} (echoed : service.Echoed network s c id version)
    (expects : c.expectsBody = true)
    (reads : ∀ sent text, c.route.body = some sent → Wire.Echoes sent id version text →
      c.readBody text = .ok a) :
    (service.request network c s).1 = some (.ok a) := by
  obtain ⟨r, server, sent, exchange, success, whole, carried, echoes⟩ := echoed
  simp only [request, exchange, answer, accepted, if_pos success, if_pos expects, body,
    if_pos whole, reads sent r.body carried echoes]

/-- Where the service answers a creation with the members of the request, an identifier
and a version, the resource is what was specified, with that identifier and version. -/
theorem created_as_specified (service : Service) (network : Network σ) (s : Session σ)
    (id version : Token) :
    (∀ within spec asyncMax, spec.sizeBytes < Word.limit 64 →
      service.Echoed network s (.createVolume within spec asyncMax) id version →
      (service.land network (.createVolume within spec asyncMax) s).1 =
        some (.ok (spec.volume within id version))) ∧
    (∀ spec, service.Echoed network s (.createNamespace spec) id version →
      (service.land network (.createNamespace spec) s).1 = some (.ok (spec.scope id version))) ∧
    (∀ spec, service.Echoed network s (.createUser spec) id version →
      (service.land network (.createUser spec) s).1 = some (.ok (spec.user id version))) := by
  refine ⟨fun within spec asyncMax small echoed => ?_, fun spec echoed => ?_,
    fun spec echoed => ?_⟩
  · apply request_of_echoed echoed rfl
    rintro sent text ⟨⟩ echoes
    exact Wire.read_of_echoes echoes Wire.volumeBody_distinct (Wire.volume_echo small)
  · apply request_of_echoed echoed rfl
    rintro sent text ⟨⟩ echoes
    exact Wire.read_of_echoes echoes Wire.namespaceBody_distinct Wire.namespace_echo
  · apply request_of_echoed echoed rfl
    rintro sent text ⟨⟩ echoes
    exact Wire.read_of_echoes echoes Wire.userBody_distinct Wire.user_echo

/-- A service that puts what it adds in front. -/
theorem echoed_creations :
    let service : Service := ⟨"http://node/v2", "agent"⟩
    let id : Token := ⟨"new", by decide⟩
    let version : Token := ⟨"1", by decide⟩
    let reply (sent : List (String × Json.Value)) : Reply :=
      ⟨201, [], Text.runes (Json.Value.object (Wire.added id version ++ sent)).text, true⟩
    let within : NamespaceId := ⟨"default", by decide⟩
    let volume : VolumeSpec :=
      ⟨"a \"b\"", "", 1073741824, .unknown, Labels.ofList [("env", "prod"), ("app", "")]⟩
    let volumeReply := reply [("namespaceID", .string "default"), ("name", .string "a \"b\""),
      ("description", .string ""), ("sizeBytes", .number 1073741824),
      ("labels", .object [("app", .string ""), ("env", .string "prod")])]
    let scope : NamespaceSpec := ⟨"Σ", Labels.empty⟩
    let scopeReply := reply [("name", .string "Σ"), ("labels", .object [])]
    let user : UserSpec := ⟨"ann", "secret", true, [⟨"ops", by decide⟩, ⟨"dev", by decide⟩]⟩
    let userReply := reply [("username", .string "ann"), ("password", .string "secret"),
      ("isAdmin", .boolean true), ("groups", .list [.string "ops", .string "dev"])]
    (service.land (fun _ s => (.reply volumeReply, s)) (.createVolume within volume none)
        ⟨none, ()⟩).1 = some (.ok (volume.volume within id version)) ∧
      (service.land (fun _ s => (.reply scopeReply, s)) (.createNamespace scope) ⟨none, ()⟩).1 =
        some (.ok (scope.scope id version)) ∧
      (service.land (fun _ s => (.reply userReply, s)) (.createUser user) ⟨none, ()⟩).1 =
        some (.ok (user.user id version)) := by
  intro service id version reply within volume volumeReply scope scopeReply user userReply
  have echoed (c : Call) (sent : List (String × Json.Value))
      (exchange : service.send (fun _ s => (.reply (reply sent), s)) c.route none () =
        (.reply (reply sent), ()))
      (body : c.route.body = some (.object sent)) :
      service.Echoed (fun _ s => (.reply (reply sent), s)) ⟨none, ()⟩ c id version := by
    refine ⟨reply sent, (), .object sent, exchange, rfl, rfl, body, ?_⟩
    simp only [reply]
    exact Wire.echoes_added sent id version
  refine ⟨?_, ?_, ?_⟩
  · apply (created_as_specified service _ _ id version).1 within volume none (by decide)
    apply echoed
    · simp only [service, reply, id, version]
      decide +kernel
    · rfl
  · apply (created_as_specified service _ _ id version).2.1 scope
    apply echoed
    · simp only [service, reply, id, version]
      decide +kernel
    · rfl
  · apply (created_as_specified service _ _ id version).2.2 user
    apply echoed
    · simp only [service, reply, id, version]
      decide +kernel
    · rfl

end Service

end StorageControl
