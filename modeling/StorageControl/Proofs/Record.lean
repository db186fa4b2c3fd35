import StorageControl.Proofs.Json
import StorageControl.Wire.Resource

/-! What a record is read from.

A record that was read has each of its fields from one place of the document: from the
only member of that name, or, where the document is a list, from the item that stands
where the field stands in the record.
-/

set_option autoImplicit false

namespace StorageControl

/-- A step that succeeded, and what followed it. -/
theorem of_bind_ok {ε α β : Type} {x : Except ε α} {next : α → Except ε β} {b : β}
    (ok : (x >>= next) = .ok b) : ∃ a, x = .ok a ∧ next a = .ok b := by
  cases x with
  | error e => cases ok
  | ok a => exact ⟨a, rfl, ok⟩

theorem Token.text_of_ofText? {text : String} {t : Token} (read : ofText? text = some t) :
    t.text = text := by
  unfold ofText? at read
  split at read
  · cases read
    rfl
  · cases read

theorem Version.text_of_ofText? {text : String} {v : Version} (read : ofText? text = some v) :
    v.text = text := by
  obtain ⟨token, found, rfl⟩ := Option.map_eq_some_iff.mp read
  exact Token.text_of_ofText? found

/-! ### Documents -/

namespace Json

variable {α β : Type}

/-- The text of a string. -/
def Tree.text? : Tree → Option String
  | .string q => q.text.toOption
  | _ => none

/-- The values of the members of a name. -/
def valuesOf (name : String) (members : List (Quoted × Tree)) : List Tree :=
  (members.filter fun member => member.1.text.toOption == some name).map Prod.snd

/-- The value of the only member of a name. -/
def Tree.only? (name : String) : Tree → Option Tree
  | .object members _ =>
    match valuesOf name members with
    | [t] => some t
    | _ => none
  | _ => none

namespace Record

/-- Where a document has a field of a record. -/
def field? (record : Record α) (name : String) : Tree → Option Tree
  | .list items _ => items[record.fields.findIdx (·.name == name)]?
  | t => t.only? name

/-! ### Members -/

theorem find_cons (name : String) (entry : String × Tree) (found : List (String × Tree)) :
    find (entry :: found) name = if entry.1 = name then some entry.2 else find found name := by
  rw [find, List.find?_cons]
  by_cases same : entry.1 = name
  · simp [same]
  · rw [if_neg same, beq_false_of_ne same, find]

theorem valuesOf_cons (name : String) {key : Quoted} {written : String}
    (text : key.text = .ok written) (t : Tree) (rest : List (Quoted × Tree)) :
    valuesOf name ((key, t) :: rest) =
      if written = name then t :: valuesOf name rest else valuesOf name rest := by
  rw [valuesOf, List.filter_cons, text]
  by_cases same : written = name
  · simp [same, Except.toOption, valuesOf]
  · simp [same, Except.toOption, valuesOf]

/-- A known member is found once, or not at all once it was seen. -/
theorem readMembers_values {fields : List Field} {name : String}
    (known : (lookup fields name).isSome = true) {seen : List String}
    {members : List (Quoted × Tree)} {found : List (String × Tree)}
    (read : readMembers fields seen members = .ok found) :
    valuesOf name members = if name ∈ seen then [] else (find found name).toList := by
  induction members generalizing seen found with
  | nil =>
    cases read
    split <;> rfl
  | cons member rest ih =>
    obtain ⟨key, t⟩ := member
    rw [readMembers] at read
    obtain ⟨written, text, read⟩ := of_bind_ok read
    rw [valuesOf_cons name text]
    cases field : lookup fields written with
    | none =>
      simp only [field] at read
      obtain ⟨-, -, read⟩ := of_bind_ok read
      -- An unknown member has another name.
      have other : written ≠ name := by
        rintro rfl
        rw [field] at known
        cases known
      rw [if_neg other, ih read]
    | some f =>
      simp only [field] at read
      split at read
      next repeated => cases read
      next fresh =>
        have fresh : written ∉ seen := by simpa using fresh
        obtain ⟨-, -, read⟩ := of_bind_ok read
        obtain ⟨more, later, read⟩ := of_bind_ok read
        cases read
        rw [ih later, find_cons]
        by_cases same : written = name
        · subst same
          simp [fresh]
        · simp [same, Ne.symm same]

theorem readItems_find {fields : List Field} {name : String}
    (known : (lookup fields name).isSome = true) {items : List Tree}
    {found : List (String × Tree)} (read : readItems fields items = .ok found) :
    find found name = items[fields.findIdx (·.name == name)]? := by
  induction fields generalizing items found with
  | nil => cases known
  | cons f fields ih =>
    cases items with
    | nil =>
      cases read
      rfl
    | cons t rest =>
      rw [readItems] at read
      obtain ⟨-, -, read⟩ := of_bind_ok read
      obtain ⟨more, later, read⟩ := of_bind_ok read
      cases read
      rw [find_cons, List.findIdx_cons]
      by_cases same : f.name = name
      · simp [same]
      · have known : (lookup fields name).isSome = true := by
          simpa [lookup, List.find?_cons, same] using known
        rw [if_neg same, beq_false_of_ne same, ih known later]
        rfl

/-- A record that was read was built from where the document has its fields. -/
theorem decode_fields {record : Record α} {what : String} {length : Length} {t : Tree} {a : α}
    (decoded : record.decode what length t = .ok a) :
    ∃ find : String → Option Tree, record.build find = .ok a ∧
      ∀ name, (lookup record.fields name).isSome = true → find name = record.field? name t := by
  cases t with
  | object members close =>
    rw [decode] at decoded
    obtain ⟨found, read, decoded⟩ := of_bind_ok decoded
    obtain ⟨-, -, built⟩ := of_bind_ok decoded
    refine ⟨_, built, fun name known => ?_⟩
    have values := readMembers_values known read
    rw [if_neg List.not_mem_nil] at values
    rw [field?, Tree.only?, values]
    · cases find found name <;> rfl
    · exact nofun
  | list items close =>
    simp only [decode] at decoded
    obtain ⟨found, read, decoded⟩ := of_bind_ok decoded
    refine ⟨find found, ?_, fun name known => readItems_find known read⟩
    split at decoded
    · obtain ⟨-, -, decoded⟩ := of_bind_ok decoded
      split at decoded
      · cases decoded
      · exact decoded
    · obtain ⟨value, built, decoded⟩ := of_bind_ok decoded
      obtain ⟨-, -, same⟩ := of_bind_ok decoded
      cases same
      exact built
  | _ =>
    simp only [decode, Tree.mismatch] at decoded
    split at decoded <;> cases decoded

theorem of_seq_build {f : Record (α → β)} {x : Record α} {find : String → Option Tree} {b : β}
    (built : (f.seq x).build find = .ok b) :
    ∃ g a, f.build find = .ok g ∧ x.build find = .ok a ∧ g a = b := by
  obtain ⟨g, first, rest⟩ := of_bind_ok built
  obtain ⟨a, second, same⟩ := of_bind_ok rest
  exact ⟨g, a, first, second, Except.ok.inj same⟩

/-- Whether whatever is built has a property. -/
def Builds (record : Record α) (holds : α → Prop) : Prop :=
  ∀ find a, record.build find = .ok a → holds a

theorem builds_pure {a : α} {holds : α → Prop} (here : holds a) : (pure a).Builds holds := by
  intro find b built
  cases built
  exact here

theorem builds_seq {f : Record (α → β)} {x : Record α} {holds : β → Prop}
    (builds : f.Builds fun g => ∀ a, holds (g a)) : (f.seq x).Builds holds := by
  intro find b built
  obtain ⟨g, a, first, -, rfl⟩ := of_seq_build built
  exact builds find g first a

end Record

end Json

/-! ### Versions -/

namespace Wire

open Json (Decoder Record Tree)
open Json.Record (builds_pure builds_seq lookup of_seq_build)

/-- A text is that of its field, and empty where there is none. -/
theorem getD_of_textField {name : String} {find : String → Option Tree} {text : String}
    (built : (textField name).build find = .ok text) :
    ((find name).bind Tree.text?).getD "" = text := by
  simp only [textField, Json.Record.defaulted, Json.Record.field] at built
  cases found : find name with
  | none =>
    rw [found] at built
    cases built
    rfl
  | some t =>
    rw [found] at built
    simp only [Option.bind_some]
    cases t with
    | string q =>
      simp only [Json.Decode.string, Json.Decode.stringAs] at built
      rw [Tree.text?, built]
      rfl
    | _ =>
      simp only [Json.Decode.string, Json.Decode.stringAs, Json.Tree.mismatch] at built
      split at built <;> cases built

/-- A text that is not empty is that of its field. -/
theorem text_of_textField {name : String} {find : String → Option Tree} {text : String}
    (built : (textField name).build find = .ok text) (some : text ≠ "") :
    (find name).bind Tree.text? = .some text := by
  have read := getD_of_textField built
  cases found : (find name).bind Tree.text? with
  | none =>
    rw [found] at read
    exact absurd read.symm some
  | some t => rw [← read, found, Option.getD_some]

/-- The last field of a record that is a text. -/
theorem text_of_decode {M : Type} {front : Record (String → M)} {name what : String}
    {length : Record.Length} {t : Tree} {m : M} {read : M → String}
    (decoded : (front.seq (textField name)).decode what length t = .ok m)
    (reads : front.Builds fun g => ∀ text, read (g text) = text) (some : read m ≠ "") :
    ((front.seq (textField name)).field? name t).bind Tree.text? = .some (read m) := by
  obtain ⟨find, built, fields⟩ := Json.Record.decode_fields decoded
  obtain ⟨g, text, first, here, rfl⟩ := of_seq_build built
  rw [reads find g first] at some ⊢
  have known : (lookup (front.seq (textField name)).fields name).isSome = true := by
    simp [lookup, Record.seq, textField, Json.Record.defaulted, Json.Record.field]
  rw [← fields name known]
  exact text_of_textField here some

theorem version_of_toUser {t : Tree} {m : User} (decoded : toUser t = .ok m)
    (some : m.version ≠ "") :
    (user.field? "version" t).bind Tree.text? = .some m.version := by
  refine text_of_decode decoded ?_ some
  repeat refine builds_seq ?_
  exact builds_pure fun _ _ _ _ _ _ _ => rfl

theorem version_of_toNamespace {t : Tree} {m : Namespace} (decoded : toNamespace t = .ok m)
    (some : m.version ≠ "") :
    (scope.field? "version" t).bind Tree.text? = .some m.version := by
  refine text_of_decode decoded ?_ some
  repeat refine builds_seq ?_
  exact builds_pure fun _ _ _ _ _ _ => rfl

theorem version_of_toVolume {t : Tree} {m : Volume} (decoded : toVolume t = .ok m)
    (some : m.version ≠ "") :
    (volume.field? "version" t).bind Tree.text? = .some m.version := by
  refine text_of_decode decoded ?_ some
  repeat refine builds_seq ?_
  exact builds_pure fun _ _ _ _ _ _ _ _ _ _ _ _ _ _ => rfl

/-! ### Resources -/

theorem of_needed_ok {α : Type} {resource field : String} {found : Option α} {a : α}
    (there : needed resource field found = .ok a) : found = some a := by
  cases found with
  | none => cases there
  | some b => rw [Except.ok.inj there]

/-- The version that a resource needs is that of its model. -/
theorem text_of_needed {resource text : String} {v : Version}
    (there : needed resource "version" (Version.ofText? text) = .ok v) : v.text = text :=
  Version.text_of_ofText? (of_needed_ok there)

theorem version_of_volume {m : Volume} {v : StorageControl.Volume} (made : m.resource = .ok v) :
    v.version.text = m.version := by
  simp only [Volume.resource] at made
  split at made <;>
  · obtain ⟨_, -, made⟩ := of_bind_ok made
    obtain ⟨_, -, made⟩ := of_bind_ok made
    obtain ⟨_, -, made⟩ := of_bind_ok made
    obtain ⟨_, -, made⟩ := of_bind_ok made
    obtain ⟨version, there, made⟩ := of_bind_ok made
    cases made
    exact text_of_needed there

theorem version_of_namespace {m : Namespace} {n : StorageControl.Namespace}
    (made : m.resource = .ok n) : n.version.text = m.version := by
  obtain ⟨_, -, made⟩ := of_bind_ok made
  obtain ⟨version, there, made⟩ := of_bind_ok made
  cases made
  exact text_of_needed there

theorem version_of_user {m : User} {u : StorageControl.User} (made : m.resource = .ok u) :
    u.version.text = m.version := by
  obtain ⟨_, -, made⟩ := of_bind_ok made
  obtain ⟨version, there, made⟩ := of_bind_ok made
  cases made
  exact text_of_needed there

theorem of_read_ok {M R : Type} {decode : Decoder M} {resource : M → Except TransportFault R}
    {body : List Text.Rune} {r : R} (read : Wire.read decode resource body = .ok r) :
    ∃ m, decode (Json.Document.ofRunes body).tree = .ok m ∧ resource m = .ok r := by
  rw [Wire.read] at read
  split at read
  next m decoded =>
    obtain ⟨m', decoded, rest⟩ := of_bind_ok decoded
    split at rest
    · cases rest
    · cases rest
      exact ⟨m, decoded, read⟩
  next => cases read

end Wire

end StorageControl
