import StorageControl.Http.Text
import StorageControl.Proofs.Grammar
import StorageControl.Proofs.Octets
import StorageControl.Proofs.Tolerance
import StorageControl.Service

/-! Which bodies of failed answers are taken for error documents.

An error document is an object with one member `error`, a string, among members of other
names. The reader of such a record also takes a list of its fields in order, so that a list
of one string counts as well. All other bodies are kept as they are, texts that are no
documents and documents of another form alike.
-/

set_option autoImplicit false

namespace StorageControl

namespace Json

/-! ### Strings -/

/-- The characters that pieces spell: a number is one, unless it is half of a pair of
surrogates, and the pair is one. -/
inductive Spells : List Piece → List Char → Prop where
  | nil : Spells [] []
  | char (c : Char) {rest : List Piece} {text : List Char} (later : Spells rest text) :
    Spells (.char c :: rest) (c :: text)
  | unit {n : Nat} {rest : List Piece} {text : List Char} (high : isHighSurrogate n = false)
    (low : isLowSurrogate n = false) (later : Spells rest text) :
    Spells (.unit n :: rest) (Char.ofNat n :: text)
  | pair {m n : Nat} {rest : List Piece} {text : List Char} (high : isHighSurrogate m = true)
    (low : isLowSurrogate n = true) (later : Spells rest text) :
    Spells (.unit m :: .unit n :: rest) (pairValue m n :: text)

theorem of_plainText_cons {c : Char} {rest : List Piece} {text : List Char}
    (plain : plainText (.char c :: rest) = .ok text) :
    ∃ later, plainText rest = .ok later ∧ text = c :: later := by
  rw [plainText] at plain
  obtain ⟨later, first, same⟩ := of_bind_ok plain
  cases same
  exact ⟨later, first, rfl⟩

/-- Pieces that are joined to a text spell it, behind the high surrogate that waits. -/
theorem spells_of_join {pending : Option Nat} {written joined : List Piece} {text : List Char}
    (waits : ∀ n ∈ pending, isHighSurrogate n = true)
    (join : joinPieces none pending written = .ok joined) (plain : plainText joined = .ok text) :
    Spells (pending.toList.map .unit ++ written) text := by
  -- A case for each line of the joiner; those that stop with a fault are void.
  fun_induction joinPieces none pending written generalizing joined text with
  | case1 | case2 | case5 | case6 | case8 => simp_all
  | case3 =>
    cases join
    cases plain
    exact .nil
  | case4 high n rest low ih =>
    obtain ⟨more, rejoin, same⟩ := of_bind_ok join
    cases same
    obtain ⟨later, first, rfl⟩ := of_plainText_cons plain
    exact .pair (waits high rfl) low (ih (by simp) rejoin first)
  | case7 n rest high ih =>
    exact ih (fun m same => by cases same; exact high) join plain
  | case9 n rest high low ih =>
    obtain ⟨more, rejoin, same⟩ := of_bind_ok join
    cases same
    obtain ⟨later, first, rfl⟩ := of_plainText_cons plain
    exact .unit (by simpa using high) (by simpa using low) (ih (by simp) rejoin first)
  | case10 piece rest other ih =>
    cases piece with
    | unit n => exact absurd rfl (other n)
    | stray =>
      obtain ⟨more, rejoin, same⟩ := of_bind_ok join
      cases same
      cases plain
    | char c =>
      obtain ⟨more, rejoin, same⟩ := of_bind_ok join
      cases same
      obtain ⟨later, first, rfl⟩ := of_plainText_cons plain
      exact .char c (ih (by simp) rejoin first)

/-- Pieces that spell a text are joined to it. -/
theorem join_of_spells {written : List Piece} {text : List Char} (spells : Spells written text) :
    ∃ joined, joinPieces none none written = .ok joined ∧ plainText joined = .ok text := by
  induction spells with
  | nil => exact ⟨[], rfl, rfl⟩
  | char c later ih =>
    obtain ⟨joined, join, plain⟩ := ih
    exact ⟨.char c :: joined, by simp only [joinPieces, join]; rfl, by rw [plainText, plain]; rfl⟩
  | unit high low later ih =>
    obtain ⟨joined, join, plain⟩ := ih
    refine ⟨.char (Char.ofNat _) :: joined, ?_, by rw [plainText, plain]; rfl⟩
    simp only [joinPieces, high, low, join, Bool.false_eq_true, if_false]
    rfl
  | pair high low later ih =>
    obtain ⟨joined, join, plain⟩ := ih
    refine ⟨.char (pairValue _ _) :: joined, ?_, by rw [plainText, plain]; rfl⟩
    simp only [joinPieces, high, low, join, if_true]
    rfl

theorem quotedText_eq_ok_iff {written : List Piece} {text : String} :
    quotedText written none = .ok text ↔ Spells written text.toList := by
  rw [quotedText]
  constructor
  · intro read
    obtain ⟨joined, join, later⟩ := of_bind_ok read
    obtain ⟨chars, plain, same⟩ := of_bind_ok later
    cases same
    rw [String.toList_ofList]
    exact spells_of_join (by simp) join plain
  · intro spells
    obtain ⟨joined, join, plain⟩ := join_of_spells spells
    simp only [join, plain, bind, Except.bind]
    exact congrArg Except.ok String.ofList_toList

/-! ### Values without their blanks -/

def Written.bare : Written → Written
  | .padded _ value _ => value.bare
  | w => w

theorem tree_bare : ∀ w : Written, w.bare.tree = w.tree
  | .padded _ value _ => tree_bare value
  | .null | .boolean _ | .number _ | .string _ | .list _ _ | .object _ _ => rfl

theorem bare_ne_padded {lead trail : Blanks} {value : Written} :
    ∀ w : Written, w.bare ≠ .padded lead value trail
  | .padded _ inner _ => bare_ne_padded inner
  | .null | .boolean _ | .number _ | .string _ | .list _ _ | .object _ _ => nofun

def Written.IsString (w : Written) (text : String) : Prop :=
  ∃ letters, w.bare = .string letters ∧ Spells (letters.map Letter.piece) text.toList

theorem string_eq_ok_iff {w : Written} {text : String} :
    Decode.string w.tree = .ok text ↔ w.IsString text := by
  rw [Written.IsString, ← tree_bare w]
  cases bare : w.bare with
  | string letters =>
    constructor
    · exact fun read => ⟨letters, rfl, quotedText_eq_ok_iff.mp read⟩
    · rintro ⟨_, ⟨⟩, spells⟩
      exact quotedText_eq_ok_iff.mpr spells
  | padded => exact absurd bare (bare_ne_padded w)
  | number n =>
    refine ⟨fun read => ?_, by rintro ⟨_, ⟨⟩, _⟩⟩
    simp only [Written.tree, Decode.string, Decode.stringAs, Tree.mismatch] at read
    split at read <;> cases read
  | null | boolean | list | object =>
    constructor
    · rintro ⟨⟩
    · rintro ⟨_, ⟨⟩, _⟩

/-! ### Records of one field -/

/-- Whether a key is that of a name. -/
def Key.Names (key : Key) (name : String) : Prop :=
  Spells (key.letters.map Letter.piece) name.toList

def Key.NamesNot (key : Key) (name : String) : Prop := ∃ other, key.Names other ∧ other ≠ name

theorem names_iff {key : Key} {name : String} : key.Names name ↔ key.quoted.text = .ok name :=
  quotedText_eq_ok_iff.symm

/-- Whether one of the members has the name, with such a value, and all others have other
names. -/
inductive HasOnly (name : String) (holds : Written → Prop) : List (Key × Written) → Prop where
  | here {key : Key} {value : Written} {rest : List (Key × Written)} (named : key.Names name)
    (holding : holds value) (others : ∀ member ∈ rest, member.1.NamesNot name) :
    HasOnly name holds ((key, value) :: rest)
  | there {key : Key} (value : Written) {rest : List (Key × Written)} (other : key.NamesNot name)
    (later : HasOnly name holds rest) : HasOnly name holds ((key, value) :: rest)

namespace Record

variable {α : Type} {name : String} {decode : Decoder α} {members : List (Key × Written)}
  {found : List (String × Tree)} {a : α}

theorem lookup_required (other : String) :
    lookup (required name decode).fields other =
      if name = other then some ⟨name, fun t => (decode t).map fun _ => ()⟩ else none := by
  by_cases same : name = other <;> simp [lookup, required, field, same]

/-- A member has another name, or it is the first of the name and is read. -/
theorem readMembers_required_iff {seen : List String} {key : Key} {value : Written} :
    readMembers (required name decode).fields seen (writtenMembers ((key, value) :: members)) =
        .ok found ↔
      key.NamesNot name ∧
          readMembers (required name decode).fields seen (writtenMembers members) = .ok found ∨
        key.Names name ∧ name ∉ seen ∧ ∃ a more, decode value.tree = .ok a ∧
          readMembers (required name decode).fields (name :: seen) (writtenMembers members) =
            .ok more ∧ found = (name, value.tree) :: more := by
  rw [writtenMembers, readMembers_cons_iff]
  constructor
  · rintro ⟨other, text, ⟨unknown, -, read⟩ | ⟨f, more, known, fresh, checked, read, rfl⟩⟩
    · refine .inl ⟨⟨other, names_iff.mpr text, ?_⟩, read⟩
      rintro rfl
      rw [lookup_required, if_pos rfl] at unknown
      cases unknown
    · rw [lookup_required] at known
      split at known
      next same =>
        subst same
        cases known
        cases decoded : decode value.tree with
        | error cause =>
          have failed : (decode value.tree).map (fun _ => ()) = .ok () := checked
          rw [decoded] at failed
          cases failed
        | ok a => exact .inr ⟨names_iff.mpr text, fresh, a, more, rfl, read, rfl⟩
      next => cases known
  · rintro (⟨⟨other, named, differs⟩, read⟩ | ⟨named, fresh, a, more, decoded, read, rfl⟩)
    · refine ⟨other, names_iff.mp named, .inl ⟨?_, skip_written value, read⟩⟩
      exact (lookup_required other).trans (if_neg differs.symm)
    · have known : lookup (required name decode).fields name =
          some ⟨name, fun t => (decode t).map fun _ => ()⟩ :=
        (lookup_required name).trans (if_pos rfl)
      have checked : (decode value.tree).map (fun _ => ()) = .ok () :=
        congrArg (Except.map _) decoded
      exact ⟨name, names_iff.mp named, .inr ⟨_, more, known, fresh, checked, read, rfl⟩⟩

/-- Once a member of the name was seen, all have other names. -/
theorem readMembers_seen_iff :
    readMembers (required name decode).fields [name] (writtenMembers members) = .ok found ↔
      found = [] ∧ ∀ member ∈ members, member.1.NamesNot name := by
  induction members with
  | nil => simp [writtenMembers, readMembers, eq_comm]
  | cons member rest ih =>
    obtain ⟨key, value⟩ := member
    rw [readMembers_required_iff, ih, List.forall_mem_cons]
    simp [and_left_comm]

theorem build_found (t : Tree) :
    (required name decode).build (find ((name, t) :: found)) = decode t := by
  simp only [required, field, find_cons, if_true]

/-- Members make the record exactly if they have one of the name, and it is read. -/
theorem required_members_iff :
    (∃ found, readMembers (required name decode).fields [] (writtenMembers members) = .ok found ∧
        (required name decode).build (find found) = .ok a) ↔
      HasOnly name (fun value => decode value.tree = .ok a) members := by
  induction members with
  | nil =>
    refine ⟨fun ⟨found, read, built⟩ => ?_, nofun⟩
    cases read
    cases built
  | cons member rest ih =>
    obtain ⟨key, value⟩ := member
    constructor
    · rintro ⟨found, read, built⟩
      obtain ⟨other, read⟩ | ⟨named, -, -, more, -, later, rfl⟩ := readMembers_required_iff.mp read
      · exact .there value other (ih.mp ⟨found, read, built⟩)
      · rw [build_found] at built
        exact .here named built (readMembers_seen_iff.mp later).2
    · intro only
      cases only with
      | here named decoded others =>
        have later : readMembers (required name decode).fields [name] (writtenMembers rest) =
            .ok [] := readMembers_seen_iff.mpr ⟨rfl, others⟩
        have read := readMembers_required_iff.mpr
          (.inr ⟨named, List.not_mem_nil, a, [], decoded, later, rfl⟩)
        exact ⟨_, read, (build_found value.tree).trans decoded⟩
      | there _ other later =>
        obtain ⟨found, read, built⟩ := ih.mpr later
        exact ⟨found, readMembers_required_iff.mpr (.inl ⟨other, read⟩), built⟩

theorem decode_object_iff {record : Record α} {what : String} {length : Length}
    {members : List (Quoted × Tree)} :
    record.decode what length (.object members .closed) = .ok a ↔
      ∃ found, readMembers record.fields [] members = .ok found ∧
        record.build (find found) = .ok a := by
  rw [Record.decode]
  constructor
  · intro decoded
    obtain ⟨found, read, built⟩ := of_bind_ok decoded
    exact ⟨found, read, built⟩
  · rintro ⟨found, read, built⟩
    rw [read]
    exact built

/-- A list makes the record exactly if it has one item, and that is read. -/
theorem required_items_iff {what : String} : ∀ {items : List Tree},
    (required name decode).decode what .exact (.list items .closed) = .ok a ↔
      ∃ t, items = [t] ∧ decode t = .ok a
  | [] => ⟨nofun, nofun⟩
  | t :: rest => by
    have reached : ¬(t :: rest).length < (required name decode).fields.length :=
      Nat.not_lt.mpr (Nat.succ_pos _)
    constructor
    · intro decoded
      obtain ⟨found, read, decoded⟩ := of_bind_ok decoded
      obtain ⟨⟨⟩, -, same⟩ := of_bind_ok read
      cases same
      rw [if_neg reached] at decoded
      obtain ⟨value, built, decoded⟩ := of_bind_ok decoded
      rw [build_found] at built
      cases rest with
      | nil =>
        cases decoded
        exact ⟨t, rfl, built⟩
      | cons => cases decoded
    · rintro ⟨_, ⟨⟩, read⟩
      have found : readItems (required name decode).fields [t] = .ok [(name, t)] := by
        have checked : (decode t).map (fun _ => ()) = .ok () := congrArg (Except.map _) read
        simp only [required, field, readItems, checked]
        rfl
      simp only [Record.decode, found, bind, Except.bind, if_neg reached, build_found, read]
      rfl

/-- A value makes a record of one field exactly if it is an object with one member of that
name, or a list of one item. -/
theorem required_eq_ok_iff {what : String} {w : Written} :
    (required name decode).decode what .exact w.tree = .ok a ↔
      (∃ inside members, w.bare = .object inside members ∧
        HasOnly name (fun value => decode value.tree = .ok a) members) ∨
      ∃ inside item, w.bare = .list inside [item] ∧ decode item.tree = .ok a := by
  rw [← tree_bare w]
  cases bare : w.bare with
  | object inside members =>
    rw [Written.tree, decode_object_iff, required_members_iff]
    constructor
    · exact fun only => .inl ⟨inside, members, rfl, only⟩
    · rintro (⟨_, _, ⟨⟩, only⟩ | ⟨_, _, ⟨⟩, _⟩)
      exact only
  | list inside items =>
    rw [Written.tree, required_items_iff]
    constructor
    · rintro ⟨t, single, read⟩
      match items with
      | [item] =>
        cases single
        exact .inr ⟨inside, item, rfl, read⟩
    · rintro (⟨_, _, ⟨⟩, _⟩ | ⟨_, item, ⟨⟩, read⟩)
      exact ⟨item.tree, rfl, read⟩
  | padded => exact absurd bare (bare_ne_padded w)
  | _ =>
    refine ⟨fun decoded => absurd (isClosed_of_decode decoded) id, ?_⟩
    rintro (⟨inside, members, ⟨⟩, only⟩ | ⟨inside, item, ⟨⟩, read⟩)

end Record

end Json

/-! ### Error documents -/

namespace Wire

open Json (HasOnly Written)

/-- Whether a value is an object with one error, a string of this text. -/
def IsErrorDocument (w : Written) (error : String) : Prop :=
  ∃ inside members, w.bare = .object inside members ∧ HasOnly "error" (·.IsString error) members

/-- Whether a value is a list of one item, a string of this text. -/
def IsLoneString (w : Written) (text : String) : Prop :=
  ∃ inside item, w.bare = .list inside [item] ∧ item.IsString text

theorem toErrorBody_eq_ok_iff {w : Written} {error : String} :
    toErrorBody w.tree = .ok error ↔ IsErrorDocument w error ∨ IsLoneString w error := by
  simp only [toErrorBody, errorBody, Json.Record.required_eq_ok_iff, Json.string_eq_ok_iff,
    IsErrorDocument, IsLoneString]

/-- Whether a text is an error document of this error. -/
def Documents (body error : String) : Prop :=
  ∃ w : Written, w.runes = Text.runes body ∧ IsErrorDocument w error

/-- Whether a text is a list of this one string. -/
def ListsOnly (body text : String) : Prop :=
  ∃ w : Written, w.runes = Text.runes body ∧ IsLoneString w text

theorem payload_eq_structured_iff {body error : String} :
    payload body = .structured error ↔ Documents body error ∨ ListsOnly body error := by
  have read : payload body = .structured error ↔ Json.readText toErrorBody body = .ok error := by
    unfold payload
    split
    next told read => rw [read, Payload.structured.injEq, Except.ok.injEq]
    next read =>
      rw [read]
      exact ⟨nofun, nofun⟩
  have decoded : Json.readText toErrorBody body = .ok error ↔
      ∃ w : Written, w.runes = Text.runes body ∧ toErrorBody w.tree = .ok error :=
    Json.readRunes_decode_iff
  simp only [read, decoded, toErrorBody_eq_ok_iff, and_or_left, exists_or, Documents, ListsOnly]

/-- A body that is not structured is kept as it is. -/
theorem payload_eq_raw_iff {body : String} :
    payload body = .raw body ↔ ∀ error, payload body ≠ .structured error := by
  unfold payload
  cases Json.readText toErrorBody body <;> simp

end Wire

namespace Service

open Http (Reply)
open Wire (Documents ListsOnly plain)

theorem accepted_of_failed {r : Reply} {body : String} (failed : r.isSuccess = false)
    (whole : r.isWhole = true) (utf8 : r.body = Text.Rune.ofOctets (Http.octetsOf body)) :
    accepted r = .error (.response r.status (Wire.payload body)) := by
  have read : r.body = Text.runes body := utf8.trans (Text.ofOctets_octets body.toList)
  simp only [accepted, failed, failureBody, whole, read, Text.lossy_runes, if_true,
    Bool.false_eq_true, if_false]

/-- A failed answer carries its status with the error of its body, if that is an error document
or a list of one string, and else with the body. -/
theorem failure_classified {r : Reply} {body : String} (failed : r.isSuccess = false)
    (whole : r.isWhole = true) (utf8 : r.body = Text.Rune.ofOctets (Http.octetsOf body)) :
    (∀ error, accepted r = .error (.response r.status (.structured error)) ↔
      Documents body error ∨ ListsOnly body error) ∧
    (accepted r = .error (.response r.status (.raw body)) ↔
      ∀ error, ¬(Documents body error ∨ ListsOnly body error)) := by
  simp only [accepted_of_failed failed whole utf8, Except.error.injEq,
    TransportFault.response.injEq, true_and]
  refine ⟨fun error => Wire.payload_eq_structured_iff, Wire.payload_eq_raw_iff.trans ?_⟩
  simp only [ne_eq, Wire.payload_eq_structured_iff]

def saying (status : Nat) (body : String) : Reply := ⟨status, [], Text.runes body, true⟩

theorem missing_volume_classified :
    let body := "\x7b\"error\": \"gone\"\x7d"
    let r := saying 404 body
    r.isSuccess = false ∧ r.isWhole = true ∧ r.body = Text.Rune.ofOctets (Http.octetsOf body) ∧
      Documents body "gone" ∧ accepted r = .error (.response 404 (.structured "gone")) := by
  intro body r
  let w : Json.Written := .object .none
    [(⟨.none, plain "error", .none⟩,
      .padded ⟨[' '], by simp [Json.isSpace]⟩ (.string (plain "gone")) .none)]
  have utf8 : r.body = Text.Rune.ofOctets (Http.octetsOf body) := by decide +kernel
  have documented : Documents body "gone" :=
    ⟨w, by decide +kernel, .none, _, rfl,
      .here (Json.names_iff.mpr rfl) (Json.string_eq_ok_iff.mp rfl) nofun⟩
  exact ⟨rfl, rfl, utf8, documented,
    ((failure_classified rfl rfl utf8).1 "gone").mpr (.inl documented)⟩

/-- A list of one string counts as structured, although it is no error document. -/
theorem lone_string_classified :
    let body := "[\"boom\"]"
    let r := saying 500 body
    r.isSuccess = false ∧ r.isWhole = true ∧ r.body = Text.Rune.ofOctets (Http.octetsOf body) ∧
      accepted r = .error (.response 500 (.structured "boom")) ∧
      ∀ error, ¬Documents body error := by
  intro body r
  let list : Json.Written := .list .none [.string (plain "boom")]
  have utf8 : r.body = Text.Rune.ofOctets (Http.octetsOf body) := by decide +kernel
  have written : list.runes = Text.runes body := by decide +kernel
  have listed : ListsOnly body "boom" :=
    ⟨list, written, .none, _, rfl, Json.string_eq_ok_iff.mp rfl⟩
  refine ⟨rfl, rfl, utf8, ?_, ?_⟩
  · rw [accepted_of_failed rfl rfl utf8, Wire.payload_eq_structured_iff.mpr (.inr listed)]
    rfl
  · rintro error ⟨w, same, inside, members, bare, -⟩
    -- A text has one tree, and this one is a list.
    have tree : w.bare.tree = list.tree := by
      have read := (Json.ofRunes_written w).symm.trans (congrArg _ (same.trans written.symm))
      rw [Json.tree_bare, (Json.Document.mk.inj (read.trans (Json.ofRunes_written list))).1]
    rw [bare] at tree
    cases tree

end Service

end StorageControl
