import StorageControl.Proofs.Record
import StorageControl.Proofs.Syntax

/-! Objects with a member more, a member less or another member.

A record is read from the members that it knows. A member of another name changes
nothing; without one of its own members a record has the default of that field and is
otherwise the same, and with another value for one it differs in that field only.
-/

set_option autoImplicit false

namespace StorageControl.Json

variable {α β : Type}

/-! ### Edits -/

namespace Tree

/-- One member more, of a name that is none of these and with any value. -/
def Gains (names : List String) (t t' : Tree) : Prop :=
  ∃ before after key name value, Quoted.text key = .ok name ∧ name ∉ names ∧
    t = .object (before ++ after) .closed ∧
    t' = .object (before ++ (key, Written.tree value) :: after) .closed

/-- One member less, of that name. -/
def Loses (name : String) (t t' : Tree) : Prop :=
  ∃ before after key value, Quoted.text key = .ok name ∧
    t = .object (before ++ (key, value) :: after) .closed ∧
    t' = .object (before ++ after) .closed

/-- An edit of the value of a member of that name. -/
def Within (name : String) (edit : Tree → Tree → Prop) (t t' : Tree) : Prop :=
  ∃ before after key value value', Quoted.text key = .ok name ∧ edit value value' ∧
    t = .object (before ++ (key, value) :: after) .closed ∧
    t' = .object (before ++ (key, value') :: after) .closed

/-- An edit of one item of a list. -/
def AtItem (index : Nat) (edit : Tree → Tree → Prop) (t t' : Tree) : Prop :=
  ∃ before after value value', before.length = index ∧ edit value value' ∧
    t = .list (before ++ value :: after) .closed ∧ t' = .list (before ++ value' :: after) .closed

/-- Whether a tree is an object or a list. -/
def IsNested : Tree → Prop
  | .list _ _ | .object _ _ => True
  | _ => False

end Tree

/-- Whether an edit of what is read changes what it is read as in one way. -/
def Decoder.Carries (decode : Decoder α) (edit : Tree → Tree → Prop) (change : α → α) : Prop :=
  ∀ t t' a, edit t t' → decode t = .ok a → decode t' = .ok (change a)

namespace Decode

variable {decode : Decoder α} {edit : Tree → Tree → Prop} {change : α → α}

/-- A value that may be null is edited only where it is not. -/
theorem option_carries (carries : Decoder.Carries decode edit change)
    (nested : ∀ t t', edit t t' → t.IsNested ∧ t'.IsNested) :
    Decoder.Carries (option decode) edit (Option.map change) := by
  have solid {t : Tree} (nested : t.IsNested) : option decode t = (decode t).map some := by
    cases t <;> first | rfl | exact nested.elim
  intro t t' o edited read
  obtain ⟨here, there⟩ := nested t t' edited
  rw [solid here] at read
  cases decoded : decode t with
  | error cause =>
    rw [decoded] at read
    cases read
  | ok a =>
    rw [decoded] at read
    cases read
    rw [solid there, carries t t' a edited decoded]
    rfl

theorem items_carries (carries : Decoder.Carries decode edit change) {value value' : Tree}
    (edited : edit value value') {before after : List Tree} {as : List α}
    (read : items decode (before ++ value :: after) = .ok as) :
    items decode (before ++ value' :: after) = .ok (as.modify before.length change) := by
  induction before generalizing as with
  | nil =>
    obtain ⟨a, here, read⟩ := of_bind_ok read
    obtain ⟨more, later, read⟩ := of_bind_ok read
    cases read
    rw [List.nil_append, items, carries value value' a edited here, later]
    rfl
  | cons t before ih =>
    obtain ⟨a, here, read⟩ := of_bind_ok read
    obtain ⟨more, later, read⟩ := of_bind_ok read
    cases read
    rw [List.cons_append, items, here, ih later]
    rfl

theorem list_carries (carries : Decoder.Carries decode edit change) (index : Nat) :
    Decoder.Carries (list decode) (Tree.AtItem index edit) (·.modify index change) := by
  rintro t t' as ⟨before, after, value, value', rfl, edited, rfl, rfl⟩ read
  obtain ⟨all, read, same⟩ := of_bind_ok read
  cases same
  rw [list, items_carries carries edited read]
  rfl

end Decode

namespace Record

/-! ### Reading members -/

/-- What one more member asks for. -/
theorem readMembers_cons_iff {fields : List Field} {seen : List String} {key : Quoted} {t : Tree}
    {rest : List (Quoted × Tree)} {found : List (String × Tree)} :
    readMembers fields seen ((key, t) :: rest) = .ok found ↔
      ∃ name, key.text = .ok name ∧
        (lookup fields name = none ∧ t.skip = .ok () ∧ readMembers fields seen rest = .ok found ∨
          ∃ f more, lookup fields name = some f ∧ name ∉ seen ∧ f.check t = .ok () ∧
            readMembers fields (name :: seen) rest = .ok more ∧ found = (name, t) :: more) := by
  constructor
  · intro read
    rw [readMembers] at read
    obtain ⟨name, text, read⟩ := of_bind_ok read
    refine ⟨name, text, ?_⟩
    cases known : lookup fields name with
    | none =>
      simp only [known] at read
      obtain ⟨⟨⟩, skipped, read⟩ := of_bind_ok read
      exact .inl ⟨rfl, skipped, read⟩
    | some f =>
      simp only [known] at read
      split at read
      next repeated => cases read
      next fresh =>
        obtain ⟨⟨⟩, checked, read⟩ := of_bind_ok read
        obtain ⟨more, later, read⟩ := of_bind_ok read
        cases read
        exact .inr ⟨f, more, rfl, by simpa using fresh, checked, later, rfl⟩
  · rintro ⟨name, text, ⟨known, skipped, read⟩ | ⟨f, more, known, fresh, checked, later, rfl⟩⟩
    · rw [readMembers, text]
      simp only [bind, Except.bind, known, skipped, read]
    · have fresh : seen.contains name = false := by simpa using fresh
      rw [readMembers, text]
      simp only [bind, Except.bind, known, fresh, checked, later]
      rfl

section Reading

variable {fields : List Field} {seen : List String} {before after : List (Quoted × Tree)}
  {key : Quoted} {name : String} {t : Tree} {found : List (String × Tree)}

/-- What can be read in the place of the last members can be read behind any others. -/
theorem readMembers_behind {last last' : List (Quoted × Tree)}
    (instead : ∀ seen found, readMembers fields seen last = .ok found →
      ∃ found', readMembers fields seen last' = .ok found')
    (read : readMembers fields seen (before ++ last) = .ok found) :
    ∃ found', readMembers fields seen (before ++ last') = .ok found' := by
  induction before generalizing seen found with
  | nil => exact instead seen found read
  | cons member before ih =>
    obtain ⟨written, here, unknown | ⟨f, more, known, fresh, checked, later, -⟩⟩ :=
      readMembers_cons_iff.mp read
    · obtain ⟨unknown, skipped, later⟩ := unknown
      obtain ⟨found', later⟩ := ih later
      exact ⟨found', readMembers_cons_iff.mpr ⟨written, here, .inl ⟨unknown, skipped, later⟩⟩⟩
    · obtain ⟨found', later⟩ := ih later
      exact ⟨(written, member.2) :: found', readMembers_cons_iff.mpr
        ⟨written, here, .inr ⟨f, found', known, fresh, checked, later, rfl⟩⟩⟩

/-- Members that can be read can be read where fewer have been seen. -/
theorem readMembers_of_fewer {fewer : List String} (fewer_seen : ∀ n ∈ fewer, n ∈ seen)
    {members : List (Quoted × Tree)} (read : readMembers fields seen members = .ok found) :
    readMembers fields fewer members = .ok found := by
  induction members generalizing seen fewer found with
  | nil => exact read
  | cons member rest ih =>
    obtain ⟨written, here, unknown | ⟨f, more, known, fresh, checked, later, same⟩⟩ :=
      readMembers_cons_iff.mp read
    · obtain ⟨unknown, skipped, later⟩ := unknown
      exact readMembers_cons_iff.mpr ⟨written, here, .inl ⟨unknown, skipped, ih fewer_seen later⟩⟩
    · have still : ∀ n ∈ written :: fewer, n ∈ written :: seen := by
        intro n listed
        rcases List.mem_cons.mp listed with rfl | listed
        · exact List.mem_cons_self
        · exact List.mem_cons_of_mem _ (fewer_seen n listed)
      exact readMembers_cons_iff.mpr ⟨written, here, .inr ⟨f, more, known,
        fun listed => fresh (fewer_seen _ listed), checked, ih still later, same⟩⟩

/-- A member of an unknown name is passed over. -/
theorem readMembers_gain (text : key.text = .ok name) (unknown : lookup fields name = none)
    (skipped : t.skip = .ok ()) :
    readMembers fields seen (before ++ (key, t) :: after) =
      readMembers fields seen (before ++ after) := by
  induction before generalizing seen with
  | nil =>
    rw [List.nil_append, readMembers, text]
    simp only [bind, Except.bind, unknown, skipped]
    rfl
  | cons member before ih =>
    obtain ⟨other, value⟩ := member
    simp only [List.cons_append, readMembers, ih]

theorem readMembers_loss (read : readMembers fields seen (before ++ (key, t) :: after) = .ok found) :
    ∃ found', readMembers fields seen (before ++ after) = .ok found' := by
  refine readMembers_behind (fun seen found read => ?_) read
  obtain ⟨_, -, ⟨-, -, later⟩ | ⟨_, more, -, -, -, later, -⟩⟩ := readMembers_cons_iff.mp read
  · exact ⟨found, later⟩
  · exact ⟨more, readMembers_of_fewer (fun n listed => List.mem_cons_of_mem _ listed) later⟩

/-- A field can have another value that passes its check. -/
theorem readMembers_change {t' : Tree} (text : key.text = .ok name)
    (known : (lookup fields name).isSome = true)
    (checks : ∀ f ∈ fields, f.name = name → f.check t = .ok () → f.check t' = .ok ())
    (read : readMembers fields seen (before ++ (key, t) :: after) = .ok found) :
    ∃ found', readMembers fields seen (before ++ (key, t') :: after) = .ok found' := by
  refine readMembers_behind (fun seen found read => ?_) read
  obtain ⟨written, here, ⟨unknown, -⟩ | ⟨f, more, found, fresh, checked, later, -⟩⟩ :=
    readMembers_cons_iff.mp read
  all_goals cases text.symm.trans here
  · rw [unknown] at known
    cases known
  · have checked := checks f (List.mem_of_find?_eq_some found)
      (by simpa using List.find?_some found) checked
    exact ⟨_, readMembers_cons_iff.mpr
      ⟨name, text, .inr ⟨f, more, found, fresh, checked, later, rfl⟩⟩⟩

theorem valuesOf_append (n : String) :
    valuesOf n (before ++ after) = valuesOf n before ++ valuesOf n after := by
  simp [valuesOf]

/-- The value of a known member is the only one of its name. -/
theorem toList_find (known : (lookup fields name).isSome = true)
    (read : readMembers fields [] after = .ok found) :
    (find found name).toList = valuesOf name after := by
  rw [readMembers_values known read, if_neg List.not_mem_nil]

end Reading

/-! ### Fields -/

/-- Whether a record can be built again where its fields are not the same trees, and what
it is built as then. -/
structure Follows (record : Record α) (agree : String → Option Tree → Option Tree → Prop)
    (holds : α → α → Prop) : Prop where
  checks : ∀ f ∈ record.fields, ∀ t t', agree f.name (some t) (some t') →
    f.check t = .ok () → f.check t' = .ok ()
  builds : ∀ find find', (∀ f ∈ record.fields, agree f.name (find f.name) (find' f.name)) →
    ∀ a, record.build find = .ok a → ∃ a', record.build find' = .ok a' ∧ holds a a'

def Without (name field : String) (before after : Option Tree) : Prop :=
  after = if field = name then none else before

/-- With an edit of the field of that name. -/
def With (name : String) (edit : Tree → Tree → Prop) (field : String)
    (before after : Option Tree) : Prop :=
  if field = name then ∃ t t', before = some t ∧ after = some t' ∧ edit t t' else after = before

end Record

/-- The value of a field, or what stands for nothing if that field was taken away. -/
def cleared (removed field : String) (empty value : α) : α :=
  if removed = field then empty else value

theorem cleared_of_ne {removed field : String} (other : removed ≠ field) (empty value : α) :
    cleared removed field empty value = value :=
  if_neg other

theorem cleared_self (removed field : String) (empty : α) :
    cleared removed field empty empty = empty :=
  ite_self empty

/-- What is made of an empty field stands for nothing. -/
theorem apply_cleared (make : α → β) (removed field : String) (empty value : α) :
    make (cleared removed field empty value) =
      cleared removed field (make empty) (make value) :=
  apply_ite make _ _ _

namespace Record

section Rules

variable {agree : String → Option Tree → Option Tree → Prop}

theorem follows_pure {a : α} {holds : α → α → Prop} (here : holds a a) :
    (pure a).Follows agree holds where
  checks := nofun
  builds find find' _ b built := by
    cases built
    exact ⟨a, rfl, here⟩

theorem Follows.seq {f : Record (α → β)} {x : Record α} {holds : β → β → Prop}
    {after : α → α → Prop}
    (front : f.Follows agree fun g g' => ∀ a a', after a a' → holds (g a) (g' a'))
    (back : x.Follows agree after) : (f.seq x).Follows agree holds where
  checks field listed := by
    rcases List.mem_append.mp listed with here | here
    · exact front.checks field here
    · exact back.checks field here
  builds find find' agrees b built := by
    obtain ⟨g, a, first, second, rfl⟩ := of_seq_build built
    obtain ⟨g', first', related⟩ := front.builds find find'
      (fun field listed => agrees field (List.mem_append_left _ listed)) g first
    obtain ⟨a', second', here⟩ := back.builds find find'
      (fun field listed => agrees field (List.mem_append_right _ listed)) a second
    refine ⟨g' a', ?_, related a a' here⟩
    rw [Record.seq]
    simp only [first', second']
    rfl

theorem follows_without (removed name : String) (decode : Decoder α) (empty : α) :
    (defaulted name decode empty).Follows (Without removed)
      fun a a' => a' = cleared removed name empty a where
  checks f listed t t' agrees checked := by
    obtain rfl := List.mem_singleton.mp listed
    rw [Without] at agrees
    split at agrees
    · cases agrees
    · cases agrees
      exact checked
  builds find find' agrees a built := by
    have agrees := agrees _ (List.mem_singleton.mpr rfl)
    simp only [Without] at agrees
    simp only [defaulted, field, cleared, agrees, eq_comm (a := removed)] at built ⊢
    by_cases same : name = removed
    · exact ⟨empty, by rw [if_pos same], if_pos same ▸ rfl⟩
    · rw [if_neg same]
      exact ⟨a, built, (if_neg same).symm⟩

theorem follows_same {edited name : String} {edit : Tree → Tree → Prop} (other : name ≠ edited)
    (decode : Decoder α) (empty : α) :
    (defaulted name decode empty).Follows (With edited edit) fun a a' => a' = a where
  checks f listed t t' agrees checked := by
    obtain rfl := List.mem_singleton.mp listed
    rw [With, if_neg other] at agrees
    cases agrees
    exact checked
  builds find find' agrees a built := by
    have agrees := agrees _ (List.mem_singleton.mpr rfl)
    simp only [With, if_neg other] at agrees
    simp only [defaulted, field, agrees] at built ⊢
    exact ⟨a, built, rfl⟩

/-- A field that is edited changes as its values do. -/
theorem follows_edit {edit : Tree → Tree → Prop} {decode : Decoder α} {change : α → α}
    (carries : Decoder.Carries decode edit change) (name : String) (empty : α) :
    (defaulted name decode empty).Follows (With name edit) fun a a' => a' = change a where
  checks f listed t t' agrees checked := by
    obtain rfl := List.mem_singleton.mp listed
    rw [With, if_pos rfl] at agrees
    obtain ⟨t, t', here, there, edited⟩ := agrees
    cases here
    cases there
    cases decoded : decode t with
    | error cause =>
      simp only [decoded] at checked
      cases checked
    | ok a =>
      simp only [carries t t' a edited decoded]
      rfl
  builds find find' agrees a built := by
    have agrees := agrees _ (List.mem_singleton.mpr rfl)
    simp only [With, if_true] at agrees
    obtain ⟨t, t', here, there, edited⟩ := agrees
    simp only [defaulted, field, here, there] at built ⊢
    exact ⟨change a, carries t t' a edited built, rfl⟩

end Rules

/-! ### Records that are read again -/

variable {record : Record α} {change : α → α}

theorem isSome_lookup {f : Field} {fields : List Field} (listed : f ∈ fields) :
    (lookup fields f.name).isSome = true := by
  rw [lookup, List.find?_isSome]
  exact ⟨f, listed, beq_self_eq_true _⟩

/-- Where the fields agree with those of an object that was read, the record is read. -/
theorem decode_of_follows {agree : String → Option Tree → Option Tree → Prop}
    {holds : α → α → Prop} (follows : record.Follows agree holds) {what : String} {length : Length}
    {members members' : List (Quoted × Tree)} {a : α}
    (decoded : record.decode what length (.object members .closed) = .ok a)
    (again : ∀ found, readMembers record.fields [] members = .ok found →
      ∃ found', readMembers record.fields [] members' = .ok found' ∧
        ∀ f ∈ record.fields, agree f.name (find found f.name) (find found' f.name)) :
    ∃ a', record.decode what length (.object members' .closed) = .ok a' ∧ holds a a' := by
  obtain ⟨found, read, decoded⟩ := of_bind_ok decoded
  obtain ⟨⟨⟩, -, built⟩ := of_bind_ok decoded
  obtain ⟨found', read', agrees⟩ := again found read
  obtain ⟨a', built', here⟩ := follows.builds _ _ agrees a built
  refine ⟨a', ?_, here⟩
  rw [decode, read']
  exact built'

/-- The values of a name beside a member. -/
theorem valuesOf_member {before after : List (Quoted × Tree)} {key : Quoted} {written : String}
    (text : key.text = .ok written) (t : Tree) (name : String) :
    valuesOf name (before ++ (key, t) :: after) =
      valuesOf name before ++ ((if written = name then [t] else []) ++ valuesOf name after) := by
  rw [valuesOf_append, valuesOf_cons name text]
  split <;> rfl

theorem toList_injective {o o' : Option α} (same : o.toList = o'.toList) : o = o' := by
  cases o <;> cases o' <;> simp_all

theorem decode_gains (record : Record α) (what : String) (length : Length) :
    Decoder.Carries (record.decode what length)
      (Tree.Gains (record.fields.map Field.name)) id := by
  rintro t t' a ⟨before, after, key, name, value, text, other, rfl, rfl⟩ decoded
  have unknown : lookup record.fields name = none := by
    rw [lookup, List.find?_eq_none]
    intro f listed same
    exact other (List.mem_map.mpr ⟨f, listed, by simpa using same⟩)
  rw [decode, readMembers_gain text unknown (skip_written value)]
  exact decoded

theorem decode_loses {name : String}
    (follows : record.Follows (Without name) fun a a' => a' = change a) (what : String)
    (length : Length) : Decoder.Carries (record.decode what length) (Tree.Loses name) change := by
  rintro t t' a ⟨before, after, key, value, text, rfl, rfl⟩ decoded
  obtain ⟨_, decoded', rfl⟩ := decode_of_follows follows decoded fun found read => by
    obtain ⟨found', read'⟩ := readMembers_loss read
    refine ⟨found', read', fun f listed => ?_⟩
    have here := toList_find (isSome_lookup listed) read
    have there := toList_find (isSome_lookup listed) read'
    rw [valuesOf_member text] at here
    rw [valuesOf_append] at there
    rw [Without]
    split
    next same =>
      -- The member that was lost was the only one of its name.
      rw [if_pos same.symm] at here
      have few := congrArg List.length here
      have atMost : (find found f.name).toList.length ≤ 1 := by
        cases find found f.name <;> simp
      simp only [List.length_append, List.length_singleton] at few
      refine toList_injective (List.eq_nil_of_length_eq_zero ?_)
      rw [there, List.length_append]
      omega
    next other =>
      rw [if_neg (Ne.symm other), List.nil_append, ← there] at here
      exact toList_injective here.symm
  exact decoded'

theorem decode_within {name : String} {edit : Tree → Tree → Prop}
    (follows : record.Follows (With name edit) fun a a' => a' = change a)
    (known : (lookup record.fields name).isSome = true) (what : String) (length : Length) :
    Decoder.Carries (record.decode what length) (Tree.Within name edit) change := by
  rintro t t' a ⟨before, after, key, value, value', text, edited, rfl, rfl⟩ decoded
  obtain ⟨_, decoded', rfl⟩ := decode_of_follows follows decoded fun found read => by
    have checks : ∀ f ∈ record.fields, f.name = name →
        f.check value = .ok () → f.check value' = .ok () := by
      intro f listed same
      refine follows.checks f listed value value' ?_
      rw [With, if_pos same]
      exact ⟨value, value', rfl, rfl, edited⟩
    obtain ⟨found', read'⟩ := readMembers_change text known checks read
    refine ⟨found', read', fun f listed => ?_⟩
    have here := toList_find (isSome_lookup listed) read
    have there := toList_find (isSome_lookup listed) read'
    rw [valuesOf_member text] at here there
    rw [With]
    split
    next same =>
      rw [if_pos same.symm] at here there
      have only {o : Option Tree} {v : Tree} (all : o.toList =
          valuesOf f.name before ++ ([v] ++ valuesOf f.name after)) : o = some v := by
        cases o with
        | none => simp at all
        | some w =>
          obtain ⟨-, same⟩ | ⟨-, none⟩ := List.append_eq_singleton_iff.mp all.symm
          · rw [(List.cons.inj same).1]
          · cases none
      exact ⟨value, value', only here, only there, edited⟩
    next other =>
      rw [if_neg (Ne.symm other), List.nil_append] at here there
      exact toList_injective (there.trans here.symm)
  exact decoded'

end Record

end StorageControl.Json
