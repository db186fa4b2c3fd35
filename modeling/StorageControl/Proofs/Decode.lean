import StorageControl.Proofs.Record

/-! Typed readers on documents that are whole.

A document that was written by a program has no flaws: whatever of it is not asked for is
passed over, and a record is made of the members that it asks for, in whatever order they
stand.
-/

set_option autoImplicit false

namespace StorageControl.Json

variable {α β : Type}

/-! ### Values that are passed over -/

mutual

theorem skip_tree : ∀ v : Value, v.tree.skip = .ok ()
  | .null | .boolean _ | .number _ => by simp only [Value.tree, Tree.skip]
  | .string _ => by simp only [Value.tree, Tree.skip]; rfl
  | .list items => by simp only [Value.tree, Tree.skip, skip_itemTrees items]; rfl
  | .object members => by simp only [Value.tree, Tree.skip, skip_memberTrees members]; rfl

theorem skip_itemTrees : ∀ items : List Value, skipItems (itemTrees items) = .ok ()
  | [] => by simp only [itemTrees, skipItems]
  | item :: rest => by simp only [itemTrees, skipItems, skip_tree item, skip_itemTrees rest]; rfl

theorem skip_memberTrees :
    ∀ members : List (String × Value), skipMembers (memberTrees members) = .ok ()
  | [] => by simp only [memberTrees, skipMembers]
  | (name, value) :: rest => by
    simp only [memberTrees, skipMembers, skip_tree value, skip_memberTrees rest]
    rfl

end

/-! ### Single values -/

theorem digitsValue_eq (digits : List Char) :
    digitsValue digits = Nat.ofDigitChars 10 digits 0 := by
  have step : (fun (n : Nat) (c : Char) => n * 10 + digitValue c) =
      fun n c => 10 * n + (c.toNat - '0'.toNat) := by
    funext n c
    rw [Nat.mul_comm]
    rfl
  rw [digitsValue, step, Nat.ofDigitChars_eq_foldl]

namespace Decode

/-- A number is read if it is below the bound of its type. -/
theorem natural_tree {bound n : Nat} (wanted : String) (word : bound ≤ wordLimit)
    (small : n < bound) : natural bound wanted (Value.number n).tree = .ok n := by
  have value : digitsValue (numberText n) = n := by
    rw [digitsValue_eq]
    exact Nat.ofDigitChars_ten_toDigits
  have quantity : Numeral.quantity? ⟨false, numberText n, [], none⟩ = some (.natural n) := by
    simp only [Numeral.quantity?, value, Bool.false_eq_true, if_false,
      if_pos (Nat.lt_of_lt_of_le small word)]
  simp only [Value.tree, natural, quantity, if_pos small]

theorem word32_tree {n : Nat} (small : n < Word.limit 32) : word32 (Value.number n).tree = .ok n :=
  natural_tree "u32" (by decide) small

theorem word64_tree {n : Nat} (small : n < Word.limit 64) : word64 (Value.number n).tree = .ok n :=
  natural_tree "u64" (Nat.le_refl _) small

theorem string_tree (text : String) : string (Value.string text).tree = .ok text := rfl

theorem boolean_tree (b : Bool) : boolean (Value.boolean b).tree = .ok b := rfl

theorem refine_tree {decode : Decoder α} {make : α → Except String β} {v : Value} {a : α} {b : β}
    (read : decode v.tree = .ok a) (made : make a = .ok b) : refine decode make v.tree = .ok b := by
  simp only [refine, read, bind, Except.bind, made]
  rfl

/-- A value that may be absent is read back unless it is written as if it were. -/
theorem option_tree {decode : Decoder α} {write : α → Value} (solid : ∀ a, write a ≠ .null)
    {o : Option α} (reads : ∀ a ∈ o, decode (write a).tree = .ok a) :
    option decode (Value.optional write o).tree = .ok o := by
  cases o with
  | none => rfl
  | some a =>
    have read := reads a rfl
    have solid := solid a
    rw [Value.optional]
    cases written : write a with
    | null => exact absurd written solid
    | _ =>
      rw [written] at read
      rw [Value.tree] at read ⊢
      simp only [option, read]
      rfl

theorem items_tree {decode : Decoder α} {write : α → Value} {as : List α}
    (reads : ∀ a ∈ as, decode (write a).tree = .ok a) :
    items decode (itemTrees (as.map write)) = .ok as := by
  induction as with
  | nil => rfl
  | cons a rest ih =>
    obtain ⟨here, later⟩ := List.forall_mem_cons.mp reads
    rw [List.map_cons, itemTrees, items, here, ih later]
    rfl

theorem list_tree {decode : Decoder α} {write : α → Value} {as : List α}
    (reads : ∀ a ∈ as, decode (write a).tree = .ok a) :
    list decode (Value.list (as.map write)).tree = .ok as := by
  rw [Value.tree, list, items_tree reads]
  rfl

theorem members_tree (pairs : List (String × String)) :
    members string (memberTrees (pairs.map fun (key, value) => (key, .string value))) =
      .ok pairs := by
  induction pairs with
  | nil => rfl
  | cons pair rest ih =>
    rw [List.map_cons, memberTrees, members, ih]
    rfl

theorem map_tree (pairs : List (String × String)) :
    map string (Value.object (pairs.map fun (key, value) => (key, .string value))).tree =
      .ok pairs := by
  rw [Value.tree, map, members_tree]
  rfl

end Decode

/-! ### Records -/

namespace Value

variable {members others : List (String × Value)}

theorem member?_cons (name : String) (member : String × Value) :
    (Value.object (member :: members)).member? name =
      if member.1 = name then some member.2 else (Value.object members).member? name := by
  rw [member?, List.find?_cons]
  by_cases same : member.1 = name
  · simp [same]
  · rw [if_neg same, beq_false_of_ne same, member?]

theorem member?_eq_none_iff {name : String} :
    (Value.object members).member? name = none ↔ name ∉ members.map Prod.fst := by
  simp only [member?, Option.map_eq_none_iff, List.find?_eq_none, beq_iff_eq, List.mem_map]
  constructor
  · rintro other ⟨member, listed, same⟩
    exact other member listed same
  · intro absent member listed same
    exact absent ⟨member, listed, same⟩

/-- In an object whose members have different names, each is found by its name. -/
theorem member?_of_mem (distinct : (members.map Prod.fst).Nodup) {name : String} {v : Value}
    (listed : (name, v) ∈ members) : (Value.object members).member? name = some v := by
  induction members with
  | nil => cases listed
  | cons member rest ih =>
    rw [List.map_cons, List.nodup_cons] at distinct
    rw [member?_cons]
    rcases List.mem_cons.mp listed with rfl | later
    · exact if_pos rfl
    · have other : member.1 ≠ name := fun same =>
        distinct.1 (List.mem_map.mpr ⟨(name, v), later, same.symm⟩)
      rw [if_neg other]
      exact ih distinct.2 later

theorem member?_of_perm (perm : members.Perm others) (distinct : (members.map Prod.fst).Nodup)
    (name : String) :
    (Value.object others).member? name = (Value.object members).member? name := by
  have distinct' : (others.map Prod.fst).Nodup := (perm.map Prod.fst).nodup_iff.mp distinct
  by_cases listed : name ∈ members.map Prod.fst
  · obtain ⟨⟨_, v⟩, member, rfl⟩ := List.mem_map.mp listed
    rw [member?_of_mem distinct member, member?_of_mem distinct' (perm.mem_iff.mp member)]
  · have absent : name ∉ others.map Prod.fst := mt (perm.map Prod.fst).mem_iff.mpr listed
    rw [member?_eq_none_iff.mpr listed, member?_eq_none_iff.mpr absent]

end Value

namespace Record

/-- The tree of a member of an object. -/
def memberTree? (members : List (String × Value)) (name : String) : Option Tree :=
  ((Value.object members).member? name).map Value.tree

/-- Whether the members of an object make a value of a record: each field passes its check
if it is there, and what is built depends on the fields only. -/
structure Makes (record : Record α) (members : List (String × Value)) (a : α) : Prop where
  checks : ∀ f ∈ record.fields, ∀ t, memberTree? members f.name = some t → f.check t = .ok ()
  builds : ∀ find, (∀ f ∈ record.fields, find f.name = memberTree? members f.name) →
    record.build find = .ok a

section Rules

variable {members : List (String × Value)}

theorem makes_pure (a : α) : (pure a).Makes members a := ⟨by simp [pure], fun _ _ => rfl⟩

theorem Makes.seq {f : Record (α → β)} {x : Record α} {g : α → β} {a : α}
    (front : f.Makes members g) (back : x.Makes members a) : (f.seq x).Makes members (g a) where
  checks field listed := by
    rcases List.mem_append.mp listed with here | here
    · exact front.checks field here
    · exact back.checks field here
  builds find finds := by
    have first := front.builds find fun field listed => finds field (List.mem_append_left _ listed)
    have second := back.builds find fun field listed => finds field (List.mem_append_right _ listed)
    rw [Record.seq]
    simp only [first, second]
    rfl

/-- A field that is there and is read. -/
theorem makes_field {name : String} {decode : Decoder α} {absent : Except Cause α} {v : Value}
    {a : α} (there : (Value.object members).member? name = some v)
    (read : decode v.tree = .ok a) : (field name decode absent).Makes members a where
  checks f listed t found := by
    obtain rfl := List.mem_singleton.mp listed
    rw [memberTree?, there] at found
    cases found
    simp only [read]
    rfl
  builds find finds := by
    have found := finds _ (List.mem_singleton.mpr rfl)
    rw [memberTree?, there] at found
    simp only [field, found, Option.map_some, read]

/-- A field that is not there and has a default. -/
theorem makes_absent {name : String} {decode : Decoder α} {a : α}
    (missing : (Value.object members).member? name = none) :
    (field name decode (.ok a)).Makes members a where
  checks f listed t found := by
    obtain rfl := List.mem_singleton.mp listed
    rw [memberTree?, missing] at found
    cases found
  builds find finds := by
    have found := finds _ (List.mem_singleton.mpr rfl)
    rw [memberTree?, missing] at found
    simp only [field, found, Option.map_none]

/-- One more field that is there. -/
theorem Makes.member {front : Record (α → β)} {name : String} {decode : Decoder α}
    {absent : Except Cause α} {v : Value} {g : α → β} {a : α} (made : front.Makes members g)
    (read : decode v.tree = .ok a)
    (there : (Value.object members).member? name = some v := by rfl) :
    (front.seq (field name decode absent)).Makes members (g a) :=
  made.seq (makes_field there read)

/-- One more field that is not there. -/
theorem Makes.missing {front : Record (α → β)} {name : String} {decode : Decoder α}
    {g : α → β} {a : α} (made : front.Makes members g)
    (missing : (Value.object members).member? name = none := by rfl) :
    (front.seq (field name decode (.ok a))).Makes members (g a) :=
  made.seq (makes_absent missing)

end Rules

theorem Makes.of_perm {record : Record α} {members others : List (String × Value)} {a : α}
    (makes : record.Makes members a) (perm : members.Perm others)
    (distinct : (members.map Prod.fst).Nodup) : record.Makes others a := by
  have same : memberTree? others = memberTree? members := by
    funext name
    rw [memberTree?, memberTree?, Value.member?_of_perm perm distinct]
  constructor
  · rw [same]
    exact makes.checks
  · rw [same]
    exact makes.builds

theorem of_lookup {fields : List Field} {name : String} {f : Field}
    (found : lookup fields name = some f) : f ∈ fields ∧ f.name = name :=
  ⟨List.mem_of_find?_eq_some found, by simpa using List.find?_some found⟩

/-- Members with different names are read, and the known ones are kept. -/
theorem readMembers_tree {fields : List Field} {seen : List String}
    {members : List (String × Value)} (fresh : ∀ member ∈ members, member.1 ∉ seen)
    (distinct : (members.map Prod.fst).Nodup)
    (checks : ∀ member ∈ members, ∀ f, lookup fields member.1 = some f →
      f.check member.2.tree = .ok ()) :
    ∃ found, readMembers fields seen (memberTrees members) = .ok found ∧
      ∀ name, (lookup fields name).isSome = true →
        find found name = memberTree? members name := by
  induction members generalizing seen with
  | nil => exact ⟨[], rfl, fun _ _ => rfl⟩
  | cons member rest ih =>
    obtain ⟨written, v⟩ := member
    obtain ⟨here, later⟩ := List.forall_mem_cons.mp checks
    obtain ⟨new, news⟩ := List.forall_mem_cons.mp fresh
    rw [List.map_cons, List.nodup_cons] at distinct
    obtain ⟨single, distinct⟩ := distinct
    have text : (Quoted.ofText written).text = .ok written := rfl
    cases field : lookup fields written with
    | none =>
      obtain ⟨found, read, finds⟩ := ih news distinct later
      refine ⟨found, ?_, fun name known => ?_⟩
      · rw [memberTrees, readMembers, text]
        simp only [bind, Except.bind, field, skip_tree]
        exact read
      · have other : written ≠ name := by
          rintro rfl
          rw [field] at known
          cases known
        rw [finds name known, memberTree?, memberTree?, Value.member?_cons, if_neg other]
    | some f =>
      have news : ∀ member ∈ rest, member.1 ∉ written :: seen := by
        intro member listed again
        rcases List.mem_cons.mp again with same | again
        · exact single (List.mem_map.mpr ⟨member, listed, same⟩)
        · exact news member listed again
      obtain ⟨found, read, finds⟩ := ih news distinct later
      refine ⟨(written, v.tree) :: found, ?_, fun name known => ?_⟩
      · have new : seen.contains written = false := by simpa using new
        rw [memberTrees, readMembers, text]
        simp only [bind, Except.bind, field, new, here f field, read]
        rfl
      · rw [find_cons, memberTree?, Value.member?_cons]
        split
        · rfl
        · exact finds name known

/-- A record is read from an object whose members make it. Other members do not matter. -/
theorem decode_tree {record : Record α} {members : List (String × Value)} {a : α}
    (makes : record.Makes members a) (distinct : (members.map Prod.fst).Nodup) (what : String)
    (length : Length) : record.decode what length (Value.object members).tree = .ok a := by
  have checks : ∀ member ∈ members, ∀ f, lookup record.fields member.1 = some f →
      f.check member.2.tree = .ok () := by
    rintro ⟨name, v⟩ listed f found
    obtain ⟨known, rfl⟩ := of_lookup found
    have there : memberTree? members f.name = some v.tree := by
      rw [memberTree?, Value.member?_of_mem distinct listed]
      rfl
    exact makes.checks f known v.tree there
  obtain ⟨found, read, finds⟩ :=
    readMembers_tree (fun _ _ => List.not_mem_nil) distinct checks
  have built : record.build (find found) = .ok a := by
    refine makes.builds _ fun f known => finds f.name ?_
    rw [lookup, List.find?_isSome]
    exact ⟨f, known, beq_self_eq_true _⟩
  rw [Value.tree, decode, read]
  exact built

end Record

end StorageControl.Json
