import Mathlib.Data.List.Forall2
import Mathlib.Data.List.Induction
import StorageControl.Selection

/-! What a selection depends on.

The index by identifier keeps the last resource of each identifier. So a selection by
identifiers is the same for every order of a listing, unless an identifier that is asked
for belongs to two resources. The index by name keeps all resources of each name, and of
several with one name only their number is told; so a selection by names is the same for
every order.
-/

set_option autoImplicit false

namespace StorageControl

/-! ### Requests answered one by one -/

section Answers

variable {α β ε : Type} {f : α → Except ε β}

theorem mapM_eq_ok_iff {as : List α} {bs : List β} :
    as.mapM f = .ok bs ↔ List.Forall₂ (fun a b => f a = .ok b) as bs := by
  induction as generalizing bs with
  | nil =>
    rw [List.forall₂_nil_left_iff]
    constructor
    · rintro ⟨⟩
      rfl
    · rintro rfl
      rfl
  | cons a rest ih =>
    rw [List.mapM_cons, List.forall₂_cons_left_iff]
    cases here : f a with
    | error e => simp [bind, Except.bind]
    | ok b =>
      cases later : rest.mapM f with
      | error e => simp [bind, Except.bind, ← ih, later]
      | ok more => simp [bind, Except.bind, pure, Except.pure, ← ih, later, eq_comm]

/-- A request fails with its first key that has no answer. -/
theorem mapM_eq_error_iff {as : List α} {e : ε} :
    as.mapM f = .error e ↔ ∃ before a after, as = before ++ a :: after ∧
      (∀ b ∈ before, ∃ r, f b = .ok r) ∧ f a = .error e := by
  induction as with
  | nil => simp [pure, Except.pure]
  | cons a rest ih =>
    have step : (a :: rest).mapM f = .error e ↔
        f a = .error e ∨ (∃ r, f a = .ok r) ∧ rest.mapM f = .error e := by
      rw [List.mapM_cons]
      cases here : f a with
      | error other => simp [bind, Except.bind]
      | ok b => cases later : rest.mapM f <;> simp [bind, Except.bind, pure, Except.pure]
    rw [step, ih]
    constructor
    · rintro (failed | ⟨answered, before, b, after, rfl, fine, failed⟩)
      · exact ⟨[], a, rest, rfl, List.forall_mem_nil _, failed⟩
      · exact ⟨a :: before, b, after, rfl, List.forall_mem_cons.mpr ⟨answered, fine⟩, failed⟩
    · rintro ⟨before, b, after, split, fine, failed⟩
      cases before with
      | nil =>
        cases split
        exact .inl failed
      | cons first before =>
        cases split
        obtain ⟨answered, fine⟩ := List.forall_mem_cons.mp fine
        exact .inr ⟨answered, before, b, after, rfl, fine, failed⟩

theorem exists_mapM_eq_ok_iff {as : List α} :
    (∃ bs, as.mapM f = .ok bs) ↔ ∀ a ∈ as, ∃ b, f a = .ok b := by
  constructor
  · rintro ⟨bs, answered⟩ a asked
    have each := mapM_eq_ok_iff.mp answered
    obtain ⟨i, inside, rfl⟩ := List.getElem_of_mem asked
    exact ⟨_, each.get inside (each.length_eq ▸ inside)⟩
  · intro answers
    cases result : as.mapM f with
    | ok bs => exact ⟨bs, rfl⟩
    | error e =>
      obtain ⟨before, a, after, rfl, -, failed⟩ := mapM_eq_error_iff.mp result
      obtain ⟨b, answered⟩ := answers a (List.mem_append_right _ List.mem_cons_self)
      rw [failed] at answered
      cases answered

end Answers

namespace Selection

/-! ### Indexes and lookups -/

variable {R : Type} [Named R]

theorem get?_idIndex (items : List R) (key : String) :
    (idIndex items).get? key = items.reverse.find? fun r => (Named.id r).text == key := by
  -- The index grows at its end, where the reversed listing begins.
  induction items using List.reverseRecOn with
  | nil => rfl
  | append_singleton items last ih =>
    have grown : idIndex (items ++ [last]) =
        (idIndex items).insert (Named.id last).text last := by
      simp [idIndex]
    rw [grown, Index.insert, Index.get?_alter, ih]
    by_cases named : key = (Named.id last).text
    · simp [named]
    · simp [named, Ne.symm named]

/-- A search for something unique finds it in every order. -/
theorem find?_of_perm {α : Type} {p : α → Bool} {items others : List α}
    (perm : items.Perm others)
    (unique : ∀ a ∈ items, ∀ b ∈ items, p a = true → p b = true → a = b) :
    items.find? p = others.find? p := by
  cases found : items.find? p with
  | none =>
    refine (List.find?_eq_none.mpr fun a member => ?_).symm
    exact List.find?_eq_none.mp found a (perm.mem_iff.mpr member)
  | some a =>
    have member := List.mem_of_find?_eq_some found
    obtain ⟨b, found'⟩ := Option.isSome_iff_exists.mp
      (List.find?_isSome.mpr ⟨a, perm.mem_iff.mp member, List.find?_some found⟩)
    rw [found', unique a member b (perm.mem_iff.mpr (List.mem_of_find?_eq_some found'))
      (List.find?_some found) (List.find?_some found')]

/-- Whether no two resources of a listing have one of some identifiers in common. -/
def Tells (items : List R) (ids : List (Id (Named.subject R))) : Prop :=
  ∀ a ∈ items, ∀ b ∈ items, Named.id a ∈ ids → Named.id a = Named.id b → a = b

/-- The resource with an identifier, which is the last of the listing that has it. -/
def byId (items : List R) (id : Id (Named.subject R)) : Except ApiFault R :=
  match items.reverse.find? fun r => Named.id r == id with
  | some r => .ok r
  | none => .error (noId R id.text)

/-- The resource of the later part counts. -/
theorem byId_append {later : List R} {id : Id (Named.subject R)} {r : R}
    (found : byId later id = .ok r) (earlier : List R) : byId (earlier ++ later) id = .ok r := by
  rw [byId] at found
  split at found
  next last present =>
    rw [byId, List.reverse_append, List.find?_append, present]
    exact found
  next => cases found

theorem mapM_congr {α β ε : Type} {f g : α → Except ε β} {items : List α}
    (same : ∀ a ∈ items, f a = g a) : items.mapM f = items.mapM g := by
  induction items with
  | nil => rfl
  | cons a rest ih =>
    obtain ⟨here, later⟩ := List.forall_mem_cons.mp same
    rw [List.mapM_cons, List.mapM_cons, here, ih later]

theorem byIds_eq_mapM (items : List R) {ids : List (Id (Named.subject R))} (nonempty : ids ≠ []) :
    byIds items ids = ids.mapM (byId items) := by
  rw [byIds, if_neg (by simpa using nonempty)]
  refine mapM_congr fun id _ => ?_
  have same : (fun r : R => (Named.id r).text == id.text) = fun r => Named.id r == id := by
    funext r
    rw [Bool.eq_iff_iff, beq_iff_eq, beq_iff_eq]
    exact ⟨Id.text_injective, congrArg Id.text⟩
  rw [get?_idIndex, same]
  rfl

theorem byIds_of_perm {items others : List R} (perm : items.Perm others)
    {ids : List (Id (Named.subject R))} (nonempty : ids ≠ []) (tells : Tells items ids) :
    byIds items ids = byIds others ids := by
  rw [byIds_eq_mapM items nonempty, byIds_eq_mapM others nonempty]
  refine mapM_congr fun id asked => ?_
  have reversed : items.reverse.Perm others.reverse :=
    (List.reverse_perm items).trans (perm.trans (List.reverse_perm others).symm)
  rw [byId, byId, find?_of_perm reversed]
  intro a memberA b memberB isA isB
  simp only [List.mem_reverse, beq_iff_eq] at memberA memberB isA isB
  exact tells a memberA b memberB (isA ▸ asked) (isA.trans isB.symm)

/-! ### By name -/

/-- A name has the resources of the listing that bear it, if there are any. -/
theorem get?_nameIndex (items : List R) (key : String) :
    (nameIndex items).get? key =
      if items.filter (Named.name · == key) = [] then none
      else some (items.filter (Named.name · == key)) := by
  -- The index grows at its end, and so does each group.
  induction items using List.reverseRecOn with
  | nil => rfl
  | append_singleton items last ih =>
    have grown : nameIndex (items ++ [last]) = (nameIndex items).push (Named.name last) last := by
      simp [nameIndex]
    rw [grown, Index.push, Index.get?_alter, List.filter_append]
    by_cases named : key = Named.name last
    · subst named
      rw [if_pos rfl, ih]
      split
      next none => simp [none]
      next => simp
    · simp [named, Ne.symm named, ih]

theorem byNames_eq_mapM (items : List R) {names : List String} (nonempty : names ≠ []) :
    byNames items names = names.mapM (byName items) := by
  rw [byNames, if_neg (by simpa using nonempty)]
  refine mapM_congr fun name _ => ?_
  rw [get?_nameIndex, byName]
  cases items.filter (Named.name · == name) with
  | nil => rfl
  | cons first others =>
    cases others with
    | nil => rfl
    | cons second others => rfl

/-- What has a name alone is found in every order; of several, their number is told. -/
theorem byName_of_perm {items others : List R} (perm : items.Perm others) (name : String) :
    byName items name = byName others name := by
  have bearers := perm.filter (Named.name · == name)
  rw [byName, byName]
  generalize items.filter (Named.name · == name) = found at bearers
  generalize others.filter (Named.name · == name) = also at bearers
  have number := bearers.length_eq
  match found, also with
  | [], [] => rfl
  | [only], [other] => rw [List.singleton_perm_singleton.mp bearers]
  | _ :: _ :: _, _ :: _ :: _ => simp only [number]
  | [], _ :: _ | _ :: _, [] | [_], _ :: _ :: _ | _ :: _ :: _, [_] => simp at number

theorem byNames_of_perm {items others : List R} (perm : items.Perm others)
    {names : List String} (nonempty : names ≠ []) : byNames items names = byNames others names := by
  rw [byNames_eq_mapM items nonempty, byNames_eq_mapM others nonempty]
  exact mapM_congr fun name _ => byName_of_perm perm name

end Selection

end StorageControl
