import Mathlib.Data.List.Perm.Basic
import StorageControl.Proofs.Labels
import StorageControl.Proofs.Octets
import StorageControl.Proofs.Path

/-! Labels as they are written.

Each written label is a key and a value with the only equals sign between them, neither is
empty, and no key stands twice. Labels that are written so are read in any order, and as they
are written again; of others the first that breaks the rule is told, and how it breaks it.
-/

set_option autoImplicit false

namespace StorageControl

/-! ### Texts that are split once -/

namespace Text

variable {separator : Char}

theorem length_splitAtChar (text : List Char) :
    (splitAtChar separator text).length = text.count separator + 1 := by
  induction text with
  | nil => rfl
  | cons c rest ih =>
    rw [splitAtChar]
    split
    next same => rw [same, List.length_cons, ih, List.count_cons_self]
    next other =>
      rw [List.count_cons_of_ne other, ← ih]
      split
      next none => exact absurd none (splitAtChar_ne_nil separator rest)
      next parts => rw [parts, List.length_cons, List.length_cons]

theorem splitAtChar_eq_pair_iff {text first second : List Char} :
    splitAtChar separator text = [first, second] ↔
      text = first ++ separator :: second ∧ separator ∉ first ∧ separator ∉ second := by
  constructor
  · intro two
    have once : text.count separator = 1 := by
      have parts : (splitAtChar separator text).length = text.count separator + 1 :=
        length_splitAtChar text
      rw [two] at parts
      exact (Nat.succ.inj parts).symm
    have inside : separator ∈ text := List.count_pos_iff.mp (once ▸ Nat.one_pos)
    obtain ⟨before, after, rfl, fresh⟩ := List.eq_append_cons_of_mem inside
    have last : separator ∉ after := by
      rw [List.count_append, List.count_cons_self, List.count_eq_zero.mpr fresh] at once
      exact List.count_eq_zero.mp (by omega)
    rw [splitAtChar_append_cons, splitAtChar_of_not_mem fresh, splitAtChar_of_not_mem last] at two
    cases two
    exact ⟨rfl, fresh, last⟩
  · rintro ⟨rfl, fresh, last⟩
    rw [splitAtChar_append_cons, splitAtChar_of_not_mem fresh, splitAtChar_of_not_mem last]
    rfl

end Text

/-- A fold fails where its first step fails. -/
theorem foldlM_eq_error_iff {α ε σ : Type} {step : σ → α → Except ε σ} {start : σ}
    {items : List α} {e : ε} :
    items.foldlM step start = .error e ↔ ∃ before a after s, items = before ++ a :: after ∧
      before.foldlM step start = .ok s ∧ step s a = .error e := by
  induction items generalizing start with
  | nil => simp [pure, Except.pure]
  | cons first rest ih =>
    cases here : step start first with
    | error other =>
      rw [List.foldlM_cons, here]
      constructor
      · rintro ⟨⟩
        exact ⟨[], first, rest, start, rfl, rfl, here⟩
      · rintro ⟨before, a, after, s, split, done, failed⟩
        cases before with
        | nil =>
          cases split
          cases done
          exact here.symm.trans failed
        | cons b before =>
          cases split
          rw [List.foldlM_cons, here] at done
          cases done
    | ok next =>
      have goOn (more : List α) : (first :: more).foldlM step start = more.foldlM step next := by
        rw [List.foldlM_cons, here]
        rfl
      rw [goOn, ih]
      constructor
      · rintro ⟨before, a, after, s, rfl, done, failed⟩
        exact ⟨first :: before, a, after, s, rfl, (goOn before).trans done, failed⟩
      · rintro ⟨before, a, after, s, split, done, failed⟩
        cases before with
        | nil =>
          cases split
          cases done
          rw [here] at failed
          cases failed
        | cons b before =>
          cases split
          exact ⟨before, a, after, s, rfl, (goOn before).symm.trans done, failed⟩

namespace Labels

/-! ### Single labels -/

/-- A text that is two sides with its only equals sign between them. -/
structure Sides (pair key value : String) : Prop where
  text : pair = key ++ "=" ++ value
  key : '=' ∉ key.toList
  value : '=' ∉ value.toList

/-- A written label and the entry it stands for. -/
structure Stands (pair : String) (entry : String × String) : Prop where
  sides : Sides pair entry.1 entry.2
  key : entry.1 ≠ ""
  value : entry.2 ≠ ""

/-- How a written label breaks the rule behind labels with some keys. -/
inductive Breaks (keys : List String) (pair : String) : Flaw → Prop where
  | form (other : pair.toList.count '=' ≠ 1) : Breaks keys pair (.malformed pair)
  | repeated {key value : String} (sides : Sides pair key value) (taken : key ∈ keys) :
    Breaks keys pair (.conflict key)
  | empty {key value : String} (sides : Sides pair key value) (fresh : key ∉ keys)
    (empty : key = "" ∨ value = "") : Breaks keys pair (.malformed pair)

theorem sides?_eq_some_iff {pair key value : String} :
    sides? pair = some (key, value) ↔ Sides pair key value := by
  have written : Sides pair key value ↔
      Text.splitAtChar '=' pair.toList = [key.toList, value.toList] := by
    rw [Text.splitAtChar_eq_pair_iff]
    constructor
    · rintro ⟨rfl, fresh, last⟩
      exact ⟨by simp, fresh, last⟩
    · rintro ⟨text, fresh, last⟩
      exact ⟨String.toList_inj.mp (by simp [text]), fresh, last⟩
  rw [written, sides?]
  split
  next first second two =>
    rw [two]
    simp [String.ext_iff]
  next others => simpa using others key.toList value.toList

theorem sides?_eq_none_iff {pair : String} : sides? pair = none ↔ pair.toList.count '=' ≠ 1 := by
  have parts : (Text.splitAtChar '=' pair.toList).length = pair.toList.count '=' + 1 :=
    Text.length_splitAtChar pair.toList
  rw [sides?]
  split
  next first second two =>
    rw [two] at parts
    simpa using parts
  next others =>
    refine iff_of_true rfl fun once => ?_
    rw [once] at parts
    obtain ⟨first, second, two⟩ := List.length_eq_two.mp parts
    exact others first second two

def keys (entries : List (String × String)) : List String := entries.map Prod.fst

theorem contains_iff {labels : Labels} {key : String} :
    labels.contains key = true ↔ key ∈ keys labels.entries := by
  simp [contains, keys]

theorem add_eq_ok_iff {labels made : Labels} {pair : String} :
    labels.add pair = .ok made ↔ ∃ entry, Stands pair entry ∧ entry.1 ∉ keys labels.entries ∧
      made = labels.insert entry.1 entry.2 := by
  rw [add]
  split
  next none =>
    refine iff_of_false nofun ?_
    rintro ⟨⟨key, value⟩, ⟨sides, -, -⟩, -⟩
    rw [sides?_eq_some_iff.mpr sides] at none
    cases none
  next key value found =>
    have only : ∀ entry, Stands pair entry → entry = (key, value) := fun entry stands =>
      Option.some.inj ((sides?_eq_some_iff.mpr stands.sides).symm.trans found)
    constructor
    · intro added
      split at added
      next => cases added
      next fresh =>
        split at added
        next => cases added
        next full =>
          cases added
          obtain ⟨first, second⟩ := not_or.mp full
          exact ⟨(key, value), ⟨sides?_eq_some_iff.mp found, first, second⟩,
            mt contains_iff.mpr fresh, rfl⟩
    · rintro ⟨entry, stands, fresh, rfl⟩
      obtain rfl := only entry stands
      rw [if_neg (mt contains_iff.mp fresh), if_neg (not_or.mpr ⟨stands.key, stands.value⟩)]

theorem add_eq_error_iff {labels : Labels} {pair : String} {flaw : Flaw} :
    labels.add pair = .error flaw ↔ Breaks (keys labels.entries) pair flaw := by
  rw [add]
  constructor
  · intro failed
    split at failed
    next none =>
      cases failed
      exact .form (sides?_eq_none_iff.mp none)
    next key value found =>
      have sides := sides?_eq_some_iff.mp found
      split at failed
      next taken =>
        cases failed
        exact .repeated sides (contains_iff.mp taken)
      next fresh =>
        split at failed
        next empty =>
          cases failed
          exact .empty sides (mt contains_iff.mpr fresh) empty
        next => cases failed
  · intro breaks
    cases breaks with
    | form other => rw [sides?_eq_none_iff.mpr other]
    | repeated sides taken =>
      rw [sides?_eq_some_iff.mpr sides]
      exact if_pos (contains_iff.mpr taken)
    | empty sides fresh empty =>
      rw [sides?_eq_some_iff.mpr sides]
      exact (if_neg (mt contains_iff.mp fresh)).trans (if_pos empty)

/-- Only what keys there are matters. -/
theorem Breaks.of_same {keys others : List String} {pair : String} {flaw : Flaw}
    (breaks : Breaks keys pair flaw) (same : ∀ key, key ∈ keys ↔ key ∈ others) :
    Breaks others pair flaw := by
  cases breaks with
  | form other => exact .form other
  | repeated sides taken => exact .repeated sides ((same _).mp taken)
  | empty sides fresh empty => exact .empty sides (mt (same _).mpr fresh) empty

/-! ### Labels one after the other -/

theorem eq_of_perm {labels others : Labels} (perm : labels.entries.Perm others.entries) :
    labels = others :=
  (ofList_entries labels).symm.trans (ofList_of_perm perm)

theorem keys_nodup (labels : Labels) : (keys labels.entries).Nodup :=
  (List.pairwise_map.mpr labels.sorted).imp fun less => String.ne_of_lt less

/-- Labels are added to others exactly if they stand for entries with keys of their own. -/
theorem foldlM_add_eq_ok_iff {pairs : List String} {start made : Labels} :
    pairs.foldlM add start = .ok made ↔ ∃ entries, List.Forall₂ Stands pairs entries ∧
      (keys (start.entries ++ entries)).Nodup ∧
      made.entries.Perm (start.entries ++ entries) := by
  induction pairs generalizing start with
  | nil =>
    simp only [List.foldlM_nil, List.forall₂_nil_left_iff, exists_eq_left, List.append_nil,
      keys_nodup, true_and]
    constructor
    · rintro ⟨⟩
      exact .refl _
    · exact fun perm => congrArg Except.ok (eq_of_perm perm).symm
  | cons pair rest ih =>
    rw [List.foldlM_cons]
    constructor
    · intro read
      cases added : start.add pair with
      | error flaw =>
        rw [added] at read
        cases read
      | ok next =>
        rw [added] at read
        obtain ⟨entry, stands, fresh, rfl⟩ := add_eq_ok_iff.mp added
        obtain ⟨entries, others, distinct, made⟩ := ih.mp read
        have perm := insert_append_perm fresh entries
        exact ⟨entry :: entries, .cons stands others,
          (perm.map Prod.fst).nodup_iff.mp distinct, made.trans perm⟩
    · rintro ⟨_, all, distinct, made⟩
      obtain ⟨entry, entries, stands, others, rfl⟩ := List.forall₂_cons_left_iff.mp all
      have fresh : entry.1 ∉ keys start.entries := fresh_of_nodup distinct
      have perm := insert_append_perm fresh entries
      rw [add_eq_ok_iff.mpr ⟨entry, stands, fresh, rfl⟩]
      exact ih.mpr ⟨entries, others, (perm.map Prod.fst).nodup_iff.mpr distinct,
        made.trans perm.symm⟩

theorem ofPairs_eq_ok_iff {pairs : List String} {labels : Labels} :
    ofPairs pairs = .ok labels ↔ ∃ entries, List.Forall₂ Stands pairs entries ∧
      (keys entries).Nodup ∧ labels.entries.Perm entries :=
  foldlM_add_eq_ok_iff

/-- Written labels fail with the first that breaks the rule behind those before it. -/
theorem ofPairs_eq_error_iff {pairs : List String} {flaw : Flaw} :
    ofPairs pairs = .error flaw ↔ ∃ before pair after entries, pairs = before ++ pair :: after ∧
      List.Forall₂ Stands before entries ∧ (keys entries).Nodup ∧
      Breaks (keys entries) pair flaw := by
  rw [ofPairs, foldlM_eq_error_iff]
  constructor
  · rintro ⟨before, pair, after, labels, split, read, failed⟩
    obtain ⟨entries, stand, distinct, perm⟩ := ofPairs_eq_ok_iff.mp read
    have same (key : String) : key ∈ keys labels.entries ↔ key ∈ keys entries :=
      (perm.map Prod.fst).mem_iff
    exact ⟨before, pair, after, entries, split, stand, distinct,
      (add_eq_error_iff.mp failed).of_same same⟩
  · rintro ⟨before, pair, after, entries, split, stand, distinct, breaks⟩
    have kept : (ofList entries).entries.Perm entries := foldl_insert_perm distinct
    have same (key : String) : key ∈ keys entries ↔ key ∈ keys (ofList entries).entries :=
      (kept.map Prod.fst).symm.mem_iff
    exact ⟨before, pair, after, ofList entries, split,
      ofPairs_eq_ok_iff.mpr ⟨entries, stand, distinct, kept⟩,
      add_eq_error_iff.mpr (breaks.of_same same)⟩

/-- An entry as a text. -/
def pairText (entry : String × String) : String := entry.1 ++ "=" ++ entry.2

theorem texts_of_stand {pairs : List String} {entries : List (String × String)}
    (stand : List.Forall₂ Stands pairs entries) : pairs = entries.map pairText := by
  have texts : List.Forall₂ (· = ·) pairs (entries.map pairText) :=
    List.forall₂_map_right_iff.mpr (stand.imp fun _ _ stands => stands.sides.text)
  rwa [List.forall₂_eq_eq_eq] at texts

/-- Written labels are read exactly if each stands for an entry and the keys are different.
What is read are these entries, with their keys in the order of their octets; it is the same
for every order of the texts, and read again from the entries as texts. Otherwise the first
text is told that breaks the rule behind those before it. -/
theorem ofPairs_accounts (pairs : List String) :
    ((∃ labels, ofPairs pairs = .ok labels) ↔
      ∃ entries, List.Forall₂ Stands pairs entries ∧ (keys entries).Nodup) ∧
    (∀ labels, ofPairs pairs = .ok labels →
      (∃ entries, List.Forall₂ Stands pairs entries ∧ labels.entries.Perm entries) ∧
      ((keys labels.entries).map fun key => key.toList.flatMap Text.octets).Pairwise (· < ·) ∧
      (∀ others, pairs.Perm others → ofPairs others = .ok labels) ∧
      ofPairs (labels.entries.map pairText) = .ok labels) ∧
    ∀ flaw, ofPairs pairs = .error flaw ↔
      ∃ before pair after entries, pairs = before ++ pair :: after ∧
        List.Forall₂ Stands before entries ∧ (keys entries).Nodup ∧
        Breaks (keys entries) pair flaw := by
  refine ⟨?_, fun labels read => ?_, fun flaw => ofPairs_eq_error_iff⟩
  · constructor
    · rintro ⟨labels, read⟩
      obtain ⟨entries, stand, distinct, -⟩ := ofPairs_eq_ok_iff.mp read
      exact ⟨entries, stand, distinct⟩
    · rintro ⟨entries, stand, distinct⟩
      exact ⟨ofList entries,
        ofPairs_eq_ok_iff.mpr ⟨entries, stand, distinct, foldl_insert_perm distinct⟩⟩
  · obtain ⟨entries, stand, distinct, perm⟩ := ofPairs_eq_ok_iff.mp read
    have reordered (others : List String) (moved : pairs.Perm others) :
        ofPairs others = .ok labels := by
      obtain ⟨entries', stand', perm'⟩ := List.perm_comp_forall₂ moved.symm stand
      exact ofPairs_eq_ok_iff.mpr ⟨entries', stand',
        (perm'.map Prod.fst).nodup_iff.mpr distinct, perm.trans perm'.symm⟩
    refine ⟨⟨entries, stand, perm⟩, ?_, reordered, reordered _ ?_⟩
    · have octets : labels.entries.Pairwise fun a b =>
          a.1.toList.flatMap Text.octets < b.1.toList.flatMap Text.octets :=
        labels.sorted.imp fun less => Text.flatMap_octets_lt less
      exact List.pairwise_map.mpr (List.pairwise_map.mpr octets)
    · rw [texts_of_stand stand]
      exact (perm.map pairText).symm

/-- Two labels in either order, and before them one that repeats a key and has no value. -/
theorem repeated_label_told :
    (∃ labels, ofPairs ["tier=gold", "env=prod"] = .ok labels ∧
      ofPairs ["env=prod", "tier=gold"] = .ok labels ∧
      ofPairs (labels.entries.map pairText) = .ok labels) ∧
    ofPairs ["tier=gold", "env=prod", "env=", "zone"] = .error (.conflict "env") := by
  have stand : List.Forall₂ Stands ["tier=gold", "env=prod"] [("tier", "gold"), ("env", "prod")] :=
    .cons ⟨⟨by decide, by decide, by decide⟩, by decide, by decide⟩
      (.cons ⟨⟨by decide, by decide, by decide⟩, by decide, by decide⟩ .nil)
  obtain ⟨accepted, read, -⟩ := ofPairs_accounts ["tier=gold", "env=prod"]
  obtain ⟨-, -, failed⟩ := ofPairs_accounts ["tier=gold", "env=prod", "env=", "zone"]
  obtain ⟨labels, ok⟩ := accepted.mpr ⟨_, stand, by decide⟩
  obtain ⟨-, -, reordered, again⟩ := read labels ok
  refine ⟨⟨labels, ok, reordered _ (.swap ..), again⟩, (failed _).mpr ?_⟩
  exact ⟨_, "env=", ["zone"], _, rfl, stand, by decide,
    .repeated ⟨show "env=" = "env" ++ "=" ++ "" by decide, by decide, by decide⟩ (by decide)⟩

end Labels

end StorageControl
