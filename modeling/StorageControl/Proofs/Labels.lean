import Mathlib.Data.List.Sort
import StorageControl.Labels

/-! Labels and the pairs they are made of.

Labels have their pairs in the order of the keys. Pairs with different keys make the same
labels in whatever order they come.
-/

set_option autoImplicit false

namespace StorageControl.Labels

theorem insertEntry_perm {key value : String} {entries : List (String × String)}
    (fresh : key ∉ entries.map Prod.fst) :
    (insertEntry key value entries).Perm ((key, value) :: entries) := by
  induction entries with
  | nil => exact .refl _
  | cons head rest ih =>
    obtain ⟨k, v⟩ := head
    rw [List.map_cons, List.mem_cons, not_or] at fresh
    rw [insertEntry, if_neg fresh.1]
    split
    · exact .refl _
    · exact ((ih fresh.2).cons (k, v)).trans (.swap ..)

theorem fresh_of_nodup {before after : List (String × String)} {entry : String × String}
    (distinct : ((before ++ entry :: after).map Prod.fst).Nodup) :
    entry.1 ∉ before.map Prod.fst := by
  intro taken
  rw [List.map_append, List.nodup_append] at distinct
  exact distinct.2.2 entry.1 taken entry.1 List.mem_cons_self rfl

/-- A pair with a new key may stand before or behind the others. -/
theorem insert_append_perm {labels : Labels} {entry : String × String}
    (fresh : entry.1 ∉ labels.entries.map Prod.fst) (others : List (String × String)) :
    ((labels.insert entry.1 entry.2).entries ++ others).Perm (labels.entries ++ entry :: others) :=
  ((insertEntry_perm fresh).append_right others).trans List.perm_middle.symm

/-- Pairs with different keys are all kept. -/
theorem foldl_insert_perm {pairs : List (String × String)} {before : Labels}
    (distinct : ((before.entries ++ pairs).map Prod.fst).Nodup) :
    (pairs.foldl (fun labels (key, value) => labels.insert key value) before).entries.Perm
      (before.entries ++ pairs) := by
  induction pairs generalizing before with
  | nil => exact .of_eq (List.append_nil _).symm
  | cons pair rest ih =>
    have inserted := insert_append_perm (fresh_of_nodup distinct) rest
    rw [List.foldl_cons]
    exact (ih ((inserted.map Prod.fst).nodup_iff.mpr distinct)).trans inserted

/-- Labels are made again from their own pairs, in any order. -/
theorem ofList_of_perm {labels : Labels} {pairs : List (String × String)}
    (perm : pairs.Perm labels.entries) : ofList pairs = labels := by
  have sorted : (labels.entries.map Prod.fst).Pairwise (· < ·) :=
    List.pairwise_map.mpr labels.sorted
  have distinct : (pairs.map Prod.fst).Nodup :=
    (perm.map Prod.fst).nodup_iff.mpr (sorted.imp fun less => String.ne_of_lt less)
  have kept : (ofList pairs).entries.Perm (empty.entries ++ pairs) := foldl_insert_perm distinct
  have same : (ofList pairs).entries.Perm labels.entries := kept.trans perm
  have entries : (ofList pairs).entries = labels.entries :=
    same.eq_of_pairwise
      (fun a b _ _ one other => absurd one (String.lt_asymm other))
      (ofList pairs).sorted labels.sorted
  generalize ofList pairs = made at entries
  obtain ⟨_, _⟩ := made
  cases entries
  rfl

theorem ofList_entries (labels : Labels) : ofList labels.entries = labels :=
  ofList_of_perm (.refl _)

end StorageControl.Labels
