import StorageControl.Text.Blank

/-! Labels of resources.

Labels are a finite map from keys to values, kept in increasing order of the keys. On the
command line each label is one `key=value` text; both sides must be there and a key may
stand once.
-/

set_option autoImplicit false

namespace StorageControl

/-- Key-value pairs in strictly increasing order of keys. -/
structure Labels where
  entries : List (String × String)
  sorted : entries.Pairwise (·.1 < ·.1)
  deriving DecidableEq, Repr

namespace Labels

instance : Inhabited Labels := ⟨⟨[], .nil⟩⟩

def empty : Labels := ⟨[], .nil⟩

/-- Put a pair into sorted pairs, in the place of one with the same key. -/
def insertEntry (key value : String) : List (String × String) → List (String × String)
  | [] => [(key, value)]
  | (k, v) :: rest =>
    if key < k then (key, value) :: (k, v) :: rest
    else if key = k then (key, value) :: rest
    else (k, v) :: insertEntry key value rest

theorem mem_insertEntry {key value : String} {entries : List (String × String)}
    {e : String × String} (h : e ∈ insertEntry key value entries) :
    e = (key, value) ∨ e ∈ entries := by
  induction entries with
  | nil => simpa [insertEntry] using h
  | cons head rest ih =>
    obtain ⟨k, v⟩ := head
    unfold insertEntry at h
    split at h
    · simpa using h
    · split at h
      · rcases List.mem_cons.mp h with h | h
        · exact .inl h
        · exact .inr (List.mem_cons_of_mem _ h)
      · rcases List.mem_cons.mp h with h | h
        · exact .inr (h ▸ List.mem_cons_self)
        · rcases ih h with h | h
          · exact .inl h
          · exact .inr (List.mem_cons_of_mem _ h)

theorem insertEntry_sorted (key value : String) {entries : List (String × String)}
    (sorted : entries.Pairwise (·.1 < ·.1)) :
    (insertEntry key value entries).Pairwise (·.1 < ·.1) := by
  induction entries with
  | nil => simp [insertEntry]
  | cons head rest ih =>
    obtain ⟨k, v⟩ := head
    obtain ⟨first, others⟩ := List.pairwise_cons.mp sorted
    unfold insertEntry
    split
    next lt =>
      refine List.pairwise_cons.mpr ⟨?_, sorted⟩
      intro e he
      rcases List.mem_cons.mp he with he | he
      · subst he; exact lt
      · exact String.lt_trans lt (first e he)
    next notLt =>
      split
      next same => subst same; exact List.pairwise_cons.mpr ⟨first, others⟩
      next differs =>
        refine List.pairwise_cons.mpr ⟨?_, ih others⟩
        intro e he
        rcases mem_insertEntry he with he | he
        · subst he
          have le : k ≤ key := String.not_lt.mp notLt
          exact Std.lt_of_le_of_ne le (Ne.symm differs)
        · exact first e he

def insert (labels : Labels) (key value : String) : Labels :=
  ⟨insertEntry key value labels.entries, insertEntry_sorted key value labels.sorted⟩

def get? (labels : Labels) (key : String) : Option String :=
  (labels.entries.find? (·.1 == key)).map (·.2)

def contains (labels : Labels) (key : String) : Bool := labels.entries.any (·.1 == key)

def size (labels : Labels) : Nat := labels.entries.length

def isEmpty (labels : Labels) : Bool := labels.entries.isEmpty

/-- The labels that pairs give; of two pairs with one key the later counts. -/
def ofList (pairs : List (String × String)) : Labels :=
  pairs.foldl (fun labels (key, value) => labels.insert key value) empty

inductive Flaw where
  | malformed (pair : String)
  | conflict (key : String)
  deriving DecidableEq, Repr

def Flaw.message : Flaw → String
  | .malformed pair => "invalid label (must match key=value format): " ++ pair
  | .conflict key => "conflict for provided label key: " ++ key

def sides? (pair : String) : Option (String × String) :=
  match Text.splitAtChar '=' pair.toList with
  | [key, value] => some (String.ofList key, String.ofList value)
  | _ => none

/-- Add a written label. The form is checked first, then the key, then that neither side
is empty. -/
def add (labels : Labels) (pair : String) : Except Flaw Labels :=
  match sides? pair with
  | none => .error (.malformed pair)
  | some (key, value) =>
    if labels.contains key then .error (.conflict key)
    else if key = "" ∨ value = "" then .error (.malformed pair)
    else .ok (labels.insert key value)

def ofPairs (pairs : List String) : Except Flaw Labels := pairs.foldlM add empty

end Labels

end StorageControl
