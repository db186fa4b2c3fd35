import StorageControl.Fault

/-! Picking resources out of a listing, strictly.

The server has no lookup by name, so a name is looked for in the listing of its scope. A
key that nothing has fails the whole request, and so does a name that several resources
share; a request for some resources never brings only a part of them. A request without
keys takes the listing as it is.
-/

set_option autoImplicit false

namespace StorageControl

structure Index (α : Type) where
  entries : List (String × α)

namespace Index

variable {α : Type}

def empty : Index α := ⟨[]⟩

def get? (index : Index α) (key : String) : Option α :=
  (index.entries.find? (·.1 == key)).map (·.2)

/-- Change the value of a key in place, or add the key at the end. -/
def alterEntry (key : String) (f : Option α → α) : List (String × α) → List (String × α)
  | [] => [(key, f none)]
  | (k, a) :: rest => if k = key then (k, f (some a)) :: rest else (k, a) :: alterEntry key f rest

def alter (index : Index α) (key : String) (f : Option α → α) : Index α :=
  ⟨alterEntry key f index.entries⟩

theorem get?_alter (index : Index α) (key other : String) (f : Option α → α) :
    (index.alter key f).get? other =
      if other = key then some (f (index.get? key)) else index.get? other := by
  obtain ⟨entries⟩ := index
  simp only [get?, alter]
  induction entries with
  | nil =>
    by_cases h : other = key
    · subst h; simp [alterEntry]
    · simp [alterEntry, h, Ne.symm h]
  | cons head rest ih =>
    obtain ⟨k, a⟩ := head
    unfold alterEntry
    by_cases hk : k = key
    · subst hk
      by_cases h : other = k
      · subst h; simp
      · simp [h, Ne.symm h]
    · by_cases h : k = other
      · subst h; simp [hk]
      · simpa [hk, h] using ih

def insert (index : Index α) (key : String) (a : α) : Index α := index.alter key fun _ => a

def push (index : Index (List α)) (key : String) (a : α) : Index (List α) :=
  index.alter key fun group => group.getD [] ++ [a]

end Index

namespace Selection

variable {R : Type} [Named R]

def noName (R : Type) [Named R] (name : String) : ApiFault :=
  .resourceNotFound (Named.kind R) ("with name " ++ name)

def noId (R : Type) [Named R] (id : String) : ApiFault :=
  .resourceNotFound (Named.kind R) ("with ID " ++ id)

def byName (items : List R) (name : String) : Except ApiFault R :=
  match items.filter (Named.name · == name) with
  | [] => .error (noName R name)
  | [r] => .ok r
  | r :: others => .error (.ambiguousName (Named.kind R) name (r :: others).length)

/-- The listing by identifier; of two with one identifier the later counts. -/
def idIndex (items : List R) : Index R :=
  items.foldl (fun index r => index.insert (Named.id r).text r) .empty

/-- The resources with the identifiers asked for, in the order of the request. -/
def byIds (items : List R) (ids : List (Id (Named.subject R))) : Except ApiFault (List R) :=
  if ids.isEmpty then .ok items
  else
    let index := idIndex items
    ids.mapM fun id =>
      match index.get? id.text with
      | some r => .ok r
      | none => .error (noId R id.text)

def nameIndex (items : List R) : Index (List R) :=
  items.foldl (fun index r => index.push (Named.name r) r) .empty

def byNames (items : List R) (names : List String) : Except ApiFault (List R) :=
  if names.isEmpty then .ok items
  else
    let index := nameIndex items
    names.mapM fun name =>
      match index.get? name with
      | some [r] => .ok r
      | some (r :: others) => .error (.ambiguousName (Named.kind R) name (r :: others).length)
      | _ => .error (noName R name)

end Selection

end StorageControl
