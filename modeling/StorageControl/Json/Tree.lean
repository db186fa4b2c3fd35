import StorageControl.Json.Cause
import StorageControl.Text.Rune

/-! JSON texts as trees that keep their flaws.

A text is read once into a tree. Where the text breaks, the tree has a broken leaf or an
unfinished list or object, and everything after the break is absent. Whether a flaw
matters is decided later, by what walks the tree: a reader of typed values meets the
first flaw in text order, a reader that passes over a value is content with less.
-/

set_option autoImplicit false

namespace StorageControl.Json

open StorageControl.Text (Rune)

/-- A string as it was written: its text or why it has none, and the flaw that ends the
whole document inside it, if there is one. -/
structure Quoted where
  text : Except Cause String
  cut : Option Cause

inductive Close where
  | closed
  | ended
  | noSeparator
  | commaClosed
  | commaEnded
  | commaOther
  /-- No key stands at the start of an object; this is what does. -/
  | keyless (found : Except Cause Found)

inductive Tree where
  | null
  | boolean (b : Bool)
  | number (n : Numeral)
  | string (q : Quoted)
  | list (items : List Tree) (close : Close)
  | object (members : List (Quoted × Tree)) (close : Close)
  | absent
  /-- What stands here is no value: the cause a typed reader gives, and the one given
  when the value is passed over. -/
  | broken (strict loose : Cause)

instance : Inhabited Tree := ⟨.null⟩

def Close.ofList : Close → Option Cause
  | .closed => none
  | .ended => some .endInList
  | .commaClosed => some .trailingComma
  | .commaEnded => some .endInValue
  | _ => some .noListSeparator

/-- The flaw at the end of a list that is passed over. -/
def Close.ofSkippedList : Close → Option Cause
  | .closed => none
  | .ended => some .endInList
  | .commaClosed => some .noValue
  | .commaEnded => some .endInValue
  | _ => some .noListSeparator

def Close.ofObject : Close → Option Cause
  | .closed => none
  | .ended => some .endInObject
  | .noSeparator => some .noObjectSeparator
  | .commaClosed => some .trailingComma
  | .commaEnded => some .endInValue
  | .commaOther | .keyless _ => some .noKey

def Close.ofSkippedObject : Close → Option Cause
  | .closed => none
  | .ended | .commaEnded => some .endInObject
  | .noSeparator => some .noObjectSeparator
  | .commaClosed | .commaOther | .keyless _ => some .noKey

def noFlaw (flaw : Option Cause) : Except Cause Unit :=
  match flaw with
  | none => .ok ()
  | some cause => .error cause

def Tree.found : Tree → Except Cause Found
  | .null => .ok .null
  | .boolean b => .ok (.boolean b)
  | .number n =>
    match n.quantity? with
    | some q => .ok (.quantity q)
    | none => .error .numberTooLarge
  | .string q => q.text.map .string
  | .list _ _ => .ok .list
  | .object _ _ => .ok .object
  | .absent => .error .endInValue
  | .broken strict _ => .error strict

def Tree.mismatch {α : Type} (t : Tree) (wanted : String) : Except Cause α :=
  match t.found with
  | .ok found => .error (.mismatch found wanted)
  | .error cause => .error cause

mutual

def Tree.skip : Tree → Except Cause Unit
  | .null | .boolean _ | .number _ => .ok ()
  | .string q => noFlaw q.cut
  | .list items close => do
    skipItems items
    noFlaw close.ofSkippedList
  | .object members close => do
    skipMembers members
    noFlaw close.ofSkippedObject
  | .absent => .error .endInValue
  | .broken _ loose => .error loose

def skipItems : List Tree → Except Cause Unit
  | [] => .ok ()
  | item :: rest => do
    item.skip
    skipItems rest

def skipMembers : List (Quoted × Tree) → Except Cause Unit
  | [] => .ok ()
  | (key, value) :: rest => do
    noFlaw key.cut
    value.skip
    skipMembers rest

end

end StorageControl.Json
