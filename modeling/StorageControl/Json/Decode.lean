import StorageControl.Json.Tree
import StorageControl.Word

/-! Readers of typed values.

A decoder turns a tree into a value or gives the first flaw in text order. A record is a
list of named fields together with how their values make one value. It is read from an
object, where unknown members are passed over and a field may stand once, or from a list
of its fields in order.
-/

set_option autoImplicit false

namespace StorageControl.Json

abbrev Decoder (α : Type) := Tree → Except Cause α

namespace Decode

def stringAs (wanted : String) : Decoder String
  | .string q => q.text
  | t => t.mismatch wanted

def string : Decoder String := stringAs "a string"

def boolean : Decoder Bool
  | .boolean b => .ok b
  | t => t.mismatch "a boolean"

def natural (bound : Nat) (wanted : String) : Decoder Nat
  | .number n =>
    match n.quantity? with
    | some (.natural k) => if k < bound then .ok k else .error (.outOfRange k wanted)
    | some (.below k) => .error (.outOfRange k wanted)
    | some q => .error (.mismatch (.quantity q) wanted)
    | none => .error .numberTooLarge
  | t => t.mismatch wanted

def word32 : Decoder Nat := natural (Word.limit 32) "u32"
def word64 : Decoder Nat := natural (Word.limit 64) "u64"

def option {α : Type} (decode : Decoder α) : Decoder (Option α)
  | .null => .ok none
  | t => (decode t).map some

def items {α : Type} (decode : Decoder α) : List Tree → Except Cause (List α)
  | [] => .ok []
  | t :: rest => do
    let a ← decode t
    let more ← items decode rest
    pure (a :: more)

def list {α : Type} (decode : Decoder α) : Decoder (List α)
  | .list trees close => do
    let values ← items decode trees
    noFlaw close.ofList
    pure values
  | t => t.mismatch "a sequence"

def members {α : Type} (decode : Decoder α) : List (Quoted × Tree) → Except Cause (List (String × α))
  | [] => .ok []
  | (key, t) :: rest => do
    let name ← key.text
    let a ← decode t
    let more ← members decode rest
    pure ((name, a) :: more)

def map {α : Type} (decode : Decoder α) : Decoder (List (String × α))
  | .object written close => do
    let values ← members decode written
    noFlaw close.ofObject
    pure values
  | t => t.mismatch "a map"

/-- A value that its own type may refuse. -/
def refine {α β : Type} (decode : Decoder α) (make : α → Except String β) : Decoder β := fun t => do
  let a ← decode t
  match make a with
  | .ok b => pure b
  | .error message => .error (.refused message)

end Decode

/-! ### Records -/

structure Field where
  name : String
  check : Tree → Except Cause Unit

/-- The fields of a record in order, and how their values make the value; a field that
is not there has no tree. -/
structure Record (α : Type) where
  fields : List Field
  build : (String → Option Tree) → Except Cause α

namespace Record

def pure {α : Type} (a : α) : Record α := ⟨[], fun _ => .ok a⟩

/-- The fields of two records; the first gives a function of the second's value. -/
def seq {α β : Type} (f : Record (α → β)) (x : Record α) : Record β where
  fields := f.fields ++ x.fields
  build := fun find => do
    let g ← f.build find
    let a ← x.build find
    .ok (g a)

def field {α : Type} (name : String) (decode : Decoder α) (absent : Except Cause α) : Record α where
  fields := [⟨name, fun t => (decode t).map fun _ => ()⟩]
  build := fun find =>
    match find name with
    | some t => decode t
    | none => absent

def required {α : Type} (name : String) (decode : Decoder α) : Record α :=
  field name decode (.error (.missingField name))

def defaulted {α : Type} (name : String) (decode : Decoder α) (absent : α) : Record α :=
  field name decode (.ok absent)

def optional {α : Type} (name : String) (decode : Decoder α) : Record (Option α) :=
  defaulted name (Decode.option decode) none

def lookup (fields : List Field) (name : String) : Option Field :=
  fields.find? (·.name == name)

/-- Read members in text order: a known one at most once, an unknown one not at all. The
known members are returned with their trees. -/
def readMembers (fields : List Field) :
    List String → List (Quoted × Tree) → Except Cause (List (String × Tree))
  | _, [] => .ok []
  | seen, (key, t) :: rest => do
    let name ← key.text
    match lookup fields name with
    | none => do
      t.skip
      readMembers fields seen rest
    | some f => do
      if seen.contains name then .error (.repeatedField name)
      else
        f.check t
        let more ← readMembers fields (name :: seen) rest
        .ok ((name, t) :: more)

/-- Read items as the fields in order, for as long as there are both. -/
def readItems : List Field → List Tree → Except Cause (List (String × Tree))
  | f :: fields, t :: rest => do
    f.check t
    let more ← readItems fields rest
    .ok ((f.name, t) :: more)
  | _, _ => .ok []

def find (found : List (String × Tree)) (name : String) : Option Tree :=
  (found.find? (·.1 == name)).map (·.2)

/-- Whether a list of items may leave out fields at its end. -/
inductive Length where
  | exact
  | short
  deriving DecidableEq, Repr

def surplus (fieldCount : Nat) (items : List Tree) (close : Close) : Option Cause :=
  if fieldCount < items.length then some .trailingCharacters
  else match close with
    | .closed => none
    | .ended => some .endInList
    | .commaClosed => some .trailingComma
    | _ => some .trailingCharacters

def decode {α : Type} (record : Record α) (name : String) (length : Length) : Decoder α
  | .object members close => do
    let found ← readMembers record.fields [] members
    noFlaw close.ofObject
    record.build (find found)
  | .list items close => do
    let count := record.fields.length
    let found ← readItems record.fields items
    if items.length < count then do
      noFlaw close.ofList
      if length = .exact then
        .error (.wrongLength items.length
          (name ++ " with " ++ toString count ++
            (if count = 1 then " element" else " elements")))
      else record.build (find found)
    else do
      let value ← record.build (find found)
      noFlaw (surplus count items close)
      .ok value
  | t => t.mismatch name

end Record

/-! ### Variants -/

namespace Decode

def variantName (known : List String) (name : String) : Except Cause String :=
  if known.contains name then .ok name else .error (.unknownVariant name known)

def variantEnd (others : List (Quoted × Tree)) (close : Close) : Except Cause Unit :=
  match others, close with
  | [], .closed => .ok ()
  | [], .ended => .error .endInObject
  | _, _ => .error .noValue

/-- A variant of a type: its name alone, or an object with its name and its content. -/
def variant {α : Type} (known : List String) (bare : String → Except Cause α)
    (content : String → Decoder α) : Decoder α
  | .string q => do
    let name ← q.text
    let name ← variantName known name
    bare name
  | .object ((key, t) :: others) close => do
    let name ← key.text
    let name ← variantName known name
    let a ← content name t
    variantEnd others close
    pure a
  | .object [] close =>
    match close with
    | .keyless (.ok found) => .error (.mismatch found "variant identifier")
    | .keyless (.error cause) => .error cause
    | .ended => .error .endInValue
    | _ => .error .noValue
  | .absent => .error .endInValue
  | _ => .error .noValue

def unit : Decoder Unit
  | .null => .ok ()
  | t => t.mismatch "unit"

def choice {α : Type} [Inhabited α] (names : List (String × α)) : Decoder α :=
  let pick (name : String) : α := ((names.find? (·.1 == name)).map (·.2)).getD default
  variant (names.map (·.1)) (fun name => .ok (pick name))
    (fun name t => (unit t).map fun _ => pick name)

end Decode

end StorageControl.Json
