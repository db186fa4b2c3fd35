import StorageControl.Text.Blank
import StorageControl.Url.Escape
import StorageControl.Url.Punycode

/-! Hosts of URLs.

A host in brackets is an address of eight groups. Any other is a name; its percent signs
are resolved, its letters put in lower case and its labels in ASCII, and if its last
label is a number the whole must be an address of four octets.
-/

set_option autoImplicit false

namespace StorageControl.Url

open StorageControl.Text (splitAtChar)

inductive Host where
  | name (text : List Char)
  | octets (address : Nat)
  | groups (pieces : List Nat)
  deriving DecidableEq, Repr

namespace Host

/-! ### Four octets -/

def valueIn (base : Nat) : Nat → List Char → Option Nat
  | n, [] => some n
  | n, c :: rest =>
    match hexValue? c with
    | some d => if d < base then valueIn base (n * base + d) rest else none
    | none => none

def number? : List Char → Option Nat
  | [] => none
  | ['0'] => some 0
  | '0' :: 'x' :: digits => valueIn 16 0 digits
  | '0' :: 'X' :: digits => valueIn 16 0 digits
  | '0' :: digits => valueIn 8 0 digits
  | digits => valueIn 10 0 digits

def parts (name : List Char) : List (List Char) :=
  let all := splitAtChar '.' name
  if all.getLast? = some [] then all.dropLast else all

def endsInNumber (name : List Char) : Bool :=
  match (parts name).getLast? with
  | none => false
  | some last => (!last.isEmpty && last.all Char.isDigit) || (number? last).isSome

/-- The address whose leading parts are octets and whose last part fills the rest. -/
def address? (numbers : List Nat) : Option Nat :=
  match numbers.reverse with
  | [] => none
  | last :: leading =>
    let octets := leading.reverse
    let room := Nat.pow 256 (4 - octets.length)
    if 3 < octets.length ∨ octets.any (255 < ·) ∨ room ≤ last then none
    else some (octets.foldl (fun n o => n * 256 + o) 0 * room + last)

/-! ### Eight groups -/

def group? (text : List Char) : Option Nat :=
  if text.isEmpty || 4 < text.length then none else valueIn 16 0 text

def octet? (text : List Char) : Option Nat :=
  match text with
  | [] => none
  | '0' :: _ :: _ => none
  | digits => (valueIn 10 0 digits).filter (· ≤ 255)

def octetGroups? (text : List Char) : Option (List Nat) :=
  match (splitAtChar '.' text).mapM octet? with
  | some [a, b, c, d] => some [a * 256 + b, c * 256 + d]
  | _ => none

/-- Groups between colons; the last two may be written as octets where `isEnd`. -/
def groupList? (isEnd : Bool) : List (List Char) → Option (List Nat)
  | [] => some []
  | [last] =>
    if isEnd && last.contains '.' then octetGroups? last else (group? last).map ([·])
  | first :: rest => do
    let piece ← group? first
    let pieces ← groupList? isEnd rest
    pure (piece :: pieces)

def atGap : List Char → Option (List Char × List Char)
  | ':' :: ':' :: rest => some ([], rest)
  | c :: rest => (atGap rest).map fun (before, after) => (c :: before, after)
  | [] => none

def groupsOf? (isEnd : Bool) (text : List Char) : Option (List Nat) :=
  if text.isEmpty then some [] else groupList? isEnd (splitAtChar ':' text)

/-- Eight groups; a double colon stands for one or more zeros. -/
def pieces? (text : List Char) : Option (List Nat) :=
  match atGap text with
  | none => (groupsOf? true text).filter (·.length = 8)
  | some (before, after) => do
    let first ← groupsOf? false before
    let last ← groupsOf? true after
    if first.length + last.length ≤ 7 then
      pure (first ++ List.replicate (8 - first.length - last.length) 0 ++ last)
    else none

/-! ### Names -/

def isForbidden (c : Char) : Bool :=
  [Char.ofNat 0, '\t', '\n', '\r', ' ', '#', '/', ':', '<', '>', '?', '@', '[', '\\', ']', '^',
    '|'].contains c

def isForbiddenInName (c : Char) : Bool :=
  isForbidden c || c.toNat < 0x20 || c.toNat = 0x7F || c = '%'

def wellFormed? : List Text.Rune → Option (List Char)
  | [] => some []
  | .char c :: rest => (wellFormed? rest).map (c :: ·)
  | .stray _ :: _ => none

/-- A name in lower case and ASCII. A character outside ASCII is taken to be in its
normal form already. -/
def asciiName (name : List Char) : List Char :=
  List.intercalate ['.'] ((splitAtChar '.' (name.map Char.toLower)).map Punycode.label)

def bracketed? (text : List Char) : Option (List Char) :=
  match text with
  | '[' :: rest => if rest.getLast? = some ']' then some rest.dropLast else none
  | _ => none

def ofText? (text : List Char) : Option Host :=
  if text.head? = some '[' then (bracketed? text).bind fun t => (pieces? t).map .groups
  else do
    let name := asciiName (← wellFormed? (Text.Rune.ofOctets (unescape text)))
    if name.isEmpty || name.any isForbiddenInName then none
    else if endsInNumber name then
      let numbers ← (parts name).mapM number?
      (address? numbers).map .octets
    else some (.name name)

/-- The host of an address of another kind, kept as it is. -/
def ofOpaque? (text : List Char) : Option Host :=
  if text.head? = some '[' then (bracketed? text).bind fun t => (pieces? t).map .groups
  else if text.any isForbidden then none
  else some (.name (escape isForeign text))

/-! ### Text -/

def zeros (pieces : List Nat) : Nat := (pieces.takeWhile (· == 0)).length

/-- The first longest run of zeros that has at least two: its place and length. -/
def longestRun : Nat → List Nat → Option (Nat × Nat)
  | _, [] => none
  | i, piece :: rest =>
    let here := zeros (piece :: rest)
    match longestRun (i + 1) rest with
    | some (j, n) => if n ≤ here then some (i, here) else some (j, n)
    | none => if 2 ≤ here then some (i, here) else none

def groupTexts (pieces : List Nat) : List Char :=
  List.intercalate [':'] (pieces.map (Nat.toDigits 16))

def groupText (pieces : List Nat) : List Char :=
  match longestRun 0 pieces with
  | none => groupTexts pieces
  | some (i, n) => groupTexts (pieces.take i) ++ [':', ':'] ++ groupTexts (pieces.drop (i + n))

def octetText (address : Nat) : List Char :=
  List.intercalate ['.'] ([address / 256 / 256 / 256, address / 256 / 256 % 256,
    address / 256 % 256, address % 256].map (Nat.toDigits 10))

def text : Host → String
  | name text => String.ofList text
  | octets address => String.ofList (octetText address)
  | groups pieces => String.ofList ('[' :: (groupText pieces ++ [']']))

end Host

end StorageControl.Url
