import StorageControl.Text.Rune

/-! Percent and form encoding.

Each part of a URL writes the octets of some characters as a percent sign and two
digits of base sixteen; which characters depends on the part. Pairs of names and values
have an encoding of their own, where a blank is a plus sign.
-/

set_option autoImplicit false

namespace StorageControl.Url

def hexDigit (n : Nat) : Char := (Nat.digitChar n).toUpper

def percent (octet : UInt8) : List Char :=
  ['%', hexDigit (octet.toNat / 16), hexDigit (octet.toNat % 16)]

def percentChar (c : Char) : List Char := (Text.octets c).flatMap percent

def escape (escaped : Char → Bool) (text : List Char) : List Char :=
  text.flatMap fun c => if escaped c then percentChar c else [c]

/-- Controls, and all that is not ASCII. -/
def isForeign (c : Char) : Bool := c.toNat < 0x20 || 0x7F ≤ c.toNat

def backtick : Char := Char.ofNat 0x60

def fragmentEscaped (c : Char) : Bool :=
  isForeign c || [' ', '"', '<', '>', backtick].contains c

def pathEscaped (c : Char) : Bool := fragmentEscaped c || ['#', '?', '\x7b', '\x7d'].contains c

def userEscaped (c : Char) : Bool :=
  pathEscaped c || ['/', ':', ';', '=', '@', '[', '\\', ']', '^', '|'].contains c

def queryEscaped (c : Char) : Bool := isForeign c || [' ', '"', '#', '<', '>'].contains c

/-- The query of a web address has the apostrophe escaped too. -/
def webQueryEscaped (c : Char) : Bool := queryEscaped c || c == '\''

def isFormPlain (c : Char) : Bool := c.isAlphanum || ['*', '-', '.', '_'].contains c

def formChar (c : Char) : List Char :=
  if isFormPlain c then [c] else if c = ' ' then ['+'] else percentChar c

def formText (text : String) : List Char := text.toList.flatMap formChar

def formPair (pair : String × String) : List Char := formText pair.1 ++ '=' :: formText pair.2

def hexValue? (c : Char) : Option Nat :=
  if c.isDigit then some (c.toNat - '0'.toNat)
  else if 'a' ≤ c ∧ c ≤ 'f' then some (c.toNat - 'a'.toNat + 10)
  else if 'A' ≤ c ∧ c ≤ 'F' then some (c.toNat - 'A'.toNat + 10)
  else none

/-- Resolve percent signs; one that two digits do not follow stands for itself. -/
def unescape : List Char → List UInt8
  | '%' :: a :: b :: rest =>
    match hexValue? a, hexValue? b with
    | some high, some low => UInt8.ofNat (high * 16 + low) :: unescape rest
    | _, _ => Text.octets '%' ++ unescape (a :: b :: rest)
  | c :: rest => Text.octets c ++ unescape rest
  | [] => []

end StorageControl.Url
