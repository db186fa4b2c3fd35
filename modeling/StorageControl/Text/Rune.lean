/-! Text that arrives as octets.

A rune is a character, or a run of octets that is no part of a UTF-8 text. Reading
octets never loses any: each maximal ill-formed run stays as it was, so one reader can
reject it where a value is needed and another can show U+FFFD in its place.
-/

set_option autoImplicit false

namespace StorageControl.Text

inductive Rune where
  | char (c : Char)
  | stray (octets : List UInt8)
  deriving DecidableEq, Repr, Inhabited

def Rune.width : Rune → Nat
  | .char c => c.utf8Size
  | .stray octets => octets.length

def runes (text : String) : List Rune := text.toList.map .char

/-- Show one U+FFFD for every ill-formed run. -/
def lossy (text : List Rune) : String :=
  String.ofList (text.map fun
    | .char c => c
    | .stray _ => Char.ofNat 0xFFFD)

theorem lossy_runes (text : String) : lossy (runes text) = text := by
  simp [lossy, runes, Function.comp_def]

structure Lead where
  more : Nat
  bits : Nat
  low : Nat
  high : Nat
  deriving DecidableEq, Repr

/-- The lead octets of UTF-8 outside ASCII; the ranges leave out overlong forms,
surrogates and numbers above U+10FFFF. -/
def lead? (n : Nat) : Option Lead :=
  if 0xC2 ≤ n ∧ n ≤ 0xDF then some ⟨1, n - 0xC0, 0x80, 0xBF⟩
  else if n = 0xE0 then some ⟨2, 0, 0xA0, 0xBF⟩
  else if n = 0xED then some ⟨2, 0xD, 0x80, 0x9F⟩
  else if 0xE1 ≤ n ∧ n ≤ 0xEF then some ⟨2, n - 0xE0, 0x80, 0xBF⟩
  else if n = 0xF0 then some ⟨3, 0, 0x90, 0xBF⟩
  else if 0xF1 ≤ n ∧ n ≤ 0xF3 then some ⟨3, n - 0xF0, 0x80, 0xBF⟩
  else if n = 0xF4 then some ⟨3, 4, 0x80, 0x8F⟩
  else none

/-- A character that has begun: the octets seen, how many are missing, the bits so far,
and the range of the next octet. -/
structure Partial where
  seen : List UInt8
  more : Nat
  bits : Nat
  low : Nat
  high : Nat
  deriving DecidableEq, Repr

def begin? (octet : UInt8) : Rune ⊕ Partial :=
  if octet.toNat < 0x80 then .inl (.char (Char.ofNat octet.toNat))
  else match lead? octet.toNat with
    | none => .inl (.stray [octet])
    | some lead => .inr ⟨[octet], lead.more, lead.bits, lead.low, lead.high⟩

def readOctets : Option Partial → List UInt8 → List Rune
  | none, [] => []
  | some part, [] => [.stray part.seen]
  | none, octet :: rest =>
    match begin? octet with
    | .inl rune => rune :: readOctets none rest
    | .inr part => readOctets (some part) rest
  | some part, octet :: rest =>
    if part.low ≤ octet.toNat ∧ octet.toNat ≤ part.high then
      let bits := part.bits * 64 + (octet.toNat - 0x80)
      if part.more ≤ 1 then .char (Char.ofNat bits) :: readOctets none rest
      else readOctets (some ⟨part.seen ++ [octet], part.more - 1, bits, 0x80, 0xBF⟩) rest
    else
      .stray part.seen ::
        match begin? octet with
        | .inl rune => rune :: readOctets none rest
        | .inr next => readOctets (some next) rest

def Rune.ofOctets (octets : List UInt8) : List Rune := readOctets none octets

def octets (c : Char) : List UInt8 := String.utf8EncodeChar c

end StorageControl.Text
