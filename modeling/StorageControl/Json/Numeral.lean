import StorageControl.Decimal.Shortest
import StorageControl.Word

/-! Numbers as they are written in a JSON text, and what they are worth.

A numeral keeps its digits, so a reader that passes over it never has to judge its size.
Whole numbers that fit 64 bits are exact: without a sign up to 2 ^ 64 - 1, with one down
to -2 ^ 63. All others are doubles, computed from the first nineteen or so digits and a
power of ten.
-/

set_option autoImplicit false

namespace StorageControl.Json

/-- The parts of a written number; an exponent has its own sign. -/
structure Numeral where
  negative : Bool
  whole : List Char
  fraction : List Char
  exponent : Option (Bool × List Char)
  deriving DecidableEq, Repr

inductive Quantity where
  | natural (n : Nat)
  | below (n : Int)
  | double (bits : UInt64)
  deriving DecidableEq, Repr

def digitValue (c : Char) : Nat := c.toNat - '0'.toNat

def digitsValue (digits : List Char) : Nat :=
  digits.foldl (fun n c => n * 10 + digitValue c) 0

def wordLimit : Nat := Word.limit 64

/-- Take digits into a 64-bit significand for as long as it can hold them; the digits
left over are returned. -/
def gather (significand : Nat) : List Char → Nat × List Char
  | [] => (significand, [])
  | c :: rest =>
    let next := significand * 10 + digitValue c
    if next < wordLimit then gather next rest else (significand, c :: rest)

def powerOfTen (n : Nat) : Float := Float.ofScientific 1 false n

def scaleOnce (f : Float) (exponent : Int) : Option Float :=
  if 0 ≤ exponent then
    let scaled := f * powerOfTen exponent.toNat
    if scaled.isInf then none else some scaled
  else some (f / powerOfTen (-exponent).toNat)

def scale (f : Float) (exponent : Int) : Nat → Option Float
  | 0 => some f
  | fuel + 1 =>
    if exponent.natAbs ≤ 308 then scaleOnce f exponent
    else if f == 0 then some f
    else if 0 ≤ exponent then none
    else scale (f / powerOfTen 308) (exponent + 308) fuel

/-- The largest exponent that is taken digit by digit. -/
def exponentLimit : Nat := Word.limit 31

def assemble (negative : Bool) (significand : Nat) (exponent : Int) : Option UInt64 :=
  (scale significand.toUInt64.toFloat exponent 6).map fun f =>
    (if negative then -f else f).toBits

def saturate (n : Int) : Int := max (-2147483648) (min 2147483647 n)

def Numeral.double? (n : Numeral) : Option UInt64 :=
  let (first, wholeLeft) := gather 0 n.whole
  let (significand, fractionLeft) := gather first n.fraction
  let shift := (Int.ofNat wholeLeft.length) - (n.fraction.length - fractionLeft.length : Nat)
  match n.exponent with
  | none => assemble n.negative significand shift
  | some (down, digits) =>
    let size := digitsValue digits
    if exponentLimit ≤ size then
      if significand = 0 || down then some (if n.negative then (-0.0 : Float).toBits else 0)
      else none
    else assemble n.negative significand (saturate (if down then shift - size else shift + size))

def Numeral.quantity? (n : Numeral) : Option Quantity :=
  let size := digitsValue n.whole
  match n.fraction, n.exponent with
  | [], none =>
    if n.negative then
      if 0 < size && size ≤ Word.limit 63 then some (.below (-Int.ofNat size))
      else n.double?.map .double
    else if size < wordLimit then some (.natural size)
    else n.double?.map .double
  | _, _ => n.double?.map .double

end StorageControl.Json
