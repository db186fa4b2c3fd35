/-! The fewest decimal digits that read back.

A binary number `m * 2 ^ q` is rounded to by every real in an interval around it. The
shortest decimal is the one with the fewest digits in that interval, and of those the
nearest. It is found in exact natural arithmetic: on the grid of one, two, ... digits
only the two neighbours of the number have to be tried.
-/

set_option autoImplicit false

namespace StorageControl.Decimal

/-- A positive binary number `mantissa * 2 ^ exponent`; `narrow` says that the gap below
it is half the gap above. -/
structure Binary where
  mantissa : Nat
  exponent : Int
  narrow : Bool
  deriving DecidableEq, Repr

structure Scientific where
  digits : Nat
  exponent : Int
  deriving DecidableEq, Repr

/-- A number and the ends of the interval that rounds to it, as quotients by one
denominator. -/
structure Interval where
  value : Nat
  low : Nat
  high : Nat
  den : Nat
  closed : Bool
  deriving DecidableEq, Repr

def Binary.interval (b : Binary) : Interval :=
  let q := b.exponent - 2
  let up := Nat.pow 2 q.toNat
  let four := 4 * b.mantissa
  { value := four * up
    low := (four - if b.narrow then 1 else 2) * up
    high := (four + 2) * up
    den := Nat.pow 2 (-q).toNat
    closed := b.mantissa % 2 == 0 }

def Interval.holds (i : Interval) (n : Nat) (unit : Int) : Bool :=
  let point := n * Nat.pow 10 unit.toNat * i.den
  let scale := Nat.pow 10 (-unit).toNat
  if i.closed then i.low * scale ≤ point && point ≤ i.high * scale
  else i.low * scale < point && point < i.high * scale

def digitCount (n : Nat) : Nat := (Nat.toDigits 10 n).length

/-- The least `k ≤ bound` with `den ≤ num * 10 ^ k`, or `bound`. -/
def shiftUntil (num den : Nat) : Nat → Nat → Nat
  | 0, k => k
  | bound + 1, k => if den ≤ num * Nat.pow 10 k then k else shiftUntil num den bound (k + 1)

def leadingPower (num den : Nat) : Int :=
  if den ≤ num then Int.ofNat (digitCount (num / den)) - 1
  else - Int.ofNat (shiftUntil num den 400 0)

/-- The neighbour of the number on the grid of multiples of `10 ^ unit` that reads back,
the nearer one when both do. -/
def Interval.onGrid (i : Interval) (unit : Int) : Option Nat :=
  let num := i.value * Nat.pow 10 (-unit).toNat
  let den := i.den * Nat.pow 10 unit.toNat
  let below := num / den
  match i.holds below unit, i.holds (below + 1) unit with
  | true, true =>
    let lower := num - below * den
    let upper := (below + 1) * den - num
    some (if lower < upper then below
      else if upper < lower then below + 1
      else if below % 2 = 0 then below else below + 1)
  | true, false => some below
  | false, true => some (below + 1)
  | false, false => none

def Interval.search (i : Interval) (power : Int) : Nat → Nat → Scientific
  | 0, _ => ⟨i.value / i.den, 0⟩
  | fuel + 1, count =>
    let unit := power + 1 - count
    match i.onGrid unit with
    | some n => ⟨n, unit⟩
    | none => i.search power fuel (count + 1)

def Scientific.normal (s : Scientific) : Nat → Scientific
  | 0 => s
  | fuel + 1 =>
    if s.digits ≠ 0 ∧ s.digits % 10 = 0 then
      Scientific.normal ⟨s.digits / 10, s.exponent + 1⟩ fuel
    else s

def Binary.shortest (b : Binary) : Scientific :=
  let i := b.interval
  let found := i.search (leadingPower i.value i.den) 18 1
  found.normal (digitCount found.digits)

/-- How a decimal number is laid out: the powers of ten of a first digit that are written
without an exponent, whether a whole number keeps `.0`, whether a positive exponent has
a sign, and the least number of exponent digits. -/
structure Layout where
  lowest : Option Int
  highest : Option Int
  pointZero : Bool
  exponentPlus : Bool
  exponentWidth : Nat
  deriving DecidableEq, Repr

def Layout.plain : Layout := ⟨none, none, false, false, 1⟩

def Layout.json : Layout := ⟨some (-5), some 15, true, true, 2⟩

def digitTexts (n : Nat) : List Char := Nat.toDigits 10 n

def padLeft (width : Nat) (digits : List Char) : List Char :=
  List.replicate (width - digits.length) '0' ++ digits

def Scientific.positional (s : Scientific) (pointZero : Bool) : List Char :=
  let ds := digitTexts s.digits
  if 0 ≤ s.exponent then
    ds ++ List.replicate s.exponent.toNat '0' ++ if pointZero then ['.', '0'] else []
  else
    let places := (-s.exponent).toNat
    if places < ds.length then
      ds.take (ds.length - places) ++ '.' :: ds.drop (ds.length - places)
    else '0' :: '.' :: (List.replicate (places - ds.length) '0' ++ ds)

def Scientific.withExponent (s : Scientific) (layout : Layout) : List Char :=
  let ds := digitTexts s.digits
  let power := s.exponent + (ds.length - 1 : Nat)
  let body := match ds with
    | [] => []
    | [d] => [d]
    | d :: rest => d :: '.' :: rest
  let sign := if power < 0 then ['-'] else if layout.exponentPlus then ['+'] else []
  body ++ 'e' :: sign ++ padLeft layout.exponentWidth (digitTexts power.natAbs)

def Scientific.write (s : Scientific) (layout : Layout) : List Char :=
  let power := s.exponent + (digitCount s.digits - 1 : Nat)
  let tooLow := match layout.lowest with | some l => power < l | none => false
  let tooHigh := match layout.highest with | some h => h < power | none => false
  if s.digits = 0 then s.positional layout.pointZero
  else if tooLow || tooHigh then s.withExponent layout
  else s.positional layout.pointZero

def Binary.ofBits (bits : Nat) : Binary :=
  let fraction := bits % Nat.pow 2 52
  let biased : Nat := bits / Nat.pow 2 52 % Nat.pow 2 11
  if biased = 0 then ⟨fraction, -1074, false⟩
  else ⟨Nat.pow 2 52 + fraction, Int.ofNat biased - 1075, fraction == 0 && biased != 1⟩

def writeBits (layout : Layout) (bits : UInt64) : String :=
  let n := bits.toNat
  let sign := if n / Nat.pow 2 63 = 1 then ['-'] else []
  let size := n % Nat.pow 2 63
  let body := if size = 0 then (Scientific.mk 0 0).write layout
    else (Binary.ofBits size).shortest.write layout
  String.ofList (sign ++ body)

end StorageControl.Decimal
