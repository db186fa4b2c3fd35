import StorageControl.Decimal.Shortest

/-! Lengths of time.

A span is a number of nanoseconds. It is shown in the largest unit that gives a whole
part, with as many decimals as it needs, and as a number of seconds in messages.
-/

set_option autoImplicit false

namespace StorageControl

structure Span where
  nanoseconds : Nat
  deriving DecidableEq, Repr, Inhabited

namespace Span

def perSecond : Nat := 1000000000
def perMilli : Nat := 1000000
def perMicro : Nat := 1000

def ofParts (seconds nanoseconds : Nat) : Span := ⟨seconds * perSecond + nanoseconds⟩

def zero : Span := ⟨0⟩

def seconds (s : Span) : Nat := s.nanoseconds / perSecond

def subsecond (s : Span) : Nat := s.nanoseconds % perSecond

def milliseconds (s : Span) : Nat := s.nanoseconds / perMilli

/-- The milliseconds, with a part of one counted as one. -/
def millisecondsUp (s : Span) : Nat := (s.nanoseconds + (perMilli - 1)) / perMilli

def dropZeros (digits : List Char) : List Char :=
  (digits.reverse.dropWhile (· == '0')).reverse

def inUnit (whole part places : Nat) (unit : String) : String :=
  let decimals := dropZeros (Decimal.padLeft places (Decimal.digitTexts part))
  let point := if part = 0 then [] else '.' :: decimals
  String.ofList (Decimal.digitTexts whole ++ point) ++ unit

def describe (s : Span) : String :=
  if 0 < s.seconds then inUnit s.seconds s.subsecond 9 "s"
  else if perMilli ≤ s.nanoseconds then
    inUnit (s.nanoseconds / perMilli) (s.nanoseconds % perMilli) 6 "ms"
  else if perMicro ≤ s.nanoseconds then
    inUnit (s.nanoseconds / perMicro) (s.nanoseconds % perMicro) 3 "µs"
  else inUnit s.nanoseconds 0 0 "ns"

/-- The span in seconds as a double, written with the fewest digits and no exponent. -/
def inSeconds (s : Span) : String :=
  let whole := s.seconds.toUInt64.toFloat
  let part := s.subsecond.toUInt64.toFloat / 1e9
  Decimal.writeBits .plain (whole + part).toBits

end Span

end StorageControl
