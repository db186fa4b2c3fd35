import StorageControl.Span
import StorageControl.Text.Blank
import StorageControl.Word

/-! Spans as people write them.

A written span is a sequence of numbers with units, such as `1m 30s`. Blanks may stand
before, between and after the parts, also between digits. A number may have a decimal
fraction as long as it comes out whole: in nanoseconds for units up to the minute, in
seconds for the longer ones. Every number has to fit 64 bits on the way.
-/

set_option autoImplicit false

namespace StorageControl.Span

open StorageControl.Text (isBlank)

inductive Unit where
  | nanosecond
  | microsecond
  | millisecond
  | second
  | minute
  | hour
  | day
  | week
  | month
  | year
  deriving DecidableEq, Repr

def Unit.names : Unit → List String
  | .nanosecond => ["nanos", "nsec", "ns"]
  | .microsecond => ["usec", "us", "µs"]
  | .millisecond => ["millis", "msec", "ms"]
  | .second => ["seconds", "second", "secs", "sec", "s"]
  | .minute => ["minutes", "minute", "min", "mins", "m"]
  | .hour => ["hours", "hour", "hr", "hrs", "h"]
  | .day => ["days", "day", "d"]
  | .week => ["weeks", "week", "wk", "wks", "w"]
  | .month => ["months", "month", "M"]
  | .year => ["years", "year", "yr", "yrs", "y"]

def Unit.all : List Unit :=
  [.nanosecond, .microsecond, .millisecond, .second, .minute, .hour, .day, .week, .month, .year]

def Unit.ofName? (name : String) : Option Unit := Unit.all.find? (·.names.contains name)

/-- What one unit counts: the number of nanoseconds or of seconds. A month is 30.44 days
and a year 365.25. -/
def Unit.size : Unit → Nat
  | .nanosecond => 1
  | .microsecond => 1000
  | .millisecond => 1000000
  | .second => 1
  | .minute => 60
  | .hour => 3600
  | .day => 86400
  | .week => 604800
  | .month => 2630016
  | .year => 31557600

def Unit.isSubsecond : Unit → Bool
  | .nanosecond | .microsecond | .millisecond => true
  | _ => false

def word? (n : Nat) : Option Nat := if n < Word.limit 64 then some n else none

structure Fraction where
  numerator : Nat
  denominator : Nat
  deriving DecidableEq, Repr

def add? (total : Span) (seconds nanoseconds : Nat) : Option Span := do
  let part ← word? (total.subsecond + nanoseconds)
  let carried ← word? (seconds + part / perSecond)
  let whole ← word? (total.seconds + carried)
  pure (ofParts whole (part % perSecond))

def Fraction.of? (f : Fraction) (size : Nat) : Option Nat := do
  let product ← word? (f.numerator * size)
  if product % f.denominator = 0 then some (product / f.denominator) else none

def addWhole? (total : Span) (n : Nat) (unit : Unit) : Option Span := do
  let size ← word? (n * unit.size)
  if unit.isSubsecond then add? total 0 size else add? total size 0

/-- Add a fraction of a unit; a nanosecond has none. -/
def addFraction? (total : Span) (f : Fraction) : Unit → Option Span
  | .nanosecond => none
  | .microsecond => do add? total 0 (← f.of? 1000)
  | .millisecond => do add? total 0 (← f.of? 1000000)
  | .second => do add? total 0 (← f.of? 1000000000)
  | .minute => do add? total 0 (← f.of? 60000000000)
  | unit => do add? total (← f.of? unit.size) 0

def isLetter (c : Char) : Bool :=
  ('a' ≤ c && c ≤ 'z') || ('A' ≤ c && c ≤ 'Z') || c == 'µ'

def isDigit (c : Char) : Bool := '0' ≤ c && c ≤ '9'

def digit (c : Char) : Nat := c.toNat - '0'.toNat

def readFraction (f : Fraction) : List Char → Option (Fraction × List Char)
  | [] => if f.denominator = 1 then none else some (f, [])
  | c :: rest =>
    if isDigit c then do
      let denominator ← word? (f.denominator * 10)
      let numerator ← word? (f.numerator * 10 + digit c)
      readFraction ⟨numerator, denominator⟩ rest
    else if isBlank c then readFraction f rest
    else if isLetter c then if f.denominator = 1 then none else some (f, c :: rest)
    else none

def readNumber (n : Nat) : List Char → Option (Nat × Option Fraction × List Char)
  | [] => some (n, none, [])
  | c :: rest =>
    if isDigit c then do
      let n ← word? (n * 10 + digit c)
      readNumber n rest
    else if isBlank c then readNumber n rest
    else if isLetter c then some (n, none, c :: rest)
    else if c = '.' then do
      let (f, rest) ← readFraction ⟨0, 1⟩ rest
      some (n, some f, rest)
    else none

/-- Numbers with units up to the end; each takes at least one character. -/
def readTerms : Nat → Span → List Char → Option Span
  | 0, _, _ => none
  | fuel + 1, total, text =>
    match text.dropWhile isBlank with
    | [] => some total
    | c :: rest => do
      if !isDigit c then none
      let (n, fraction, rest) ← readNumber (digit c) rest
      let unit ← Unit.ofName? (String.ofList (rest.takeWhile isLetter))
      let total ← addWhole? total n unit
      let total ← match fraction with
        | none => some total
        | some f => addFraction? total f unit
      readTerms fuel total (rest.dropWhile isLetter)

/-- Read a span; a lone zero needs no unit, and some number has to be there. -/
def ofText? (text : String) : Option Span :=
  if text = "0" then some zero
  else if text.toList.all isBlank then none
  else readTerms (text.length + 1) zero text.toList

end StorageControl.Span
