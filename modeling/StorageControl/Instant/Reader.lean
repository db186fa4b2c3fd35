import StorageControl.Instant
import StorageControl.Text.Blank
import StorageControl.Word

/-! Instants as they are written.

A written instant is year, month and day joined by `-`, one of `T`, `t` and a space,
hour, minute and second joined by `:`, decimals, and an offset from UTC. Blanks may stand
before every part but not before the separator of date and time. The parts are checked
one by one from the left; whether the date exists is checked after the whole text.
-/

set_option autoImplicit false

namespace StorageControl.Instant

open StorageControl.Text (trimStart)

inductive Flaw where
  | short
  | malformed
  | outOfRange
  | trailing
  | unreachable
  deriving DecidableEq, Repr

def Flaw.message : Flaw → String
  | .short => "premature end of input"
  | .malformed => "input contains invalid characters"
  | .outOfRange => "input is out of range"
  | .trailing => "trailing input"
  | .unreachable => "no possible date and time matching input"

def isDigit (c : Char) : Bool := '0' ≤ c && c ≤ '9'

def digit (c : Char) : Nat := c.toNat - '0'.toNat

def moreDigits (n : Nat) : Option Nat → List Char → Nat × List Char
  | some 0, text => (n, text)
  | _, [] => (n, [])
  | limit, c :: rest =>
    if isDigit c then moreDigits (n * 10 + digit c) (limit.map (· - 1)) rest else (n, c :: rest)

def number (limit : Option Nat) : List Char → Except Flaw (Nat × List Char)
  | [] => .error .short
  | c :: rest =>
    if isDigit c then .ok (moreDigits (digit c) (limit.map (· - 1)) rest) else .error .malformed

/-- A year: four digits at most, or a sign and any number of digits. -/
def yearPart (text : List Char) : Except Flaw (Int × List Char) :=
  match trimStart text with
  | '-' :: rest => do
    let (n, rest) ← number none rest
    if n ≤ Word.limit 31 then .ok (-Int.ofNat n, rest) else .error .outOfRange
  | '+' :: rest => do
    let (n, rest) ← number none rest
    if n < Word.limit 31 then .ok (Int.ofNat n, rest) else .error .outOfRange
  | rest => do
    let (n, rest) ← number (some 4) rest
    .ok (Int.ofNat n, rest)

def part (low high : Nat) (text : List Char) : Except Flaw (Nat × List Char) := do
  let (n, rest) ← number (some 2) (trimStart text)
  if low ≤ n ∧ n ≤ high then .ok (n, rest) else .error .outOfRange

def mark (c : Char) (text : List Char) : Except Flaw (List Char) :=
  match trimStart text with
  | [] => .error .short
  | d :: rest => if d = c then .ok rest else .error .malformed

def clockMark : List Char → Except Flaw (List Char)
  | [] => .error .short
  | c :: rest => if c = 'T' ∨ c = 't' ∨ c = ' ' then .ok rest else .error .malformed

/-- The value of up to nine decimals, and how many there were. -/
def decimals (n count : Nat) : List Char → Nat × Nat × List Char
  | [] => (n, count, [])
  | c :: rest =>
    if isDigit c then
      if count < 9 then decimals (n * 10 + digit c) (count + 1) rest else decimals n count rest
    else (n, count, c :: rest)

/-- The nanoseconds; decimals after the ninth are dropped. -/
def nanoPart : List Char → Except Flaw (Nat × List Char)
  | '.' :: text =>
    match text with
    | [] => .error .short
    | c :: rest =>
      if isDigit c then
        let (n, count, rest) := decimals 0 0 (c :: rest)
        .ok (n * Nat.pow 10 (9 - count), rest)
      else .error .malformed
  | text => .ok (0, text)

def octetLength (text : List Char) : Nat := text.foldl (fun n c => n + c.utf8Size) 0

def twoDigits (text : List Char) : Except Flaw (Nat × Nat × List Char) :=
  if octetLength text < 2 then .error .short
  else match text with
    | a :: b :: rest =>
      if isDigit a ∧ isDigit b then .ok (digit a, digit b, rest) else .error .malformed
    | _ => .error .malformed

def isUtc (a b c : Char) : Bool :=
  (a == 'U' || a == 'u') && (b == 'T' || b == 't') && (c == 'C' || c == 'c')

/-- Hours and minutes of an offset; marks and blanks between them do not matter. -/
def offsetSize (text : List Char) : Except Flaw (Nat × List Char) := do
  let (h, h', rest) ← twoDigits text
  let rest := rest.dropWhile fun c => c == ':' || Text.isBlank c
  let (m, m', rest) ← twoDigits rest
  if m ≤ 5 then .ok ((h * 10 + h') * 60 + m * 10 + m', rest) else .error .outOfRange

def offsetPart (text : List Char) : Except Flaw (Int × List Char) :=
  match text with
  | [] => .error .short
  | a :: rest =>
    match a, rest with
    | 'Z', _ | 'z', _ => .ok (0, rest)
    | '+', _ => do
      let (n, rest) ← offsetSize rest
      .ok (Int.ofNat n, rest)
    | '-', _ | '\u2212', _ => do
      let (n, rest) ← offsetSize rest
      .ok (-Int.ofNat n, rest)
    | _, b :: c :: rest => if isUtc a b c then .ok (0, rest) else .error .malformed
    | _, _ => .error .malformed

def read (text : List Char) : Except Flaw Instant := do
  let (year, text) ← yearPart text
  let text ← mark '-' text
  let (month, text) ← part 1 12 text
  let text ← mark '-' text
  let (day, text) ← part 1 31 text
  let text ← clockMark text
  let (hour, text) ← part 0 23 text
  let text ← mark ':' text
  let (minute, text) ← part 0 59 text
  let text ← mark ':' text
  let (second, text) ← part 0 60 text
  let (nano, text) ← nanoPart text
  let (offset, text) ← offsetPart (trimStart text)
  if !(trimStart text).isEmpty then .error .trailing
  match ofParts? year month day hour minute second nano with
  | none => .error .outOfRange
  | some i =>
    if 1440 ≤ offset.natAbs then .error .outOfRange
    else match i.fromOffset? offset with
      | none => .error .unreachable
      | some utc => .ok utc

def ofText (text : String) : Except String Instant :=
  (read text.toList).mapError Flaw.message

end StorageControl.Instant
