import StorageControl.Json.Tree

/-! Reading a JSON text into a tree.

Every reading step takes the text from where it stands and returns the tree together
with the rest of the text, or with no rest when the text broke. Strings are read one
rune at a time, first into pieces that keep the escapes, then into a text.
-/

set_option autoImplicit false

namespace StorageControl.Json

open StorageControl.Text (Rune runes)

def isSpace (c : Char) : Bool := c == ' ' || c == '\t' || c == '\n' || c == '\r'

def skipSpace : List Rune → List Rune
  | .char c :: rest => if isSpace c then skipSpace rest else .char c :: rest
  | text => text

/-! ### Strings -/

/-- What one unit of a written string stands for: a character, a 16-bit unit given by
its number, or octets that are no text. -/
inductive Piece where
  | char (c : Char)
  | unit (n : Nat)
  | stray
  deriving DecidableEq, Repr

inductive Cut where
  | ended
  | control
  | badLetter
  | badDigits
  deriving DecidableEq, Repr

def Cut.cause : Cut → Cause
  | .ended => .endInString
  | .control => .controlCharacter
  | .badLetter | .badDigits => .badEscape

/-- Where the reader stands inside a string: between units, after a backslash, or inside
a number of four digits. -/
inductive Spot where
  | between
  | escape
  | digits (count value : Nat)
  deriving DecidableEq, Repr

def hexValue? (c : Char) : Option Nat :=
  if '0' ≤ c ∧ c ≤ '9' then some (c.toNat - '0'.toNat)
  else if 'a' ≤ c ∧ c ≤ 'f' then some (c.toNat - 'a'.toNat + 10)
  else if 'A' ≤ c ∧ c ≤ 'F' then some (c.toNat - 'A'.toNat + 10)
  else none

def escaped? (c : Char) : Option Char :=
  if c = '"' ∨ c = '\\' ∨ c = '/' then some c
  else if c = 'b' then some (Char.ofNat 0x08)
  else if c = 'f' then some (Char.ofNat 0x0C)
  else if c = 'n' then some '\n'
  else if c = 'r' then some '\r'
  else if c = 't' then some '\t'
  else none

def octetLength (text : List Rune) : Nat := text.foldl (fun n rune => n + rune.width) 0

/-- Why a number of four digits is none, seen `count` digits in: the text is too short
for four octets, or one of them is no digit. -/
def shortNumber (count : Nat) (text : List Rune) : Cut :=
  if count + octetLength text < 4 then .ended else .badDigits

/-- The pieces of a string after its opening quote, and the text after the closing quote
or why there is none. -/
def pieces : Spot → List Rune → List Piece × Except Cut (List Rune)
  | _, [] => ([], .error .ended)
  | .between, .stray _ :: rest =>
    let (more, stop) := pieces .between rest
    (.stray :: more, stop)
  | .between, .char c :: rest =>
    if c = '"' then ([], .ok rest)
    else if c = '\\' then pieces .escape rest
    else if c.toNat < 0x20 then ([], .error .control)
    else
      let (more, stop) := pieces .between rest
      (.char c :: more, stop)
  | .escape, .stray _ :: _ => ([], .error .badLetter)
  | .escape, .char c :: rest =>
    if c = 'u' then pieces (.digits 0 0) rest
    else match escaped? c with
      | none => ([], .error .badLetter)
      | some d =>
        let (more, stop) := pieces .between rest
        (.char d :: more, stop)
  | .digits count _, .stray octets :: rest =>
    ([], .error (shortNumber count (.stray octets :: rest)))
  | .digits count value, .char c :: rest =>
    match hexValue? c with
    | none => ([], .error (shortNumber count (.char c :: rest)))
    | some d =>
      if count < 3 then pieces (.digits (count + 1) (value * 16 + d)) rest
      else
        let (more, stop) := pieces .between rest
        (.unit (value * 16 + d) :: more, stop)

def isHighSurrogate (n : Nat) : Bool := 0xD800 ≤ n && n ≤ 0xDBFF
def isLowSurrogate (n : Nat) : Bool := 0xDC00 ≤ n && n ≤ 0xDFFF

def pairValue (high low : Nat) : Char :=
  Char.ofNat ((high - 0xD800) * 0x400 + (low - 0xDC00) + 0x10000)

def Cut.afterHighSurrogate : Option Cut → Cause
  | some .ended => .endInString
  | some .badDigits => .badEscape
  | _ => .unfinishedSurrogate

/-- Put pieces together to a text; a high surrogate waits for its partner. The text must
be closed, its surrogates paired and its octets well formed. -/
def joinPieces (stop : Option Cut) : Option Nat → List Piece → Except Cause (List Piece)
  | some _, [] => .error (Cut.afterHighSurrogate stop)
  | none, [] =>
    match stop with
    | some cut => .error cut.cause
    | none => .ok []
  | some high, .unit n :: rest =>
    if isLowSurrogate n then do
      let more ← joinPieces stop none rest
      pure (.char (pairValue high n) :: more)
    else .error .loneSurrogate
  | some _, _ :: _ => .error .unfinishedSurrogate
  | none, .unit n :: rest =>
    if isHighSurrogate n then joinPieces stop (some n) rest
    else if isLowSurrogate n then .error .loneSurrogate
    else do
      let more ← joinPieces stop none rest
      pure (.char (Char.ofNat n) :: more)
  | none, piece :: rest => do
    let more ← joinPieces stop none rest
    pure (piece :: more)

def plainText : List Piece → Except Cause (List Char)
  | [] => .ok []
  | .char c :: rest => do
    let more ← plainText rest
    pure (c :: more)
  | _ :: _ => .error .badOctets

def quotedText (written : List Piece) (stop : Option Cut) : Except Cause String := do
  let joined ← joinPieces stop none written
  let text ← plainText joined
  pure (String.ofList text)

def readString (text : List Rune) : Quoted × Option (List Rune) :=
  match pieces .between text with
  | (written, .ok rest) => (⟨quotedText written none, none⟩, some rest)
  | (written, .error cut) => (⟨quotedText written (some cut), some cut.cause⟩, none)

/-! ### Words and numbers -/

def readWord (value : Tree) : List Char → List Rune → Tree × Option (List Rune)
  | [], text => (value, some text)
  | _ :: _, [] => (.broken .endInValue .endInValue, none)
  | w :: word, r :: rest =>
    if r = .char w then readWord value word rest else (.broken .noWord .noWord, none)

def isDigit (c : Char) : Bool := '0' ≤ c && c ≤ '9'

def takeDigits : List Rune → List Char × List Rune
  | .char c :: rest =>
    if isDigit c then
      let (more, rest') := takeDigits rest
      (c :: more, rest')
    else ([], .char c :: rest)
  | text => ([], text)

/-- The flaw where a digit is missing. A typed reader tells the end of the document from
another character. -/
def missingDigit (text : List Rune) : Tree × Option (List Rune) :=
  match text with
  | [] => (.broken .endInValue .badNumber, none)
  | _ => (.broken .badNumber .badNumber, none)

def readExponent (negative : Bool) (whole fraction : List Char) (text : List Rune) :
    Tree × Option (List Rune) :=
  match text with
  | .char c :: rest =>
    if c = 'e' ∨ c = 'E' then
      let (down, rest) := match rest with
        | .char s :: more =>
          if s = '+' then (false, more) else if s = '-' then (true, more)
          else (false, .char s :: more)
        | other => (false, other)
      match takeDigits rest with
      | ([], rest) => missingDigit rest
      | (digits, rest) => (.number ⟨negative, whole, fraction, some (down, digits)⟩, some rest)
    else (.number ⟨negative, whole, fraction, none⟩, some text)
  | _ => (.number ⟨negative, whole, fraction, none⟩, some text)

def readFraction (negative : Bool) (whole : List Char) (text : List Rune) :
    Tree × Option (List Rune) :=
  match text with
  | .char c :: rest =>
    if c = '.' then
      match takeDigits rest with
      | ([], rest) => missingDigit rest
      | (digits, rest) => readExponent negative whole digits rest
    else readExponent negative whole [] text
  | _ => readExponent negative whole [] text

def readNumber (negative : Bool) (text : List Rune) : Tree × Option (List Rune) :=
  match takeDigits text with
  | ([], rest) => missingDigit rest
  | (digits, rest) =>
    if digits.head? = some '0' ∧ 1 < digits.length then (.broken .badNumber .badNumber, none)
    else readFraction negative digits rest

/-! ### Values -/

mutual

/-- Read a value. The fuel is more than twice the length of the text. -/
def readValue : Nat → List Rune → Tree × Option (List Rune)
  | 0, _ => (.absent, none)
  | fuel + 1, text =>
    match skipSpace text with
    | [] => (.absent, none)
    | .stray _ :: _ => (.broken .noValue .noValue, none)
    | .char c :: rest =>
      if c = '"' then
        let (q, rest) := readString rest
        (.string q, rest)
      else if c = '[' then
        match skipSpace rest with
        | [] => (.list [] .ended, none)
        | r :: more =>
          if r = .char ']' then (.list [] .closed, some more)
          else
            let (items, close, rest) := readItems fuel (r :: more)
            (.list items close, rest)
      else if c = '\x7b' then
        match skipSpace rest with
        | [] => (.object [] .ended, none)
        | r :: more =>
          if r = .char '\x7d' then (.object [] .closed, some more)
          else if r = .char '"' then
            let (members, close, rest) := readMembers fuel more
            (.object members close, rest)
          else (.object [] (.keyless (readValue fuel (r :: more)).1.found), none)
      else if c = 'n' then readWord .null "ull".toList rest
      else if c = 't' then readWord (.boolean true) "rue".toList rest
      else if c = 'f' then readWord (.boolean false) "alse".toList rest
      else if c = '-' then readNumber true rest
      else if isDigit c then readNumber false (.char c :: rest)
      else (.broken .noValue .noValue, none)

def readItems : Nat → List Rune → List Tree × Close × Option (List Rune)
  | 0, _ => ([], .ended, none)
  | fuel + 1, text =>
    match readValue fuel text with
    | (item, none) => ([item], .ended, none)
    | (item, some rest) =>
      match skipSpace rest with
      | [] => ([item], .ended, none)
      | r :: more =>
        if r = .char ']' then ([item], .closed, some more)
        else if r = .char ',' then
          match skipSpace more with
          | [] => ([item], .commaEnded, none)
          | s :: after =>
            if s = .char ']' then ([item], .commaClosed, none)
            else
              let (items, close, rest) := readItems fuel (s :: after)
              (item :: items, close, rest)
        else ([item], .noSeparator, none)

def readMembers : Nat → List Rune → List (Quoted × Tree) × Close × Option (List Rune)
  | 0, _ => ([], .ended, none)
  | fuel + 1, text =>
    match readString text with
    | (key, none) => ([(key, .broken .endInString .endInString)], .ended, none)
    | (key, some rest) =>
      match skipSpace rest with
      | [] => ([(key, .broken .endInObject .endInObject)], .ended, none)
      | r :: more =>
        if r = .char ':' then
          match readValue fuel more with
          | (value, none) => ([(key, value)], .ended, none)
          | (value, some rest) =>
            match skipSpace rest with
            | [] => ([(key, value)], .ended, none)
            | r :: more =>
              if r = .char '\x7d' then ([(key, value)], .closed, some more)
              else if r = .char ',' then
                match skipSpace more with
                | [] => ([(key, value)], .commaEnded, none)
                | s :: after =>
                  if s = .char '"' then
                    let (members, close, rest) := readMembers fuel after
                    ((key, value) :: members, close, rest)
                  else if s = .char '\x7d' then ([(key, value)], .commaClosed, none)
                  else ([(key, value)], .commaOther, none)
              else ([(key, value)], .noSeparator, none)
        else ([(key, .broken .noColon .noColon)], .ended, none)

end

structure Document where
  tree : Tree
  trailing : Bool

def Document.ofRunes (text : List Rune) : Document :=
  match readValue (2 * text.length + 2) text with
  | (tree, none) => ⟨tree, false⟩
  | (tree, some rest) => ⟨tree, !(skipSpace rest).isEmpty⟩

/-- Read a whole text as a value: faults of the value come before what follows it. -/
def readRunes {α : Type} (decode : Tree → Except Cause α) (text : List Rune) : Except Cause α := do
  let document := Document.ofRunes text
  let value ← decode document.tree
  if document.trailing then .error .trailingCharacters else pure value

def readText {α : Type} (decode : Tree → Except Cause α) (text : String) : Except Cause α :=
  readRunes decode (runes text)

end StorageControl.Json
