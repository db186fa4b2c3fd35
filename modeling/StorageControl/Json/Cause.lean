import StorageControl.Json.Numeral
import StorageControl.Text.Quoted

/-! Why a JSON text cannot be read as a value.

A cause is either a flaw of the text itself or a value of the wrong kind or size. The
wording of every cause is in `Cause.message`.
-/

set_option autoImplicit false

namespace StorageControl.Json

inductive Found where
  | null
  | boolean (b : Bool)
  | quantity (q : Quantity)
  | string (text : String)
  | list
  | object
  | unitVariant
  deriving DecidableEq, Repr

inductive Cause where
  | endInValue
  | endInList
  | endInObject
  | endInString
  | noValue
  | noWord
  | noColon
  | noListSeparator
  | noObjectSeparator
  | noKey
  | trailingComma
  | trailingCharacters
  | badNumber
  | numberTooLarge
  | badEscape
  | loneSurrogate
  | unfinishedSurrogate
  | controlCharacter
  | badOctets
  | mismatch (found : Found) (wanted : String)
  | outOfRange (value : Int) (wanted : String)
  | missingField (name : String)
  | repeatedField (name : String)
  | unknownVariant (name : String) (known : List String)
  | wrongLength (length : Nat) (wanted : String)
  | refused (message : String)
  deriving DecidableEq, Repr

def ticked (text : String) : String :=
  let tick := String.singleton (Char.ofNat 0x60)
  tick ++ text ++ tick

def Quantity.describe : Quantity → String
  | .natural n => "integer " ++ ticked (toString n)
  | .below n => "integer " ++ ticked (toString n)
  | .double bits => "floating point " ++ ticked (Decimal.writeBits .json bits)

def Found.describe : Found → String
  | .null => "null"
  | .boolean b => "boolean " ++ ticked (if b then "true" else "false")
  | .quantity q => q.describe
  | .string text => "string " ++ Text.quote text
  | .list => "sequence"
  | .object => "map"
  | .unitVariant => "unit variant"

/-- The names that were expected: none, one, a pair, or a list of them. -/
def expectation : List String → String
  | [] => "there are no variants"
  | [a] => "expected " ++ ticked a
  | [a, b] => "expected " ++ ticked a ++ " or " ++ ticked b
  | names => "expected one of " ++ ", ".intercalate (names.map ticked)

def Cause.message : Cause → String
  | .endInValue => "EOF while parsing a value"
  | .endInList => "EOF while parsing a list"
  | .endInObject => "EOF while parsing an object"
  | .endInString => "EOF while parsing a string"
  | .noValue => "expected value"
  | .noWord => "expected ident"
  | .noColon => "expected " ++ ticked ":"
  | .noListSeparator => "expected " ++ ticked "," ++ " or " ++ ticked "]"
  | .noObjectSeparator => "expected " ++ ticked "," ++ " or " ++ ticked "\x7d"
  | .noKey => "key must be a string"
  | .trailingComma => "trailing comma"
  | .trailingCharacters => "trailing characters"
  | .badNumber => "invalid number"
  | .numberTooLarge => "number out of range"
  | .badEscape => "invalid escape"
  | .loneSurrogate => "lone leading surrogate in hex escape"
  | .unfinishedSurrogate => "unexpected end of hex escape"
  | .controlCharacter => "control character (\\u0000-\\u001F) found while parsing a string"
  | .badOctets => "invalid unicode code point"
  | .mismatch found wanted => "invalid type: " ++ found.describe ++ ", expected " ++ wanted
  | .outOfRange value wanted =>
    "invalid value: integer " ++ ticked (toString value) ++ ", expected " ++ wanted
  | .missingField name => "missing field " ++ ticked name
  | .repeatedField name => "duplicate field " ++ ticked name
  | .unknownVariant name known => "unknown variant " ++ ticked name ++ ", " ++ expectation known
  | .wrongLength length wanted =>
    "invalid length " ++ toString length ++ ", expected " ++ wanted
  | .refused message => message

end StorageControl.Json
