/-! JSON documents as the program writes them, and their two printed forms.

Numbers are the natural numbers of sizes and counts. Members keep the order in which
they were given. The compact form has no blanks; the indented form puts every item and
member on a line of its own, two spaces deeper than what holds it.
-/

set_option autoImplicit false

namespace StorageControl.Json

inductive Value where
  | null
  | boolean (b : Bool)
  | number (n : Nat)
  | string (text : String)
  | list (items : List Value)
  | object (members : List (String × Value))
  deriving Repr, Inhabited, BEq

def Value.texts (items : List String) : Value := .list (items.map .string)

def Value.optional {α : Type} (write : α → Value) : Option α → Value
  | none => .null
  | some a => write a

def Value.member? : Value → String → Option Value
  | .object members, name => (members.find? (·.1 == name)).map (·.2)
  | _, _ => none

def numberText (n : Nat) : List Char := Nat.toDigits 10 n

def controlDigits (n : Nat) : List Char :=
  [(Nat.digitChar (n / 16)), (Nat.digitChar (n % 16))]

/-- One character inside a JSON string: the quote, the backslash and the controls are
escaped, all else stands for itself. -/
def escapeChar (c : Char) : List Char :=
  if c = '"' then ['\\', '"']
  else if c = '\\' then ['\\', '\\']
  else if c = '\n' then ['\\', 'n']
  else if c = '\r' then ['\\', 'r']
  else if c = '\t' then ['\\', 't']
  else if c.toNat = 0x08 then ['\\', 'b']
  else if c.toNat = 0x0C then ['\\', 'f']
  else if c.toNat < 0x20 then ['\\', 'u', '0', '0'] ++ controlDigits c.toNat
  else [c]

def stringText (text : String) : List Char :=
  '"' :: (text.toList.flatMap escapeChar ++ ['"'])

mutual

def Value.compact : Value → List Char
  | .null => "null".toList
  | .boolean true => "true".toList
  | .boolean false => "false".toList
  | .number n => numberText n
  | .string text => stringText text
  | .list [] => ['[', ']']
  | .list (item :: rest) => '[' :: (item.compact ++ compactItems rest)
  | .object [] => ['\x7b', '\x7d']
  | .object ((name, value) :: rest) =>
    '\x7b' :: (stringText name ++ ':' :: (value.compact ++ compactMembers rest))

/-- The items after the first, and the end of the list. -/
def compactItems : List Value → List Char
  | [] => [']']
  | item :: rest => ',' :: (item.compact ++ compactItems rest)

def compactMembers : List (String × Value) → List Char
  | [] => ['\x7d']
  | (name, value) :: rest =>
    ',' :: (stringText name ++ ':' :: (value.compact ++ compactMembers rest))

end

def newLine (depth : Nat) : List Char := '\n' :: List.replicate (2 * depth) ' '

mutual

/-- The indented form, inside `depth` lists and objects. -/
def Value.indented (depth : Nat) : Value → List Char
  | .null => "null".toList
  | .boolean true => "true".toList
  | .boolean false => "false".toList
  | .number n => numberText n
  | .string text => stringText text
  | .list [] => ['[', ']']
  | .list (item :: rest) =>
    '[' :: (newLine (depth + 1) ++ (item.indented (depth + 1) ++ indentedItems depth rest))
  | .object [] => ['\x7b', '\x7d']
  | .object ((name, value) :: rest) =>
    '\x7b' :: (newLine (depth + 1) ++ (stringText name ++ ':' :: ' ' ::
      (value.indented (depth + 1) ++ indentedMembers depth rest)))

def indentedItems (depth : Nat) : List Value → List Char
  | [] => newLine depth ++ [']']
  | item :: rest =>
    ',' :: (newLine (depth + 1) ++ (item.indented (depth + 1) ++ indentedItems depth rest))

def indentedMembers (depth : Nat) : List (String × Value) → List Char
  | [] => newLine depth ++ ['\x7d']
  | (name, value) :: rest =>
    ',' :: (newLine (depth + 1) ++ (stringText name ++ ':' :: ' ' ::
      (value.indented (depth + 1) ++ indentedMembers depth rest)))

end

def Value.text (v : Value) : String := String.ofList v.compact

def Value.pretty (v : Value) : String := String.ofList (v.indented 0)

end StorageControl.Json
