/-! Blank characters and trimming.

A character is blank when it has the Unicode property White_Space. Trimming takes
every blank off both ends of a text and leaves the rest alone.
-/

set_option autoImplicit false

namespace StorageControl.Text

/-- The Unicode property White_Space. -/
def isBlank (c : Char) : Bool :=
  let n := c.toNat
  (0x09 ≤ n && n ≤ 0x0D) || n == 0x20 || n == 0x85 || n == 0xA0 || n == 0x1680 ||
    (0x2000 ≤ n && n ≤ 0x200A) || n == 0x2028 || n == 0x2029 || n == 0x202F ||
    n == 0x205F || n == 0x3000

def trimStart (text : List Char) : List Char := text.dropWhile isBlank

def trimEnd (text : List Char) : List Char := (text.reverse.dropWhile isBlank).reverse

def trim (text : String) : String := String.ofList (trimEnd (trimStart text.toList))

def trimEndOf (suffix : Char) (text : String) : String :=
  String.ofList (text.toList.reverse.dropWhile (· == suffix)).reverse

/-- The texts between the occurrences of a separator; the text itself when there is none. -/
def splitAtChar (separator : Char) : List Char → List (List Char)
  | [] => [[]]
  | c :: rest =>
    if c = separator then [] :: splitAtChar separator rest
    else match splitAtChar separator rest with
      | [] => [[c]]
      | first :: others => (c :: first) :: others

theorem splitAtChar_ne_nil (separator : Char) (text : List Char) :
    splitAtChar separator text ≠ [] := by
  cases text with
  | nil => simp [splitAtChar]
  | cons c rest =>
    unfold splitAtChar
    split
    · simp
    · split <;> simp

def dropLead : List Char → List Char → Option (List Char)
  | [], text => some text
  | _ :: _, [] => none
  | l :: lead, c :: text => if l = c then dropLead lead text else none

theorem dropLead_append (lead text : List Char) : dropLead lead (lead ++ text) = some text := by
  induction lead with
  | nil => rfl
  | cons l lead ih => simp [dropLead, ih]

end StorageControl.Text
