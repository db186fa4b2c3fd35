import StorageControl.Json.Reader
import StorageControl.Json.Value

/-! Documents, read back.

The printed forms of a document read as one tree without flaws, with nothing behind it.
They differ in their blanks only, so that one proof about any layout is for both. Every
value is read up to where it ends, which is told by the comma, the bracket or the blank
that follows it; the reader's fuel is twice the length of what is left to be read.
-/

set_option autoImplicit false

namespace StorageControl.Json

open StorageControl.Text (Rune runes)

def Quoted.ofText (text : String) : Quoted := ⟨.ok text, none⟩

mutual

/-- The tree of a document that is whole. -/
def Value.tree : Value → Tree
  | .null => .null
  | .boolean b => .boolean b
  | .number n => .number ⟨false, numberText n, [], none⟩
  | .string text => .string (.ofText text)
  | .list items => .list (itemTrees items) .closed
  | .object members => .object (memberTrees members) .closed

def itemTrees : List Value → List Tree
  | [] => []
  | item :: rest => item.tree :: itemTrees rest

def memberTrees : List (String × Value) → List (Quoted × Tree)
  | [] => []
  | (name, value) :: rest => (.ofText name, value.tree) :: memberTrees rest

end

/-! ### Layouts -/

/-- The blanks of a printed document: those before items, members and closing brackets at
a depth, and those behind colons. -/
structure Layout where
  line : Nat → List Char
  gap : List Char
  line_blank : ∀ depth, ∀ c ∈ line depth, isSpace c = true
  gap_blank : ∀ c ∈ gap, isSpace c = true

namespace Layout

def tight : Layout := ⟨fun _ => [], [], by simp, by simp⟩

def lined : Layout where
  line := newLine
  gap := [' ']
  line_blank depth := by
    intro c member
    rcases List.mem_cons.mp member with rfl | indent
    · rfl
    · rw [List.eq_of_mem_replicate indent]
      rfl
  gap_blank := by simp [isSpace]

@[simp]
theorem tight_line (depth : Nat) : tight.line depth = [] := rfl

@[simp]
theorem tight_gap : tight.gap = [] := rfl

@[simp]
theorem lined_line (depth : Nat) : lined.line depth = newLine depth := rfl

@[simp]
theorem lined_gap : lined.gap = [' '] := rfl

end Layout

mutual

/-- A document in a layout, inside `depth` lists and objects. -/
def Value.laid (l : Layout) (depth : Nat) : Value → List Char
  | .null => "null".toList
  | .boolean true => "true".toList
  | .boolean false => "false".toList
  | .number n => numberText n
  | .string text => stringText text
  | .list [] => ['[', ']']
  | .list (item :: rest) =>
    '[' :: (l.line (depth + 1) ++ (item.laid l (depth + 1) ++ laidItems l depth rest))
  | .object [] => ['\x7b', '\x7d']
  | .object ((name, value) :: rest) =>
    '\x7b' :: (l.line (depth + 1) ++ (stringText name ++ ':' :: (l.gap ++
      (value.laid l (depth + 1) ++ laidMembers l depth rest))))

def laidItems (l : Layout) (depth : Nat) : List Value → List Char
  | [] => l.line depth ++ [']']
  | item :: rest =>
    ',' :: (l.line (depth + 1) ++ (item.laid l (depth + 1) ++ laidItems l depth rest))

def laidMembers (l : Layout) (depth : Nat) : List (String × Value) → List Char
  | [] => l.line depth ++ ['\x7d']
  | (name, value) :: rest =>
    ',' :: (l.line (depth + 1) ++ (stringText name ++ ':' :: (l.gap ++
      (value.laid l (depth + 1) ++ laidMembers l depth rest))))

end

mutual

theorem laid_tight (depth : Nat) : ∀ v : Value, v.laid .tight depth = v.compact
  | .null | .boolean true | .boolean false | .number _ | .string _ | .list [] | .object [] => by
    simp only [Value.laid, Value.compact]
  | .list (item :: rest) => by
    simp [Value.laid, Value.compact, laid_tight (depth + 1) item, laidItems_tight depth rest]
  | .object ((name, value) :: rest) => by
    simp [Value.laid, Value.compact, laid_tight (depth + 1) value, laidMembers_tight depth rest]

theorem laidItems_tight (depth : Nat) :
    ∀ items : List Value, laidItems .tight depth items = compactItems items
  | [] => rfl
  | item :: rest => by
    simp [laidItems, compactItems, laid_tight (depth + 1) item, laidItems_tight depth rest]

theorem laidMembers_tight (depth : Nat) :
    ∀ members : List (String × Value), laidMembers .tight depth members = compactMembers members
  | [] => rfl
  | (name, value) :: rest => by
    simp [laidMembers, compactMembers, laid_tight (depth + 1) value, laidMembers_tight depth rest]

end

mutual

theorem laid_lined (depth : Nat) : ∀ v : Value, v.laid .lined depth = v.indented depth
  | .null | .boolean true | .boolean false | .number _ | .string _ | .list [] | .object [] => by
    simp only [Value.laid, Value.indented]
  | .list (item :: rest) => by
    simp [Value.laid, Value.indented, laid_lined (depth + 1) item, laidItems_lined depth rest]
  | .object ((name, value) :: rest) => by
    simp [Value.laid, Value.indented, laid_lined (depth + 1) value, laidMembers_lined depth rest]

theorem laidItems_lined (depth : Nat) :
    ∀ items : List Value, laidItems .lined depth items = indentedItems depth items
  | [] => rfl
  | item :: rest => by
    simp [laidItems, indentedItems, laid_lined (depth + 1) item, laidItems_lined depth rest]

theorem laidMembers_lined (depth : Nat) : ∀ members : List (String × Value),
    laidMembers .lined depth members = indentedMembers depth members
  | [] => rfl
  | (name, value) :: rest => by
    simp [laidMembers, indentedMembers, laid_lined (depth + 1) value, laidMembers_lined depth rest]

end

/-! ### Strings -/

theorem hexValue?_digitChar : ∀ n < 16, hexValue? (Nat.digitChar n) = some n := by decide

theorem pieces_control {n : Nat} (control : n < 0x20) (text : List Rune) :
    pieces .escape (.char 'u' :: .char '0' :: .char '0' ::
        ((controlDigits n).map .char ++ text)) =
      (.unit n :: (pieces .between text).1, (pieces .between text).2) := by
  have zero : hexValue? '0' = some 0 := by decide
  have high := hexValue?_digitChar (n / 16) (by omega)
  have low := hexValue?_digitChar (n % 16) (by omega)
  simp only [controlDigits, List.map_cons, List.map_nil, List.cons_append, List.nil_append,
    pieces, if_true, zero, high, low]
  simp only [show (0 : Nat) < 3 by decide, show 0 + 1 < 3 by decide, show 0 + 1 + 1 < 3 by decide,
    show ¬0 + 1 + 1 + 1 < 3 by decide, if_true, if_false]
  rw [show ((0 * 16 + 0) * 16 + 0) * 16 + n / 16 = n / 16 by omega, Nat.div_add_mod']

/-- One character inside a string is read as itself, or as a number if it is a control. -/
theorem pieces_escapeChar (c : Char) (text : List Rune) :
    ∃ p, pieces .between ((escapeChar c).map .char ++ text) =
        (p :: (pieces .between text).1, (pieces .between text).2) ∧
      (p = .char c ∨ p = .unit c.toNat ∧ c.toNat < 0x20) := by
  unfold escapeChar
  split
  next quote => exact ⟨.char c, by subst quote; rfl, .inl rfl⟩
  split
  next backslash => exact ⟨.char c, by subst backslash; rfl, .inl rfl⟩
  split
  next line => exact ⟨.char c, by subst line; rfl, .inl rfl⟩
  split
  next carriage => exact ⟨.char c, by subst carriage; rfl, .inl rfl⟩
  split
  next tab => exact ⟨.char c, by subst tab; rfl, .inl rfl⟩
  split
  next back =>
    have same : c = Char.ofNat 0x08 := by rw [← back, Char.ofNat_toNat]
    exact ⟨.char c, by subst same; rfl, .inl rfl⟩
  split
  next form =>
    have same : c = Char.ofNat 0x0C := by rw [← form, Char.ofNat_toNat]
    exact ⟨.char c, by subst same; rfl, .inl rfl⟩
  split
  next control => exact ⟨.unit c.toNat, pieces_control control text, .inr ⟨rfl, control⟩⟩
  next noQuote noBackslash _ _ _ _ _ plain =>
    refine ⟨.char c, ?_, .inl rfl⟩
    simp only [List.map_cons, List.map_nil, List.cons_append, List.nil_append, pieces,
      if_neg noQuote, if_neg noBackslash, if_neg plain]

theorem joinPieces_char (c : Char) (rest : List Piece) :
    joinPieces none none (.char c :: rest) =
      (do pure (.char c :: (← joinPieces none none rest))) := rfl

theorem joinPieces_control {n : Nat} (control : n < 0x20) (rest : List Piece) :
    joinPieces none none (.unit n :: rest) =
      (do pure (.char (Char.ofNat n) :: (← joinPieces none none rest))) := by
  -- A control character is no half of a pair.
  have high : isHighSurrogate n = false := by
    simp only [isHighSurrogate, Bool.and_eq_false_iff, decide_eq_false_iff_not]
    omega
  have low : isLowSurrogate n = false := by
    simp only [isLowSurrogate, Bool.and_eq_false_iff, decide_eq_false_iff_not]
    omega
  simp only [joinPieces, high, low, Bool.false_eq_true, if_false]

theorem pieces_escaped (text : List Char) (rest : List Rune) :
    ∃ written, pieces .between ((text.flatMap escapeChar).map .char ++ .char '"' :: rest) =
        (written, .ok rest) ∧
      joinPieces none none written = .ok (text.map .char) := by
  induction text with
  | nil => exact ⟨[], rfl, rfl⟩
  | cons c text ih =>
    obtain ⟨written, read, joined⟩ := ih
    rw [List.flatMap_cons, List.map_append, List.append_assoc]
    obtain ⟨p, first, piece⟩ :=
      pieces_escapeChar c ((text.flatMap escapeChar).map .char ++ .char '"' :: rest)
    rw [read] at first
    refine ⟨p :: written, first, ?_⟩
    -- A character that was written as a number is joined to itself again.
    rcases piece with rfl | ⟨rfl, control⟩
    · rw [joinPieces_char, joined]
      rfl
    · rw [joinPieces_control control, joined, Char.ofNat_toNat]
      rfl

theorem plainText_chars (text : List Char) : plainText (text.map .char) = .ok text := by
  induction text with
  | nil => rfl
  | cons c text ih =>
    rw [List.map_cons, plainText, ih]
    rfl

/-- A string is read up to its closing quote. -/
theorem readString_escaped (text : String) (rest : List Rune) :
    readString ((text.toList.flatMap escapeChar).map .char ++ .char '"' :: rest) =
      (.ofText text, some rest) := by
  obtain ⟨written, read, joined⟩ := pieces_escaped text.toList rest
  have meant : quotedText written none = .ok text := by
    rw [quotedText, joined]
    show (plainText (text.toList.map .char) >>= fun t => pure (String.ofList t)) = _
    rw [plainText_chars]
    exact congrArg Except.ok (String.ofList_toList)
  rw [readString, read]
  simp only [meant]
  rfl

/-! ### What follows a value -/

/-- The characters that may follow a value. -/
def marks : List Char := [',', ']', '\x7d', ' ', '\t', '\n', '\r']

/-- Whether a text goes on the way it does behind a value. -/
def Ends (text : List Rune) : Prop := ∀ r ∈ text.head?, ∃ c ∈ marks, r = .char c

theorem ends_nil : Ends [] := nofun

theorem ends_cons {c : Char} (mark : c ∈ marks) (rest : List Rune) : Ends (.char c :: rest) := by
  intro r head
  cases head
  exact ⟨c, mark, rfl⟩

theorem isSpace_iff {c : Char} : isSpace c = true ↔ c = ' ' ∨ c = '\t' ∨ c = '\n' ∨ c = '\r' := by
  simp [isSpace, or_assoc]

theorem mem_marks_of_isSpace {c : Char} (space : isSpace c = true) : c ∈ marks := by
  rcases isSpace_iff.mp space with rfl | rfl | rfl | rfl <;> decide

section Blanks

variable {blanks : List Char} (all : ∀ c ∈ blanks, isSpace c = true) (rest : List Rune)
include all

theorem skipSpace_blanks : skipSpace (blanks.map .char ++ rest) = skipSpace rest := by
  induction blanks with
  | nil => rfl
  | cons c blanks ih =>
    obtain ⟨here, later⟩ := List.forall_mem_cons.mp all
    rw [List.map_cons, List.cons_append, skipSpace, if_pos here, ih later]

theorem ends_blanks (ends : Ends rest) : Ends (blanks.map .char ++ rest) := by
  cases blanks with
  | nil => exact ends
  | cons c blanks => exact ends_cons (mem_marks_of_isSpace (all c List.mem_cons_self)) _

end Blanks

/-! ### Numbers -/

theorem numberText_digits (n : Nat) : ∀ c ∈ numberText n, isDigit c = true := by
  intro c member
  have digit : c.isDigit = true := Nat.isDigit_of_mem_toDigits (by decide) (by decide) member
  exact digit

theorem head?_numberText {n : Nat} (zero : (numberText n).head? = some '0') : n = 0 := by
  -- The first digit stays the first when the last one is taken away.
  induction n using Nat.strongRecOn with
  | ind n ih =>
    rcases Nat.lt_or_ge n 10 with small | large
    · have digit : ∀ n < 10, Nat.digitChar n = '0' → n = 0 := by decide
      rw [numberText, Nat.toDigits_of_lt_base small] at zero
      exact digit n small (Option.some.inj zero)
    · have front : (numberText (n / 10)).head? = some '0' := by
        rw [numberText, Nat.toDigits_of_base_le (by decide) large] at zero
        cases digits : numberText (n / 10) with
        | nil => exact absurd digits Nat.toDigits_ne_nil
        | cons first more =>
          rw [numberText] at digits
          rw [digits] at zero
          exact zero
      have none := ih (n / 10) (by omega) front
      omega

theorem takeDigits_append {digits : List Char} (all : ∀ c ∈ digits, isDigit c = true)
    {rest : List Rune} (ends : Ends rest) :
    takeDigits (digits.map .char ++ rest) = (digits, rest) := by
  induction digits with
  | nil =>
    cases rest with
    | nil => rfl
    | cons r rest =>
      obtain ⟨c, mark, rfl⟩ := ends r rfl
      have other : ∀ c ∈ marks, isDigit c = false := by simp [marks, isDigit]
      rw [List.map_nil, List.nil_append, takeDigits, if_neg (Bool.eq_false_iff.mp (other c mark))]
  | cons c digits ih =>
    obtain ⟨here, later⟩ := List.forall_mem_cons.mp all
    rw [List.map_cons, List.cons_append, takeDigits, if_pos here, ih later]

theorem readFraction_of_ends {rest : List Rune} (ends : Ends rest) (digits : List Char) :
    readFraction false digits rest = (.number ⟨false, digits, [], none⟩, some rest) := by
  cases rest with
  | nil => rfl
  | cons r rest =>
    obtain ⟨c, mark, rfl⟩ := ends r rfl
    have other : ∀ c ∈ marks, c ≠ '.' ∧ ¬(c = 'e' ∨ c = 'E') := by simp [marks]
    obtain ⟨point, exponent⟩ := other c mark
    simp only [readFraction, if_neg point, readExponent, if_neg exponent]

theorem readNumber_numberText (n : Nat) {rest : List Rune} (ends : Ends rest) :
    readNumber false ((numberText n).map .char ++ rest) =
      (.number ⟨false, numberText n, [], none⟩, some rest) := by
  rw [readNumber, takeDigits_append (numberText_digits n) ends]
  have alone : ¬((numberText n).head? = some '0' ∧ 1 < (numberText n).length) := by
    rintro ⟨zero, long⟩
    rw [head?_numberText zero] at long
    exact absurd long (by decide)
  cases written : numberText n with
  | nil => exact absurd written Nat.toDigits_ne_nil
  | cons first more =>
    rw [written] at alone
    simp only [if_neg alone]
    exact readFraction_of_ends ends _

/-! ### Values -/

section Values

variable {l : Layout}

/-- A value begins with a character that is no blank and no closing bracket. -/
theorem laid_head (l : Layout) (depth : Nat) (v : Value) :
    ∃ c rest, v.laid l depth = c :: rest ∧ isSpace c = false ∧ c ≠ ']' := by
  cases v with
  | null => exact ⟨_, _, rfl, rfl, by decide⟩
  | boolean b => cases b <;> exact ⟨_, _, rfl, rfl, by decide⟩
  | number n =>
    have digits := numberText_digits n
    cases written : numberText n with
    | nil => exact absurd written Nat.toDigits_ne_nil
    | cons c rest =>
      rw [written] at digits
      have digit := digits c List.mem_cons_self
      refine ⟨c, rest, by rw [Value.laid, written], ?_, ?_⟩
      · refine Bool.eq_false_iff.mpr fun space => ?_
        rcases isSpace_iff.mp space with rfl | rfl | rfl | rfl <;> cases digit
      · rintro rfl
        cases digit
  | string text => exact ⟨_, _, rfl, rfl, by decide⟩
  | list items => cases items <;> exact ⟨_, _, rfl, rfl, by decide⟩
  | object members =>
    cases members with
    | nil => exact ⟨_, _, rfl, rfl, by decide⟩
    | cons member rest => exact ⟨_, _, rfl, rfl, by decide⟩

theorem laid_length_pos (l : Layout) (depth : Nat) (v : Value) : 0 < (v.laid l depth).length := by
  obtain ⟨c, rest, written, -⟩ := laid_head l depth v
  rw [written]
  exact Nat.succ_pos _

theorem skipSpace_of_plain {c : Char} (plain : isSpace c = false) (rest : List Rune) :
    skipSpace (.char c :: rest) = .char c :: rest := by
  rw [skipSpace, if_neg (Bool.eq_false_iff.mp plain)]

/-- Blanks in front of a value are passed over. -/
theorem readValue_blanks {blanks : List Char} (all : ∀ c ∈ blanks, isSpace c = true) (fuel : Nat)
    (text : List Rune) : readValue fuel (blanks.map .char ++ text) = readValue fuel text := by
  cases fuel with
  | zero => simp only [readValue]
  | succ fuel => simp only [readValue, skipSpace_blanks all]

theorem exists_less {fuel length : Nat} (enough : 2 * length ≤ fuel) (some : 0 < length) :
    ∃ less, fuel = less + 1 :=
  ⟨fuel - 1, by omega⟩

/-- Whether a value is read up to where it ends. -/
def Value.IsRead (l : Layout) (v : Value) : Prop :=
  ∀ depth fuel rest, 2 * (v.laid l depth).length ≤ fuel → Ends rest →
    readValue fuel ((v.laid l depth).map .char ++ rest) = (v.tree, some rest)

theorem isRead_number (n : Nat) : (Value.number n).IsRead l := by
  intro depth fuel rest enough ends
  have digits := numberText_digits n
  have read := readNumber_numberText n ends
  obtain ⟨c, more, written, plain, -⟩ := laid_head l depth (.number n)
  rw [Value.laid] at enough written ⊢
  rw [written] at digits read enough ⊢
  have digit := digits c List.mem_cons_self
  obtain ⟨fuel, rfl⟩ := exists_less enough (by simp)
  rw [List.map_cons, List.cons_append] at read ⊢
  -- A digit is none of the marks that other values begin with.
  have other (mark : Char) (noDigit : isDigit mark = false) : c ≠ mark := by
    rintro rfl
    rw [digit] at noDigit
    cases noDigit
  simp only [readValue, skipSpace_of_plain plain, if_neg (other '"' rfl),
    if_neg (other '[' rfl), if_neg (other '\x7b' rfl),
    if_neg (other 'n' rfl), if_neg (other 't' rfl),
    if_neg (other 'f' rfl), if_neg (other '-' rfl), if_pos digit, read]
  rw [Value.tree, written]

theorem isRead_string (text : String) : (Value.string text).IsRead l := by
  intro depth fuel rest enough ends
  obtain ⟨fuel, rfl⟩ := exists_less enough (laid_length_pos l depth _)
  have read := readString_escaped text rest
  simp only [Value.laid, stringText, List.map_cons, List.map_append, List.map_nil,
    List.cons_append, List.append_assoc, List.nil_append, readValue,
    skipSpace_of_plain (show isSpace '"' = false by decide), if_true, read]
  rfl

/-- Items are read up to the bracket that closes their list. -/
theorem readItems_laid {depth : Nat} {item : Value} {items : List Value}
    (reads : ∀ v ∈ item :: items, v.IsRead l) {fuel : Nat}
    (enough : 2 * ((item.laid l (depth + 1)).length + (laidItems l depth items).length) ≤ fuel)
    (rest : List Rune) :
    readItems fuel ((item.laid l (depth + 1)).map .char ++
        ((laidItems l depth items).map .char ++ rest)) =
      (item.tree :: itemTrees items, .closed, some rest) := by
  -- On the items behind the first; the mark behind an item pays for its step.
  induction items generalizing item fuel with
  | nil =>
    obtain ⟨fuel, rfl⟩ := exists_less enough (Nat.add_pos_left (laid_length_pos l _ _) _)
    have bound : 2 * (item.laid l (depth + 1)).length ≤ fuel := by
      simp only [laidItems, List.length_append, List.length_singleton] at enough
      omega
    have blank := l.line_blank depth
    have read := reads item List.mem_cons_self (depth + 1) fuel _ bound
      (ends_blanks blank _ (ends_cons (c := ']') (by decide) rest))
    simp only [laidItems, List.map_append, List.map_cons, List.map_nil, List.cons_append,
      List.nil_append, List.append_assoc, readItems, read, skipSpace_blanks blank,
      skipSpace_of_plain (show isSpace ']' = false by decide), if_true]
    rfl
  | cons next items ih =>
    obtain ⟨here, later⟩ := List.forall_mem_cons.mp reads
    obtain ⟨fuel, rfl⟩ := exists_less enough (Nat.add_pos_left (laid_length_pos l _ _) _)
    have bound : 2 * ((next.laid l (depth + 1)).length + (laidItems l depth items).length) ≤ fuel ∧
        2 * (item.laid l (depth + 1)).length ≤ fuel := by
      simp only [laidItems, List.length_cons, List.length_append] at enough
      omega
    have read := here (depth + 1) fuel _ bound.2 (ends_cons (c := ',') (by decide)
      ((l.line (depth + 1)).map .char ++ ((next.laid l (depth + 1)).map .char ++
        ((laidItems l depth items).map .char ++ rest))))
    have others := ih later bound.1
    obtain ⟨c, more, written, plain, unclosed⟩ := laid_head l (depth + 1) next
    rw [written, List.map_cons, List.cons_append] at read others
    have comma : (Rune.char ',' = .char ']') = False := by simp
    simp only [laidItems, List.map_cons, List.map_append, List.cons_append, List.append_assoc,
      readItems, written, read, skipSpace_of_plain (show isSpace ',' = false by decide),
      skipSpace_blanks (l.line_blank (depth + 1)), skipSpace_of_plain plain, comma, if_false,
      if_true, Rune.char.injEq, if_neg unclosed, others]
    rfl

/-- Members are read up to the bracket that closes their object. -/
theorem readMembers_laid {depth : Nat} {name : String} {v : Value}
    {members : List (String × Value)} (reads : ∀ member ∈ (name, v) :: members, member.2.IsRead l)
    {fuel : Nat}
    (enough : 2 * ((v.laid l (depth + 1)).length + (laidMembers l depth members).length) ≤ fuel)
    (rest : List Rune) :
    readMembers fuel ((name.toList.flatMap escapeChar).map .char ++ .char '"' :: .char ':' ::
        (l.gap.map .char ++ ((v.laid l (depth + 1)).map .char ++
          ((laidMembers l depth members).map .char ++ rest)))) =
      ((.ofText name, v.tree) :: memberTrees members, .closed, some rest) := by
  induction members generalizing name v fuel with
  | nil =>
    obtain ⟨fuel, rfl⟩ := exists_less enough (Nat.add_pos_left (laid_length_pos l _ _) _)
    have here : v.IsRead l := reads (name, v) List.mem_cons_self
    have bound : 2 * (v.laid l (depth + 1)).length ≤ fuel := by
      simp only [laidMembers, List.length_append, List.length_singleton] at enough
      omega
    have blank := l.line_blank depth
    have read := here (depth + 1) fuel _ bound
      (ends_blanks blank _ (ends_cons (c := '\x7d') (by decide) rest))
    simp only [laidMembers, List.map_append, List.map_cons, List.map_nil, List.cons_append,
      List.nil_append, List.append_assoc, readMembers, readString_escaped, read,
      readValue_blanks l.gap_blank, skipSpace_blanks blank,
      skipSpace_of_plain (show isSpace ':' = false by decide),
      skipSpace_of_plain (show isSpace '\x7d' = false by decide), if_true]
    rfl
  | cons next members ih =>
    obtain ⟨nextName, w⟩ := next
    obtain ⟨_, later⟩ := List.forall_mem_cons.mp reads
    have here : v.IsRead l := reads (name, v) List.mem_cons_self
    obtain ⟨fuel, rfl⟩ := exists_less enough (Nat.add_pos_left (laid_length_pos l _ _) _)
    have bound : 2 * ((w.laid l (depth + 1)).length + (laidMembers l depth members).length) ≤ fuel ∧
        2 * (v.laid l (depth + 1)).length ≤ fuel := by
      simp only [laidMembers, List.length_cons, List.length_append] at enough
      omega
    have read := fun rest => here (depth + 1) fuel _ bound.2 (ends_cons (c := ',') (by decide) rest)
    have others := ih later bound.1
    have comma : (Rune.char ',' = .char '\x7d') = False := by simp
    simp only [laidMembers, stringText, List.map_cons, List.map_append, List.cons_append,
      List.nil_append, List.append_assoc, readMembers, readString_escaped, read,
      readValue_blanks l.gap_blank, skipSpace_blanks (l.line_blank (depth + 1)),
      skipSpace_of_plain (show isSpace ':' = false by decide),
      skipSpace_of_plain (show isSpace ',' = false by decide),
      skipSpace_of_plain (show isSpace '"' = false by decide), comma, if_false, if_true, others]
    rfl

theorem isRead_list {items : List Value} (reads : ∀ v ∈ items, v.IsRead l) :
    (Value.list items).IsRead l := by
  intro depth fuel rest enough ends
  cases items with
  | nil =>
    obtain ⟨fuel, rfl⟩ := exists_less enough (laid_length_pos l depth _)
    rfl
  | cons item items =>
    obtain ⟨fuel, rfl⟩ := exists_less enough (laid_length_pos l depth _)
    have bound :
        2 * ((item.laid l (depth + 1)).length + (laidItems l depth items).length) ≤ fuel := by
      simp only [Value.laid, List.length_cons, List.length_append] at enough
      omega
    have read := readItems_laid reads bound rest
    obtain ⟨c, more, written, plain, unclosed⟩ := laid_head l (depth + 1) item
    rw [written, List.map_cons, List.cons_append] at read
    have noQuote : '[' ≠ '"' := by decide
    simp only [Value.laid, written, List.map_cons, List.map_append, List.cons_append,
      List.append_assoc, readValue, skipSpace_of_plain (show isSpace '[' = false by decide),
      skipSpace_blanks (l.line_blank (depth + 1)), skipSpace_of_plain plain, if_neg noQuote,
      if_true, Rune.char.injEq, if_neg unclosed, read]
    rfl

theorem isRead_object {members : List (String × Value)}
    (reads : ∀ member ∈ members, member.2.IsRead l) : (Value.object members).IsRead l := by
  intro depth fuel rest enough ends
  cases members with
  | nil =>
    obtain ⟨fuel, rfl⟩ := exists_less enough (laid_length_pos l depth _)
    rfl
  | cons member members =>
    obtain ⟨name, v⟩ := member
    obtain ⟨fuel, rfl⟩ := exists_less enough (laid_length_pos l depth _)
    have bound :
        2 * ((v.laid l (depth + 1)).length + (laidMembers l depth members).length) ≤ fuel := by
      simp only [Value.laid, List.length_cons, List.length_append] at enough
      omega
    have read := readMembers_laid reads bound rest
    have noQuote : '\x7b' ≠ '"' := by decide
    have noBracket : '\x7b' ≠ '[' := by decide
    have noClose : '"' ≠ '\x7d' := by decide
    simp only [Value.laid, stringText, List.map_cons, List.map_append, List.cons_append,
      List.nil_append, List.append_assoc, readValue, skipSpace_blanks (l.line_blank (depth + 1)),
      skipSpace_of_plain (show isSpace '\x7b' = false by decide),
      skipSpace_of_plain (show isSpace '"' = false by decide), if_neg noQuote, if_neg noBracket,
      if_true, Rune.char.injEq, if_neg noClose, read]
    rfl

/-- Every value is read up to where it ends. -/
theorem isRead (l : Layout) : ∀ v : Value, v.IsRead l
  | .null | .boolean true | .boolean false => by
    intro depth fuel rest enough ends
    obtain ⟨fuel, rfl⟩ := exists_less enough (laid_length_pos l depth _)
    rfl
  | .number n => isRead_number n
  | .string text => isRead_string text
  | .list items => isRead_list fun v member => isRead l v
  | .object members => isRead_object fun member listed => isRead l member.2
decreasing_by
  · have smaller := List.sizeOf_lt_of_mem member
    simp only [Value.list.sizeOf_spec]
    omega
  · have smaller := List.sizeOf_lt_of_mem listed
    have part : sizeOf member = 1 + sizeOf member.1 + sizeOf member.2 := rfl
    simp only [Value.object.sizeOf_spec]
    omega

/-- A document is read as it was written, whatever its layout and the blanks behind it. -/
theorem ofRunes_laid (l : Layout) (v : Value) (blanks : List Char)
    (all : ∀ c ∈ blanks, isSpace c = true) :
    Document.ofRunes ((v.laid l 0 ++ blanks).map .char) = ⟨v.tree, false⟩ := by
  have rest : skipSpace (blanks.map .char) = [] := by
    simpa [skipSpace] using skipSpace_blanks all []
  have ends : Ends (blanks.map .char) := by simpa using ends_blanks all [] ends_nil
  rw [List.map_append, Document.ofRunes, isRead l v 0 _ _ ?_ ends]
  · simp only [rest]
    rfl
  · simp only [List.length_append, List.length_map]
    omega

/-- A document is read as it was written. -/
theorem ofRunes_text (v : Value) : Document.ofRunes (runes v.text) = ⟨v.tree, false⟩ := by
  have read := ofRunes_laid .tight v [] nofun
  rw [laid_tight, List.append_nil] at read
  rwa [runes, Value.text, String.toList_ofList]

/-- So is one that is printed on lines of its own. -/
theorem ofRunes_pretty (v : Value) :
    Document.ofRunes (runes (v.pretty ++ "\n")) = ⟨v.tree, false⟩ := by
  have read := ofRunes_laid .lined v ['\n'] (by simp [isSpace])
  rw [laid_lined] at read
  rwa [runes, Value.pretty, String.toList_append, String.toList_ofList]

end Values

end StorageControl.Json
