import StorageControl.Proofs.Json

/-! JSON texts as they may be written.

A written value is any text of the grammar: with blanks wherever they may stand, strings
with any escapes and numbers of any form. It reads as its tree, whatever its depth, and
the tree can be passed over.
-/

set_option autoImplicit false

namespace StorageControl.Json

open StorageControl.Text (Rune)

/-! ### Leaves -/

structure Blanks where
  chars : List Char
  all : ∀ c ∈ chars, isSpace c = true

theorem Blanks.all_nil : ∀ c ∈ [], isSpace c = true :=
  List.forall_mem_nil _

def Blanks.none : Blanks := ⟨[], Blanks.all_nil⟩

def Blanks.runes (b : Blanks) : List Rune := b.chars.map .char

structure HexDigit where
  char : Char
  value : Nat
  read : hexValue? char = some value

/-- One unit of a written string: a character that stands for itself, octets that are no
text, a letter behind a backslash or a number of four digits. -/
inductive Letter where
  | plain (c : Char) (solid : c ≠ '"' ∧ c ≠ '\\' ∧ 0x20 ≤ c.toNat)
  | stray (octets : List UInt8)
  | escape (written meant : Char) (known : escaped? written = some meant)
  | number (a b c d : HexDigit)

def Letter.runes : Letter → List Rune
  | .plain c _ => [.char c]
  | .stray octets => [.stray octets]
  | .escape c _ _ => [.char '\\', .char c]
  | .number a b c d =>
    [.char '\\', .char 'u', .char a.char, .char b.char, .char c.char, .char d.char]

def Letter.piece : Letter → Piece
  | .plain c _ => .char c
  | .stray _ => .stray
  | .escape _ c _ => .char c
  | .number a b c d => .unit (((a.value * 16 + b.value) * 16 + c.value) * 16 + d.value)

/-- A string as letters write it; it has no text if a half of a surrogate pair stands alone
or octets are no text. -/
def Quoted.ofLetters (letters : List Letter) : Quoted :=
  ⟨quotedText (letters.map Letter.piece) none, none⟩

/-- Letters and the closing quote. -/
def closedRunes (letters : List Letter) : List Rune := letters.flatMap Letter.runes ++ [.char '"']

structure Digits where
  chars : List Char
  all : ∀ c ∈ chars, isDigit c = true
  some : chars ≠ []

def Digits.runes (d : Digits) : List Rune := d.chars.map .char

structure Exponent where
  mark : Char
  isMark : mark = 'e' ∨ mark = 'E'
  /-- The sign, if one is written: whether it is a minus. -/
  sign : Option Bool
  digits : Digits

def Exponent.runes (e : Exponent) : List Rune :=
  .char e.mark :: match e.sign with
    | none => e.digits.runes
    | some down => .char (if down then '-' else '+') :: e.digits.runes

/-- A written number; a zero at its start stands alone. -/
structure Figure where
  negative : Bool
  whole : Digits
  zero : whole.chars.head? = some '0' → whole.chars.length ≤ 1
  fraction : Option Digits
  exponent : Option Exponent

namespace Figure

def fractionRunes (n : Figure) : List Rune :=
  match n.fraction with
  | none => []
  | some digits => .char '.' :: digits.runes

def exponentRunes (n : Figure) : List Rune :=
  match n.exponent with
  | none => []
  | some e => e.runes

def unsigned (n : Figure) : List Rune := n.whole.runes ++ (n.fractionRunes ++ n.exponentRunes)

def runes (n : Figure) : List Rune := if n.negative then .char '-' :: n.unsigned else n.unsigned

def numeral (n : Figure) : Numeral where
  negative := n.negative
  whole := n.whole.chars
  fraction := (n.fraction.map Digits.chars).getD []
  exponent := n.exponent.map fun e => (e.sign.getD false, e.digits.chars)

end Figure

/-! ### Values -/

/-- A written key with the blanks around it. -/
structure Key where
  lead : Blanks
  letters : List Letter
  trail : Blanks

def Key.quoted (key : Key) : Quoted := .ofLetters key.letters

/-- A key from behind its opening quote, with the colon. -/
def Key.body (key : Key) : List Rune := closedRunes key.letters ++ (key.trail.runes ++ [.char ':'])

/-- A text of the grammar. Items and the values of members may have blanks around them. -/
inductive Written where
  | null
  | boolean (b : Bool)
  | number (n : Figure)
  | string (letters : List Letter)
  | list (inside : Blanks) (items : List Written)
  | object (inside : Blanks) (members : List (Key × Written))
  | padded (lead : Blanks) (value : Written) (trail : Blanks)

mutual

def Written.runes : Written → List Rune
  | .null => "null".toList.map .char
  | .boolean true => "true".toList.map .char
  | .boolean false => "false".toList.map .char
  | .number n => n.runes
  | .string letters => .char '"' :: closedRunes letters
  | .list inside [] => .char '[' :: (inside.runes ++ [.char ']'])
  | .list inside (item :: rest) =>
    .char '[' :: (inside.runes ++ (item.runes ++ moreItemRunes rest))
  | .object inside [] => .char '\x7b' :: (inside.runes ++ [.char '\x7d'])
  | .object inside ((key, value) :: rest) =>
    .char '\x7b' :: (inside.runes ++ (key.lead.runes ++ .char '"' ::
      (key.body ++ (value.runes ++ moreMemberRunes rest))))
  | .padded lead value trail => lead.runes ++ (value.runes ++ trail.runes)

/-- The items after the first, and the end of the list. -/
def moreItemRunes : List Written → List Rune
  | [] => [.char ']']
  | item :: rest => .char ',' :: (item.runes ++ moreItemRunes rest)

/-- The members after the first, and the end of the object. -/
def moreMemberRunes : List (Key × Written) → List Rune
  | [] => [.char '\x7d']
  | (key, value) :: rest =>
    .char ',' :: (key.lead.runes ++ .char '"' ::
      (key.body ++ (value.runes ++ moreMemberRunes rest)))

end

mutual

def Written.tree : Written → Tree
  | .null => .null
  | .boolean b => .boolean b
  | .number n => .number n.numeral
  | .string letters => .string (.ofLetters letters)
  | .list _ items => .list (writtenItems items) .closed
  | .object _ members => .object (writtenMembers members) .closed
  | .padded _ value _ => value.tree

def writtenItems : List Written → List Tree
  | [] => []
  | item :: rest => item.tree :: writtenItems rest

def writtenMembers : List (Key × Written) → List (Quoted × Tree)
  | [] => []
  | (key, value) :: rest => (key.quoted, value.tree) :: writtenMembers rest

end

mutual

/-- Whatever is written can be passed over. -/
theorem skip_written : ∀ w : Written, w.tree.skip = .ok ()
  | .null | .boolean _ | .number _ => by simp only [Written.tree, Tree.skip]
  | .string _ => by simp only [Written.tree, Tree.skip]; rfl
  | .list _ items => by simp only [Written.tree, Tree.skip, skip_writtenItems items]; rfl
  | .object _ members => by simp only [Written.tree, Tree.skip, skip_writtenMembers members]; rfl
  | .padded _ value _ => by simp only [Written.tree, skip_written value]

theorem skip_writtenItems : ∀ items : List Written, skipItems (writtenItems items) = .ok ()
  | [] => by simp only [writtenItems, skipItems]
  | item :: rest => by
    simp only [writtenItems, skipItems, skip_written item, skip_writtenItems rest]
    rfl

theorem skip_writtenMembers :
    ∀ members : List (Key × Written), skipMembers (writtenMembers members) = .ok ()
  | [] => by simp only [writtenMembers, skipMembers]
  | (key, value) :: rest => by
    simp only [writtenMembers, skipMembers, skip_written value, skip_writtenMembers rest]
    rfl

end

/-! ### Reading strings -/

theorem pieces_letter (letter : Letter) (rest : List Rune) :
    pieces .between (letter.runes ++ rest) =
      (letter.piece :: (pieces .between rest).1, (pieces .between rest).2) := by
  cases letter with
  | plain c solid =>
    obtain ⟨quote, backslash, shown⟩ := solid
    simp only [Letter.runes, List.cons_append, List.nil_append, pieces, if_neg quote,
      if_neg backslash, if_neg (Nat.not_lt.mpr shown), Letter.piece]
  | stray octets => rfl
  | escape written meant known =>
    have noNumber : written ≠ 'u' := by
      rintro rfl
      cases known
    simp only [Letter.runes, List.cons_append, List.nil_append, pieces, if_neg noNumber, known,
      Letter.piece]
    rfl
  | number a b c d =>
    simp only [Letter.runes, List.cons_append, List.nil_append, pieces, a.read, b.read, c.read,
      d.read, Letter.piece, Nat.zero_mul, Nat.zero_add]
    rfl

theorem readString_closedRunes (letters : List Letter) (rest : List Rune) :
    readString (closedRunes letters ++ rest) = (.ofLetters letters, some rest) := by
  have read : pieces .between (closedRunes letters ++ rest) =
      (letters.map Letter.piece, .ok rest) := by
    induction letters with
    | nil => rfl
    | cons letter letters ih =>
      rw [closedRunes, List.flatMap_cons, List.append_assoc, List.append_assoc, pieces_letter,
        ← List.append_assoc, ← closedRunes, ih]
      rfl
  rw [readString, read]
  rfl

/-! ### Reading numbers -/

/-- Whether the digits of a number stop here. -/
def NoDigit (text : List Rune) : Prop := ∀ c, text.head? = some (.char c) → isDigit c = false

theorem noDigit_cons {c : Char} (other : isDigit c = false) (rest : List Rune) :
    NoDigit (.char c :: rest) := by
  intro d head
  cases head
  exact other

theorem takeDigits_stop {digits : List Char} (all : ∀ c ∈ digits, isDigit c = true)
    {rest : List Rune} (stop : NoDigit rest) :
    takeDigits (digits.map .char ++ rest) = (digits, rest) := by
  induction digits with
  | nil =>
    cases rest with
    | nil => rfl
    | cons r rest =>
      cases r with
      | stray octets => rfl
      | char c =>
        have other := stop c rfl
        simp only [List.map_nil, List.nil_append, takeDigits, other, Bool.false_eq_true, if_false]
  | cons c digits ih =>
    obtain ⟨here, later⟩ := List.forall_mem_cons.mp all
    simp only [List.map_cons, List.cons_append, takeDigits, here, if_true, ih later]

theorem takeDigits_runes (digits : Digits) {rest : List Rune} (stop : NoDigit rest) :
    takeDigits (digits.runes ++ rest) = (digits.chars, rest) :=
  takeDigits_stop digits.all stop

theorem noDigit_of_ends {rest : List Rune} (ends : Ends rest) : NoDigit rest := by
  intro c head
  obtain ⟨mark, listed, same⟩ := ends _ head
  cases same
  have other : ∀ c ∈ marks, isDigit c = false := by simp [marks, isDigit]
  exact other c listed

theorem Digits.head (digits : Digits) :
    ∃ c more, digits.runes = .char c :: more ∧ isDigit c = true := by
  obtain ⟨chars, all, some⟩ := digits
  cases chars with
  | nil => exact absurd rfl some
  | cons c chars => exact ⟨c, _, rfl, all c List.mem_cons_self⟩

/-- A digit is none of the other characters that have a meaning. -/
theorem ne_of_isDigit {c other : Char} (digit : isDigit c = true) (none : isDigit other = false) :
    c ≠ other := by
  rintro rfl
  rw [digit] at none
  cases none

section Numbers

variable {rest : List Rune} (ends : Ends rest)
include ends

theorem readExponent_runes (negative : Bool) (whole fraction : List Char) (n : Figure) :
    readExponent negative whole fraction (n.exponentRunes ++ rest) =
      (.number ⟨negative, whole, fraction,
        n.exponent.map fun e => (e.sign.getD false, e.digits.chars)⟩, some rest) := by
  unfold Figure.exponentRunes
  cases n.exponent with
  | none =>
    cases rest with
    | nil => rfl
    | cons r rest =>
      obtain ⟨c, mark, rfl⟩ := ends r rfl
      have other : ∀ c ∈ marks, ¬(c = 'e' ∨ c = 'E') := by simp [marks]
      simp only [List.nil_append, readExponent, if_neg (other c mark), Option.map_none]
  | some e =>
    obtain ⟨mark, isMark, sign, digits⟩ := e
    have taken := takeDigits_runes digits (noDigit_of_ends ends)
    obtain ⟨c, more, written, digit⟩ := digits.head
    have plus := ne_of_isDigit digit (show isDigit '+' = false by decide)
    have minus := ne_of_isDigit digit (show isDigit '-' = false by decide)
    -- What stands behind the mark is a sign or the first digit.
    cases sign with
    | none =>
      rw [written] at taken
      simp only [Exponent.runes, written, List.cons_append] at taken ⊢
      simp only [readExponent, if_pos isMark, if_neg plus, if_neg minus, taken]
      split
      next none => exact absurd (congrArg Prod.fst none) digits.some
      next same => cases same; rfl
    | some down =>
      cases down <;>
      · simp only [Exponent.runes, List.cons_append, readExponent, if_pos isMark, taken,
          Bool.false_eq_true, if_false, if_true, show '-' ≠ '+' by decide]
        split
        next none => exact absurd (congrArg Prod.fst none) digits.some
        next same => cases same; rfl

theorem noDigit_exponentRunes (n : Figure) : NoDigit (n.exponentRunes ++ rest) := by
  unfold Figure.exponentRunes
  cases n.exponent with
  | none => exact noDigit_of_ends ends
  | some e =>
    have other : isDigit e.mark = false := by rcases e.isMark with same | same <;> rw [same] <;> rfl
    exact noDigit_cons other _

theorem readFraction_runes (negative : Bool) (whole : List Char) (n : Figure) :
    readFraction negative whole (n.fractionRunes ++ (n.exponentRunes ++ rest)) =
      (.number ⟨negative, whole, n.numeral.fraction, n.numeral.exponent⟩, some rest) := by
  have exponent := readExponent_runes ends negative whole
  have stop := noDigit_exponentRunes ends n
  unfold Figure.fractionRunes Figure.numeral
  cases n.fraction with
  | none =>
    -- Without a fraction no point may stand behind the whole part.
    have point : ∀ c, (n.exponentRunes ++ rest).head? = some (.char c) → c ≠ '.' := by
      rintro c head rfl
      unfold Figure.exponentRunes at head
      cases found : n.exponent with
      | none =>
        rw [found] at head
        obtain ⟨mark, listed, same⟩ := ends _ head
        cases same
        simp [marks] at listed
      | some e =>
        rw [found] at head
        have mark : e.mark = '.' := by simpa [Exponent.runes] using head
        rcases e.isMark with same | same <;> exact absurd (same.symm.trans mark) (by decide)
    rw [List.nil_append]
    unfold readFraction
    split
    next c more written =>
      rw [if_neg (point c (by rw [written]; rfl))]
      exact exponent [] n
    next => exact exponent [] n
  | some digits =>
    have taken := takeDigits_runes digits stop
    simp only [List.cons_append, readFraction, if_true]
    split
    next none => exact absurd (congrArg Prod.fst (taken.symm.trans none)) digits.some
    next same =>
      cases taken.symm.trans same
      exact exponent digits.chars n

theorem noDigit_fractionRunes (n : Figure) :
    NoDigit (n.fractionRunes ++ (n.exponentRunes ++ rest)) := by
  have exponent := noDigit_exponentRunes ends n
  unfold Figure.fractionRunes
  cases n.fraction with
  | none => exact exponent
  | some digits => exact noDigit_cons rfl _

theorem readNumber_runes (n : Figure) :
    readNumber n.negative (n.unsigned ++ rest) = (.number n.numeral, some rest) := by
  have taken := takeDigits_runes n.whole (noDigit_fractionRunes ends n)
  have alone : ¬(n.whole.chars.head? = some '0' ∧ 1 < n.whole.chars.length) :=
    fun ⟨zero, long⟩ => absurd (n.zero zero) (Nat.not_le.mpr long)
  rw [Figure.unsigned, List.append_assoc, List.append_assoc, readNumber]
  split
  next none => exact absurd (congrArg Prod.fst (taken.symm.trans none)) n.whole.some
  next same =>
    cases taken.symm.trans same
    rw [if_neg alone]
    exact readFraction_runes ends n.negative n.whole.chars n

end Numbers

/-! ### Reading values -/

theorem skipSpace_runes (b : Blanks) (rest : List Rune) :
    skipSpace (b.runes ++ rest) = skipSpace rest :=
  skipSpace_blanks b.all rest

theorem readValue_runes (b : Blanks) (fuel : Nat) (text : List Rune) :
    readValue fuel (b.runes ++ text) = readValue fuel text :=
  readValue_blanks b.all fuel text

theorem skipSpace_skipSpace (text : List Rune) : skipSpace (skipSpace text) = skipSpace text := by
  induction text with
  | nil => rfl
  | cons r rest ih =>
    cases r with
    | stray octets => rfl
    | char c =>
      cases space : isSpace c with
      | true => simp only [skipSpace, space, if_true, ih]
      | false => simp only [skipSpace, space, Bool.false_eq_true, if_false]

/-- Items may be read from the first character that is no blank. -/
theorem readItems_skipSpace (fuel : Nat) (text : List Rune) :
    readItems fuel (skipSpace text) = readItems fuel text := by
  cases fuel with
  | zero => simp only [readItems]
  | succ fuel =>
    have same : readValue fuel (skipSpace text) = readValue fuel text := by
      cases fuel with
      | zero => simp only [readValue]
      | succ fuel => simp only [readValue, skipSpace_skipSpace]
    simp only [readItems, same]

/-- The first character of a number. -/
theorem Figure.head (n : Figure) :
    ∃ c more, n.runes = .char c :: more ∧ isSpace c = false ∧ c ≠ ']' := by
  unfold runes
  split
  · exact ⟨'-', _, rfl, rfl, by decide⟩
  · obtain ⟨c, more, written, digit⟩ := n.whole.head
    rw [unsigned, written]
    refine ⟨c, _, rfl, ?_, ne_of_isDigit digit rfl⟩
    refine Bool.eq_false_iff.mpr fun space => ?_
    rcases isSpace_iff.mp space with rfl | rfl | rfl | rfl <;> cases digit

/-- Behind its blanks a value begins with a character that is no closing bracket. -/
theorem written_head : ∀ (w : Written) (rest : List Rune),
    ∃ c more, skipSpace (w.runes ++ rest) = .char c :: more ∧ c ≠ ']'
  | .null, _ | .boolean true, _ | .boolean false, _ => ⟨_, _, rfl, by decide⟩
  | .string _, _ => ⟨_, _, rfl, by decide⟩
  | .list _ [], _ | .list _ (_ :: _), _ => ⟨_, _, rfl, by decide⟩
  | .object _ [], _ | .object _ (_ :: _), _ => ⟨_, _, rfl, by decide⟩
  | .number n, rest => by
    obtain ⟨c, more, written, plain, unclosed⟩ := n.head
    refine ⟨c, more ++ rest, ?_, unclosed⟩
    rw [Written.runes, written, List.cons_append, skipSpace_of_plain plain]
  | .padded lead value trail, rest => by
    rw [Written.runes, List.append_assoc, List.append_assoc, skipSpace_runes]
    exact written_head value (trail.runes ++ rest)

theorem runes_length_pos (w : Written) : 0 < w.runes.length := by
  obtain ⟨c, more, head, -⟩ := written_head w []
  rw [List.append_nil] at head
  cases written : w.runes with
  | nil =>
    rw [written] at head
    cases head
  | cons r rest => exact Nat.succ_pos _

/-- Whether a value is read up to where it ends; blanks behind it may be left. -/
def Written.IsRead (w : Written) : Prop :=
  ∀ fuel rest, 2 * w.runes.length ≤ fuel → Ends rest →
    ∃ left, readValue fuel (w.runes ++ rest) = (w.tree, some left) ∧ skipSpace left = skipSpace rest

theorem isRead_figure (n : Figure) : (Written.number n).IsRead := by
  intro fuel rest enough ends
  obtain ⟨fuel, rfl⟩ := exists_less enough (runes_length_pos _)
  have read := readNumber_runes ends n
  refine ⟨rest, ?_, rfl⟩
  rw [Written.runes, Written.tree]
  unfold Figure.runes
  cases sign : n.negative with
  | true =>
    rw [sign] at read
    simp only [if_true, List.cons_append, readValue,
      skipSpace_of_plain (show isSpace '-' = false by decide), show '-' ≠ '"' by decide,
      show '-' ≠ '[' by decide, show '-' ≠ '\x7b' by decide, show '-' ≠ 'n' by decide,
      show '-' ≠ 't' by decide, show '-' ≠ 'f' by decide, if_false, read]
  | false =>
    rw [sign] at read
    obtain ⟨c, more, written, digit⟩ := n.whole.head
    have plain : isSpace c = false := by
      refine Bool.eq_false_iff.mpr fun space => ?_
      rcases isSpace_iff.mp space with rfl | rfl | rfl | rfl <;> cases digit
    -- A digit is none of the marks that other values begin with.
    have other {mark : Char} := @ne_of_isDigit c mark digit
    rw [Figure.unsigned, written] at read ⊢
    simp only [List.cons_append, List.append_assoc] at read
    simp only [Bool.false_eq_true, if_false, List.cons_append, List.append_assoc, readValue,
      skipSpace_of_plain plain, other (show isDigit '"' = false from rfl),
      other (show isDigit '[' = false from rfl), other (show isDigit '\x7b' = false from rfl),
      other (show isDigit 'n' = false from rfl), other (show isDigit 't' = false from rfl),
      other (show isDigit 'f' = false from rfl), other (show isDigit '-' = false from rfl),
      digit, if_true, read]

/-- Items are read up to the bracket that closes their list. -/
theorem readItems_runes {item : Written} {items : List Written}
    (reads : ∀ w ∈ item :: items, w.IsRead) {fuel : Nat}
    (enough : 2 * (item.runes.length + (moreItemRunes items).length) ≤ fuel) (rest : List Rune) :
    readItems fuel (item.runes ++ (moreItemRunes items ++ rest)) =
      (writtenItems (item :: items), .closed, some rest) := by
  -- On the items behind the first; the mark behind an item pays for its step.
  induction items generalizing item fuel with
  | nil =>
    obtain ⟨fuel, rfl⟩ := exists_less enough (Nat.add_pos_left (runes_length_pos item) _)
    have bound : 2 * item.runes.length ≤ fuel := by
      simp only [moreItemRunes, List.length_singleton] at enough
      omega
    obtain ⟨left, read, skipped⟩ := reads item List.mem_cons_self fuel _ bound
      (ends_cons (c := ']') (by decide) rest)
    rw [skipSpace_of_plain (by decide)] at skipped
    simp only [moreItemRunes, List.cons_append, List.nil_append, readItems, read, skipped, if_true,
      writtenItems]
  | cons next items ih =>
    obtain ⟨here, later⟩ := List.forall_mem_cons.mp reads
    obtain ⟨fuel, rfl⟩ := exists_less enough (Nat.add_pos_left (runes_length_pos item) _)
    have bound : 2 * (next.runes.length + (moreItemRunes items).length) ≤ fuel ∧
        2 * item.runes.length ≤ fuel := by
      simp only [moreItemRunes, List.length_cons, List.length_append] at enough
      omega
    obtain ⟨left, read, skipped⟩ := here fuel _ bound.2 (ends_cons (c := ',') (by decide)
      (next.runes ++ (moreItemRunes items ++ rest)))
    have others := ih later bound.1
    obtain ⟨c, more, head, unclosed⟩ := written_head next (moreItemRunes items ++ rest)
    rw [skipSpace_of_plain (by decide)] at skipped
    rw [← readItems_skipSpace, head] at others
    have comma : (Rune.char ',' = .char ']') = False := by simp
    simp only [moreItemRunes, List.cons_append, List.append_assoc, readItems, read, skipped, head,
      comma, if_false, if_true, Rune.char.injEq, if_neg unclosed, others, writtenItems]

/-- Members are read up to the bracket that closes their object. -/
theorem readMembers_runes {key : Key} {value : Written} {members : List (Key × Written)}
    (reads : ∀ member ∈ (key, value) :: members, member.2.IsRead) {fuel : Nat}
    (enough : 2 * (value.runes.length + (moreMemberRunes members).length) ≤ fuel)
    (rest : List Rune) :
    readMembers fuel (key.body ++ (value.runes ++ (moreMemberRunes members ++ rest))) =
      (writtenMembers ((key, value) :: members), .closed, some rest) := by
  induction members generalizing key value fuel with
  | nil =>
    obtain ⟨fuel, rfl⟩ := exists_less enough (Nat.add_pos_left (runes_length_pos value) _)
    have bound : 2 * value.runes.length ≤ fuel := by
      simp only [moreMemberRunes, List.length_singleton] at enough
      omega
    obtain ⟨left, read, skipped⟩ := reads (key, value) List.mem_cons_self fuel _ bound
      (ends_cons (c := '\x7d') (by decide) rest)
    rw [skipSpace_of_plain (by decide)] at skipped
    simp only [moreMemberRunes, Key.body, List.cons_append, List.nil_append, List.append_assoc,
      readMembers, readString_closedRunes, skipSpace_runes, read, skipped,
      skipSpace_of_plain (show isSpace ':' = false by decide), if_true, writtenMembers]
    rfl
  | cons next members ih =>
    obtain ⟨nextKey, nextValue⟩ := next
    obtain ⟨here, later⟩ := List.forall_mem_cons.mp reads
    obtain ⟨fuel, rfl⟩ := exists_less enough (Nat.add_pos_left (runes_length_pos value) _)
    have bound : 2 * (nextValue.runes.length + (moreMemberRunes members).length) ≤ fuel ∧
        2 * value.runes.length ≤ fuel := by
      simp only [moreMemberRunes, List.length_cons, List.length_append] at enough
      omega
    obtain ⟨left, read, skipped⟩ := here fuel _ bound.2 (ends_cons (c := ',') (by decide)
      (nextKey.lead.runes ++ .char '"' ::
        (nextKey.body ++ (nextValue.runes ++ (moreMemberRunes members ++ rest)))))
    have others := ih later bound.1
    rw [skipSpace_of_plain (by decide)] at skipped
    have comma : (Rune.char ',' = .char '\x7d') = False := by simp
    rw [readMembers, Key.body]
    simp only [moreMemberRunes, List.cons_append, List.nil_append, List.append_assoc,
      readString_closedRunes, skipSpace_runes, read, skipped, others,
      skipSpace_of_plain (show isSpace ':' = false by decide),
      skipSpace_of_plain (show isSpace '"' = false by decide), comma, if_false, if_true]
    rfl

theorem isRead_items (inside : Blanks) {items : List Written} (reads : ∀ w ∈ items, w.IsRead) :
    (Written.list inside items).IsRead := by
  intro fuel rest enough ends
  obtain ⟨fuel, rfl⟩ := exists_less enough (runes_length_pos _)
  refine ⟨rest, ?_, rfl⟩
  have noQuote : '[' ≠ '"' := by decide
  cases items with
  | nil =>
    simp only [Written.runes, List.cons_append, List.append_assoc, List.nil_append, readValue,
      skipSpace_of_plain (show isSpace '[' = false by decide), if_neg noQuote, if_true,
      skipSpace_runes, skipSpace_of_plain (show isSpace ']' = false by decide)]
    rfl
  | cons item items =>
    have bound : 2 * (item.runes.length + (moreItemRunes items).length) ≤ fuel := by
      simp only [Written.runes, List.length_cons, List.length_append] at enough
      omega
    have read := readItems_runes reads bound rest
    obtain ⟨c, more, head, unclosed⟩ := written_head item (moreItemRunes items ++ rest)
    rw [← readItems_skipSpace, head] at read
    simp only [Written.runes, List.cons_append, List.append_assoc, readValue,
      skipSpace_of_plain (show isSpace '[' = false by decide), if_neg noQuote, if_true,
      skipSpace_runes, head, Rune.char.injEq, if_neg unclosed, read, Written.tree]

theorem isRead_members (inside : Blanks) {members : List (Key × Written)}
    (reads : ∀ member ∈ members, member.2.IsRead) : (Written.object inside members).IsRead := by
  intro fuel rest enough ends
  obtain ⟨fuel, rfl⟩ := exists_less enough (runes_length_pos _)
  refine ⟨rest, ?_, rfl⟩
  have noQuote : '\x7b' ≠ '"' := by decide
  have noBracket : '\x7b' ≠ '[' := by decide
  have noClose : '"' ≠ '\x7d' := by decide
  cases members with
  | nil =>
    simp only [Written.runes, List.cons_append, List.append_assoc, List.nil_append, readValue,
      skipSpace_of_plain (show isSpace '\x7b' = false by decide), if_neg noQuote, if_neg noBracket,
      if_true, skipSpace_runes, skipSpace_of_plain (show isSpace '\x7d' = false by decide)]
    rfl
  | cons member members =>
    obtain ⟨key, value⟩ := member
    have bound : 2 * (value.runes.length + (moreMemberRunes members).length) ≤ fuel := by
      simp only [Written.runes, List.length_cons, List.length_append] at enough
      omega
    have read := readMembers_runes reads bound rest
    simp only [Written.runes, List.cons_append, List.append_assoc, readValue, skipSpace_runes,
      skipSpace_of_plain (show isSpace '\x7b' = false by decide),
      skipSpace_of_plain (show isSpace '"' = false by decide), if_neg noQuote, if_neg noBracket,
      if_true, Rune.char.injEq, if_neg noClose, read, Written.tree]

theorem isRead_padded (lead trail : Blanks) {value : Written} (reads : value.IsRead) :
    (Written.padded lead value trail).IsRead := by
  intro fuel rest enough ends
  have bound : 2 * value.runes.length ≤ fuel := by
    simp only [Written.runes, List.length_append] at enough
    omega
  obtain ⟨left, read, skipped⟩ :=
    reads fuel (trail.runes ++ rest) bound (ends_blanks trail.all rest ends)
  refine ⟨left, ?_, skipped.trans (skipSpace_runes trail rest)⟩
  rw [Written.runes, List.append_assoc, List.append_assoc, readValue_runes, read, Written.tree]

mutual

/-- Every written value is read up to where it ends. -/
theorem written_isRead : ∀ w : Written, w.IsRead
  | .null | .boolean true | .boolean false => by
    intro fuel rest enough ends
    obtain ⟨fuel, rfl⟩ := exists_less enough (runes_length_pos _)
    exact ⟨rest, rfl, rfl⟩
  | .number n => isRead_figure n
  | .string letters => by
    intro fuel rest enough ends
    obtain ⟨fuel, rfl⟩ := exists_less enough (runes_length_pos _)
    refine ⟨rest, ?_, rfl⟩
    simp only [Written.runes, List.cons_append, readValue,
      skipSpace_of_plain (show isSpace '"' = false by decide), if_true, readString_closedRunes,
      Written.tree]
  | .list inside items => isRead_items inside (items_areRead items)
  | .object inside members => isRead_members inside (members_areRead members)
  | .padded lead value trail => isRead_padded lead trail (written_isRead value)

theorem items_areRead : ∀ items : List Written, ∀ w ∈ items, w.IsRead
  | [] => nofun
  | item :: rest => List.forall_mem_cons.mpr ⟨written_isRead item, items_areRead rest⟩

theorem members_areRead :
    ∀ members : List (Key × Written), ∀ member ∈ members, member.2.IsRead
  | [] => nofun
  | (_, value) :: rest => List.forall_mem_cons.mpr ⟨written_isRead value, members_areRead rest⟩

end

/-- A written text reads as its tree, with nothing behind it. -/
theorem ofRunes_written (w : Written) : Document.ofRunes w.runes = ⟨w.tree, false⟩ := by
  obtain ⟨left, read, skipped⟩ :=
    written_isRead w (2 * w.runes.length + 2) [] (Nat.le_add_right _ _) ends_nil
  rw [List.append_nil] at read
  rw [Document.ofRunes, read]
  simp only [skipped]
  rfl

end StorageControl.Json
