import StorageControl.Proofs.Record
import StorageControl.Proofs.Syntax

/-! Texts of the grammar, and no others, are read to their end.

Whatever of a text is read up to its end was written by the grammar, leaves first and then
lists and objects. Where the end is not found, the tree stays open: a record is made of closed
lists and objects only, so it is read from a text of the grammar or not at all.
-/

set_option autoImplicit false

namespace StorageControl.Json

open StorageControl.Text (Rune)

/-! ### Strings -/

/-- What pieces that are read from a spot were written by: the rest of the letter that is
open, more letters and the closing quote. -/
def Spot.Spelled : Spot → List Rune → List Piece → List Rune → Prop
  | .between, text, written, rest =>
    ∃ letters, text = closedRunes letters ++ rest ∧ written = letters.map Letter.piece
  | .escape, text, written, rest =>
    ∃ (letter : Letter) (letters : List Letter),
      .char '\\' :: text = letter.runes ++ (closedRunes letters ++ rest) ∧
      written = letter.piece :: letters.map Letter.piece
  | .digits count value, text, written, rest =>
    ∃ (digits : List HexDigit) (letters : List Letter), digits.length + min count 3 = 4 ∧
      text = digits.map (fun d => .char d.char) ++ (closedRunes letters ++ rest) ∧
      written = .unit (digits.foldl (fun n d => n * 16 + d.value) value) ::
        letters.map Letter.piece

theorem closedRunes_cons (letter : Letter) (letters : List Letter) (rest : List Rune) :
    closedRunes (letter :: letters) ++ rest = letter.runes ++ (closedRunes letters ++ rest) := by
  simp only [closedRunes, List.flatMap_cons, List.append_assoc]

/-- A letter and what was read behind it. -/
theorem Spot.Spelled.cons {text rest : List Rune} {written : List Piece} (letter : Letter)
    (later : Spot.between.Spelled text written rest) :
    Spot.between.Spelled (letter.runes ++ text) (letter.piece :: written) rest := by
  obtain ⟨letters, rfl, rfl⟩ := later
  exact ⟨letter :: letters, (closedRunes_cons letter letters rest).symm, rfl⟩

theorem pieces_spelled {spot : Spot} {text rest : List Rune} {written : List Piece}
    (read : pieces spot text = (written, .ok rest)) : spot.Spelled text written rest := by
  -- A case for each line of the reader; those that stop with a flaw are void.
  fun_induction pieces spot text generalizing written with
  | case1 | case5 | case7 | case9 | case11 | case12 => cases read
  | case2 octets text more stop later ih =>
    cases read
    exact (ih later).cons (.stray octets)
  | case3 text =>
    cases read
    exact ⟨[], rfl, rfl⟩
  | case4 text other ih =>
    obtain ⟨letter, letters, text, rfl⟩ := ih read
    exact ⟨letter :: letters, text.trans (closedRunes_cons letter letters rest).symm, rfl⟩
  | case6 c text noQuote noSlash shown more stop later ih =>
    cases read
    exact (ih later).cons (.plain c ⟨noQuote, noSlash, Nat.not_lt.mp shown⟩)
  | case8 text ih =>
    obtain ⟨digits, letters, count, rfl, rfl⟩ := ih read
    obtain ⟨a, b, c, d, rfl⟩ : ∃ a b c d, digits = [a, b, c, d] := by
      match digits, count with
      | [a, b, c, d], _ => exact ⟨a, b, c, d, rfl⟩
    exact ⟨.number a b c d, letters, rfl, by simp [Letter.piece]⟩
  | case10 c text other d known more stop later ih =>
    cases read
    obtain ⟨letters, rfl, rfl⟩ := ih later
    exact ⟨.escape c d known, letters, rfl, rfl⟩
  | case13 count value c text d known early ih =>
    obtain ⟨digits, letters, length, rfl, rfl⟩ := ih read
    exact ⟨⟨c, d, known⟩ :: digits, letters, by rw [List.length_cons]; omega, rfl, rfl⟩
  | case14 count value c text d known last more stop later ih =>
    cases read
    obtain ⟨letters, rfl, rfl⟩ := ih later
    exact ⟨[⟨c, d, known⟩], letters, by rw [List.length_singleton]; omega, rfl, rfl⟩

theorem readString_spelled {text rest : List Rune} {q : Quoted}
    (read : readString text = (q, some rest)) :
    ∃ letters, q = .ofLetters letters ∧ text = closedRunes letters ++ rest := by
  unfold readString at read
  split at read
  next written after closed =>
    cases read
    obtain ⟨letters, text, rfl⟩ := pieces_spelled closed
    exact ⟨letters, rfl, text⟩
  next => cases read

/-! ### Words and numbers -/

theorem readWord_spelled {value t : Tree} {word : List Char} {text rest : List Rune}
    (read : readWord value word text = (t, some rest)) :
    t = value ∧ text = word.map .char ++ rest := by
  induction word generalizing text with
  | nil =>
    cases text <;> cases read <;> exact ⟨rfl, rfl⟩
  | cons w word ih =>
    cases text with
    | nil => cases read
    | cons r text =>
      rw [readWord] at read
      split at read
      next same =>
        subst same
        obtain ⟨rfl, rfl⟩ := ih read
        exact ⟨rfl, rfl⟩
      next => cases read

theorem takeDigits_spelled {text rest : List Rune} {digits : List Char}
    (taken : takeDigits text = (digits, rest)) :
    text = digits.map .char ++ rest ∧ ∀ c ∈ digits, isDigit c = true := by
  fun_induction takeDigits text generalizing digits with
  | case1 c text digit more after later ih =>
    cases taken
    obtain ⟨rfl, all⟩ := ih later
    exact ⟨rfl, List.forall_mem_cons.mpr ⟨digit, all⟩⟩
  | case2 c text other =>
    cases taken
    exact ⟨rfl, List.forall_mem_nil _⟩
  | case3 text other =>
    cases taken
    exact ⟨rfl, List.forall_mem_nil _⟩

/-- A missing digit leaves no rest. -/
theorem missingDigit_ne (text rest : List Rune) (t : Tree) :
    missingDigit text ≠ (t, some rest) := by
  unfold missingDigit
  split <;> exact nofun

section Numbers

variable {negative : Bool} {whole fraction : List Char} {text rest : List Rune} {t : Tree}

/-- The digits behind the mark of an exponent and its sign. -/
theorem readExponent_digits {c : Char} {sign : Option Bool} {after : List Rune}
    (mark : c = 'e' ∨ c = 'E')
    (read : (match takeDigits after with
      | ([], rest) => missingDigit rest
      | (digits, rest) =>
        (.number ⟨negative, whole, fraction, some (sign.getD false, digits)⟩, some rest)) =
          (t, some rest)) :
    ∃ exponent : Exponent, exponent.mark = c ∧ exponent.sign = sign ∧
      after = exponent.digits.runes ++ rest ∧
      t = .number ⟨negative, whole, fraction, some (sign.getD false, exponent.digits.chars)⟩ := by
  split at read
  next => exact absurd read (missingDigit_ne _ _ _)
  next digits after some taken =>
    cases read
    obtain ⟨text, all⟩ := takeDigits_spelled taken
    exact ⟨⟨c, mark, sign, digits, all, by simpa using some⟩, rfl, rfl, text, rfl⟩

theorem readExponent_spelled (read : readExponent negative whole fraction text = (t, some rest)) :
    ∃ exponent : Option Exponent, text = (exponent.map Exponent.runes).getD [] ++ rest ∧
      t = .number ⟨negative, whole, fraction,
        exponent.map fun e => (e.sign.getD false, e.digits.chars)⟩ := by
  unfold readExponent at read
  split at read
  next c more =>
    split at read
    next mark =>
      -- What stands behind the mark is a sign or the first digit.
      have signed : ∃ (sign : Option Bool) (after : List Rune),
          more = (sign.map fun down => Rune.char (if down then '-' else '+')).toList ++ after ∧
          (match takeDigits after with
            | ([], rest) => missingDigit rest
            | (digits, rest) =>
              (.number ⟨negative, whole, fraction, some (sign.getD false, digits)⟩, some rest)) =
                (t, some rest) := by
        cases more with
        | nil => exact ⟨none, [], rfl, read⟩
        | cons r more =>
          cases r with
          | stray octets => exact ⟨none, .stray octets :: more, rfl, read⟩
          | char s =>
            by_cases plus : s = '+'
            · subst plus
              exact ⟨some false, more, rfl, read⟩
            · by_cases minus : s = '-'
              · subst minus
                exact ⟨some true, more, rfl, read⟩
              · simp only [if_neg plus, if_neg minus] at read
                exact ⟨none, .char s :: more, rfl, read⟩
      obtain ⟨sign, after, rfl, behind⟩ := signed
      obtain ⟨exponent, rfl, rfl, rfl, rfl⟩ := readExponent_digits mark behind
      refine ⟨some exponent, ?_, rfl⟩
      cases sign : exponent.sign <;> simp [Exponent.runes, sign]
    next =>
      cases read
      exact ⟨none, rfl, rfl⟩
  next =>
    cases read
    exact ⟨none, rfl, rfl⟩

theorem readFraction_spelled (read : readFraction negative whole text = (t, some rest)) :
    ∃ (fraction : Option Digits) (exponent : Option Exponent),
      text = (fraction.map fun digits => .char '.' :: digits.runes).getD [] ++
        ((exponent.map Exponent.runes).getD [] ++ rest) ∧
      t = .number ⟨negative, whole, (fraction.map Digits.chars).getD [],
        exponent.map fun e => (e.sign.getD false, e.digits.chars)⟩ := by
  unfold readFraction at read
  split at read
  next c more =>
    split at read
    next point =>
      split at read
      next => exact absurd read (missingDigit_ne _ _ _)
      next digits after some taken =>
        obtain ⟨rfl, all⟩ := takeDigits_spelled taken
        obtain ⟨exponent, rfl, rfl⟩ := readExponent_spelled read
        exact ⟨.some ⟨digits, all, by simpa using some⟩, exponent, by rw [point]; rfl, rfl⟩
    next =>
      obtain ⟨exponent, text, rfl⟩ := readExponent_spelled read
      exact ⟨none, exponent, text, rfl⟩
  next =>
    obtain ⟨exponent, text, rfl⟩ := readExponent_spelled read
    exact ⟨none, exponent, text, rfl⟩

theorem readNumber_spelled (read : readNumber negative text = (t, some rest)) :
    ∃ n : Figure, n.negative = negative ∧ text = n.unsigned ++ rest ∧ t = .number n.numeral := by
  unfold readNumber at read
  split at read
  next => exact absurd read (missingDigit_ne _ _ _)
  next digits after some taken =>
    split at read
    next => cases read
    next alone =>
      obtain ⟨rfl, all⟩ := takeDigits_spelled taken
      obtain ⟨fraction, exponent, rfl, rfl⟩ := readFraction_spelled read
      have zero : digits.head? = .some '0' → digits.length ≤ 1 := fun zero =>
        Nat.not_lt.mp fun long => alone ⟨zero, long⟩
      refine ⟨⟨negative, ⟨digits, all, by simpa using some⟩, zero, fraction, exponent⟩, rfl, ?_,
        rfl⟩
      cases fraction <;> cases exponent <;>
        simp [Figure.unsigned, Figure.fractionRunes, Figure.exponentRunes, Digits.runes]

end Numbers

/-! ### Values -/

/-- Whether a tree is a list or an object with its closing bracket. -/
def Tree.IsClosed : Tree → Prop
  | .list _ close | .object _ close => close = .closed
  | _ => False

theorem readWord_open {value : Tree} (atom : ¬value.IsClosed) (word : List Char)
    (text : List Rune) : ¬(readWord value word text).1.IsClosed := by
  induction word generalizing text with
  | nil => simpa only [readWord] using atom
  | cons w word ih =>
    cases text with
    | nil => exact id
    | cons r text =>
      rw [readWord]
      split
      · exact ih text
      · exact id

section Atoms

variable {negative : Bool} {whole fraction : List Char} {text : List Rune}

theorem missingDigit_open : ¬(missingDigit text).1.IsClosed := by
  unfold missingDigit
  split <;> exact id

theorem readExponent_open : ¬(readExponent negative whole fraction text).1.IsClosed := by
  unfold readExponent
  split
  · split
    · dsimp only
      split
      · exact missingDigit_open
      · exact id
    · exact id
  · exact id

theorem readFraction_open : ¬(readFraction negative whole text).1.IsClosed := by
  unfold readFraction
  split
  · split
    · split
      · exact missingDigit_open
      · exact readExponent_open
    · exact readExponent_open
  · exact readExponent_open

theorem readNumber_open : ¬(readNumber negative text).1.IsClosed := by
  unfold readNumber
  split
  · exact missingDigit_open
  · split
    · exact id
    · exact readFraction_open

end Atoms

theorem skipSpace_spelled (text : List Rune) : ∃ b : Blanks, text = b.runes ++ skipSpace text := by
  induction text with
  | nil => exact ⟨.none, rfl⟩
  | cons r rest ih =>
    cases r with
    | stray octets => exact ⟨.none, rfl⟩
    | char c =>
      rw [skipSpace]
      split
      next space =>
        obtain ⟨b, same⟩ := ih
        exact ⟨⟨c :: b.chars, List.forall_mem_cons.mpr ⟨space, b.all⟩⟩,
          congrArg (.char c :: ·) same⟩
      next => exact ⟨.none, rfl⟩

/-- A value with blanks before it. -/
def Written.behind (b : Blanks) (w : Written) : Written := .padded b w .none

theorem runes_behind (b : Blanks) (w : Written) : (w.behind b).runes = b.runes ++ w.runes := by
  simp [Written.behind, Written.runes, Blanks.runes, Blanks.none]

/-- A value with blanks after it. -/
def Written.before (w : Written) (b : Blanks) : Written := .padded .none w b

theorem runes_before (w : Written) (b : Blanks) : (w.before b).runes = w.runes ++ b.runes := by
  simp [Written.before, Written.runes, Blanks.runes, Blanks.none]

/-- How the reading of a value ends: without a rest, and then no list and no object is closed,
or behind a text of the grammar. -/
inductive ValueEnd (text : List Rune) : Tree → Option (List Rune) → Prop where
  | unfinished {t : Tree} (isOpen : ¬t.IsClosed) : ValueEnd text t none
  | written (w : Written) {rest : List Rune} (same : text = w.runes ++ rest) :
    ValueEnd text w.tree (some rest)

inductive ItemsEnd (text : List Rune) : List Tree → Close → Option (List Rune) → Prop where
  | unfinished {items : List Tree} {close : Close} (isOpen : close ≠ .closed) :
    ItemsEnd text items close none
  | written (item : Written) (more : List Written) {rest : List Rune}
    (same : text = item.runes ++ (moreItemRunes more ++ rest)) :
    ItemsEnd text (writtenItems (item :: more)) .closed (some rest)

inductive MembersEnd (text : List Rune) :
    List (Quoted × Tree) → Close → Option (List Rune) → Prop where
  | unfinished {members : List (Quoted × Tree)} {close : Close} (isOpen : close ≠ .closed) :
    MembersEnd text members close none
  | written (key : Key) (value : Written) (more : List (Key × Written)) {rest : List Rune}
    (same : text = key.body ++ (value.runes ++ (moreMemberRunes more ++ rest))) :
    MembersEnd text (writtenMembers ((key, value) :: more)) .closed (some rest)

/-- What is read with some fuel ends as it may. -/
structure Faithful (fuel : Nat) : Prop where
  value {text : List Rune} {t : Tree} {rest : Option (List Rune)}
    (read : readValue fuel text = (t, rest)) : ValueEnd text t rest
  items {text : List Rune} {items : List Tree} {close : Close} {rest : Option (List Rune)}
    (read : readItems fuel text = (items, close, rest)) : ItemsEnd text items close rest
  members {text : List Rune} {members : List (Quoted × Tree)} {close : Close}
    {rest : Option (List Rune)} (read : readMembers fuel text = (members, close, rest)) :
    MembersEnd text members close rest

namespace Faithful

variable {fuel : Nat} {text : List Rune} {t : Tree} {close : Close} {rest : Option (List Rune)}

theorem items_step (ih : Faithful fuel) {items : List Tree}
    (read : readItems (fuel + 1) text = (items, close, rest)) : ItemsEnd text items close rest := by
  rw [readItems] at read
  split at read
  next =>
    cases read
    exact .unfinished (by simp)
  next left here =>
    obtain _ | ⟨w, rfl⟩ := ih.value here
    obtain ⟨b, spaced⟩ := skipSpace_spelled left
    split at read
    next =>
      cases read
      exact .unfinished (by simp)
    next r more found =>
      rw [found] at spaced
      subst spaced
      split at read
      next closing =>
        cases read
        refine .written (w.before b) [] ?_
        rw [closing, runes_before, List.append_assoc]
        rfl
      next =>
        split at read
        next comma =>
          obtain ⟨b', spaced'⟩ := skipSpace_spelled more
          split at read
          next =>
            cases read
            exact .unfinished (by simp)
          next s after found' =>
            rw [found'] at spaced'
            subst spaced'
            split at read
            next =>
              cases read
              exact .unfinished (by simp)
            next =>
              cases others : readItems fuel (s :: after) with
              | mk items' tail =>
                obtain ⟨close', left'⟩ := tail
                rw [others] at read
                cases read
                cases ih.items others with
                | unfinished isOpen => exact .unfinished isOpen
                | written next last same =>
                  refine .written (w.before b) (next.behind b' :: last) ?_
                  rw [same, comma, runes_before, moreItemRunes, runes_behind]
                  simp only [List.append_assoc, List.cons_append]
        next =>
          cases read
          exact .unfinished (by simp)

/-- What stands behind the value of a member. -/
theorem member_step (ih : Faithful fuel) (letters : List Letter) (trail : Blanks) (w : Written)
    {left : List Rune} {members : List (Quoted × Tree)}
    (read : (match skipSpace left with
      | [] => ([(.ofLetters letters, w.tree)], .ended, none)
      | r :: more =>
        if r = .char '\x7d' then ([(.ofLetters letters, w.tree)], .closed, some more)
        else if r = .char ',' then
          match skipSpace more with
          | [] => ([(.ofLetters letters, w.tree)], .commaEnded, none)
          | s :: after =>
            if s = .char '"' then
              let (members, close, rest) := readMembers fuel after
              ((.ofLetters letters, w.tree) :: members, close, rest)
            else if s = .char '\x7d' then ([(.ofLetters letters, w.tree)], .commaClosed, none)
            else ([(.ofLetters letters, w.tree)], .commaOther, none)
        else ([(.ofLetters letters, w.tree)], .noSeparator, none)) = (members, close, rest)) :
    MembersEnd (closedRunes letters ++ (trail.runes ++ .char ':' :: (w.runes ++ left)))
      members close rest := by
  obtain ⟨b, spaced⟩ := skipSpace_spelled left
  split at read
  next =>
    cases read
    exact .unfinished (by simp)
  next r more found =>
    rw [found] at spaced
    subst spaced
    split at read
    next closing =>
      cases read
      refine .written ⟨.none, letters, trail⟩ (w.before b) [] ?_
      rw [closing, runes_before, Key.body]
      simp only [List.append_assoc, moreMemberRunes, List.cons_append, List.nil_append]
    next =>
      split at read
      next comma =>
        obtain ⟨lead, spaced'⟩ := skipSpace_spelled more
        split at read
        next =>
          cases read
          exact .unfinished (by simp)
        next s after found' =>
          rw [found'] at spaced'
          subst spaced'
          split at read
          next quote =>
            cases others : readMembers fuel after with
            | mk members' tail =>
              obtain ⟨close', left'⟩ := tail
              rw [others] at read
              cases read
              cases ih.members others with
              | unfinished isOpen => exact .unfinished isOpen
              | written key value last same =>
                refine .written ⟨.none, letters, trail⟩ (w.before b)
                  (({ key with lead }, value) :: last) ?_
                rw [same, comma, quote, runes_before, moreMemberRunes]
                simp only [Key.body, List.append_assoc, List.cons_append, List.nil_append]
          next =>
            split at read <;>
            · cases read
              exact .unfinished (by simp)
      next =>
        cases read
        exact .unfinished (by simp)

theorem members_step (ih : Faithful fuel) {members : List (Quoted × Tree)}
    (read : readMembers (fuel + 1) text = (members, close, rest)) :
    MembersEnd text members close rest := by
  rw [readMembers] at read
  split at read
  next =>
    cases read
    exact .unfinished (by simp)
  next q left named =>
    obtain ⟨letters, rfl, rfl⟩ := readString_spelled named
    obtain ⟨trail, spaced⟩ := skipSpace_spelled left
    split at read
    next =>
      cases read
      exact .unfinished (by simp)
    next r more found =>
      rw [found] at spaced
      subst spaced
      split at read
      next colon =>
        subst colon
        split at read
        next =>
          cases read
          exact .unfinished (by simp)
        next left here =>
          obtain _ | ⟨w, rfl⟩ := ih.value here
          exact ih.member_step letters trail w read
      next =>
        cases read
        exact .unfinished (by simp)

/-- What stands behind an opening bracket. -/
theorem list_step (ih : Faithful fuel)
    (read : (match skipSpace text with
      | [] => (.list [] .ended, none)
      | r :: more =>
        if r = .char ']' then (.list [] .closed, some more)
        else
          let (items, close, rest) := readItems fuel (r :: more)
          (.list items close, rest)) = (t, rest)) : ValueEnd (.char '[' :: text) t rest := by
  obtain ⟨inside, spaced⟩ := skipSpace_spelled text
  split at read
  next =>
    cases read
    exact .unfinished (by simp [Tree.IsClosed])
  next r more found =>
    rw [found] at spaced
    subst spaced
    split at read
    next closing =>
      cases read
      refine .written (.list inside []) ?_
      rw [closing, Written.runes, List.cons_append, List.append_assoc]
      rfl
    next =>
      cases several : readItems fuel (r :: more) with
      | mk items tail =>
        obtain ⟨close, left⟩ := tail
        rw [several] at read
        cases read
        cases ih.items several with
        | unfinished isOpen => exact .unfinished isOpen
        | written item others same =>
          refine .written (.list inside (item :: others)) ?_
          rw [same, Written.runes]
          simp only [List.cons_append, List.append_assoc]

/-- What stands behind an opening brace. -/
theorem object_step (ih : Faithful fuel)
    (read : (match skipSpace text with
      | [] => (.object [] .ended, none)
      | r :: more =>
        if r = .char '\x7d' then (.object [] .closed, some more)
        else if r = .char '"' then
          let (members, close, rest) := readMembers fuel more
          (.object members close, rest)
        else (.object [] (.keyless (readValue fuel (r :: more)).1.found), none)) = (t, rest)) :
    ValueEnd (.char '\x7b' :: text) t rest := by
  obtain ⟨inside, spaced⟩ := skipSpace_spelled text
  split at read
  next =>
    cases read
    exact .unfinished (by simp [Tree.IsClosed])
  next r more found =>
    rw [found] at spaced
    subst spaced
    split at read
    next closing =>
      cases read
      refine .written (.object inside []) ?_
      rw [closing, Written.runes, List.cons_append, List.append_assoc]
      rfl
    next =>
      split at read
      next quote =>
        cases several : readMembers fuel more with
        | mk members tail =>
          obtain ⟨close, left⟩ := tail
          rw [several] at read
          cases read
          cases ih.members several with
          | unfinished isOpen => exact .unfinished isOpen
          | written key value others same =>
            refine .written (.object inside (({ key with lead := .none }, value) :: others)) ?_
            rw [same, quote, Written.runes]
            simp only [Key.body, Blanks.runes, Blanks.none, List.map_nil, List.nil_append,
              List.cons_append, List.append_assoc]
      next =>
        cases read
        exact .unfinished (by simp [Tree.IsClosed])

/-- A word, from its first letter. -/
theorem word_step (value : Written) {word : List Char} {first : Char} {text : List Rune}
    (atom : ¬value.tree.IsClosed) (runes : value.runes = (first :: word).map .char)
    (read : readWord value.tree word text = (t, rest)) : ValueEnd (.char first :: text) t rest := by
  cases rest with
  | none =>
    have isOpen := readWord_open atom word text
    rw [read] at isOpen
    exact .unfinished isOpen
  | some rest =>
    obtain ⟨rfl, rfl⟩ := readWord_spelled read
    exact .written value (by rw [runes]; rfl)

/-- A number, from its sign if it has one. -/
theorem number_step (before : List Rune) {negative : Bool} {text : List Rune}
    (sign : before = if negative then [.char '-'] else [])
    (read : readNumber negative text = (t, rest)) : ValueEnd (before ++ text) t rest := by
  cases rest with
  | none =>
    have isOpen : ¬(readNumber negative text).1.IsClosed := readNumber_open
    rw [read] at isOpen
    exact .unfinished isOpen
  | some rest =>
    obtain ⟨n, rfl, rfl, rfl⟩ := readNumber_spelled read
    refine .written (.number n) ?_
    rw [sign, Written.runes, Figure.runes]
    split <;> rfl

theorem value_step (ih : Faithful fuel) (read : readValue (fuel + 1) text = (t, rest)) :
    ValueEnd text t rest := by
  obtain ⟨b, spaced⟩ := skipSpace_spelled text
  rw [readValue] at read
  suffices behind : ValueEnd (skipSpace text) t rest by
    cases behind with
    | unfinished isOpen => exact .unfinished isOpen
    | written w same =>
      refine .written (w.behind b) ?_
      rw [runes_behind, List.append_assoc, ← same, ← spaced]
  clear spaced
  -- A case for each character that a value can begin with.
  split at read
  next ended =>
    cases read
    exact .unfinished id
  next =>
    cases read
    exact .unfinished id
  next c more start =>
    rw [start]
    split at read
    next quote =>
      cases string : readString more with
      | mk q left =>
        rw [string] at read
        cases read
        cases rest with
        | none => exact .unfinished id
        | some left =>
          obtain ⟨letters, rfl, rfl⟩ := readString_spelled string
          exact .written (.string letters) (by rw [quote]; rfl)
    next =>
      split at read
      next bracket => exact bracket ▸ ih.list_step read
      next =>
        split at read
        next brace => exact brace ▸ ih.object_step read
        next =>
          split at read
          next first => exact first ▸ word_step .null id rfl read
          next =>
            split at read
            next first => exact first ▸ word_step (.boolean true) id rfl read
            next =>
              split at read
              next first => exact first ▸ word_step (.boolean false) id rfl read
              next =>
                split at read
                next sign => exact sign ▸ number_step [.char '-'] rfl read
                next =>
                  split at read
                  next => exact number_step [] rfl read
                  next =>
                    cases read
                    exact .unfinished id

end Faithful

/-- Whatever is read ends as it may, with any fuel. -/
theorem faithful (fuel : Nat) : Faithful fuel := by
  induction fuel with
  | zero =>
    constructor
    · intro text t rest read
      cases read
      exact .unfinished id
    · intro text items close rest read
      cases read
      exact .unfinished nofun
    · intro text members close rest read
      cases read
      exact .unfinished nofun
  | succ fuel ih => exact ⟨ih.value_step, ih.items_step, ih.members_step⟩

/-! ### Records -/

/-- A record is made of a list or an object that is closed. -/
theorem isClosed_of_decode {α : Type} {record : Record α} {what : String}
    {length : Record.Length} {t : Tree} {a : α} (decoded : record.decode what length t = .ok a) :
    t.IsClosed := by
  cases t with
  | object members close =>
    rw [Record.decode] at decoded
    obtain ⟨found, -, closing⟩ := of_bind_ok decoded
    obtain ⟨nothing, unflawed, -⟩ := of_bind_ok closing
    cases close <;> first | rfl | cases unflawed
  | list items close =>
    simp only [Record.decode] at decoded
    obtain ⟨found, -, closing⟩ := of_bind_ok decoded
    split at closing
    next =>
      obtain ⟨nothing, unflawed, -⟩ := of_bind_ok closing
      cases close <;> first | rfl | cases unflawed
    next =>
      obtain ⟨value, -, closing⟩ := of_bind_ok closing
      obtain ⟨nothing, unflawed, -⟩ := of_bind_ok closing
      unfold Record.surplus at unflawed
      split at unflawed
      next => cases unflawed
      next => cases close <;> first | rfl | cases unflawed
  | _ =>
    simp only [Record.decode, Tree.mismatch] at decoded
    split at decoded <;> cases decoded

/-- A text is read as a record exactly if it is one of the grammar and its tree is. -/
theorem readRunes_decode_iff {α : Type} {record : Record α} {what : String}
    {length : Record.Length} {text : List Rune} {a : α} :
    readRunes (record.decode what length) text = .ok a ↔
      ∃ w : Written, w.runes = text ∧ record.decode what length w.tree = .ok a := by
  constructor
  · intro read
    obtain ⟨value, decoded, read⟩ := of_bind_ok read
    split at read
    next => cases read
    next nothing =>
      cases read
      have isClosed := isClosed_of_decode decoded
      unfold Document.ofRunes at decoded isClosed nothing
      cases whole : readValue (2 * text.length + 2) text with
      | mk t rest =>
        rw [whole] at decoded isClosed nothing
        cases (faithful _).value whole with
        | unfinished isOpen => exact absurd isClosed isOpen
        | written w same =>
          next rest =>
          obtain ⟨b, blank⟩ := skipSpace_spelled rest
          have none : skipSpace rest = [] := by simpa using nothing
          rw [none, List.append_nil] at blank
          refine ⟨w.before b, ?_, decoded⟩
          rw [runes_before, same, blank]
  · rintro ⟨w, rfl, decoded⟩
    rw [readRunes, ofRunes_written, decoded]
    rfl

end StorageControl.Json
