import StorageControl.Instant.Reader

/-! Instants, read back.

Every number in a written instant has the digits that its part allows, and behind it
stands something that is no digit, so that each part is read up to where it ends. What is
written is always in UTC, so that reading takes no day off or on.
-/

set_option autoImplicit false

namespace StorageControl.Instant

open StorageControl.Text (isBlank trimStart)

/-! ### Numbers -/

/-- Whether a text does not go on with a digit. -/
def Stops (text : List Char) : Prop := ∀ c ∈ text.head?, isDigit c = false

theorem stops_cons {c : Char} (other : isDigit c = false) (rest : List Char) :
    Stops (c :: rest) := by
  intro d head
  cases head
  exact other

section Digits

variable {digits rest : List Char}

/-- A digit that is read is one less of those that a limit allows. -/
theorem fits_tail {limit : Option Nat} {c : Char}
    (fits : ∀ k ∈ limit, (c :: digits).length ≤ k) :
    ∀ k ∈ limit.map (· - 1), digits.length ≤ k := by
  intro k limited
  obtain ⟨k, whole, rfl⟩ := Option.map_eq_some_iff.mp limited
  exact Nat.le_sub_one_of_lt (fits k whole)

theorem moreDigits_append (all : ∀ c ∈ digits, isDigit c = true) (stops : Stops rest)
    {limit : Option Nat} (fits : ∀ k ∈ limit, digits.length ≤ k) (n : Nat) :
    moreDigits n limit (digits ++ rest) = (Nat.ofDigitChars 10 digits n, rest) := by
  induction digits generalizing limit n with
  | nil =>
    rw [List.nil_append, Nat.ofDigitChars_nil]
    unfold moreDigits
    split
    · rfl
    · rfl
    next c rest _ => rw [if_neg (Bool.eq_false_iff.mp (stops c rfl))]
  | cons c digits ih =>
    obtain ⟨here, later⟩ := List.forall_mem_cons.mp all
    have room : limit ≠ some 0 := by
      rintro rfl
      exact absurd (fits 0 rfl) (by simp)
    rw [List.cons_append, moreDigits, if_pos here, ih later (fits_tail fits), Nat.ofDigitChars_cons,
      Nat.mul_comm]
    · rfl
    · exact fun none => room none

/-- A number is read up to what is no digit. -/
theorem number_append (all : ∀ c ∈ digits, isDigit c = true) (some : digits ≠ [])
    (stops : Stops rest) {limit : Option Nat} (fits : ∀ k ∈ limit, digits.length ≤ k) :
    number limit (digits ++ rest) = .ok (Nat.ofDigitChars 10 digits 0, rest) := by
  cases digits with
  | nil => exact absurd rfl some
  | cons c digits =>
    obtain ⟨here, later⟩ := List.forall_mem_cons.mp all
    rw [List.cons_append, number, if_pos here,
      moreDigits_append later stops (fits_tail fits), Nat.ofDigitChars_cons, Nat.mul_zero,
      Nat.zero_add]
    rfl

theorem decimals_append (all : ∀ c ∈ digits, isDigit c = true) (stops : Stops rest)
    {count : Nat} (fits : count + digits.length ≤ 9) (n : Nat) :
    decimals n count (digits ++ rest) =
      (Nat.ofDigitChars 10 digits n, count + digits.length, rest) := by
  induction digits generalizing count n with
  | nil =>
    cases rest with
    | nil => rfl
    | cons c rest =>
      rw [List.nil_append, decimals, if_neg (Bool.eq_false_iff.mp (stops c rfl))]
      rfl
  | cons c digits ih =>
    obtain ⟨here, later⟩ := List.forall_mem_cons.mp all
    rw [List.length_cons] at fits ⊢
    rw [List.cons_append, decimals, if_pos here, if_pos (by omega), ih later (by omega),
      Nat.ofDigitChars_cons, Nat.mul_comm, Nat.add_right_comm, Nat.add_assoc]
    rfl

end Digits

section Padded

variable {width n : Nat}

theorem padded_digits : ∀ c ∈ padded width n, isDigit c = true := by
  intro c member
  rcases List.mem_append.mp member with zero | digit
  · rw [List.eq_of_mem_replicate zero]
    rfl
  · have digit : c.isDigit = true := Nat.isDigit_of_mem_toDigits (by decide) (by decide) digit
    exact digit

theorem padded_value : Nat.ofDigitChars 10 (padded width n) 0 = n := by
  rw [padded, Decimal.padLeft, Nat.ofDigitChars_append, Nat.ofDigitChars_replicate_zero,
    Nat.mul_zero]
  exact Nat.ofDigitChars_ten_toDigits

theorem padded_length (wide : 0 < width) (fits : n < Nat.pow 10 width) :
    (padded width n).length = width := by
  have short := (Nat.length_toDigits_le_iff (by decide) wide).mpr fits
  rw [padded, Decimal.padLeft, List.length_append, List.length_replicate]
  exact Nat.sub_add_cancel short

theorem padded_ne_nil : padded width n ≠ [] := by
  simp [padded, Decimal.padLeft, Decimal.digitTexts]

end Padded

/-! ### Parts -/

section Parts

variable {rest : List Char}

theorem trimStart_of_solid {c : Char} (solid : isBlank c = false) :
    trimStart (c :: rest) = c :: rest := by
  rw [trimStart, List.dropWhile_cons, if_neg (Bool.eq_false_iff.mp solid)]

theorem solid_of_isDigit {c : Char} (digit : isDigit c = true) : isBlank c = false := by
  simp only [isDigit, Bool.and_eq_true, decide_eq_true_eq, Char.le_def, UInt32.le_iff_toNat_le]
    at digit
  have low : 0x30 ≤ c.toNat := digit.1
  have high : c.toNat ≤ 0x39 := digit.2
  simp [isBlank]
  omega

/-- A padded number begins with a digit. -/
theorem head_padded (width n : Nat) :
    ∃ c digits, padded width n = c :: digits ∧ isDigit c = true := by
  cases written : padded width n with
  | nil => exact absurd written padded_ne_nil
  | cons c digits => exact ⟨c, digits, rfl, padded_digits c (written ▸ List.mem_cons_self)⟩

theorem trimStart_padded (width n : Nat) :
    trimStart (padded width n ++ rest) = padded width n ++ rest := by
  obtain ⟨c, digits, written, digit⟩ := head_padded width n
  rw [written]
  exact trimStart_of_solid (solid_of_isDigit digit)

theorem padded_append_ne {width n : Nat} {c : Char} (other : isDigit c = false)
    (more : List Char) : padded width n ++ rest ≠ c :: more := by
  obtain ⟨d, digits, written, digit⟩ := head_padded width n
  rw [written]
  rintro ⟨⟩
  rw [digit] at other
  cases other

theorem number_padded {width n : Nat} (stops : Stops rest) {limit : Option Nat}
    (fits : ∀ k ∈ limit, (padded width n).length ≤ k) :
    number limit (padded width n ++ rest) = .ok (n, rest) := by
  rw [number_append padded_digits padded_ne_nil stops fits, padded_value]

theorem part_padded {low high n : Nat} (bounds : low ≤ n ∧ n ≤ high) (small : n < 100)
    (stops : Stops rest) : part low high (padded 2 n ++ rest) = .ok (n, rest) := by
  have width : (padded 2 n).length = 2 := padded_length (by decide) small
  have read : number (some 2) (padded 2 n ++ rest) = .ok (n, rest) := by
    apply number_padded stops
    simp [width]
  rw [part, trimStart_padded, read]
  exact if_pos bounds

theorem mark_cons {c : Char} (solid : isBlank c = false) : mark c (c :: rest) = .ok rest := by
  rw [mark, trimStart_of_solid solid]
  exact if_pos rfl

/-- A year is read with its sign, if it has one. -/
theorem yearPart_yearText {year : Int} (first : Calendar.firstYear ≤ year)
    (last : year ≤ Calendar.lastYear) (stops : Stops rest) :
    yearPart (yearText year ++ rest) = .ok (year, rest) := by
  have first : -262143 ≤ year := first
  have last : year ≤ 262142 := last
  unfold yearText
  split
  next plain =>
    have width : (padded 4 year.toNat).length = 4 :=
      padded_length (by decide) (show _ < 10000 by omega)
    have read : number (some 4) (padded 4 year.toNat ++ rest) = .ok (year.toNat, rest) := by
      apply number_padded stops
      simp [width]
    rw [yearPart, trimStart_padded]
    split
    next minus => exact absurd minus (padded_append_ne rfl _)
    next plus => exact absurd plus (padded_append_ne rfl _)
    next =>
      rw [read]
      show Except.ok (Int.ofNat year.toNat, rest) = _
      rw [Int.ofNat_eq_natCast, Int.toNat_of_nonneg plain.1]
  next signed =>
    have read : number none (padded 4 year.natAbs ++ rest) = .ok (year.natAbs, rest) :=
      number_padded stops nofun
    have size : year.natAbs < Word.limit 31 := by
      show year.natAbs < 2147483648
      omega
    by_cases negative : year < 0
    · rw [if_pos negative, List.cons_append, yearPart, trimStart_of_solid (by decide)]
      simp only [read, bind, Except.bind, if_pos (Nat.le_of_lt size)]
      rw [Int.ofNat_eq_natCast, Int.ofNat_natAbs_of_nonpos (by omega), Int.neg_neg]
    · rw [if_neg negative, List.cons_append, yearPart, trimStart_of_solid (by decide)]
      simp only [read, bind, Except.bind, if_pos size]
      rw [Int.ofNat_eq_natCast, Int.natAbs_of_nonneg (by omega)]

theorem nanoPart_point {digits : List Char} (all : ∀ c ∈ digits, isDigit c = true)
    (some : digits ≠ []) (short : digits.length ≤ 9) (stops : Stops rest) :
    nanoPart ('.' :: (digits ++ rest)) =
      .ok (Nat.ofDigitChars 10 digits 0 * Nat.pow 10 (9 - digits.length), rest) := by
  cases digits with
  | nil => exact absurd rfl some
  | cons c digits =>
    have read : decimals 0 0 (c :: digits ++ rest) = _ :=
      decimals_append all stops (by simpa using short) 0
    rw [List.cons_append] at read ⊢
    simp only [nanoPart, if_pos (all c List.mem_cons_self), read, Nat.zero_add]

/-- The decimals of a second are read to the nanosecond. -/
theorem nanoPart_decimalsText {nano : Nat} (small : nano < 1000000000) (stops : Stops rest)
    (point : rest.head? ≠ some '.') :
    nanoPart (decimalsText nano ++ rest) = .ok (nano, rest) := by
  have decimals {width n : Nat} (wide : 0 < width) (short : width ≤ 9)
      (fits : n < Nat.pow 10 width) :
      nanoPart ('.' :: (padded width n ++ rest)) = .ok (n * Nat.pow 10 (9 - width), rest) := by
    have length := padded_length wide fits
    rw [nanoPart_point padded_digits padded_ne_nil (by omega) stops, padded_value, length]
  unfold decimalsText
  split
  next zero =>
    subst zero
    rw [List.nil_append]
    unfold nanoPart
    split
    · exact absurd rfl point
    · rfl
  · split
    next millis =>
      have whole : nano / 1000000 * 1000000 = nano := by omega
      rw [List.cons_append, decimals (by decide) (by decide) (show _ < 1000 by omega)]
      exact congrArg (fun n => Except.ok (n, rest)) whole
    · split
      next micros =>
        have whole : nano / 1000 * 1000 = nano := by omega
        rw [List.cons_append, decimals (by decide) (by decide) (show _ < 1000000 by omega)]
        exact congrArg (fun n => Except.ok (n, rest)) whole
      next =>
        rw [List.cons_append, decimals (by decide) (by decide) (show _ < 1000000000 from small)]
        exact congrArg (fun n => Except.ok (n, rest)) (Nat.mul_one nano)

end Parts

/-! ### Instants -/

theorem ofParts?_self (i : Instant) :
    ofParts? i.year i.month i.day i.hour i.minute i.second i.nano = some i := by
  rw [ofParts?, dif_pos i.isDate, dif_pos i.isTime]

theorem fromOffset?_zero (i : Instant) : i.fromOffset? 0 = some i := by
  have time := i.isTime
  simp only [Calendar.isTime, Bool.and_eq_true, decide_eq_true_eq] at time
  obtain ⟨⟨⟨hour, minute⟩, -⟩, -⟩ := time
  have minutes : ((i.hour * 60 + i.minute : Nat) : Int) - 0 = (i.hour * 60 + i.minute : Nat) := by
    omega
  simp only [fromOffset?, minutes]
  rw [if_neg (by omega), if_neg (by omega), atMinute?, Int.toNat_natCast,
    show (i.hour * 60 + i.minute) / 60 = i.hour by omega,
    show (i.hour * 60 + i.minute) % 60 = i.minute by omega]
  exact i.ofParts?_self

theorem stops_decimalsText (nano : Nat) {rest : List Char} (stops : Stops rest) :
    Stops (decimalsText nano ++ rest) := by
  unfold decimalsText
  split
  · exact stops
  · split
    · exact stops_cons rfl _
    · split <;> exact stops_cons rfl _

theorem read_clockText (i : Instant) : read (i.clockText ++ ['Z']) = .ok i := by
  have date := i.isDate
  simp only [Calendar.isDate, Bool.and_eq_true, decide_eq_true_eq] at date
  obtain ⟨⟨⟨⟨⟨first, last⟩, month⟩, months⟩, day⟩, days⟩ := date
  have time := i.isTime
  simp only [Calendar.isTime, Bool.and_eq_true, decide_eq_true_eq] at time
  obtain ⟨⟨⟨hour, minute⟩, second⟩, nano⟩ := time
  have days : i.day ≤ 31 := by
    refine Nat.le_trans days ?_
    unfold Calendar.monthLength
    split <;> (try split) <;> decide
  have zone : Stops ['Z'] := stops_cons rfl []
  -- Each part is read up to the mark behind it.
  have years (rest : List Char) := yearPart_yearText first last (stops_cons (c := '-') rfl rest)
  have months (rest : List Char) : part 1 12 (padded 2 i.month ++ '-' :: rest) =
      .ok (i.month, '-' :: rest) := part_padded ⟨month, months⟩ (by omega) (stops_cons rfl rest)
  have days (rest : List Char) : part 1 31 (padded 2 i.day ++ 'T' :: rest) =
      .ok (i.day, 'T' :: rest) := part_padded ⟨day, days⟩ (by omega) (stops_cons rfl rest)
  have hours (rest : List Char) : part 0 23 (padded 2 i.hour ++ ':' :: rest) =
      .ok (i.hour, ':' :: rest) :=
    part_padded ⟨Nat.zero_le _, hour⟩ (by omega) (stops_cons rfl rest)
  have minutes (rest : List Char) : part 0 59 (padded 2 i.minute ++ ':' :: rest) =
      .ok (i.minute, ':' :: rest) :=
    part_padded ⟨Nat.zero_le _, minute⟩ (by omega) (stops_cons rfl rest)
  have seconds : part 0 60 (padded 2 i.second ++ (decimalsText i.nano ++ ['Z'])) =
      .ok (i.second, decimalsText i.nano ++ ['Z']) :=
    part_padded ⟨Nat.zero_le _, second⟩ (by omega) (stops_decimalsText i.nano zone)
  have nanos := nanoPart_decimalsText nano zone (by decide)
  have dash (rest : List Char) : mark '-' ('-' :: rest) = .ok rest := mark_cons rfl
  have colon (rest : List Char) : mark ':' (':' :: rest) = .ok rest := mark_cons rfl
  have letter (rest : List Char) : clockMark ('T' :: rest) = .ok rest := rfl
  have offset : offsetPart (trimStart ['Z']) = .ok (0, []) := rfl
  simp only [read, clockText, List.append_assoc, List.cons_append, years, dash, months, days,
    letter, hours, colon, minutes, seconds, nanos, offset, bind, Except.bind, ofParts?_self,
    fromOffset?_zero]
  rfl

/-- Every instant is read back from its text: leap seconds, any year, to the nanosecond. -/
theorem ofText_text (i : Instant) : ofText i.text = .ok i := by
  rw [ofText, text, String.toList_ofList, read_clockText]
  rfl

end StorageControl.Instant
