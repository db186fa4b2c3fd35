import StorageControl.Url

/-! Escaped text, read back.

Text without percent signs of its own is known from its escaped form. Nor can such a text
turn into a dot segment by being escaped.
-/

set_option autoImplicit false

namespace StorageControl.Url

open StorageControl.Text (octets)

/-! ### Octets -/

theorem octets_injective {s t : List Char} (same : s.flatMap octets = t.flatMap octets) :
    s = t := by
  have bytes : s.utf8Encode = t.utf8Encode := congrArg List.toByteArray same
  have decoded := List.utf8Decode?_utf8Encode (l := s)
  rw [bytes, List.utf8Decode?_utf8Encode] at decoded
  simpa using decoded.symm

theorem hexValue?_hexDigit (n : Nat) (digit : n < 16) : hexValue? (hexDigit n) = some n := by
  revert digit
  decide +revert

theorem unescape_percent (octet : UInt8) (rest : List Char) :
    unescape (percent octet ++ rest) = octet :: unescape rest := by
  have bound := octet.toNat_lt
  simp only [percent, List.cons_append, List.nil_append, unescape]
  rw [hexValue?_hexDigit _ (by omega), hexValue?_hexDigit _ (by omega)]
  simp only [Nat.div_add_mod', UInt8.ofNat_toNat]

theorem unescape_cons {c : Char} (plain : c ≠ '%') (rest : List Char) :
    unescape (c :: rest) = octets c ++ unescape rest := by
  rw [unescape]
  rintro a b more rfl
  simp_all

theorem unescape_percents (bytes : List UInt8) (rest : List Char) :
    unescape (bytes.flatMap percent ++ rest) = bytes ++ unescape rest := by
  induction bytes with
  | nil => rfl
  | cons byte bytes ih =>
    rw [List.flatMap_cons, List.append_assoc, unescape_percent, ih, List.cons_append]

theorem escape_cons (escaped : Char → Bool) (c : Char) (text : List Char) :
    escape escaped (c :: text) =
      (if escaped c then percentChar c else [c]) ++ escape escaped text := rfl

theorem escape_append (escaped : Char → Bool) (s t : List Char) :
    escape escaped (s ++ t) = escape escaped s ++ escape escaped t :=
  List.flatMap_append

theorem unescape_escape_of_kept {escaped : Char → Bool} {text : List Char}
    (kept : ∀ c ∈ text, escaped c = false → c ≠ '%') :
    unescape (escape escaped text) = text.flatMap octets := by
  induction text with
  | nil => rfl
  | cons c text ih =>
    obtain ⟨here, rest⟩ := List.forall_mem_cons.mp kept
    rw [escape_cons, List.flatMap_cons]
    -- Escaped or kept, a character is read as its octets.
    split
    · rw [percentChar, unescape_percents, ih rest]
    next keeps =>
      rw [List.singleton_append, unescape_cons (here (Bool.eq_false_iff.mpr keeps)), ih rest]

theorem unescape_escape (escaped : Char → Bool) {text : List Char} (plain : '%' ∉ text) :
    unescape (escape escaped text) = text.flatMap octets :=
  unescape_escape_of_kept fun _ member _ same => plain (same ▸ member)

theorem escape_injective (escaped : Char → Bool) {s t : List Char} (first : '%' ∉ s)
    (second : '%' ∉ t) (same : escape escaped s = escape escaped t) : s = t := by
  apply octets_injective
  rw [← unescape_escape escaped first, same, unescape_escape escaped second]

theorem query_not_mem_escape (text : List Char) : '?' ∉ escape pathEscaped text := by
  -- It is no hexadecimal digit, and where it is itself it is escaped.
  have digit : ∀ n < 16, hexDigit n ≠ '?' := by decide
  intro member
  obtain ⟨c, -, written⟩ := List.mem_flatMap.mp member
  split at written
  · obtain ⟨octet, -, digits⟩ := List.mem_flatMap.mp written
    have bound := octet.toNat_lt
    simp only [percent, List.mem_cons, List.not_mem_nil, or_false] at digits
    rcases digits with mark | high | low
    · cases mark
    · exact digit _ (by omega) high.symm
    · exact digit _ (by omega) low.symm
  next kept =>
    obtain rfl := List.mem_singleton.mp written
    exact kept rfl

/-! ### Dot segments -/

theorem toLower_cases {c lower : Char} (same : c.toLower = lower) :
    c = lower ∨ (0x41 ≤ c.toNat ∧ lower.toNat = c.toNat + 0x20) := by
  subst same
  unfold Char.toLower
  split
  next capital =>
    have low : 0x41 ≤ c.toNat := UInt32.le_iff_toNat_le.mp capital.1
    have high : c.toNat ≤ 0x5A := UInt32.le_iff_toNat_le.mp capital.2
    refine .inr ⟨low, ?_⟩
    simp
    omega
  next => exact .inl rfl

theorem eq_of_toLower {c lower : Char} (same : c.toLower = lower) (early : lower.toNat < 0x61) :
    c = lower := by
  rcases toLower_cases same with kept | ⟨capital, shifted⟩
  · exact kept
  · omega

theorem eq_of_toLower_e {c : Char} (same : c.toLower = 'e') : c = 'e' ∨ c = 'E' := by
  rcases toLower_cases same with kept | ⟨capital, shifted⟩
  · exact .inl kept
  · right
    have : c.toNat = 'E'.toNat := by simp at shifted ⊢; omega
    exact Char.toNat_inj.mp this

/-- A dot, as it is or escaped, at the beginning of a text. -/
theorem unescape_of_dot {text more : List Char}
    (spelled : text.map Char.toLower = '.' :: more ∨
      text.map Char.toLower = '%' :: '2' :: 'e' :: more) :
    ∃ rest, unescape text = octets '.' ++ unescape rest ∧ rest.map Char.toLower = more := by
  rcases spelled with dot | escaped
  · obtain ⟨a, rest, rfl, dot, remains⟩ := List.map_eq_cons_iff.mp dot
    obtain rfl := eq_of_toLower dot (by decide)
    exact ⟨rest, unescape_cons (by decide) rest, remains⟩
  · obtain ⟨a, _, rfl, percent, escaped⟩ := List.map_eq_cons_iff.mp escaped
    obtain ⟨b, _, rfl, two, escaped⟩ := List.map_eq_cons_iff.mp escaped
    obtain ⟨c, rest, rfl, e, remains⟩ := List.map_eq_cons_iff.mp escaped
    obtain rfl := eq_of_toLower percent (by decide)
    obtain rfl := eq_of_toLower two (by decide)
    rcases eq_of_toLower_e e with rfl | rfl
    · exact ⟨rest, rfl, remains⟩
    · exact ⟨rest, rfl, remains⟩

theorem ofList_eq_iff {text : List Char} {s : String} :
    String.ofList text = s ↔ text = s.toList := by
  constructor
  · rintro rfl
    rw [String.toList_ofList]
  · rintro rfl
    rw [String.ofList_toList]

theorem unescape_of_isHere {text : List Char} (here : isHere text = true) :
    unescape text = ['.'].flatMap octets := by
  simp only [isHere, List.contains_eq_mem, decide_eq_true_eq, List.mem_cons, List.not_mem_nil,
    or_false, ofList_eq_iff] at here
  obtain ⟨rest, read, finished⟩ := unescape_of_dot here
  obtain rfl := List.map_eq_nil_iff.mp finished
  exact read

theorem unescape_of_isUp {text : List Char} (up : isUp text = true) :
    unescape text = ['.', '.'].flatMap octets := by
  simp only [isUp, List.contains_eq_mem, decide_eq_true_eq, List.mem_cons, List.not_mem_nil,
    or_false, ofList_eq_iff] at up
  -- The first dot has two spellings, and the second one has two after each of them.
  have first : ∃ more, (text.map Char.toLower = '.' :: more ∨
      text.map Char.toLower = '%' :: '2' :: 'e' :: more) ∧
      (more = ['.'] ∨ more = ['%', '2', 'e']) := by
    rcases up with both | left | right | none
    · exact ⟨_, .inl both, .inl rfl⟩
    · exact ⟨_, .inl left, .inr rfl⟩
    · exact ⟨_, .inr right, .inl rfl⟩
    · exact ⟨_, .inr none, .inr rfl⟩
  obtain ⟨more, spelled, second⟩ := first
  obtain ⟨rest, read, rfl⟩ := unescape_of_dot spelled
  obtain ⟨rest', read', finished⟩ := unescape_of_dot second
  obtain rfl := List.map_eq_nil_iff.mp finished
  rw [read, read']
  rfl

/-- Escaping makes no dot segment of another text. -/
theorem isHere_escape (escaped : Char → Bool) {text : List Char} (plain : '%' ∉ text)
    (other : text ≠ ['.']) : isHere (escape escaped text) = false := by
  refine Bool.eq_false_iff.mpr fun here => other (octets_injective ?_)
  rw [← unescape_escape escaped plain, unescape_of_isHere here]

theorem isUp_escape (escaped : Char → Bool) {text : List Char} (plain : '%' ∉ text)
    (other : text ≠ ['.', '.']) : isUp (escape escaped text) = false := by
  refine Bool.eq_false_iff.mpr fun up => other (octets_injective ?_)
  rw [← unescape_escape escaped plain, unescape_of_isUp up]

end StorageControl.Url
