import Mathlib.Algebra.Group.Nat.Defs
import StorageControl.Proofs.Escape

/-! Text and its octets.

The octets of a character begin with one that tells how many follow and between which
bounds the first of these is; reading them makes up the number of the character again.
Octets in the order of their numbers are in the order of the characters.
-/

set_option autoImplicit false

namespace StorageControl.Text

/-! ### Single octets -/

theorem toNat_ofNat {n : Nat} (small : n < 256) : (UInt8.ofNat n).toNat = n := by
  rw [UInt8.toNat_ofNat']
  exact Nat.mod_eq_of_lt small

theorem readOctets_plain {n : Nat} (plain : n < 0x80) (rest : List UInt8) :
    readOctets none (UInt8.ofNat n :: rest) = .char (Char.ofNat n) :: readOctets none rest := by
  have value := toNat_ofNat (Nat.lt_trans plain (by decide))
  rw [readOctets, begin?, value, if_pos plain]

theorem readOctets_lead {n more bits low high : Nat}
    (found : lead? n = some ⟨more, bits, low, high⟩)
    (late : 0x80 ≤ n) (small : n < 256) (rest : List UInt8) :
    readOctets none (UInt8.ofNat n :: rest) =
      readOctets (some ⟨[UInt8.ofNat n], more, bits, low, high⟩) rest := by
  rw [readOctets, begin?, toNat_ofNat small, if_neg (Nat.not_lt.mpr late), found]

section Following

variable {seen : List UInt8} {more fewer bits low high n : Nat}

theorem readOctets_next (missing : more = fewer + 1 ∧ 0 < fewer) (above : low ≤ n)
    (below : n ≤ high) (small : n < 256) (rest : List UInt8) :
    readOctets (some ⟨seen, more, bits, low, high⟩) (UInt8.ofNat n :: rest) =
      readOctets (some ⟨seen ++ [UInt8.ofNat n], fewer, bits * 64 + (n - 0x80), 0x80, 0xBF⟩)
        rest := by
  obtain ⟨rfl, some⟩ := missing
  rw [readOctets, toNat_ofNat small, if_pos ⟨above, below⟩]
  exact if_neg (by dsimp only; omega)

theorem readOctets_last (above : low ≤ n) (below : n ≤ high) (small : n < 256)
    (rest : List UInt8) :
    readOctets (some ⟨seen, 1, bits, low, high⟩) (UInt8.ofNat n :: rest) =
      .char (Char.ofNat (bits * 64 + (n - 0x80))) :: readOctets none rest := by
  rw [readOctets, toNat_ofNat small, if_pos ⟨above, below⟩]
  exact if_pos (Nat.le_refl 1)

end Following

/-! ### Leads -/

theorem lead?_two {v : Nat} (low : 0x80 ≤ v) (high : v < 0x800) :
    lead? (v / 64 % 32 + 192) = some ⟨1, v / 64, 0x80, 0xBF⟩ := by
  rw [lead?, if_pos ⟨by omega, by omega⟩, show v / 64 % 32 + 192 - 0xC0 = v / 64 by omega]

theorem lead?_three {v : Nat} (low : 0x800 ≤ v) (high : v < 0x10000)
    (valid : v < 0xD800 ∨ 0xDFFF < v) :
    ∃ least most, lead? (v / 4096 % 16 + 224) = some ⟨2, v / 4096, least, most⟩ ∧
      least ≤ v / 64 % 64 + 128 ∧ v / 64 % 64 + 128 ≤ most := by
  -- The first block leaves out overlong forms, the fourteenth surrogates.
  obtain first | surrogates | other :
      v / 4096 = 0 ∨ v / 4096 = 0xD ∨ v / 4096 ≠ 0 ∧ v / 4096 ≠ 0xD := by omega
  · rw [first]
    exact ⟨_, _, rfl, by omega, by omega⟩
  · rw [surrogates]
    exact ⟨_, _, rfl, by omega, by omega⟩
  · have digit : v / 4096 % 16 = v / 4096 := by omega
    refine ⟨0x80, 0xBF, ?_, by omega, by omega⟩
    rw [lead?, digit, if_neg (by omega), if_neg (by omega), if_neg (by omega),
      if_pos ⟨by omega, by omega⟩, Nat.add_sub_cancel]

theorem lead?_four {v : Nat} (low : 0x10000 ≤ v) (high : v < 0x110000) :
    ∃ least most, lead? (v / 262144 % 8 + 240) = some ⟨3, v / 262144, least, most⟩ ∧
      least ≤ v / 4096 % 64 + 128 ∧ v / 4096 % 64 + 128 ≤ most := by
  obtain first | last | other :
      v / 262144 = 0 ∨ v / 262144 = 4 ∨ 1 ≤ v / 262144 ∧ v / 262144 ≤ 3 := by omega
  · rw [first]
    exact ⟨_, _, rfl, by omega, by omega⟩
  · rw [last]
    exact ⟨_, _, rfl, by omega, by omega⟩
  · have digit : v / 262144 % 8 = v / 262144 := by omega
    refine ⟨0x80, 0xBF, ?_, by omega, by omega⟩
    rw [lead?, digit, if_neg (by omega), if_neg (by omega), if_neg (by omega), if_neg (by omega),
      if_neg (by omega), if_pos ⟨by omega, by omega⟩, Nat.add_sub_cancel]

/-! ### Characters -/

theorem readOctets_octets (c : Char) (rest : List UInt8) :
    readOctets none (octets c ++ rest) = .char c :: readOctets none rest := by
  have valid : c.toNat < 0xD800 ∨ 0xDFFF < c.toNat ∧ c.toNat < 0x110000 := c.valid
  have same := Char.ofNat_toNat c
  unfold octets String.utf8EncodeChar
  rw [show c.val.toNat = c.toNat from rfl]
  generalize c.toNat = v at valid same
  dsimp only
  have second : 2 = 1 + 1 ∧ 0 < 1 := by decide
  have third : 3 = 2 + 1 ∧ 0 < 2 := by decide
  -- A character has one, two, three or four octets.
  obtain one | two | three | four : v ≤ 0x7F ∨ (0x7F < v ∧ v ≤ 0x7FF) ∨ (0x7FF < v ∧ v ≤ 0xFFFF) ∨
      0xFFFF < v := by omega
  · rw [if_pos one, List.singleton_append, readOctets_plain (by omega), same]
  · have value : v / 64 * 64 + (v % 64 + 128 - 0x80) = v := by omega
    rw [if_neg (by omega), if_pos two.2]
    simp only [List.cons_append, List.nil_append]
    rw [readOctets_lead (lead?_two (by omega) (by omega)) (by omega) (by omega),
      readOctets_last (by omega) (by omega) (by omega), value, same]
  · obtain ⟨least, most, lead, above, below⟩ :=
      lead?_three (v := v) (by omega) (by omega) (by omega)
    have value : (v / 4096 * 64 + (v / 64 % 64 + 128 - 0x80)) * 64 + (v % 64 + 128 - 0x80) = v := by
      omega
    rw [if_neg (by omega), if_neg (by omega), if_pos three.2]
    simp only [List.cons_append, List.nil_append]
    rw [readOctets_lead lead (by omega) (by omega), readOctets_next second above below (by omega),
      readOctets_last (by omega) (by omega) (by omega), value, same]
  · obtain ⟨least, most, lead, above, below⟩ := lead?_four (v := v) (by omega) (by omega)
    have value : ((v / 262144 * 64 + (v / 4096 % 64 + 128 - 0x80)) * 64 +
        (v / 64 % 64 + 128 - 0x80)) * 64 + (v % 64 + 128 - 0x80) = v := by
      omega
    rw [if_neg (by omega), if_neg (by omega), if_neg (by omega)]
    simp only [List.cons_append, List.nil_append]
    rw [readOctets_lead lead (by omega) (by omega), readOctets_next third above below (by omega),
      readOctets_next second (by omega) (by omega) (by omega),
      readOctets_last (by omega) (by omega) (by omega), value, same]

/-- What is written as octets is read as it was. -/
theorem ofOctets_octets (text : List Char) :
    Rune.ofOctets (text.flatMap octets) = text.map .char := by
  unfold Rune.ofOctets
  induction text with
  | nil => rfl
  | cons c text ih => rw [List.flatMap_cons, readOctets_octets, ih, List.map_cons]

/-! ### Order -/

/-- The last `count` octets of the character with a number. -/
def following : Nat → Nat → List UInt8
  | 0, _ => []
  | count + 1, v => UInt8.ofNat (v / 64 ^ count % 64 + 128) :: following count v

/-- What a character begins with if `count` octets follow: the mark of its length and the
bits that are left. -/
inductive Begins (v : Nat) : (count lead : Nat) → Prop where
  | one (high : v < 0x80) : Begins v 0 v
  | two (low : 0x80 ≤ v) (high : v < 0x800) : Begins v 1 (v / 64 + 192)
  | three (low : 0x800 ≤ v) (high : v < 0x10000) : Begins v 2 (v / 4096 + 224)
  | four (low : 0x10000 ≤ v) (high : v < 0x110000) : Begins v 3 (v / 262144 + 240)

theorem octets_eq (c : Char) :
    ∃ count lead, Begins c.toNat count lead ∧
      octets c = UInt8.ofNat lead :: following count c.toNat := by
  have valid : c.toNat < 0xD800 ∨ 0xDFFF < c.toNat ∧ c.toNat < 0x110000 := c.valid
  unfold octets String.utf8EncodeChar
  rw [show c.val.toNat = c.toNat from rfl]
  generalize c.toNat = v at valid
  dsimp only
  split
  · exact ⟨0, _, .one (by omega), rfl⟩
  · split
    · rw [Nat.mod_eq_of_lt (by omega)]
      exact ⟨1, _, .two (by omega) (by omega), by simp [following]⟩
    · split
      · rw [Nat.mod_eq_of_lt (by omega)]
        exact ⟨2, _, .three (by omega) (by omega), by simp [following]⟩
      · rw [Nat.mod_eq_of_lt (by omega)]
        exact ⟨3, _, .four (by omega) (by omega), by simp [following]⟩

theorem ofNat_lt_ofNat {m n : Nat} (less : m < n) (small : n < 256) :
    UInt8.ofNat m < UInt8.ofNat n := by
  rwa [UInt8.lt_iff_toNat_lt, toNat_ofNat (Nat.lt_trans less small), toNat_ofNat small]

theorem following_lt {v w : Nat} (less : v < w) (s t : List UInt8) {count : Nat}
    (same : v / 64 ^ count = w / 64 ^ count) :
    following count v ++ s < following count w ++ t := by
  induction count with
  | zero =>
    rw [Nat.pow_zero, Nat.div_one, Nat.div_one] at same
    exact absurd same (Nat.ne_of_lt less)
  | succ count ih =>
    rw [Nat.pow_succ, ← Nat.div_div_eq_div_mul, ← Nat.div_div_eq_div_mul] at same
    rw [following, following, List.cons_append, List.cons_append, List.cons_lt_cons_iff]
    have ordered : v / 64 ^ count ≤ w / 64 ^ count := Nat.div_le_div_right (Nat.le_of_lt less)
    -- The two numbers differ in the next six bits, or later.
    obtain below | equal := Nat.lt_or_eq_of_le ordered
    · exact .inl (ofNat_lt_ofNat (by omega) (by omega))
    · exact .inr ⟨by rw [equal], ih equal⟩

/-- Of two characters the one with the smaller number has the smaller octets, whatever
follows them. -/
theorem octets_append_lt {c d : Char} (less : c < d) (s t : List UInt8) :
    octets c ++ s < octets d ++ t := by
  have order : c.toNat < d.toNat := less
  obtain ⟨m, lead, begins, first⟩ := octets_eq c
  obtain ⟨n, lead', begins', second⟩ := octets_eq d
  rw [first, second, List.cons_append, List.cons_append, List.cons_lt_cons_iff]
  obtain below | ⟨rfl, rfl, same⟩ : lead < lead' ∨
      m = n ∧ lead = lead' ∧ c.toNat / 64 ^ m = d.toNat / 64 ^ m := by
    cases begins <;> cases begins' <;> omega
  · exact .inl (ofNat_lt_ofNat below (by cases begins' <;> omega))
  · exact .inr ⟨rfl, following_lt order s t same⟩

/-- Texts are in the order of their octets. -/
theorem flatMap_octets_lt {s t : List Char} (less : s < t) :
    s.flatMap octets < t.flatMap octets := by
  induction s generalizing t with
  | nil =>
    cases t with
    | nil => exact absurd less (List.lt_irrefl _)
    | cons d t =>
      obtain ⟨n, lead, -, octets⟩ := octets_eq d
      rw [List.flatMap_nil, List.flatMap_cons, octets]
      exact List.nil_lt_cons _ _
  | cons c s ih =>
    cases t with
    | nil => exact absurd less (List.not_lt_nil _)
    | cons d t =>
      rw [List.flatMap_cons, List.flatMap_cons]
      obtain below | ⟨rfl, later⟩ := List.cons_lt_cons_iff.mp less
      · exact octets_append_lt below _ _
      · exact List.append_left_lt (ih later)

end StorageControl.Text
