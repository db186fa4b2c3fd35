import Mathlib.Data.List.DropRight
import StorageControl.Text.Blank

/-! What trimming leaves of a text.

A text is trimmed of a class of characters when only characters of the class are taken off
its ends, and what is kept neither begins nor ends with one. Exactly one text is left that
way, and it is the one that the trimming functions give.
-/

set_option autoImplicit false

namespace StorageControl.Text

variable {outer : Char → Bool} {text kept : List Char}

/-- `kept` is a text without the characters of a class at its end. -/
structure Sheds (outer : Char → Bool) (text kept : List Char) : Prop where
  splits : ∃ after, text = kept ++ after ∧ ∀ c ∈ after, outer c = true
  ends : ∀ c ∈ kept.getLast?, outer c = false

/-- `kept` is a text without the characters of a class at its two ends. -/
structure Trims (outer : Char → Bool) (text kept : List Char) : Prop where
  splits : ∃ before after, text = before ++ (kept ++ after) ∧
    (∀ c ∈ before, outer c = true) ∧ ∀ c ∈ after, outer c = true
  starts : ∀ c ∈ kept.head?, outer c = false
  ends : ∀ c ∈ kept.getLast?, outer c = false

theorem sheds_iff : Sheds outer text kept ↔ text.rdropWhile outer = kept := by
  constructor
  · rintro ⟨⟨after, rfl, all⟩, ends⟩
    have shed : (kept ++ after).rdropWhile outer = kept.rdropWhile outer := by
      rw [List.rdropWhile, List.reverse_append, List.dropWhile_append_of_pos (by simpa using all),
        List.rdropWhile]
    rw [shed, List.rdropWhile_eq_self_iff]
    intro some
    simp [ends _ (List.getLast?_eq_getLast_of_ne_nil some)]
  · rintro rfl
    refine ⟨⟨text.rtakeWhile outer, List.rdropWhile_append_rtakeWhile.symm, ?_⟩, ?_⟩
    · exact fun c member => List.mem_rtakeWhile_imp member
    · intro c last
      obtain ⟨some, rfl⟩ := List.mem_getLast?_eq_getLast last
      simpa using List.rdropWhile_last_not outer text some

theorem trims_iff : Trims outer text kept ↔ (text.dropWhile outer).rdropWhile outer = kept := by
  constructor
  · rintro ⟨⟨before, after, rfl, allBefore, allAfter⟩, starts, ends⟩
    rw [List.dropWhile_append_of_pos allBefore]
    cases kept with
    -- With nothing kept, all that is left of the text goes from its front.
    | nil => simpa using fun c member => allAfter c ((List.dropWhile_sublist outer).subset member)
    | cons c kept =>
      rw [List.cons_append, List.dropWhile_cons_of_neg (by simp [starts c rfl])]
      exact sheds_iff.mp ⟨⟨after, rfl, allAfter⟩, ends⟩
  · intro left
    obtain ⟨⟨after, split, all⟩, ends⟩ := sheds_iff.mpr left
    refine ⟨⟨text.takeWhile outer, after, ?_, fun c => List.mem_takeWhile_imp, all⟩, ?_, ends⟩
    · rw [← split, List.takeWhile_append_dropWhile]
    · intro c first
      have begins := List.head?_dropWhile_not outer text
      rw [split, List.mem_head?_append_of_mem_head? first] at begins
      exact begins

theorem sheds_nil_iff : Sheds outer text [] ↔ ∀ c ∈ text, outer c = true := by
  rw [sheds_iff, List.rdropWhile_eq_nil_iff]

theorem trims_nil_iff : Trims outer text [] ↔ ∀ c ∈ text, outer c = true := by
  constructor
  · rintro ⟨⟨before, after, rfl, allBefore, allAfter⟩, -, -⟩
    exact List.forall_mem_append.mpr ⟨allBefore, allAfter⟩
  · intro all
    exact ⟨⟨text, [], by simp, all, nofun⟩, nofun, nofun⟩

/-- What is trimmed stays as it is. -/
theorem Trims.self (trims : Trims outer text kept) : Trims outer kept kept :=
  ⟨⟨[], [], by simp, nofun, nofun⟩, trims.starts, trims.ends⟩

/-! ### White space -/

/-- The code points that have the Unicode property White_Space. -/
def whiteSpace : List Nat :=
  [0x09, 0x0A, 0x0B, 0x0C, 0x0D, 0x20, 0x85, 0xA0, 0x1680, 0x2000, 0x2001, 0x2002, 0x2003,
    0x2004, 0x2005, 0x2006, 0x2007, 0x2008, 0x2009, 0x200A, 0x2028, 0x2029, 0x202F, 0x205F,
    0x3000]

def isWhiteSpace (c : Char) : Bool := whiteSpace.contains c.toNat

/-- Whether a text is white space alone. -/
def Blank (text : String) : Prop := ∀ c ∈ text.toList, isWhiteSpace c = true

theorem isBlank_eq_isWhiteSpace : isBlank = isWhiteSpace := by
  funext c
  rw [Bool.eq_iff_iff]
  simp [isBlank, isWhiteSpace, whiteSpace]
  omega

/-! ### The trimming functions -/

theorem trim_eq_iff {text kept : String} :
    trim text = kept ↔ Trims isWhiteSpace text.toList kept.toList := by
  rw [trims_iff, ← String.toList_inj, trim, String.toList_ofList, ← isBlank_eq_isWhiteSpace]
  rfl

theorem trim_eq_empty_iff {text : String} : trim text = "" ↔ Blank text := by
  rw [trim_eq_iff]
  exact trims_nil_iff

theorem trimEndOf_eq_iff {mark : Char} {text kept : String} :
    trimEndOf mark text = kept ↔ Sheds (· == mark) text.toList kept.toList := by
  rw [sheds_iff, ← String.toList_inj, trimEndOf, String.toList_ofList]
  rfl

theorem trimEndOf_eq_empty_iff {mark : Char} {text : String} :
    trimEndOf mark text = "" ↔ ∀ c ∈ text.toList, c = mark := by
  rw [trimEndOf_eq_iff, String.toList_empty, sheds_nil_iff]
  simp only [beq_iff_eq]

end StorageControl.Text
