import StorageControl.Proofs.Octets
import StorageControl.Proofs.Path

/-! Queries, read the way servers read them.

The pairs of a query are told apart by ampersands, and a name from its value by an equals
sign; plus signs are blanks and percent signs are resolved. None of these marks is left in
a name or a value that was written as a form has it, so pairs are read as they were.
-/

set_option autoImplicit false

namespace StorageControl.Url

open StorageControl.Text (octets splitAtChar)

/-! ### Reading -/

def unplus (c : Char) : Char := if c = '+' then ' ' else c

/-- The text that a name or a value in a query stands for. -/
def formMeaning (written : List Char) : String :=
  Text.lossy (Text.Rune.ofOctets (unescape (written.map unplus)))

/-- A pair of a query; one without an equals sign has an empty value. -/
def readPair (written : List Char) : String × String :=
  let (name, value) := cut '=' written
  (formMeaning name, formMeaning (value.getD []))

/-- The pairs of a query. -/
def readQuery (query : List Char) : List (String × String) :=
  ((splitAtChar '&' query).filter (!·.isEmpty)).map readPair

/-- The pairs of the query that a target ends with. -/
def targetPairs (target : String) : List (String × String) :=
  readQuery ((cut '?' target.toList).2.getD [])

/-! ### Names and values -/

/-- The characters that a name or a value has no more when it is written. -/
def formEscaped (c : Char) : Bool := !isFormPlain c && c ≠ ' '

theorem percent_digits (octet : UInt8) {c : Char} (member : c ∈ percent octet) :
    c = '%' ∨ ∃ n < 16, c = hexDigit n := by
  have bound := octet.toNat_lt
  simp only [percent, List.mem_cons, List.not_mem_nil, or_false] at member
  rcases member with mark | high | low
  · exact .inl mark
  · exact .inr ⟨_, by omega, high⟩
  · exact .inr ⟨_, by omega, low⟩

/-- What is written of a character is plain, a blank or part of a percent sign. -/
theorem mem_formChar {c d : Char} (member : d ∈ formChar c) :
    isFormPlain d = true ∨ d = '+' ∨ d = '%' := by
  have digit : ∀ n < 16, isFormPlain (hexDigit n) = true := by decide
  unfold formChar at member
  split at member
  next plain =>
    rw [List.mem_singleton.mp member]
    exact .inl plain
  next =>
    split at member
    · exact .inr (.inl (List.mem_singleton.mp member))
    · obtain ⟨octet, -, written⟩ := List.mem_flatMap.mp member
      rcases percent_digits octet written with mark | ⟨n, small, rfl⟩
      · exact .inr (.inr mark)
      · exact .inl (digit n small)

theorem not_mem_formText {mark : Char} (plain : isFormPlain mark = false) (noPlus : mark ≠ '+')
    (noPercent : mark ≠ '%') (text : String) : mark ∉ formText text := by
  intro member
  obtain ⟨c, -, written⟩ := List.mem_flatMap.mp member
  rcases mem_formChar written with kept | plus | percent
  · rw [plain] at kept
    cases kept
  · exact noPlus plus
  · exact noPercent percent

theorem unplus_of_ne {c : Char} (other : c ≠ '+') : unplus c = c := if_neg other

theorem map_unplus_percent (octet : UInt8) : (percent octet).map unplus = percent octet := by
  have digit : ∀ n < 16, hexDigit n ≠ '+' := by decide
  refine (List.map_congr_left fun c member => unplus_of_ne ?_).trans (List.map_id _)
  rcases percent_digits octet member with rfl | ⟨n, small, rfl⟩
  · decide
  · exact digit n small

theorem map_unplus_formChar (c : Char) :
    (formChar c).map unplus = if formEscaped c then percentChar c else [c] := by
  unfold formChar formEscaped
  cases plain : isFormPlain c with
  | true =>
    have other : c ≠ '+' := by
      rintro rfl
      cases plain
    simp [unplus_of_ne other]
  | false =>
    by_cases blank : c = ' '
    · subst blank
      rfl
    · have kept : (percentChar c).map unplus = percentChar c := by
        rw [percentChar, List.map_flatMap]
        simp only [map_unplus_percent]
      simpa [blank] using kept

theorem map_unplus_formText (text : String) :
    (formText text).map unplus = escape formEscaped text.toList := by
  rw [formText, List.map_flatMap]
  simp only [map_unplus_formChar]
  rfl

/-- A text that was written is read as it was. -/
theorem formMeaning_formText (text : String) : formMeaning (formText text) = text := by
  have kept : ∀ c ∈ text.toList, formEscaped c = false → c ≠ '%' := by
    rintro c - keeps rfl
    cases keeps
  rw [formMeaning, map_unplus_formText, unescape_escape_of_kept kept, Text.ofOctets_octets]
  exact Text.lossy_runes text

/-! ### Pairs -/

theorem cut_append_cons {mark : Char} {before : List Char} (without : mark ∉ before)
    (after : List Char) : cut mark (before ++ mark :: after) = (before, some after) := by
  have kept : ∀ c ∈ before, decide (c ≠ mark) = true := by
    intro c member
    simp only [decide_eq_true_eq]
    rintro rfl
    exact without member
  rw [cut, span_append_cons (by simp), span_of_all kept]
  rfl

theorem readPair_formPair (pair : String × String) : readPair (formPair pair) = pair := by
  have without : '=' ∉ formText pair.1 := not_mem_formText rfl (by decide) (by decide) _
  -- The first equals sign is the one between name and value.
  rw [readPair, formPair, cut_append_cons without]
  simp only [Option.getD_some, formMeaning_formText]

theorem ampersand_not_mem_formPair (pair : String × String) : '&' ∉ formPair pair := by
  have without (text : String) : '&' ∉ formText text :=
    not_mem_formText rfl (by decide) (by decide) text
  rw [formPair, List.mem_append, List.mem_cons]
  rintro (name | mark | value)
  · exact without _ name
  · cases mark
  · exact without _ value

theorem formPair_ne_nil (pair : String × String) : formPair pair ≠ [] := by
  simp [formPair]

theorem readQuery_append (before after : List Char) :
    readQuery (before ++ '&' :: after) = readQuery before ++ readQuery after := by
  rw [readQuery, Text.splitAtChar_append_cons, List.filter_append, List.map_append]
  rfl

theorem readQuery_formPair (pair : String × String) : readQuery (formPair pair) = [pair] := by
  rw [readQuery, Text.splitAtChar_of_not_mem (ampersand_not_mem_formPair pair),
    List.filter_cons_of_pos (by simp [formPair_ne_nil]), List.filter_nil, List.map_cons,
    readPair_formPair, List.map_nil]

theorem readQuery_pairs (pairs : List (String × String)) :
    readQuery (List.intercalate ['&'] (pairs.map formPair)) = pairs := by
  induction pairs with
  | nil => rfl
  | cons pair pairs ih =>
    cases pairs with
    | nil =>
      rw [List.map_cons, List.map_nil, List.intercalate_singleton]
      exact readQuery_formPair pair
    | cons next pairs =>
      rw [List.map_cons, List.map_cons, List.intercalate_cons_cons, ← List.map_cons,
        List.append_assoc, List.singleton_append, readQuery_append, ih, readQuery_formPair]
      rfl

/-! ### Targets -/

theorem mem_settle {segment : List Char} {passed segments : List (List Char)}
    (member : segment ∈ settle passed segments) :
    segment = [] ∨ segment ∈ passed ∨ segment ∈ segments := by
  have risen {passed : List (List Char)} (member : segment ∈ above passed) : segment ∈ passed := by
    cases passed with
    | nil => exact member
    | cons first passed =>
      rw [above] at member
      split at member
      · exact member
      · exact List.mem_cons_of_mem _ member
  -- A segment is passed on or left out; the only new one is empty, at the end.
  induction passed, segments using settle.induct with
  | case1 passed => exact .inr (.inl (List.mem_reverse.mp member))
  | case2 passed last up =>
    rw [settle, if_pos up, List.mem_reverse, List.mem_cons] at member
    exact member.imp_right fun left => .inl (risen left)
  | case3 passed last notUp here =>
    rw [settle, if_neg notUp, if_pos here, List.mem_reverse, List.mem_cons] at member
    exact member.imp_right .inl
  | case4 passed last notUp notHere =>
    rw [settle, if_neg notUp, if_neg notHere, List.mem_reverse, List.mem_cons] at member
    rcases member with rfl | passed
    · exact .inr (.inr List.mem_cons_self)
    · exact .inr (.inl passed)
  | case5 passed first rest more up ih =>
    rw [settle, if_pos up] at member
    · exact (ih member).imp_right (Or.imp risen (List.mem_cons_of_mem _))
    · exact more
  | case6 passed first rest more notUp here ih =>
    rw [settle, if_neg notUp, if_pos here] at member
    · exact (ih member).imp_right (Or.imp_right (List.mem_cons_of_mem _))
    · exact more
  | case7 passed first rest more notUp notHere ih =>
    rw [settle, if_neg notUp, if_neg notHere] at member
    · rcases ih member with empty | passed | later
      · exact .inl empty
      · rcases List.mem_cons.mp passed with rfl | passed
        · exact .inr (.inr List.mem_cons_self)
        · exact .inr (.inl passed)
      · exact .inr (.inr (List.mem_cons_of_mem _ later))
    · exact more

/-- No path has a question mark. -/
theorem query_not_mem_pathText (path : List Char) : '?' ∉ pathText path := by
  rw [pathText]
  intro member
  rcases List.mem_cons.mp member with slash | later
  · cases slash
  · have inside : ∃ segment ∈ settle [] ((splitAtChar '/' path).map (escape pathEscaped)),
        '?' ∈ segment := by
      generalize settle [] _ = segments at later
      cases segments with
      | nil => cases later
      | cons first rest =>
        have slashed : '?' ∈ slashed (first :: rest) := by
          rw [← cons_intercalate (List.cons_ne_nil first rest)]
          exact List.mem_cons_of_mem _ later
        obtain ⟨segment, listed, mark | inside⟩ := mem_slashed.mp slashed
        · cases mark
        · exact ⟨segment, listed, inside⟩
    obtain ⟨segment, settled, inside⟩ := inside
    rcases mem_settle settled with rfl | passed | listed
    · cases inside
    · cases passed
    · obtain ⟨raw, -, rfl⟩ := List.mem_map.mp listed
      exact query_not_mem_escape raw inside

theorem query_not_mem_tailText (scheme : String) (path : List Char) :
    '?' ∉ (tailText scheme path).toList := by
  cases path with
  | nil =>
    rw [tailText]
    split <;> simp
  | cons slash rest =>
    rw [tailText, String.toList_ofList]
    exact query_not_mem_pathText rest

theorem query_not_mem_path {input : String} {url : Url} (parsed : ofText? input = some url) :
    '?' ∉ url.path.toList := by
  simp only [ofText?, Option.bind_eq_bind] at parsed
  obtain ⟨⟨scheme, rest⟩, -, parsed⟩ := Option.bind_eq_some_iff.mp parsed
  split at parsed <;>
  · obtain ⟨place, -, parsed⟩ := Option.bind_eq_some_iff.mp parsed
    obtain ⟨authority, -, built⟩ := Option.bind_eq_some_iff.mp parsed
    obtain rfl := Option.some.inj built
    exact query_not_mem_tailText _ _

theorem targetPairs_append {path : String} (plain : '?' ∉ path.toList) (query : Option String) :
    targetPairs (path ++ queryText query) = readQuery ((query.map String.toList).getD []) := by
  rw [targetPairs, String.toList_append]
  cases query with
  | none => rw [queryText, String.toList_empty, List.append_nil, cut_of_not_mem plain]; rfl
  | some query =>
    rw [queryText, String.toList_append, show "?".toList = ['?'] from rfl, List.singleton_append,
      cut_append_cons plain]
    rfl

/-- Pairs that are appended to a query are its last ones. -/
theorem targetPairs_withPairs {url : Url} (plain : '?' ∉ url.path.toList)
    (pairs : List (String × String)) :
    targetPairs (url.withPairs pairs).target = targetPairs url.target ++ pairs := by
  unfold withPairs target
  split
  next none => rw [List.isEmpty_iff.mp none, List.append_nil]
  next =>
    rw [targetPairs_append plain, targetPairs_append plain]
    simp only [Option.map_some, Option.getD_some, String.toList_ofList]
    split
    next unqueried => rw [unqueried, List.nil_append, readQuery_pairs]; rfl
    next unqueried => rw [unqueried, List.nil_append, readQuery_pairs]; rfl
    next query _ queried =>
      rw [queried, List.append_assoc, List.singleton_append, readQuery_append, readQuery_pairs]
      rfl

end StorageControl.Url
