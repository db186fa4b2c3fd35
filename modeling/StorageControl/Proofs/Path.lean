import Mathlib.Data.List.TakeDrop
import StorageControl.Proofs.Escape

/-! Paths behind a base.

A path is written as segments, each behind a slash. Read behind a base, it is resolved as
it stands: the base decides what comes before it, and segments that are not dot segments
are only escaped.
-/

set_option autoImplicit false

namespace StorageControl

/-! ### Splitting -/

namespace Text

variable {separator : Char}

theorem splitAtChar_append_cons (before after : List Char) :
    splitAtChar separator (before ++ separator :: after) =
      splitAtChar separator before ++ splitAtChar separator after := by
  induction before with
  | nil => simp [splitAtChar]
  | cons c before ih =>
    rw [List.cons_append, splitAtChar, splitAtChar, ih]
    split
    · rfl
    · have parts := splitAtChar_ne_nil separator before
      cases split : splitAtChar separator before with
      | nil => exact absurd split parts
      | cons first others => rfl

theorem splitAtChar_of_not_mem {text : List Char} (without : separator ∉ text) :
    splitAtChar separator text = [text] := by
  induction text with
  | nil => rfl
  | cons c text ih =>
    obtain ⟨here, rest⟩ := not_or.mp (mt List.mem_cons.mpr without)
    rw [splitAtChar, if_neg (Ne.symm here), ih rest]

end Text

namespace Url

open StorageControl.Text (splitAtChar)

/-- Segments, each behind a slash. -/
def slashed (segments : List (List Char)) : List Char := segments.flatMap ('/' :: ·)

@[simp]
theorem slashed_nil : slashed [] = [] := rfl

@[simp]
theorem slashed_cons (segment : List Char) (rest : List (List Char)) :
    slashed (segment :: rest) = '/' :: (segment ++ slashed rest) := rfl

theorem slashed_append (first second : List (List Char)) :
    slashed (first ++ second) = slashed first ++ slashed second :=
  List.flatMap_append

theorem mem_slashed {c : Char} {segments : List (List Char)} :
    c ∈ slashed segments ↔ ∃ segment ∈ segments, c = '/' ∨ c ∈ segment := by
  simp [slashed]

theorem cons_intercalate {segments : List (List Char)} (nonempty : segments ≠ []) :
    '/' :: List.intercalate ['/'] segments = slashed segments := by
  induction segments with
  | nil => exact absurd rfl nonempty
  | cons segment rest ih =>
    cases rest with
    | nil => simp [List.intercalate, slashed]
    | cons next rest =>
      rw [slashed_cons, ← ih (by simp)]
      simp [List.intercalate, List.intersperse]

theorem splitAtChar_slashed (before : List Char) {segments : List (List Char)}
    (whole : ∀ segment ∈ segments, '/' ∉ segment) :
    splitAtChar '/' (before ++ slashed segments) = splitAtChar '/' before ++ segments := by
  induction segments generalizing before with
  | nil => simp
  | cons segment rest ih =>
    obtain ⟨here, later⟩ := List.forall_mem_cons.mp whole
    rw [slashed_cons, Text.splitAtChar_append_cons, ih segment later,
      Text.splitAtChar_of_not_mem here]
    rfl

theorem slashed_injective {first second : List (List Char)}
    (wholeFirst : ∀ segment ∈ first, '/' ∉ segment)
    (wholeSecond : ∀ segment ∈ second, '/' ∉ segment)
    (same : slashed first = slashed second) : first = second := by
  have split := splitAtChar_slashed [] wholeFirst
  rw [same, splitAtChar_slashed [] wholeSecond] at split
  exact (List.append_cancel_left split).symm

theorem escape_slashed {escaped : Char → Bool} (kept : escaped '/' = false)
    (segments : List (List Char)) :
    escape escaped (slashed segments) = slashed (segments.map (escape escaped)) := by
  induction segments with
  | nil => rfl
  | cons segment rest ih =>
    rw [List.map_cons, slashed_cons, slashed_cons, escape_cons, escape_append, ih, kept]
    rfl

/-! ### Dot segments -/

/-- The segments, in reverse, that are left of leading ones; more segments follow. -/
def walk (passed leading : List (List Char)) : List (List Char) :=
  leading.foldl
    (fun passed segment =>
      if isUp segment then above passed else if isHere segment then passed
      else segment :: passed)
    passed

theorem settle_append (passed leading : List (List Char)) {rest : List (List Char)}
    (more : rest ≠ []) : settle passed (leading ++ rest) = settle (walk passed leading) rest := by
  induction leading generalizing passed with
  | nil => rfl
  | cons segment leading ih =>
    -- Only the last segment is settled in another way, and more of them follow this one.
    have follows : leading ++ rest ≠ [] := by simp [more]
    obtain ⟨next, others, split⟩ := List.exists_cons_of_ne_nil follows
    rw [List.cons_append, split, settle, ← split, walk, List.foldl_cons]
    · split
      · exact ih _
      · split
        · exact ih _
        · exact ih _
    · simp

theorem settle_of_plain (passed : List (List Char)) {segments : List (List Char)}
    (plain : ∀ segment ∈ segments, isUp segment = false ∧ isHere segment = false) :
    settle passed segments = passed.reverse ++ segments := by
  induction segments generalizing passed with
  | nil => simp [settle]
  | cons segment rest ih =>
    obtain ⟨⟨notUp, notHere⟩, later⟩ := List.forall_mem_cons.mp plain
    cases rest with
    | nil => simp [settle, notUp, notHere]
    | cons next rest => simp [settle, notUp, notHere, ih _ later]

/-! ### Reading -/

/-- Characters that a URL takes for more than themselves, or drops. -/
def isMark (c : Char) : Bool := ['/', '\\', '?', '#', '%', '\t', '\n', '\r'].contains c

/-- A segment that stands in a path for itself alone. -/
structure Plain (segment : List Char) : Prop where
  unmarked : ∀ c ∈ segment, isMark c = false
  isNotHere : segment ≠ ['.']
  isNotUp : segment ≠ ['.', '.']
  ends : ∀ c ∈ segment.getLast?, isMargin c = false

theorem plain_iff (segment : List Char) :
    (segment.any isMark || segment == ['.'] || segment == ['.', '.'] ||
      segment.getLast?.any isMargin) = false ↔ Plain segment := by
  simp only [Bool.or_eq_false_iff, List.any_eq_false, Option.any_eq_false, beq_eq_false_iff_ne,
    Bool.not_eq_true]
  exact ⟨fun ⟨⟨⟨unmarked, here⟩, up⟩, ends⟩ => ⟨unmarked, here, up, ends⟩,
    fun plain => ⟨⟨⟨plain.unmarked, plain.isNotHere⟩, plain.isNotUp⟩, plain.ends⟩⟩

instance (segment : List Char) : Decidable (Plain segment) :=
  decidable_of_iff _ (plain_iff segment)

theorem Plain.not_mem {segment : List Char} (plain : Plain segment) {mark : Char}
    (isMark : isMark mark = true) : mark ∉ segment := by
  intro member
  simp [plain.unmarked mark member] at isMark

theorem settle_escape {front segments : List (List Char)} (nonempty : segments ≠ [])
    (plain : ∀ segment ∈ segments, Plain segment) :
    settle [] (front ++ segments.map (escape pathEscaped)) =
      (walk [] front).reverse ++ segments.map (escape pathEscaped) := by
  rw [settle_append [] front (by simpa using nonempty)]
  refine settle_of_plain _ fun segment member => ?_
  obtain ⟨raw, listed, rfl⟩ := List.mem_map.mp member
  have plain := plain raw listed
  exact ⟨isUp_escape _ (plain.not_mem rfl) plain.isNotUp,
    isHere_escape _ (plain.not_mem rfl) plain.isNotHere⟩

theorem span_append_cons {p : Char → Bool} {stop : Char} (stops : p stop = false)
    (before after : List Char) :
    (before ++ stop :: after).span p =
      ((before.span p).1, (before.span p).2 ++ stop :: after) := by
  simp only [List.span_eq_takeWhile_dropWhile, Prod.mk.injEq]
  induction before with
  | nil => simp [stops]
  | cons c before ih => cases kept : p c <;> simp [kept, ih]

theorem span_of_all {p : Char → Bool} {text : List Char} (all : ∀ c ∈ text, p c = true) :
    text.span p = (text, []) := by
  rw [List.span_eq_takeWhile_dropWhile, Prod.mk.injEq]
  induction text with
  | nil => simp
  | cons c text ih =>
    obtain ⟨here, rest⟩ := List.forall_mem_cons.mp all
    simp [here, ih rest]

theorem scheme?_append_slash (before after : List Char) :
    scheme? (before ++ '/' :: after) =
      (scheme? before).map fun read => (read.1, read.2 ++ '/' :: after) := by
  rw [scheme?, span_append_cons (by decide), scheme?]
  generalize before.span isSchemeChar = parts
  obtain ⟨letters, _ | ⟨mark, rest⟩⟩ := parts
  · cases letters <;> rfl
  · cases letters with
    | nil => rfl
    | cons first more =>
      by_cases colon : mark = ':'
      · subst colon
        cases letter : first.isAlpha <;> simp [letter]
      · simp [colon]

theorem cut_of_not_mem {mark : Char} {text : List Char} (without : mark ∉ text) :
    cut mark text = (text, none) := by
  have kept : ∀ c ∈ text, decide (c ≠ mark) = true := by
    intro c member
    simp only [decide_eq_true_eq]
    rintro rfl
    exact without member
  rw [cut, span_of_all kept]

theorem dropWhile_append_cons {p : Char → Bool} {stop : Char} (stops : p stop = false)
    (before after : List Char) :
    (before ++ stop :: after).dropWhile p = before.dropWhile p ++ stop :: after := by
  have spans := congrArg Prod.snd (span_append_cons stops before after)
  simpa only [List.span_eq_takeWhile_dropWhile] using spans

/-- The text that counts of the beginning of a URL. -/
def opening (before : List Char) : List Char :=
  (before.dropWhile isMargin).filter fun c => c ≠ '\t' ∧ c ≠ '\n' ∧ c ≠ '\r'

theorem essence_append_slash (before : List Char) {path : List Char}
    (ends : ∀ c ∈ ('/' :: path).getLast?, isMargin c = false)
    (unbroken : ∀ c ∈ path, c ≠ '\t' ∧ c ≠ '\n' ∧ c ≠ '\r') :
    essence (before ++ '/' :: path) = opening before ++ '/' :: path := by
  -- Margins are cut off outside only: in front up to the slash, behind not at all.
  have slash : isMargin '/' = false := by decide
  have ended : ('/' :: path).reverse.dropWhile isMargin = ('/' :: path).reverse := by
    obtain ⟨last, front, reversed⟩ := List.exists_cons_of_ne_nil
      (mt List.reverse_eq_nil_iff.mp (List.cons_ne_nil '/' path))
    have final := ends last (by rw [← List.head?_reverse, reversed]; rfl)
    rw [reversed, List.dropWhile_cons_of_neg (by simp [final])]
  have last : ∀ text, ((text ++ '/' :: path).reverse.dropWhile isMargin).reverse =
      text ++ '/' :: path := by
    intro text
    rw [List.reverse_append, List.dropWhile_append, ended]
    simp
  have whole : path.filter (fun c => c ≠ '\t' ∧ c ≠ '\n' ∧ c ≠ '\r') = path :=
    List.filter_eq_self.mpr fun c member => by simpa using unbroken c member
  rw [essence, dropWhile_append_cons slash, last, List.filter_append,
    List.filter_cons_of_pos (by decide), whole, opening]

theorem pathText_of_split {text : List Char} {before segments : List (List Char)}
    (split : splitAtChar '/' text = before ++ segments) (nonempty : segments ≠ [])
    (plain : ∀ segment ∈ segments, Plain segment) :
    pathText text = slashed (walk [] (before.map (escape pathEscaped))).reverse ++
      slashed (segments.map (escape pathEscaped)) := by
  rw [pathText, split, List.map_append, settle_escape nonempty plain,
    cons_intercalate (by simp [nonempty]), slashed_append]

/-- The segments that the beginning of a path contributes. -/
def settledFront : List Char → List (List Char)
  | [] => []
  | _ :: text => (walk [] ((splitAtChar '/' text).map (escape pathEscaped))).reverse

theorem tailText_slashed (scheme : String) (front : List Char) {segments : List (List Char)}
    (nonempty : segments ≠ []) (plain : ∀ segment ∈ segments, Plain segment) :
    (tailText scheme (front ++ slashed segments)).toList =
      slashed (settledFront front) ++ slashed (segments.map (escape pathEscaped)) := by
  have whole : ∀ segment ∈ segments, '/' ∉ segment :=
    fun segment member => (plain segment member).not_mem rfl
  cases front with
  | cons c text =>
    simp only [List.cons_append, tailText, String.toList_ofList]
    exact pathText_of_split (splitAtChar_slashed text whole) nonempty plain
  | nil =>
    obtain ⟨first, rest, rfl⟩ := List.exists_cons_of_ne_nil nonempty
    obtain ⟨here, later⟩ := List.forall_mem_cons.mp whole
    have split : splitAtChar '/' (first ++ slashed rest) = [] ++ (first :: rest) := by
      rw [splitAtChar_slashed first later, Text.splitAtChar_of_not_mem here]
      rfl
    simp only [List.nil_append, slashed_cons, tailText, String.toList_ofList]
    exact pathText_of_split split nonempty plain

theorem unmarked_slashed {segments : List (List Char)}
    (plain : ∀ segment ∈ segments, Plain segment) {mark : Char} (isMark : isMark mark = true)
    (other : mark ≠ '/') : mark ∉ slashed segments := by
  rw [mem_slashed]
  rintro ⟨segment, member, slash | inside⟩
  · exact other slash
  · exact (plain segment member).not_mem isMark inside

theorem getLast?_slashed {segments : List (List Char)}
    (plain : ∀ segment ∈ segments, Plain segment) :
    ∀ c ∈ (slashed segments).getLast?, isMargin c = false := by
  induction segments with
  | nil => simp
  | cons segment rest ih =>
    obtain ⟨here, later⟩ := List.forall_mem_cons.mp plain
    intro c last
    rw [slashed_cons, ← List.cons_append, List.getLast?_append, Option.mem_def,
      Option.or_eq_some_iff] at last
    rcases last with last | ⟨-, last⟩
    · exact ih later c last
    · rw [List.getLast?_cons, Option.some.injEq] at last
      cases ending : segment.getLast? with
      | none =>
        obtain rfl : '/' = c := by simpa [ending] using last
        decide
      | some final =>
        obtain rfl : final = c := by simpa [ending] using last
        exact here.ends _ ending

theorem scheme?_subset {text rest : List Char} {scheme : String}
    (read : scheme? text = some (scheme, rest)) {c : Char} (member : c ∈ rest) : c ∈ text := by
  rw [scheme?, List.span_eq_takeWhile_dropWhile] at read
  have kept := (List.dropWhile_sublist isSchemeChar (l := text)).subset
  split at read
  next first more tail heq =>
    split at read
    · cases read
      rw [Prod.mk.injEq] at heq
      exact kept (heq.2 ▸ List.mem_cons_of_mem _ member)
    · cases read
  next => cases read

theorem opening_subset {before : List Char} {c : Char} (member : c ∈ opening before) :
    c ∈ before :=
  (List.dropWhile_sublist isMargin).subset (List.mem_filter.mp member).1

def forward (c : Char) : Char := if c = '\\' then '/' else c

/-- The path of a web address without a query and a fragment. -/
theorem ofText?_web {input : String} {scheme : String} {rest : List Char}
    (begun : scheme? (essence input.toList) = some (scheme, rest)) (unfragmented : '#' ∉ rest)
    (unqueried : '?' ∉ rest) {url : Url} (parsed : ofText? input = some url)
    (web : isWeb url.scheme = true) :
    url.path = tailText scheme (((rest.map forward).dropWhile (· == '/')).span (· ≠ '/')).2 ∧
      url.query = none := by
  simp only [ofText?, begun, Option.bind_eq_bind, Option.bind_some, cut_of_not_mem unfragmented,
    cut_of_not_mem unqueried] at parsed
  split at parsed
  next isWeb =>
    obtain ⟨authority, -, built⟩ := Option.bind_eq_some_iff.mp parsed
    obtain rfl := Option.some.inj built
    exact ⟨rfl, rfl⟩
  next notWeb =>
    obtain ⟨place, -, parsed⟩ := Option.bind_eq_some_iff.mp parsed
    obtain ⟨authority, -, built⟩ := Option.bind_eq_some_iff.mp parsed
    obtain rfl := Option.some.inj built
    exact absurd web notWeb

theorem version_plain : Plain ['v', '2'] := by decide

theorem scheme?_slashed (before : List Char) {first : List Char} {rest : List (List Char)}
    (plain : ∀ segment ∈ first :: rest, Plain segment) :
    scheme? (essence (before ++ slashed (first :: rest))) =
      (scheme? (opening before)).map fun read => (read.1, read.2 ++ slashed (first :: rest)) := by
  have counted : essence (before ++ slashed (first :: rest)) =
      opening before ++ slashed (first :: rest) := by
    refine essence_append_slash before (getLast?_slashed plain) fun c member => ?_
    have absent (mark : Char) (isMark : isMark mark = true) (other : mark ≠ '/') : c ≠ mark := by
      rintro rfl
      exact unmarked_slashed plain isMark other (List.mem_cons_of_mem _ member)
    exact ⟨absent '\t' rfl (by decide), absent '\n' rfl (by decide), absent '\r' rfl (by decide)⟩
  rw [counted]
  exact scheme?_append_slash _ _

theorem map_forward_slashed {segments : List (List Char)}
    (plain : ∀ segment ∈ segments, Plain segment) :
    (slashed segments).map forward = slashed segments := by
  rw [List.map_congr_left (g := id), List.map_id]
  intro c member
  refine if_neg ?_
  rintro rfl
  exact unmarked_slashed plain rfl (by decide) member

/-- The host, and the beginning of the path, in what follows a scheme and comes before the
version. -/
def hostAndFront (rest : List Char) : List Char × List Char :=
  ((rest ++ ['/']).dropWhile (· == '/') ++ ['v', '2']).span (· ≠ '/')

/-- The host ends at the latest with the version, so the path holds all segments behind it. -/
theorem span_slashed (rest : List Char) {segments : List (List Char)} (nonempty : segments ≠ []) :
    ((rest ++ slashed (['v', '2'] :: segments)).dropWhile (· == '/')).span (· ≠ '/') =
      ((hostAndFront rest).1, (hostAndFront rest).2 ++ slashed segments) := by
  obtain ⟨first, more, rfl⟩ := List.exists_cons_of_ne_nil nonempty
  have outside : ('v' == '/') = false := rfl
  have stops : decide ('/' ≠ '/') = false := rfl
  have dropped := dropWhile_append_cons (p := (· == '/')) outside
    (rest ++ ['/']) ('2' :: slashed (first :: more))
  have spanned := span_append_cons (p := (· ≠ '/')) stops
    ((rest ++ ['/']).dropWhile (· == '/') ++ ['v', '2']) (first ++ slashed more)
  simp only [List.append_assoc, List.cons_append, List.nil_append, slashed_cons] at dropped spanned ⊢
  rw [dropped, spanned]
  rfl

/-- Behind a base, the segments of a path are only escaped. -/
theorem ofText?_slashed {before : List Char} (sealed : ∀ c ∈ before, c ≠ '#' ∧ c ≠ '?') :
    ∃ front, ∀ segments, segments ≠ [] → (∀ segment ∈ segments, Plain segment) →
      ∀ url, ofText? (String.ofList (before ++ slashed (['v', '2'] :: segments))) = some url →
        isWeb url.scheme = true →
        url.path.toList = front ++ slashed (segments.map (escape pathEscaped)) ∧
          url.query = none := by
  have versioned {segments : List (List Char)} (plain : ∀ segment ∈ segments, Plain segment) :
      ∀ segment ∈ ['v', '2'] :: segments, Plain segment :=
    List.forall_mem_cons.mpr ⟨version_plain, plain⟩
  cases begun : scheme? (opening before) with
  | none =>
    -- Without a scheme in front nothing is read, whatever the segments.
    refine ⟨[], fun segments nonempty plain url parsed => ?_⟩
    rw [ofText?, String.toList_ofList, scheme?_slashed before (versioned plain), begun] at parsed
    cases parsed
  | some read =>
    obtain ⟨scheme, rest⟩ := read
    refine ⟨slashed (settledFront (hostAndFront (rest.map forward)).2), ?_⟩
    intro segments nonempty plain url parsed web
    have reads := scheme?_slashed before (versioned plain)
    rw [begun, ← String.toList_ofList (l := before ++ _)] at reads
    have absent (mark : Char) (isMark : isMark mark = true) (other : mark ≠ '/')
        (unmarked : mark ∉ before) : mark ∉ rest ++ slashed (['v', '2'] :: segments) := by
      rw [List.mem_append]
      rintro (early | late)
      · exact unmarked (opening_subset (scheme?_subset begun early))
      · exact unmarked_slashed (versioned plain) isMark other late
    obtain ⟨path, query⟩ := ofText?_web reads
      (absent '#' rfl (by decide) fun member => (sealed _ member).1 rfl)
      (absent '?' rfl (by decide) fun member => (sealed _ member).2 rfl) parsed web
    rw [List.map_append, map_forward_slashed (versioned plain), span_slashed _ nonempty] at path
    refine ⟨?_, query⟩
    rw [path]
    exact tailText_slashed scheme _ nonempty plain

end Url

end StorageControl
