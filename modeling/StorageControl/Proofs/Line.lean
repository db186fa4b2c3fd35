import Mathlib.Data.List.TakeDrop
import StorageControl.Command.Line
import StorageControl.Proofs.Record

/-! How a command line gives a version.

Commands that change something at a version take it from an option. A line that is
accepted gives this option once at most, before the mark after which everything is
positional, and the command has the text of the option as it stands on the line: in the
word behind it, or behind its equals sign.
-/

set_option autoImplicit false

namespace StorageControl

variable {α : Type}

/-- The version that a command was given. -/
def Command.version? : Command → Option String
  | .deleteVolume _ version _ | .deleteNamespace _ version | .deleteUser _ version
  | .setReplicas _ _ version | .detachVolume _ version => version
  | _ => none

namespace Grammar

/-- The text that the words of a line give as the version. -/
def versionOn : List String → Option String
  | [] => none
  | word :: rest =>
    if word = "--" then none
    else if word = "--cas" then rest.head?
    else match Text.dropLead "--cas=".toList word.toList with
      | some text => some (String.ofList text)
      | none => versionOn rest

/-! ### Words -/

theorem ofText_escape {word : String} (escape : Word.ofText word = .escape) : word = "--" := by
  unfold Word.ofText at escape
  split at escape
  next marks => rw [← String.ofList_toList (s := word), marks]
  next => split at escape <;> cases escape
  next => cases escape
  next => cases escape

theorem ofText_long {word name : String} {value : Option String}
    (long : Word.ofText word = .long name value) :
    word.toList =
      '-' :: '-' :: (name.toList ++ (value.elim [] fun text => '=' :: text.toList)) := by
  unfold Word.ofText at long
  split at long
  next => cases long
  next rest _ written =>
    rw [written]
    have parts := List.span_eq_takeWhile_dropWhile (p := fun c => decide (c ≠ '=')) (l := rest)
    have whole := List.takeWhile_append_dropWhile (p := fun c => decide (c ≠ '=')) (l := rest)
    split at long
    next front mark text spanned =>
      cases long
      rw [parts] at spanned
      obtain ⟨before, after⟩ := Prod.mk.inj spanned
      have stops : mark = '=' := by
        have head := List.head?_dropWhile_not (fun c => decide (c ≠ '=')) rest
        rw [after] at head
        simpa using head
      rw [before, after] at whole
      simp [← whole, stops]
    next front spanned =>
      cases long
      rw [parts] at spanned
      obtain ⟨before, after⟩ := Prod.mk.inj spanned
      rw [before, after, List.append_nil] at whole
      simp [whole]
  next => cases long
  next => cases long

theorem ofText_short {word : String} {letters : List Char}
    (short : Word.ofText word = .short letters) : ∃ c rest, letters = c :: rest := by
  unfold Word.ofText at short
  split at short
  next => cases short
  next => split at short <;> cases short
  next =>
    cases short
    exact ⟨_, _, rfl⟩
  next => cases short

theorem ofText_version (text : List Char) :
    Word.ofText (String.ofList ("--cas=".toList ++ text)) =
      .long "cas" (some (String.ofList text)) := by
  have spanned : ('c' :: 'a' :: 's' :: '=' :: text).span (fun c => decide (c ≠ '=')) =
      (['c', 'a', 's'], '=' :: text) := by
    rw [List.span_eq_takeWhile_dropWhile]
    rfl
  rw [Word.ofText, String.toList_ofList]
  simp only [show "--cas=".toList = ['-', '-', 'c', 'a', 's', '='] from rfl, List.cons_append,
    List.nil_append, spanned]

theorem eq_append_of_dropLead {lead text rest : List Char}
    (dropped : Text.dropLead lead text = some rest) : text = lead ++ rest := by
  induction lead generalizing text with
  | nil =>
    cases text <;> cases dropped <;> rfl
  | cons l lead ih =>
    cases text with
    | nil => cases dropped
    | cons c text =>
      rw [Text.dropLead] at dropped
      split at dropped
      next same => rw [ih dropped, same, List.cons_append]
      next => cases dropped

/-- Words other than the mark and the option are passed over. -/
theorem versionOn_cons {word : String} (noMark : Word.ofText word ≠ .escape)
    (other : ∀ value, Word.ofText word ≠ .long "cas" value) (rest : List String) :
    versionOn (word :: rest) = versionOn rest := by
  rw [versionOn, if_neg, if_neg]
  · split
    -- With its lead in front of it, the text would be the option.
    next text dropped =>
      refine absurd ?_ (other (some (String.ofList text)))
      rw [← ofText_version, ← eq_append_of_dropLead dropped, String.ofList_toList]
    next => rfl
  · rintro rfl
    exact other none rfl
  · rintro rfl
    exact noMark rfl

theorem versionOn_escape {word : String} (mark : Word.ofText word = .escape)
    (rest : List String) : versionOn (word :: rest) = none := by
  rw [ofText_escape mark, versionOn, if_pos rfl]

theorem versionOn_long {word : String} {value : Option String}
    (option : Word.ofText word = .long "cas" value) (rest : List String) :
    versionOn (word :: rest) = value.or rest.head? := by
  have written := ofText_long option
  cases value with
  | none =>
    have same : word = "--cas" := String.toList_inj.mp written
    rw [same, versionOn, if_neg (by decide), if_pos rfl, Option.none_or]
  | some text =>
    have written : word.toList = "--cas=".toList ++ text.toList := written
    have dropped := Text.dropLead_append "--cas=".toList text.toList
    have noMark : word ≠ "--" := by
      rintro rfl
      cases option
    have noName : word ≠ "--cas" := by
      rintro rfl
      cases option
    rw [versionOn, if_neg noMark, if_neg noName, written, dropped]
    exact congrArg some String.ofList_toList

/-! ### What was given -/

namespace Given

variable {g g' : Given} {name other : String} {source : Source}

theorem get?_append_of_ne (ne : name ≠ other) (data : List Datum) :
    (g.append name source data).get? other = g.get? other := by
  unfold append
  split
  · rw [get?, get?, List.find?_map]
    -- Adding data leaves the names, so the search stops where it did.
    have names : ((fun e : Entry => e.name == other) ∘ fun e : Entry =>
        if e.name = name then { e with data := e.data ++ data } else e) =
        fun e => e.name == other := by
      funext e
      by_cases same : e.name = name <;> simp [same]
    rw [names]
    cases found : List.find? (fun e : Entry => e.name == other) g with
    | none => rfl
    | some e =>
      have named : e.name = other := by simpa using List.find?_some found
      rw [Option.map_some, if_neg fun same => ne (same.symm.trans named)]
  · rw [get?, List.find?_append, get?, List.find?_cons_of_neg (by simpa using ne),
      List.find?_nil, Option.or_none]

theorem get?_append_of_fresh (fresh : g.has name = false) (data : List Datum) :
    (g.append name source data).get? name = some ⟨name, source, data⟩ := by
  have missing : g.get? name = none := by simpa [has] using fresh
  rw [append, if_neg (by simp [fresh]), get?, List.find?_append]
  rw [get?] at missing
  rw [missing, Option.none_or, List.find?_cons_of_pos (by simp)]

theorem text?_congr (same : g'.get? name = g.get? name) : g'.text? name = g.text? name := by
  rw [text?, text?, data, data, same]

theorem text?_of_fresh (fresh : g.has name = false) : g.text? name = none := by
  have missing : g.get? name = none := by simpa [has] using fresh
  rw [text?, data, missing]
  rfl

/-- Giving one parameter leaves the others. -/
theorem get?_give {p : Parameter} {texts : List String} (ne : p.name ≠ other)
    (given : give p source texts g = .ok g') : g'.get? other = g.get? other := by
  unfold give at given
  split at given
  · cases given
  · cases read : (split p texts).mapM p.form.read with
    | error usage =>
      rw [read] at given
      cases given
    | ok data =>
      rw [read] at given
      cases given
      exact get?_append_of_ne ne data

/-- The version is given once. -/
theorem text?_give {text : String} (given : give Invocation.version source [text] g = .ok g') :
    g.has "cas" = false ∧ g'.text? "cas" = some text := by
  unfold give at given
  split at given
  · cases given
  next single =>
    have fresh : g.has "cas" = false := by simpa [Invocation.version, Parameter.option] using single
    cases given
    refine ⟨fresh, ?_⟩
    show Given.text? (g.append "cas" source [.text text]) "cas" = some text
    rw [text?, data, get?_append_of_fresh fresh]
    rfl

theorem give_conflict {texts : List String} (given : g.has "cas" = true) :
    give Invocation.version source texts g = .error .conflict := by
  rw [give, if_pos ⟨.inl rfl, given⟩]
  rfl

theorem get?_fill {env : Environment} {params : List Parameter}
    (steady : ∀ p ∈ params, p.name = other → p.stand = none)
    (filled : fill env params g = .ok g') : g'.get? other = g.get? other := by
  induction params generalizing g with
  | nil =>
    cases filled
    rfl
  | cons p params ih =>
    obtain ⟨here, later⟩ := List.forall_mem_cons.mp steady
    rw [fill] at filled
    split at filled
    next => exact ih later filled
    next value found =>
      split at filled
      next given gives =>
        -- A variable was read, so this is not the parameter.
        have ne : p.name ≠ other := by
          intro same
          rw [here same] at found
          split at found <;> cases found
        rw [ih later filled, get?_give ne gives]
      next => cases filled

end Given

/-! ### States -/

namespace State

variable {st st' : State}

/-- The version that a state has, complete or not. -/
def version? (st : State) : Option String :=
  match st.pending with
  | some (p, text :: _) => if p.name = "cas" then some text else st.given.text? "cas"
  | _ => st.given.text? "cas"

/-- The version that a state comes to over words that are accepted. -/
def expects (st : State) (words : List String) : Option String :=
  if st.isTrailing then st.version?
  else match st.pending with
    | some (p, []) => if p.name = "cas" then words.head? else st.version?.or (versionOn words)
    | _ => st.version?.or (versionOn words)

/-- Whether a state is one that reading comes to. -/
structure Fits (st : State) : Prop where
  version : ∀ p texts, st.pending = some (p, texts) → p.name = "cas" →
    p = Invocation.version ∧ texts.length ≤ 1
  value : st.phase = .value → ∃ p, st.pending = some (p, [])

/-- Whether a version was given twice, or can no longer be given. -/
def IsDoomed (st : State) : Prop :=
  ∃ texts, st.pending = some (Invocation.version, texts) ∧
    (st.given.has "cas" = true ∨ texts = [] ∧ st.isTrailing = true)

theorem fits_start : start.Fits := ⟨nofun, nofun⟩

theorem IsDoomed.settle (doomed : st.IsDoomed) : st.settle ≠ .ok st' := by
  obtain ⟨texts, pending, given | ⟨rfl, -⟩⟩ := doomed
  · rw [State.settle, pending]
    cases texts with
    | nil => exact nofun
    | cons text texts =>
      simp only [Given.give_conflict given]
      exact nofun
  · rw [State.settle, pending]
    exact nofun

/-- A state whose pending parameter is complete. -/
structure Settles (st st' : State) : Prop where
  settled : st'.pending = none
  given : st'.given.text? "cas" = st.version?
  complete : ∀ p, st.pending ≠ some (p, [])
  phase : st'.phase = st.phase
  isTrailing : st'.isTrailing = st.isTrailing

theorem Fits.settles (fits : st.Fits) (settled : st.settle = .ok st') : st.Settles st' := by
  rw [settle] at settled
  cases pending : st.pending with
  | none =>
    rw [pending] at settled
    cases settled
    exact ⟨pending, by rw [version?, pending], by rw [pending]; exact nofun, rfl, rfl⟩
  | some entry =>
    obtain ⟨p, texts⟩ := entry
    cases texts with
    | nil =>
      rw [pending] at settled
      cases settled
    | cons text texts =>
      simp only [pending] at settled
      cases gives : Given.give p .line (text :: texts) st.given with
      | error usage =>
        rw [gives] at settled
        cases settled
      | ok given =>
        rw [gives] at settled
        cases settled
        refine ⟨rfl, ?_, by rw [pending]; simp, rfl, rfl⟩
        simp only [version?, pending]
        split
        next named =>
          obtain ⟨rfl, short⟩ := fits.version p _ pending named
          obtain rfl : texts = [] := by simpa using short
          exact (Given.text?_give gives).2
        next other => exact Given.text?_congr (Given.get?_give other gives)

theorem Settles.expects (settles : st.Settles st') (ahead : st.isTrailing = false)
    (words : List String) :
    st.expects words = (st'.given.text? "cas").or (versionOn words) := by
  have complete := settles.complete
  rw [State.expects, settles.given, ahead]
  simp only [Bool.false_eq_true, if_false]

/-- What a state expects when it waits for no version. -/
theorem expects_of_version {given : Option String} (version : st.version? = given)
    (other : ∀ p, st.pending = some (p, []) → p.name ≠ "cas") (ahead : st.isTrailing = false)
    (words : List String) : st.expects words = given.or (versionOn words) := by
  rw [State.expects, ahead, version]
  simp only [Bool.false_eq_true, if_false]
  split
  next p pending => rw [if_neg (other p pending)]
  next => rfl

end State

/-! ### Levels -/

/-- Whether the version is the only parameter of its name, and an option. -/
structure Scope.Offers (scope : Scope α) : Prop where
  options : ∀ p ∈ scope.options, p.name = "cas" → p = Invocation.version
  positionals : ∀ p ∈ scope.level.positionals, p.name ≠ "cas"

section Steps

variable {scope : Scope α} {st st' : State} {p : Parameter} {texts : List String}

/-- How a state follows another that expects the same. -/
structure State.Follows (st' st : State) : Prop where
  fits : st'.Fits
  isTrailing : st'.isTrailing = st.isTrailing
  expects : ∀ words, st'.expects words = st.expects words

theorem State.Follows.trans {st'' : State} (second : st''.Follows st') (first : st'.Follows st) :
    st''.Follows st :=
  ⟨second.fits, second.isTrailing.trans first.isTrailing, fun words =>
    (second.expects words).trans (first.expects words)⟩

theorem State.Fits.of_give (fits : st.Fits) (gives : st.give p texts = .ok st') :
    ∃ done, st.Settles done ∧ Given.give p .line texts done.given = .ok st'.given ∧
      st'.pending = none ∧ st'.isTrailing = st.isTrailing ∧ st'.Fits := by
  obtain ⟨done, settled, rest⟩ := of_bind_ok gives
  obtain ⟨given, now, same⟩ := of_bind_ok rest
  have settles := fits.settles settled
  cases same
  refine ⟨done, settles, now, settles.settled, settles.isTrailing, fun q texts pending => ?_, nofun⟩
  rw [show done.pending = none from settles.settled] at pending
  cases pending

/-- Giving another parameter changes nothing of the version. -/
theorem State.Fits.give (fits : st.Fits) (ahead : st.isTrailing = false)
    (other : p.name ≠ "cas") (gives : st.give p texts = .ok st') : st'.Follows st := by
  obtain ⟨done, settles, given, pending, trailing, now⟩ := fits.of_give gives
  refine ⟨now, trailing, fun words => ?_⟩
  have version : st'.version? = done.given.text? "cas" := by
    rw [State.version?, pending]
    exact Given.text?_congr (Given.get?_give other given)
  rw [settles.expects ahead,
    State.expects_of_version version (by simp [pending]) (trailing.trans ahead)]

theorem State.Fits.give_version (fits : st.Fits) (ahead : st.isTrailing = false) {text : String}
    (gives : st.give Invocation.version [text] = .ok st') :
    st'.Fits ∧ st'.isTrailing = false ∧ (∀ words, st'.expects words = some text) ∧
      ∀ words, st.expects words = versionOn words := by
  obtain ⟨done, settles, given, pending, trailing, now⟩ := fits.of_give gives
  obtain ⟨fresh, version⟩ := Given.text?_give given
  refine ⟨now, trailing.trans ahead, fun words => ?_, fun words => ?_⟩
  · have version : st'.version? = some text := by rw [State.version?, pending, version]
    rw [State.expects_of_version version (by simp [pending]) (trailing.trans ahead), Option.some_or]
  · rw [settles.expects ahead, Given.text?_of_fresh fresh, Option.none_or]

theorem State.Fits.of_await (fits : st.Fits) (awaits : st.await p = .ok st')
    (version : p.name = "cas" → p = Invocation.version) :
    ∃ done, st.Settles done ∧ st'.given = done.given ∧ st'.pending = some (p, []) ∧
      st'.isTrailing = st.isTrailing ∧ st'.Fits := by
  obtain ⟨done, settled, same⟩ := of_bind_ok awaits
  have settles := fits.settles settled
  cases same
  refine ⟨done, settles, rfl, rfl, settles.isTrailing, fun q texts pending => ?_, fun _ => ⟨p, rfl⟩⟩
  cases pending
  exact fun named => ⟨version named, Nat.zero_le 1⟩

theorem State.Fits.await (fits : st.Fits) (ahead : st.isTrailing = false)
    (other : p.name ≠ "cas") (awaits : st.await p = .ok st') : st'.Follows st := by
  obtain ⟨done, settles, given, pending, trailing, now⟩ :=
    fits.of_await awaits fun named => absurd named other
  refine ⟨now, trailing, fun words => ?_⟩
  have version : st'.version? = done.given.text? "cas" := by rw [State.version?, pending, given]
  rw [settles.expects ahead, State.expects_of_version version _ (trailing.trans ahead)]
  intro q waits
  rw [pending] at waits
  cases waits
  exact other

/-- The version is the next word, unless there is one already. -/
theorem State.Fits.await_version (fits : st.Fits) (ahead : st.isTrailing = false)
    (awaits : st.await Invocation.version = .ok st') :
    st'.IsDoomed ∨ st'.Fits ∧ st'.isTrailing = false ∧ (∀ words, st'.expects words = words.head?) ∧
      ∀ words, st.expects words = versionOn words := by
  obtain ⟨done, settles, given, pending, trailing, now⟩ := fits.of_await awaits fun _ => rfl
  cases had : done.given.has "cas" with
  | true => exact .inl ⟨[], pending, .inl (by rw [given, had])⟩
  | false =>
    refine .inr ⟨now, trailing.trans ahead, fun words => ?_, fun words => ?_⟩
    · rw [State.expects, trailing, ahead, pending]
      rfl
    · rw [settles.expects ahead, Given.text?_of_fresh had, Option.none_or]

theorem ask_ne_ok {usage : Usage} : st.ask usage ≠ .ok st' := by
  intro asked
  obtain ⟨_, -, thrown⟩ := of_bind_ok asked
  cases thrown

/-- No option that has a letter is the version. -/
theorem shortOptions_follows (offers : scope.Offers) {letters : List Char} (fits : st.Fits)
    (ahead : st.isTrailing = false) (read : shortOptions scope letters st = .ok st') :
    st'.Follows st := by
  induction letters generalizing st with
  | nil =>
    cases read
    exact ⟨fits, rfl, fun _ => rfl⟩
  | cons c letters ih =>
    rw [shortOptions] at read
    split at read
    · exact absurd read ask_ne_ok
    · split at read
      · exact absurd read ask_ne_ok
      · split at read
        next => cases read
        next p found =>
          have other : p.name ≠ "cas" := by
            intro named
            have lettered := List.find?_some found
            rw [offers.options p (List.mem_of_find?_eq_some found) named] at lettered
            cases lettered
          split at read
          · split at read
            next mid gives =>
              have first := fits.give ahead other gives
              exact (ih first.fits (first.isTrailing.trans ahead) read).trans first
            next => cases read
          · split at read
            · exact fits.await ahead other read
            · exact fits.give ahead other read

/-- What the next word does to a state before the mark. -/
def State.Takes (st : State) (word : String) (st' : State) : Prop :=
  st'.IsDoomed ∨ st'.Fits ∧ (Word.ofText word ≠ .escape → st'.isTrailing = false) ∧
    ∀ rest, st.expects (word :: rest) = st'.expects rest

theorem State.Follows.takes (follows : st'.Follows st) (ahead : st.isTrailing = false)
    (other : ∀ p, st.pending = some (p, []) → p.name ≠ "cas") {word : String}
    (skips : ∀ rest, versionOn (word :: rest) = versionOn rest) : st.Takes word st' := by
  refine .inr ⟨follows.fits, fun _ => follows.isTrailing.trans ahead, fun rest => ?_⟩
  rw [follows.expects, State.expects_of_version rfl other ahead,
    State.expects_of_version rfl other ahead, skips]

theorem longOption_takes (offers : scope.Offers) {word name : String} {value : Option String}
    (long : Word.ofText word = .long name value) (fits : st.Fits) (ahead : st.isTrailing = false)
    (other : ∀ p, st.pending = some (p, []) → p.name ≠ "cas")
    (read : longOption scope name value st = .ok st') : st.Takes word st' := by
  have skips (ne : name ≠ "cas") (rest : List String) :
      versionOn (word :: rest) = versionOn rest := by
    refine versionOn_cons (by rw [long]; exact nofun) (fun value same => ?_) rest
    rw [long] at same
    cases same
    exact ne rfl
  unfold longOption at read
  simp only at read
  split at read
  next => exact absurd read ask_ne_ok
  next => cases read
  next => cases read
  next p _ found =>
    have named : p.name = name := by simpa using List.find?_some found
    have version := offers.options p (List.mem_of_find?_eq_some found)
    split at read
    next flag =>
      have ne : p.name ≠ "cas" := by
        intro same
        rw [version same] at flag
        cases flag
      exact (fits.give ahead ne read).takes ahead other (skips (named ▸ ne))
    next =>
      by_cases same : p.name = "cas"
      · obtain rfl := version same
        obtain rfl : "cas" = name := named
        obtain doomed | ⟨now, trailing, expects, before⟩ := fits.await_version ahead read
        · exact .inl doomed
        · refine .inr ⟨now, fun _ => trailing, fun rest => ?_⟩
          rw [before, expects, versionOn_long long, Option.none_or]
      · exact (fits.await ahead same read).takes ahead other (skips (named ▸ same))
  next text p _ found =>
    have named : p.name = name := by simpa using List.find?_some found
    have version := offers.options p (List.mem_of_find?_eq_some found)
    split at read
    · cases read
    · by_cases same : p.name = "cas"
      · obtain rfl := version same
        obtain rfl : "cas" = name := named
        obtain ⟨now, trailing, expects, before⟩ := fits.give_version ahead read
        refine .inr ⟨now, fun _ => trailing, fun rest => ?_⟩
        rw [before, expects, versionOn_long long, Option.some_or]
      · exact (fits.give ahead same read).takes ahead other (skips (named ▸ same))

/-- Another parameter has words of its own, behind what was settled. -/
theorem State.Settles.begins {done : State} (settles : st.Settles done) (other : p.name ≠ "cas")
    (word : String) (given : st'.given = done.given) (pending : st'.pending = some (p, [word]))
    (phase : st'.phase ≠ .value) (trailing : st'.isTrailing = done.isTrailing) :
    st'.Fits ∧ st'.isTrailing = st.isTrailing ∧ st'.version? = st.version? ∧
      ∀ p, st'.pending ≠ some (p, []) := by
  refine ⟨⟨fun q texts held named => ?_, fun waits => absurd waits phase⟩,
    trailing.trans settles.isTrailing, ?_, by simp [pending]⟩
  · rw [pending] at held
    cases held
    exact absurd named other
  · rw [← settles.given, State.version?, pending, given]
    exact if_neg other

/-- A positional argument changes nothing of the version. -/
theorem positional_version (offers : scope.Offers) {word : String} (fits : st.Fits)
    (read : positional scope word st = .ok st') :
    st'.Fits ∧ st'.isTrailing = st.isTrailing ∧ st'.version? = st.version? ∧
      ∀ p, st'.pending ≠ some (p, []) := by
  unfold positional at read
  split at read
  next => cases read
  next p found =>
    have other := offers.positionals p (List.mem_of_getElem? found)
    split at read
    next series =>
      split at read
      next pending =>
        -- One more of a series that has begun.
        cases read
        cases held : st.pending with
        | none =>
          rw [State.isPending, held] at pending
          cases pending
        | some entry =>
          obtain ⟨q, texts⟩ := entry
          have named : q.name = p.name := by simpa [State.isPending, held] using pending
          refine ⟨⟨?_, nofun⟩, rfl, ?_, by simp⟩
          · intro q texts pending same
            cases pending
            exact absurd same other
          · simp only [State.version?, held, Option.map_some, Option.getD_some]
            cases texts <;> simp [other, named]
      next fresh =>
        obtain ⟨done, settled, read⟩ := of_bind_ok read
        have settles := fits.settles settled
        cases read
        exact settles.begins other word rfl (by simp [settles.settled]) nofun rfl
    next single =>
      obtain ⟨done, settled, read⟩ := of_bind_ok read
      cases read
      exact (fits.settles settled).begins other word rfl rfl nofun rfl

/-! ### Stuck states -/

section Stuck

variable (stuck : ∀ done, st.settle ≠ .ok done)
include stuck

theorem State.give_stuck : st.give p texts ≠ .ok st' := fun read => by
  obtain ⟨done, settled, -⟩ := of_bind_ok read
  exact stuck done settled

theorem State.await_stuck : st.await p ≠ .ok st' := fun read => by
  obtain ⟨done, settled, -⟩ := of_bind_ok read
  exact stuck done settled

theorem longOption_stuck {name : String} {value : Option String} :
    longOption scope name value st ≠ .ok st' := by
  unfold longOption
  simp only
  split
  · exact ask_ne_ok
  · exact nofun
  · exact nofun
  · split
    · exact State.give_stuck stuck
    · exact State.await_stuck stuck
  · split
    · exact nofun
    · exact State.give_stuck stuck

theorem shortOptions_stuck {c : Char} {letters : List Char} :
    shortOptions scope (c :: letters) st ≠ .ok st' := by
  rw [shortOptions]
  split
  · exact ask_ne_ok
  · split
    · exact ask_ne_ok
    · split
      · exact nofun
      · split
        · split
          next gives => exact absurd gives (State.give_stuck stuck)
          next => exact nofun
        · split
          · exact State.await_stuck stuck
          · exact State.give_stuck stuck

theorem positional_stuck (offers : scope.Offers)
    (pending : st.pending = some (Invocation.version, texts)) {word : String} :
    positional scope word st ≠ .ok st' := by
  unfold positional
  split
  · exact nofun
  next q found =>
    have other := offers.positionals q (List.mem_of_getElem? found)
    have apart : st.isPending q = false := by
      rw [State.isPending, pending]
      exact beq_false_of_ne fun same => other (same ▸ rfl)
    split
    · intro read
      simp only [apart, Bool.false_eq_true, if_false] at read
      obtain ⟨done, settled, -⟩ := of_bind_ok read
      exact stuck done settled
    · intro read
      obtain ⟨done, settled, -⟩ := of_bind_ok read
      exact stuck done settled

/-- While the version waits or is there twice, only a value or the mark is read. -/
theorem word_stuck (offers : scope.Offers)
    (pending : st.pending = some (Invocation.version, texts)) {text : String}
    (read : word scope text st = .ok st') :
    st.isTrailing = false ∧ (Word.ofText text = .escape ∧ st' = { st with isTrailing := true } ∨
      st.phase = .value ∧ st' = { st with
        pending := some (Invocation.version, texts ++ [text]), phase := .between }) := by
  unfold word at read
  split at read
  next => exact absurd read (positional_stuck stuck offers pending)
  next ahead =>
    refine ⟨Bool.eq_false_iff.mpr ahead, ?_⟩
    split at read
    next mark =>
      cases read
      exact .inl ⟨mark, rfl⟩
    next => exact absurd read (longOption_stuck stuck)
    next letters short =>
      obtain ⟨c, letters, rfl⟩ := ofText_short short
      exact absurd read (shortOptions_stuck stuck)
    next =>
      unfold place at read
      split at read
      next p words phase held =>
        rw [pending] at held
        cases held
        cases read
        exact .inr ⟨phase, rfl⟩
      next => exact absurd read (positional_stuck stuck offers pending)

end Stuck

/-! ### Words, one after the other -/

theorem State.IsDoomed.word (doomed : st.IsDoomed) (offers : scope.Offers) {text : String}
    (read : word scope text st = .ok st') : st'.IsDoomed := by
  have stuck : ∀ done, st.settle ≠ .ok done := fun _ => doomed.settle
  obtain ⟨texts, pending, why⟩ := doomed
  obtain ⟨ahead, ⟨-, rfl⟩ | ⟨-, rfl⟩⟩ := word_stuck stuck offers pending read
  · exact ⟨texts, pending, why.imp_right fun ⟨empty, _⟩ => ⟨empty, rfl⟩⟩
  · refine ⟨_, rfl, why.imp_right fun ⟨_, behind⟩ => ?_⟩
    rw [ahead] at behind
    cases behind

/-- A word is read as what it is. -/
theorem word_takes (offers : scope.Offers) {text : String} (fits : st.Fits)
    (ahead : st.isTrailing = false) (read : word scope text st = .ok st') : st.Takes text st' := by
  -- A version that waits for its value takes the word, or is doomed by the mark.
  by_cases waits : st.pending = some (Invocation.version, [])
  · have stuck : ∀ done, st.settle ≠ .ok done := fun done settled => by
      rw [State.settle, waits] at settled
      cases settled
    obtain ⟨-, ⟨-, rfl⟩ | ⟨-, rfl⟩⟩ := word_stuck stuck offers waits read
    · exact .inl ⟨[], waits, .inr ⟨rfl, rfl⟩⟩
    · refine .inr ⟨⟨fun p texts held _ => ?_, nofun⟩, fun _ => ahead, fun rest => ?_⟩
      · cases held
        exact ⟨rfl, Nat.le_refl 1⟩
      · rw [State.expects, ahead, waits]
        simp only [State.expects, List.nil_append]
        rfl
  · -- Another parameter may wait for its value, or none.
    have other : ∀ p, st.pending = some (p, []) → p.name ≠ "cas" := by
      intro p held named
      rw [(fits.version p [] held named).1] at held
      exact waits held
    unfold word at read
    rw [ahead] at read
    simp only [Bool.false_eq_true, if_false] at read
    split at read
    next mark =>
      cases read
      refine .inr ⟨⟨fits.version, fits.value⟩, absurd mark, fun rest => ?_⟩
      rw [State.expects_of_version rfl other ahead, versionOn_escape mark, Option.or_none]
      rfl
    next name value long => exact longOption_takes offers long fits ahead other read
    next letters short =>
      refine (shortOptions_follows offers fits ahead read).takes ahead other fun rest => ?_
      exact versionOn_cons (by rw [short]; exact nofun) (fun _ => by rw [short]; exact nofun) rest
    next plain =>
      have skips (rest : List String) : versionOn (text :: rest) = versionOn rest :=
        versionOn_cons (by rw [plain]; exact nofun) (fun _ => by rw [plain]; exact nofun) rest
      unfold place at read
      split at read
      next p words phase held =>
        -- The value of another option.
        obtain ⟨q, empty⟩ := fits.value phase
        rw [held] at empty
        obtain ⟨rfl, rfl⟩ := Prod.mk.inj (Option.some.inj empty)
        cases read
        have named := other p held
        refine .inr ⟨⟨?_, nofun⟩, fun _ => ahead, fun rest => ?_⟩
        · intro q texts pending same
          cases pending
          exact absurd same named
        · have before : st.version? = st.given.text? "cas" := by rw [State.version?, held]
          have after :
              State.version? { st with pending := some (p, [] ++ [text]), phase := .between } =
              st.given.text? "cas" := if_neg named
          rw [State.expects_of_version before other ahead, skips,
            State.expects_of_version after (by simp) ahead]
      next =>
        obtain ⟨now, trailing, version, complete⟩ := positional_version offers fits read
        refine .inr ⟨now, fun _ => trailing.trans ahead, fun rest => ?_⟩
        rw [State.expects_of_version rfl other ahead, skips, State.expects_of_version version
          (fun p held => absurd held (complete p)) (trailing.trans ahead)]

end Steps

/-! ### Lines -/

section Lines

variable {env : Environment} {globals : List Parameter} {isOutermost : Bool} {level : Level α}
  {st : State} {words : List String}

theorem State.IsDoomed.close {scope : Scope α} (doomed : st.IsDoomed) {given : Given} :
    close env scope st ≠ .ok given := by
  intro closed
  obtain ⟨done, settled, -⟩ := of_bind_ok closed
  exact doomed.settle settled

theorem State.IsDoomed.read (offers : ∀ isOutermost, Scope.Offers ⟨level, globals, isOutermost⟩)
    (doomed : st.IsDoomed) {result : List Given × α} :
    read env globals isOutermost level words st ≠ .ok result := by
  -- Doomed from word to word, and what was given cannot be settled at the end.
  induction words generalizing st with
  | nil =>
    intro finished
    obtain ⟨given, closed, -⟩ := of_bind_ok finished
    exact doomed.close closed
  | cons text rest ih =>
    intro ok
    rw [Grammar.read] at ok
    split at ok
    · cases ok
    · split at ok
      · split at ok
        · cases ok
        · split at ok
          next => cases ok
          next closed => exact doomed.close closed
      · split at ok
        next => cases ok
        next after read => exact ih (doomed.word (offers _) read) ok

/-- A word that is read at a leaf is no command. -/
theorem read_leaf_cons {options positionals : List Parameter} {make : Given → α} {text : String}
    {rest : List String} {result : List Given × α}
    (ok : read env globals isOutermost (.leaf options positionals make) (text :: rest) st =
      .ok result) :
    ∃ after, word ⟨.leaf options positionals make, globals, isOutermost⟩ text st = .ok after ∧
      read env globals isOutermost (.leaf options positionals make) rest after = .ok result := by
  rw [read] at ok
  simp only [Level.isHelp, Level.isGroup, Bool.false_and, Bool.and_false, Bool.false_eq_true,
    if_false, Level.command?, ite_self] at ok
  split at ok
  next => cases ok
  next after read => exact ⟨after, read, ok⟩

/-- What a leaf is given is what its words say. -/
theorem read_leaf {options positionals : List Parameter} {make : Given → α}
    (offers : ∀ isOutermost,
      Scope.Offers ⟨.leaf options positionals make, globals, isOutermost⟩)
    (fits : st.Fits) {givens : List Given} {made : α}
    (ok : read env globals isOutermost (.leaf options positionals make) words st =
      .ok (givens, made)) :
    ∃ given : Given, made = make given ∧ given.text? "cas" = st.expects words := by
  -- A state expects before a word what it expects after it, and at the end what it has.
  induction words generalizing st with
  | nil =>
    obtain ⟨given, closed, rest⟩ := of_bind_ok ok
    obtain ⟨done, settled, filled⟩ := of_bind_ok closed
    have settles := fits.settles settled
    have steady : ∀ p ∈ Scope.options ⟨.leaf options positionals make, globals, isOutermost⟩,
        p.name = "cas" → p.stand = none := fun p member named => by
      rw [(offers isOutermost).options p member named]
      rfl
    simp only at rest
    split at rest
    next =>
      cases rest
      refine ⟨given, rfl, ?_⟩
      rw [Given.text?_congr (Given.get?_fill steady filled), settles.given]
      cases trailing : st.isTrailing with
      | true => rw [State.expects, trailing]; rfl
      | false => rw [settles.expects trailing, settles.given, versionOn, Option.or_none]
    next => cases rest
  | cons text rest ih =>
    obtain ⟨after, step, ok⟩ := read_leaf_cons ok
    cases trailing : st.isTrailing with
    | true =>
      -- Behind the mark all words are positional.
      rw [word, if_pos trailing] at step
      obtain ⟨now, still, version, -⟩ := positional_version (offers _) fits step
      obtain ⟨given, same, expects⟩ := ih now ok
      refine ⟨given, same, expects.trans ?_⟩
      rw [State.expects, State.expects, still, trailing, version]
      rfl
    | false =>
      obtain doomed | ⟨now, -, expects⟩ := word_takes (offers _) fits trailing step
      · exact absurd ok (doomed.read offers)
      · obtain ⟨given, same, ends⟩ := ih now ok
        exact ⟨given, same, ends.trans (expects rest).symm⟩

/-- Where the version is not offered, no word gives it. -/
theorem versionOn_of_unoffered {scope : Scope α} (unoffered : ∀ p ∈ scope.options, p.name ≠ "cas")
    (ahead : st.isTrailing = false) {text : String} {after : State}
    (step : word scope text st = .ok after) (noMark : Word.ofText text ≠ .escape)
    (rest : List String) : versionOn (text :: rest) = versionOn rest := by
  refine versionOn_cons noMark (fun value long => ?_) rest
  have missing : scope.options.find? (·.name == "cas") = none :=
    List.find?_eq_none.mpr fun p member => by simpa using unoffered p member
  rw [word, ahead, if_neg (by decide), long] at step
  unfold longOption at step
  have noHelp : ("cas" : String) ≠ "help" := by decide
  have noVersion : ¬(scope.isOutermost = true ∧ ("cas" : String) = "version") := fun ⟨_, same⟩ =>
    absurd same (by decide)
  simp only [if_neg noHelp, if_neg noVersion, missing] at step
  cases value <;> cases step

theorem versionOn_leaf {options positionals : List Parameter} {make : Given → α}
    (unoffered : ∀ p ∈ options ++ globals, p.name ≠ "cas")
    (offers : ∀ isOutermost,
      Scope.Offers ⟨.leaf options positionals make, globals, isOutermost⟩)
    (fits : st.Fits) (ahead : st.isTrailing = false) {result : List Given × α}
    (ok : read env globals isOutermost (.leaf options positionals make) words st = .ok result) :
    versionOn words = none := by
  induction words generalizing st with
  | nil => rfl
  | cons text rest ih =>
    obtain ⟨after, step, ok⟩ := read_leaf_cons ok
    by_cases mark : Word.ofText text = .escape
    · exact versionOn_escape mark rest
    · have unoffered' : ∀ p ∈ Scope.options ⟨.leaf options positionals make, globals, isOutermost⟩,
          p.name ≠ "cas" := unoffered
      rw [versionOn_of_unoffered unoffered' ahead step mark]
      obtain doomed | ⟨now, trailing, -⟩ := word_takes (offers _) fits ahead step
      · exact absurd ok (doomed.read offers)
      · exact ih now (trailing mark) ok

/-- Behind the mark there is no way on among commands. -/
theorem read_group_trailing {commands : List (String × Level α)} (trailing : st.isTrailing = true)
    {result : List Given × α} :
    read env globals isOutermost (.group commands) words st ≠ .ok result := by
  cases words with
  | nil =>
    intro finished
    obtain ⟨given, -, thrown⟩ := of_bind_ok finished
    cases thrown
  | cons text rest =>
    intro ok
    rw [read, trailing] at ok
    simp only [Bool.not_true, Bool.false_and, Bool.false_eq_true, if_false] at ok
    rw [word, if_pos trailing] at ok
    cases ok

/-- Whether the commands of a level have the version that they are given. -/
inductive Level.Versions : Level Command → Prop where
  | versioned {options positionals : List Parameter} {make : Given → Command}
      (offered : ∀ p ∈ options, p.name = "cas" → p = Invocation.version)
      (named : ∀ p ∈ positionals, p.name ≠ "cas")
      (made : ∀ given : Given, (make given).version? = given.text? "cas") :
      Versions (.leaf options positionals make)
  | unversioned {options positionals : List Parameter} {make : Given → Command}
      (unoffered : ∀ p ∈ options ++ positionals, p.name ≠ "cas")
      (made : ∀ given : Given, (make given).version? = none) :
      Versions (.leaf options positionals make)
  | group {commands : List (String × Level Command)}
      (plain : ∀ entry ∈ commands, Word.ofText entry.1 = .plain)
      (each : ∀ entry ∈ commands, Versions entry.2) : Versions (.group commands)

theorem Level.Versions.offers {level : Level Command} (versions : level.Versions)
    (noGlobal : ∀ p ∈ globals, p.name ≠ "cas") (isOutermost : Bool) :
    Scope.Offers ⟨level, globals, isOutermost⟩ := by
  cases versions with
  | versioned offered named made =>
    refine ⟨fun p member same => ?_, named⟩
    rcases List.mem_append.mp member with own | global
    · exact offered p own same
    · exact absurd same (noGlobal p global)
  | unversioned unoffered made =>
    obtain ⟨options, positionals⟩ := List.forall_mem_append.mp unoffered
    refine ⟨fun p member same => absurd same ?_, positionals⟩
    rcases List.mem_append.mp member with own | global
    · exact options p own
    · exact noGlobal p global
  | group plain each =>
    exact ⟨fun p global same => absurd same (noGlobal p global), by simp [Level.positionals]⟩

theorem read_version_leaf (noGlobal : ∀ p ∈ globals, p.name ≠ "cas")
    {options positionals : List Parameter} {make : Given → Command}
    (versions : (Level.leaf options positionals make).Versions) {givens : List Given}
    {made : Command} (ok : read env globals isOutermost (.leaf options positionals make) words
      .start = .ok (givens, made)) : made.version? = versionOn words := by
  have offers := versions.offers noGlobal
  obtain ⟨given, rfl, version⟩ := read_leaf offers State.fits_start ok
  cases versions with
  | versioned offered named made => exact (made given).trans version
  | unversioned unoffered made =>
    have unoffered : ∀ p ∈ options ++ globals, p.name ≠ "cas" :=
      List.forall_mem_append.mpr ⟨(List.forall_mem_append.mp unoffered).1, noGlobal⟩
    rw [made, versionOn_leaf unoffered offers State.fits_start rfl ok]

/-- The command of an accepted line has the version that its words say. -/
theorem read_version (noGlobal : ∀ p ∈ globals, p.name ≠ "cas") {level : Level Command}
    (versions : level.Versions) (fits : st.Fits) (ahead : st.isTrailing = false)
    (here : st = .start ∨ level.isGroup = true) {givens : List Given} {made : Command}
    (ok : read env globals isOutermost level words st = .ok (givens, made)) :
    made.version? = versionOn words := by
  -- The options of a group are passed over; a command begins a line of its own.
  induction words generalizing isOutermost level st givens with
  | nil =>
    cases level with
    | leaf options positionals make =>
      obtain rfl := here.resolve_right nofun
      exact read_version_leaf noGlobal versions ok
    | group commands =>
      obtain ⟨given, -, thrown⟩ := of_bind_ok ok
      cases thrown
  | cons text rest ih =>
    cases level with
    | leaf options positionals make =>
      obtain rfl := here.resolve_right nofun
      exact read_version_leaf noGlobal versions ok
    | group commands =>
      have offers := versions.offers noGlobal
      rw [read] at ok
      split at ok
      next => cases ok
      next =>
        split at ok
        next next named =>
          -- A command, with words of its own behind it.
          split at named
          next =>
            cases versions with
            | group plain each =>
              obtain ⟨entry, found, rfl⟩ := Option.map_eq_some_iff.mp named
              have member := List.mem_of_find?_eq_some found
              have same : entry.1 = text := by simpa using List.find?_some found
              have word := plain entry member
              rw [same] at word
              have skips : versionOn (text :: rest) = versionOn rest :=
                versionOn_cons (by rw [word]; exact nofun) (fun _ => by rw [word]; exact nofun) rest
              split at ok
              next => cases ok
              next givens' made' read =>
                split at ok
                next => cases ok
                next =>
                  cases ok
                  rw [skips]
                  exact ih (each entry member) State.fits_start rfl (.inl rfl) read
          next => cases named
        next =>
          split at ok
          next => cases ok
          next after step =>
            have unoffered : ∀ p ∈ Scope.options ⟨.group commands, globals, isOutermost⟩,
                p.name ≠ "cas" := noGlobal
            by_cases mark : Word.ofText text = .escape
            · rw [word, ahead, if_neg (by decide), mark] at step
              cases step
              exact absurd ok (read_group_trailing rfl)
            · rw [versionOn_of_unoffered unoffered ahead step mark]
              obtain doomed | ⟨now, trailing, -⟩ := word_takes (offers _) fits ahead step
              · exact absurd ok (doomed.read offers)
              · exact ih versions now (trailing mark) (.inr rfl) ok

end Lines

end Grammar

namespace Invocation

open Grammar (Level Word versionOn)

theorem versions_onOne {make : String → Command} (made : ∀ name, (make name).version? = none) :
    (onOne make).Versions :=
  .unversioned (by decide) fun _ => made _

theorem versions_onMany {make : List String → Command}
    (made : ∀ names, (make names).version? = none) : (onMany make).Versions :=
  .unversioned (by decide) fun _ => made _

theorem versions_onVersion {make : String → Option String → Command}
    (made : ∀ name version, (make name version).version? = version) :
    (onVersion make).Versions :=
  .versioned (by simp) (by decide) fun _ => made _ _

theorem getCommands_versions : getCommands.Versions := by
  refine .group (by simp [Word.ofText]) ?_
  simp only [List.forall_mem_cons]
  exact ⟨.unversioned (by simp) fun _ => rfl, versions_onOne fun _ => rfl,
    versions_onMany fun _ => rfl, versions_onOne fun _ => rfl, versions_onMany fun _ => rfl,
    versions_onOne fun _ => rfl, versions_onMany fun _ => rfl, versions_onOne fun _ => rfl,
    versions_onMany fun _ => rfl, by simp⟩

theorem createCommands_versions : createCommands.Versions := by
  refine .group (by simp [Word.ofText]) ?_
  simp only [List.forall_mem_cons]
  exact ⟨.unversioned (by decide) fun _ => rfl, .unversioned (by decide) fun _ => rfl,
    .unversioned (by decide) fun _ => rfl, by simp⟩

theorem deleteCommands_versions : deleteCommands.Versions := by
  refine .group (by simp [Word.ofText]) ?_
  simp only [List.forall_mem_cons]
  exact ⟨.versioned (by decide) (by decide) fun _ => rfl, versions_onVersion fun _ _ => rfl,
    versions_onVersion fun _ _ => rfl, by simp⟩

theorem updateCommands_versions : updateCommands.Versions := by
  refine .group (by simp [Word.ofText]) ?_
  simp only [List.forall_mem_cons]
  refine ⟨.group (by simp [Word.ofText]) ?_, by simp⟩
  simp only [List.forall_mem_cons]
  exact ⟨.versioned (by simp) (by decide) fun _ => rfl, by simp⟩

theorem detachCommands_versions : detachCommands.Versions := by
  refine .group (by simp [Word.ofText]) ?_
  simp only [List.forall_mem_cons]
  exact ⟨versions_onVersion fun _ _ => rfl, by simp⟩

theorem commands_versions : commands.Versions := by
  refine .group (by simp [Word.ofText]) ?_
  simp only [List.forall_mem_cons]
  exact ⟨getCommands_versions, createCommands_versions, deleteCommands_versions,
    updateCommands_versions, detachCommands_versions, by simp⟩

/-- The version of a command is on its line, character for character. -/
theorem version_of_words {env : Environment} {words : List String} {i : Invocation}
    (accepted : ofWords env words = .ok i) : i.command.version? = versionOn words := by
  unfold ofWords at accepted
  split at accepted
  next => cases accepted
  next levels command read =>
    cases accepted
    exact Grammar.read_version (by decide) commands_versions Grammar.State.fits_start rfl
      (.inl rfl) read

end Invocation

end StorageControl
