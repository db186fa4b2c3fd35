import StorageControl.Command.Usage
import StorageControl.Span.Reader
import StorageControl.Text.Blank
import StorageControl.Word

/-! Command lines: what may be given, and how it is read.

A command line names commands level by level, with options anywhere. Options that belong
to every level may be given at any of them; the deepest one counts, and whatever the line
gives counts before the environment. Every level that does not give an option reads its
variable anew, so a wrong value in the environment is found even where a deeper or an
outer level gives a right one.
-/

set_option autoImplicit false

namespace StorageControl

abbrev Environment : Type := String → Option String

namespace Grammar

/-! ### Values -/

inductive Datum where
  | text (text : String)
  | span (span : Span)
  | natural (n : Nat)
  | truth (b : Bool)
  deriving DecidableEq, Repr

inductive Form where
  | text
  | span
  | natural
  | choice (names : List String)
  | truth
  deriving DecidableEq, Repr

/-- Digits after an optional plus sign, as a number of at most 64 bits. -/
def natural? (text : String) : Option Nat :=
  let digits := match text.toList with
    | '+' :: rest => rest
    | all => all
  if digits.isEmpty || !digits.all Char.isDigit then none
  else
    let n := digits.foldl (fun n c => n * 10 + (c.toNat - '0'.toNat)) 0
    if n < Word.limit 64 then some n else none

def Form.read : Form → String → Except Usage Datum
  | .text, t => .ok (.text t)
  | .span, t =>
    match Span.ofText? t with
    | some s => .ok (.span s)
    | none => .error .malformed
  | .natural, t =>
    match natural? t with
    | some n => .ok (.natural n)
    | none => .error .malformed
  | .choice names, t => if names.contains t then .ok (.text t) else .error .notOffered
  | .truth, t =>
    if t = "true" then .ok (.truth true)
    else if t = "false" then .ok (.truth false)
    else .error .notOffered

/-! ### Parameters -/

inductive Count where
  | flag
  | single
  /-- Any number, several of them between commas. -/
  | list
  /-- Any number, one after the other. -/
  | series
  deriving DecidableEq, Repr

structure Parameter where
  name : String
  letter : Option Char
  /-- The environment variable that stands in for it. -/
  stand : Option String
  form : Form
  count : Count
  isRequired : Bool
  deriving DecidableEq, Repr

namespace Parameter

def option (name : String) (form : Form) : Parameter := ⟨name, none, none, form, .single, false⟩

def positional (name : String) (form : Form) : Parameter := ⟨name, none, none, form, .single, true⟩

def list (name : String) : Parameter := ⟨name, none, none, .text, .list, false⟩
def series (name : String) : Parameter := ⟨name, none, none, .text, .series, false⟩
def flag (name : String) : Parameter := ⟨name, none, none, .truth, .flag, false⟩

def orVariable (p : Parameter) (name : String) : Parameter := { p with stand := some name }

end Parameter

/-! ### What was given -/

/-- Where a value comes from; the line counts before the environment. -/
inductive Source where
  | environment
  | line
  deriving DecidableEq, Repr

structure Entry where
  name : String
  source : Source
  data : List Datum
  deriving DecidableEq, Repr

abbrev Given : Type := List Entry

namespace Given

def get? (g : Given) (name : String) : Option Entry := g.find? (·.name == name)

def has (g : Given) (name : String) : Bool := (g.get? name).isSome

def data (g : Given) (name : String) : List Datum := ((g.get? name).map Entry.data).getD []

def text? (g : Given) (name : String) : Option String :=
  match g.data name with
  | .text t :: _ => some t
  | _ => none

def text (g : Given) (name : String) : String := (g.text? name).getD ""

def texts (g : Given) (name : String) : List String :=
  (g.data name).filterMap fun
    | .text t => some t
    | _ => none

def span? (g : Given) (name : String) : Option Span :=
  match g.data name with
  | .span s :: _ => some s
  | _ => none

def natural? (g : Given) (name : String) : Option Nat :=
  match g.data name with
  | .natural n :: _ => some n
  | _ => none

def flag (g : Given) (name : String) : Bool :=
  match g.data name with
  | .truth b :: _ => b
  | _ => false

def split (p : Parameter) (texts : List String) : List String :=
  if p.count = .list then
    texts.flatMap fun t => (Text.splitAtChar ',' t.toList).map String.ofList
  else texts

def append (g : Given) (name : String) (source : Source) (data : List Datum) : Given :=
  if g.has name then
    g.map fun e => if e.name = name then { e with data := e.data ++ data } else e
  else g ++ [⟨name, source, data⟩]

/-- Give a parameter texts. A single value may be given once. -/
def give (p : Parameter) (source : Source) (texts : List String) (g : Given) :
    Except Usage Given := do
  if (p.count = .single ∨ p.count = .flag) ∧ g.has p.name then throw .conflict
  let data ← (split p texts).mapM p.form.read
  pure (g.append p.name source data)

def fill (env : Environment) : List Parameter → Given → Except Usage Given
  | [], g => .ok g
  | p :: rest, g =>
    match if g.has p.name then none else p.stand.bind env with
    | none => fill env rest g
    | some value =>
      match give p .environment [value] g with
      | .ok g => fill env rest g
      | .error usage => .error usage

end Given

/-- Of two entries from outer to inner, the one that counts. -/
def prevailing (outer inner : Entry) : Entry :=
  if outer.source = .line ∧ inner.source = .environment then outer else inner

/-- What levels, from outer to inner, were given for parameters that belong to all. -/
def shared (names : List String) (levels : List Given) : Given :=
  names.filterMap fun name =>
    (levels.filterMap (·.get? name)).foldl
      (fun best e => some (match best with
        | none => e
        | some outer => prevailing outer e)) none

/-! ### Levels -/

inductive Level (α : Type) where
  | group (commands : List (String × Level α))
  | leaf (options positionals : List Parameter) (make : Given → α)

namespace Level

variable {α : Type}

def options : Level α → List Parameter
  | group _ => []
  | leaf options _ _ => options

def positionals : Level α → List Parameter
  | group _ => []
  | leaf _ positionals _ => positionals

def isGroup : Level α → Bool
  | group _ => true
  | leaf _ _ _ => false

def command? : Level α → String → Option (Level α)
  | group commands, name => (commands.find? (·.1 == name)).map (·.2)
  | leaf _ _ _, _ => none

/-- The command that shows help exists wherever there are commands. -/
def isHelp (level : Level α) (name : String) : Bool := level.isGroup && name == "help"

def helpOn : List String → Level α → Usage
  | [], _ => .help
  | name :: rest, level =>
    if level.isHelp name then (if rest.isEmpty then .help else .unknownCommand)
    else match level.command? name with
      | some next => helpOn rest next
      | none => .unknownCommand

end Level

/-! ### Words -/

inductive Word where
  | escape
  | long (name : String) (value : Option String)
  | short (letters : List Char)
  | plain

def Word.ofText (text : String) : Word :=
  match text.toList with
  | ['-', '-'] => .escape
  | '-' :: '-' :: rest =>
    match rest.span (· ≠ '=') with
    | (name, _ :: value) => .long (String.ofList name) (some (String.ofList value))
    | (name, []) => .long (String.ofList name) none
  | '-' :: c :: rest => .short (c :: rest)
  | _ => .plain

/-! ### Reading -/

/-- Whether the next word may belong to something that has begun. -/
inductive Phase where
  | between
  | value
  | series
  deriving DecidableEq, Repr

structure State where
  given : Given
  pending : Option (Parameter × List String)
  phase : Phase
  position : Nat
  isTrailing : Bool

def State.start : State := ⟨[], none, .between, 0, false⟩

structure Scope (α : Type) where
  level : Level α
  globals : List Parameter
  isOutermost : Bool

variable {α : Type}

def Scope.options (scope : Scope α) : List Parameter := scope.level.options ++ scope.globals

/-- Complete the parameter that is pending; an option without its value is an error. -/
def State.settle (st : State) : Except Usage State :=
  match st.pending with
  | none => .ok st
  | some (_, []) => .error .notOffered
  | some (p, texts) => do
    let given ← Given.give p .line texts st.given
    pure { st with given, pending := none }

def State.give (p : Parameter) (texts : List String) (st : State) : Except Usage State := do
  let st ← st.settle
  let given ← Given.give p .line texts st.given
  pure { st with given, phase := .between }

def State.await (p : Parameter) (st : State) : Except Usage State := do
  let st ← st.settle
  pure { st with pending := some (p, []), phase := .value }

def State.ask (usage : Usage) (st : State) : Except Usage State := do
  let _ ← st.settle
  throw usage

def longOption (scope : Scope α) (name : String) (value : Option String) (st : State) :
    Except Usage State :=
  let asked := if name = "help" then some Usage.help
    else if scope.isOutermost ∧ name = "version" then some .version
    else none
  match asked, value, scope.options.find? (·.name == name) with
  | some usage, none, _ => st.ask usage
  | some _, some _, _ => .error .unexpectedValue
  | none, _, none => .error .unknownArgument
  | none, none, some p => if p.count = .flag then st.give p ["true"] else st.await p
  | none, some value, some p =>
    if p.count = .flag then .error .unexpectedValue else st.give p [value]

def attached : List Char → String
  | '=' :: value => String.ofList value
  | value => String.ofList value

def shortOptions (scope : Scope α) : List Char → State → Except Usage State
  | [], st => .ok st
  | c :: rest, st =>
    if c = 'h' then st.ask .help
    else if scope.isOutermost ∧ c = 'V' then st.ask .version
    else match scope.options.find? (·.letter == some c) with
      | none => .error .unknownArgument
      | some p =>
        if p.count = .flag then
          match st.give p ["true"] with
          | .ok st => shortOptions scope rest st
          | .error usage => .error usage
        else if rest.isEmpty then st.await p
        else st.give p [attached rest]

def surplus (scope : Scope α) (word : String) (isTrailing : Bool) : Usage :=
  let isCommand := scope.level.isHelp word || (scope.level.command? word).isSome
  if scope.level.isGroup && !(isTrailing && isCommand) then .unknownCommand else .unknownArgument

def State.isPending (p : Parameter) (st : State) : Bool :=
  match st.pending with
  | some (q, _) => q.name == p.name
  | none => false

def positional (scope : Scope α) (word : String) (st : State) : Except Usage State :=
  match scope.level.positionals[st.position]? with
  | none => .error (surplus scope word st.isTrailing)
  | some p => do
    if p.count = .series then
      let st ← if st.isPending p then pure st else st.settle
      let before := (st.pending.map (·.2)).getD []
      pure { st with pending := some (p, before ++ [word]), phase := .series }
    else
      let st ← st.settle
      pure { st with pending := some (p, [word]), phase := .between, position := st.position + 1 }

def place (scope : Scope α) (word : String) (st : State) : Except Usage State :=
  match st.phase, st.pending with
  | .value, some (p, texts) => .ok { st with pending := some (p, texts ++ [word]), phase := .between }
  | _, _ => positional scope word st

def word (scope : Scope α) (text : String) (st : State) : Except Usage State :=
  if st.isTrailing then positional scope text st
  else match Word.ofText text with
    | .escape => .ok { st with isTrailing := true }
    | .long name value => longOption scope name value st
    | .short letters => shortOptions scope letters st
    | .plain => place scope text st

/-- End a level: complete what is pending and read the environment. -/
def close (env : Environment) (scope : Scope α) (st : State) : Except Usage Given := do
  let st ← st.settle
  Given.fill env scope.options st.given

def finish (env : Environment) (scope : Scope α) (st : State) : Except Usage (List Given × α) := do
  let given ← close env scope st
  match scope.level with
  | .group _ => throw (if given.isEmpty then .overview else .noCommand)
  | .leaf options positionals make =>
    if (options ++ positionals).all fun p => !p.isRequired || given.has p.name then
      pure ([given], make given)
    else throw .missingArgument

def read (env : Environment) (globals : List Parameter) :
    Bool → Level α → List String → State → Except Usage (List Given × α)
  | isOutermost, level, [], st => finish env ⟨level, globals, isOutermost⟩ st
  | isOutermost, level, text :: rest, st =>
    let scope : Scope α := ⟨level, globals, isOutermost⟩
    let isName := !st.isTrailing && st.phase == .between
    if isName && level.isHelp text then .error (level.helpOn rest)
    else match if isName then level.command? text else none with
      | some next =>
        match read env globals false next rest .start with
        | .error usage => .error usage
        | .ok (givens, made) =>
          match close env scope st with
          | .error usage => .error usage
          | .ok given => .ok (given :: givens, made)
      | none =>
        match word scope text st with
        | .error usage => .error usage
        | .ok st => read env globals isOutermost level rest st

end Grammar

end StorageControl
