import Mathlib.Logic.Function.Basic
import StorageControl.Proofs.Versioned

/-! Clients that change one volume at the same time.

Each client runs its own program, and a server that keeps the volume at versions answers
their calls in any order, one call at a time. A version that the volume has once left never
comes back. So nothing that a client did not know of is overwritten: between the read of a
change that succeeds and the change itself the volume stays as it is.
-/

set_option autoImplicit false

namespace StorageControl

/-- A change of the volume, and the version that a client gives it, if any. -/
structure VolumeJob where
  change : VolumeChange
  constraint : VersionConstraint
  deriving DecidableEq

namespace Race

variable {σ ι : Type} {scope : NamespaceId} {id : VolumeId}

abbrev target (scope : NamespaceId) (id : VolumeId) (jobs : ι → VolumeJob) (i : ι) : Change :=
  .volume scope id (jobs i).change

/-- A server, and what is left of the program of every client. -/
structure Fleet (σ : Type) {ι : Type} (scope : NamespaceId) (id : VolumeId)
    (jobs : ι → VolumeJob) where
  server : σ
  program : (i : ι) → Program (target scope id jobs i).Answer

def Fleet.start (scope : NamespaceId) (id : VolumeId) (jobs : ι → VolumeJob) (s : σ) :
    Fleet σ scope id jobs :=
  ⟨s, fun i => ((target scope id jobs i).operation (jobs i).constraint).program⟩

variable {jobs : ι → VolumeJob}

/-- Every client is somewhere in its program. -/
def Underway (f : Fleet σ scope id jobs) : Prop :=
  ∀ i, ∃ history,
    ((target scope id jobs i).operation (jobs i).constraint).program.Reaches history (f.program i)

theorem underway_start (s : σ) : Underway (Fleet.start scope id jobs s) :=
  fun _ => ⟨[], .here _⟩

/-- One call of one client, its reply, and the server around it. -/
structure Event (σ ι : Type) where
  client : ι
  exchange : Exchange
  before : σ
  after : σ

def exchangesOf [DecidableEq ι] (i : ι) (log : List (Event σ ι)) : List Exchange :=
  (log.filter (·.client = i)).map Event.exchange

theorem exists_order {log : List (Event σ ι)} {e₁ e₂ : Event σ ι} (member₁ : e₁ ∈ log)
    (member₂ : e₂ ∈ log) (distinct : e₁ ≠ e₂) :
    ∃ before between after, log = before ++ e₁ :: (between ++ e₂ :: after) ∨
      log = before ++ e₂ :: (between ++ e₁ :: after) := by
  obtain ⟨before, after, rfl⟩ := List.append_of_mem member₁
  rcases List.mem_append.mp member₂ with earlier | later
  · obtain ⟨first, between, rfl⟩ := List.append_of_mem earlier
    exact ⟨first, between, after, .inr (by simp)⟩
  · obtain ⟨between, last, rfl⟩ := List.append_of_mem
      ((List.mem_cons.mp later).resolve_left distinct.symm)
    exact ⟨before, between, last, .inl rfl⟩

variable [DecidableEq ι]

/-- One client goes on with the rest of its program. -/
def Fleet.resume (f : Fleet σ scope id jobs) (i : ι)
    (rest : Program (target scope id jobs i).Answer) (s : σ) : Fleet σ scope id jobs :=
  ⟨s, Function.update f.program i rest⟩

@[simp]
theorem Fleet.resume_program (f : Fleet σ scope id jobs) (i : ι)
    (rest : Program (target scope id jobs i).Answer) (s : σ) :
    (f.resume i rest s).program i = rest := by
  rw [resume]
  exact Function.update_self ..

theorem Fleet.resume_program_of_ne (f : Fleet σ scope id jobs) {i j : ι} (other : j ≠ i)
    (rest : Program (target scope id jobs i).Answer) (s : σ) :
    (f.resume i rest s).program j = f.program j := by
  rw [resume]
  exact Function.update_of_ne other ..

inductive Step (server : VersionedServer σ scope id) (jobs : ι → VolumeJob) :
    Fleet σ scope id jobs → Event σ ι → Fleet σ scope id jobs → Prop where
  | exchange {f : Fleet σ scope id jobs} {i : ι} {c : Call}
      {next : c.Reply → Program (target scope id jobs i).Answer} {reply : c.Reply} {after : σ}
      (pending : f.program i = .call c next) (served : server.serves f.server c reply after) :
      Step server jobs f ⟨i, ⟨c, reply⟩, f.server, after⟩ (f.resume i (next reply) after)

inductive Run (server : VersionedServer σ scope id) (jobs : ι → VolumeJob) :
    Fleet σ scope id jobs → List (Event σ ι) → Fleet σ scope id jobs → Prop where
  | rest (f : Fleet σ scope id jobs) : Run server jobs f [] f
  | step {f g h : Fleet σ scope id jobs} {e : Event σ ι} {log : List (Event σ ι)} :
      Step server jobs f e g → Run server jobs g log h → Run server jobs f (e :: log) h

/-- A change was applied: it left another volume behind, or none. -/
def Applied (server : VersionedServer σ scope id) (e : Event σ ι) : Prop :=
  e.exchange.call.isMutation = true ∧ server.volume? e.after ≠ server.volume? e.before

def Presents (scope : NamespaceId) (id : VolumeId) (jobs : ι → VolumeJob)
    (log : List (Event σ ι)) (i : ι) (v : Version) : Prop :=
  ∃ e ∈ log, e.client = i ∧ e.exchange.call = (target scope id jobs i).present v

def Changes (server : VersionedServer σ scope id) (log : List (Event σ ι)) (i : ι) : Prop :=
  ∃ e ∈ log, e.client = i ∧ Applied server e

def Succeeds (f : Fleet σ scope id jobs) (i : ι) : Prop :=
  ∃ answer, f.program i = .done (.ok answer)

def Fails (f : Fleet σ scope id jobs) (i : ι) : Prop :=
  ∃ fault, f.program i = .done (.error fault)

theorem volumeCall_of_stage {change : VolumeChange} {constraint : VersionConstraint}
    {history : List Exchange} {c : Call}
    {next : c.Reply → Program (Change.volume scope id change).Answer}
    (stage : (Change.volume scope id change).Stage constraint history (.call c next)) :
    VolumeCall scope id c := by
  cases stage with
  | given v => exact .present change v
  | uninformed => exact .read
  | informed resource => exact .present change _

variable {server : VersionedServer σ scope id} {f g : Fleet σ scope id jobs}
  {log : List (Event σ ι)} {e : Event σ ι}

/-- Every client has its own exchanges behind it, in the order of the log. -/
theorem Run.reaches (run : Run server jobs f log g) (i : ι) :
    (f.program i).Reaches (exchangesOf i log) (g.program i) := by
  induction run with
  | rest f => exact .here _
  | step step run ih =>
    cases step with
    | @exchange j c next reply after pending served =>
      -- Only the client that made the call has moved.
      by_cases same : j = i
      · subst same
        rw [exchangesOf, List.filter_cons_of_pos (by simp), List.map_cons, pending]
        rw [Fleet.resume_program] at ih
        exact .next ih
      · rw [exchangesOf, List.filter_cons_of_neg (by simpa using same)]
        rw [Fleet.resume_program_of_ne _ (Ne.symm same)] at ih
        exact ih

theorem Run.split {before after : List (Event σ ι)} (run : Run server jobs f (before ++ after) g) :
    ∃ mid, Run server jobs f before mid ∧ Run server jobs mid after g := by
  induction before generalizing f with
  | nil => exact ⟨f, .rest f, run⟩
  | cons e before ih =>
    cases run with
    | step step run =>
      obtain ⟨mid, first, second⟩ := ih run
      exact ⟨mid, .step step first, second⟩

theorem Underway.run (underway : Underway f) (run : Run server jobs f log g) : Underway g := by
  intro i
  obtain ⟨history, reached⟩ := underway i
  exact ⟨_, reached.trans (run.reaches i)⟩

theorem Underway.step (underway : Underway f) (step : Step server jobs f e g) : Underway g :=
  underway.run (.step step (.rest g))

theorem Run.snoc (run : Run server jobs f log g) {h : Fleet σ scope id jobs}
    (step : Step server jobs g e h) :
    Run server jobs f (log ++ [e]) h := by
  induction run with
  | rest f => exact .step step (.rest h)
  | step first _ ih => exact .step first (ih step)

theorem Step.served (underway : Underway f) (step : Step server jobs f e g) :
    e.before = f.server ∧ e.after = g.server ∧ VolumeCall scope id e.exchange.call ∧
      server.serves f.server e.exchange.call e.exchange.reply g.server := by
  cases step with
  | @exchange i c next reply after pending served =>
    obtain ⟨history, reached⟩ := underway i
    rw [pending] at reached
    exact ⟨rfl, rfl, volumeCall_of_stage (Change.stage_of_reaches reached), served⟩

/-- A version that the volume has had before a run and has after it, it has had throughout:
the volume stayed as it was. -/
theorem Run.unchanged (underway : Underway f) (run : Run server jobs f log g) {v : Version}
    (had : server.had f.server v)
    (current : (server.volume? g.server).map Volume.version = some v) :
    server.volume? g.server = server.volume? f.server ∧
      ∀ e ∈ log, server.volume? e.after = server.volume? e.before := by
  -- From the end backwards: a step that changed the volume would have left a new version.
  induction run with
  | rest f => exact ⟨rfl, List.forall_mem_nil _⟩
  | @step f g h e log step run ih =>
    obtain ⟨before, after, call, served⟩ := step.served underway
    obtain ⟨same, unchanged⟩ := ih (underway.step step) (server.had_kept call served had) current
    have still : server.volume? g.server = server.volume? f.server := by
      by_contra changed
      rw [same] at current
      obtain ⟨u, stored, rfl⟩ := Option.map_eq_some_iff.mp current
      exact server.renewed call served changed stored had
    refine ⟨same.trans still, ?_⟩
    intro event member
    rcases List.mem_cons.mp member with rfl | member
    · rw [before, after, still]
    · exact unchanged event member

theorem Run.at {before after : List (Event σ ι)}
    (run : Run server jobs f (before ++ e :: after) g) :
    ∃ f' g', Run server jobs f before f' ∧ Step server jobs f' e g' ∧
      Run server jobs g' after g := by
  obtain ⟨f', first, second⟩ := run.split
  cases second with
  | @step _ g' _ _ _ step rest => exact ⟨f', g', first, step, rest⟩

theorem Step.applied_of_ok (underway : Underway f) (step : Step server jobs f e g)
    {change : VolumeChange} {v : Version}
    {answer : ((Change.volume scope id change).present v).Answer}
    (exchange : e.exchange = ⟨(Change.volume scope id change).present v, .ok answer⟩) :
    Applied server e := by
  obtain ⟨before, after, -, served⟩ := step.served underway
  rw [exchange] at served
  constructor
  · rw [exchange]
    exact Change.present_isMutation _ v
  · rw [before, after]
    exact server.effective served

theorem Step.stored_of_applied (underway : Underway f) (step : Step server jobs f e g)
    {change : VolumeChange} {v : Version}
    (call : e.exchange.call = (Change.volume scope id change).present v)
    (applied : Applied server e) :
    (server.volume? e.before).map Volume.version = some v := by
  obtain ⟨before, after, -, served⟩ := step.served underway
  obtain ⟨-, changed⟩ := applied
  rw [before, after] at changed
  rw [before]
  obtain ⟨client, ⟨c, reply⟩, s, t⟩ := e
  cases call
  exact server.guarded served changed

/-- Of the changes that present one version, the first that is applied is the last. -/
theorem Run.applied_once {e₁ e₂ : Event σ ι} {before between after : List (Event σ ι)}
    {change₁ change₂ : VolumeChange} {v : Version} (underway : Underway f)
    (run : Run server jobs f (before ++ e₁ :: (between ++ e₂ :: after)) g)
    (call₁ : e₁.exchange.call = (Change.volume scope id change₁).present v)
    (call₂ : e₂.exchange.call = (Change.volume scope id change₂).present v)
    (applied₁ : Applied server e₁) : ¬ Applied server e₂ := by
  intro applied₂
  obtain ⟨f₁, g₁, run₁, step₁, rest₁⟩ := run.at
  obtain ⟨f₂, g₂, run₂, step₂, -⟩ := rest₁.at
  have underway₁ := underway.run run₁
  have underway₂ := (underway₁.step step₁).run run₂
  have stored₁ := step₁.stored_of_applied underway₁ call₁ applied₁
  have stored₂ := step₂.stored_of_applied underway₂ call₂ applied₂
  rw [(step₁.served underway₁).1] at stored₁
  rw [(step₂.served underway₂).1] at stored₂
  obtain ⟨u, current, rfl⟩ := Option.map_eq_some_iff.mp stored₁
  -- The first change would have had to leave the volume as it was.
  obtain ⟨-, unchanged⟩ :=
    (Run.step step₁ run₂).unchanged underway₁ (server.had_current current) stored₂
  exact applied₁.2 (unchanged e₁ (.head _))

theorem exchangesOf_eq_cons {i : ι} {x : Exchange} {rest : List Exchange}
    (exchanges : exchangesOf i log = x :: rest) :
    ∃ before e after, log = before ++ e :: after ∧ e.client = i ∧ e.exchange = x ∧
      exchangesOf i after = rest := by
  obtain ⟨e, others, filtered, exchange, mapped⟩ := List.map_eq_cons_iff.mp exchanges
  obtain ⟨before, after, split, -, own, same⟩ := List.filter_eq_cons_iff.mp filtered
  refine ⟨before, e, after, split, of_decide_eq_true own, exchange, ?_⟩
  rw [exchangesOf, same, mapped]

theorem exchange_mem {e : Event σ ι} (member : e ∈ log) :
    e.exchange ∈ exchangesOf e.client log :=
  List.mem_map_of_mem (List.mem_filter.mpr ⟨member, decide_eq_true rfl⟩)

section Started

variable {s : σ}

theorem Run.stage (run : Run server jobs (.start scope id jobs s) log g) (i : ι) :
    (target scope id jobs i).Stage (jobs i).constraint (exchangesOf i log) (g.program i) :=
  Change.stage_of_reaches (run.reaches i)

theorem Run.concluded (run : Run server jobs (.start scope id jobs s) log g) (member : e ∈ log)
    {v : Version} (call : e.exchange.call = (target scope id jobs e.client).present v) :
    ∃ reply, e.exchange = ⟨(target scope id jobs e.client).present v, reply⟩ ∧
      g.program e.client = .done ((target scope id jobs e.client).conclude v reply) :=
  (run.stage e.client).of_presented (exchange_mem member) call

theorem Run.step_of_mem (run : Run server jobs (.start scope id jobs s) log g)
    (member : e ∈ log) :
    ∃ f' g', Underway f' ∧ Step server jobs f' e g' := by
  obtain ⟨before, after, rfl⟩ := List.append_of_mem member
  obtain ⟨f', g', run', step, -⟩ := run.at
  exact ⟨f', g', (underway_start s).run run', step⟩

theorem Run.applied_of_succeeds (run : Run server jobs (.start scope id jobs s) log g)
    (member : e ∈ log) {v : Version}
    (call : e.exchange.call = (target scope id jobs e.client).present v)
    (succeeds : Succeeds g e.client) : Applied server e := by
  obtain ⟨reply, exchange, finished⟩ := run.concluded member call
  obtain ⟨answer, ok⟩ := succeeds
  rw [ok] at finished
  obtain ⟨brought, rfl⟩ := Change.conclude_eq_ok (Program.done.inj finished).symm
  obtain ⟨f', g', underway, step⟩ := run.step_of_mem member
  exact step.applied_of_ok underway exchange

theorem Run.fails_of_not_applied (run : Run server jobs (.start scope id jobs s) log g)
    (member : e ∈ log) {v : Version}
    (call : e.exchange.call = (target scope id jobs e.client).present v)
    (unapplied : ¬ Applied server e) : Fails g e.client := by
  obtain ⟨reply, exchange, finished⟩ := run.concluded member call
  cases outcome : (target scope id jobs e.client).conclude v reply with
  | error fault => exact ⟨fault, by rw [finished, outcome]⟩
  | ok answer =>
    refine absurd (run.applied_of_succeeds member call ?_) unapplied
    exact ⟨answer, by rw [finished, outcome]⟩

/-- A client that presented a version and changed the volume did so by that very call. -/
theorem Run.applied_of_changes (run : Run server jobs (.start scope id jobs s) log g) {i : ι}
    {v : Version} (presents : Presents scope id jobs log i v) (changes : Changes server log i) :
    ∃ e ∈ log, e.client = i ∧ e.exchange.call = (target scope id jobs i).present v ∧
      Applied server e := by
  obtain ⟨e, member, rfl, call⟩ := presents
  obtain ⟨e', member', own, applied⟩ := changes
  have same : e'.exchange = e.exchange :=
    (run.stage e.client).mutation_unique (own ▸ exchange_mem member') (exchange_mem member)
      applied.1 (by rw [call]; exact Change.present_isMutation _ v)
  exact ⟨e', member', own, by rw [same, call], applied⟩

theorem Run.changes_unique (run : Run server jobs (.start scope id jobs s) log g) {v : Version}
    {i j : ι} (presents₁ : Presents scope id jobs log i v)
    (presents₂ : Presents scope id jobs log j v) (changes₁ : Changes server log i)
    (changes₂ : Changes server log j) : i = j := by
  obtain ⟨e₁, member₁, rfl, call₁, applied₁⟩ := run.applied_of_changes presents₁ changes₁
  obtain ⟨e₂, member₂, rfl, call₂, applied₂⟩ := run.applied_of_changes presents₂ changes₂
  by_contra apart
  have distinct : e₁ ≠ e₂ := fun same => apart (congrArg Event.client same)
  obtain ⟨before, between, after, rfl | rfl⟩ := exists_order member₁ member₂ distinct
  · exact run.applied_once (underway_start s) call₁ call₂ applied₁ applied₂
  · exact run.applied_once (underway_start s) call₂ call₁ applied₂ applied₁

theorem Run.changes_of_succeeds (run : Run server jobs (.start scope id jobs s) log g)
    {v : Version} {i : ι} (presents : Presents scope id jobs log i v) (succeeds : Succeeds g i) :
    Changes server log i := by
  obtain ⟨e, member, rfl, call⟩ := presents
  exact ⟨e, member, rfl, run.applied_of_succeeds member call succeeds⟩

theorem Run.fails_of_not_changes (run : Run server jobs (.start scope id jobs s) log g)
    {v : Version} {i : ι} (presents : Presents scope id jobs log i v)
    (unchanged : ¬ Changes server log i) : Fails g i := by
  obtain ⟨e, member, rfl, call⟩ := presents
  exact run.fails_of_not_applied member call fun applied => unchanged ⟨e, member, rfl, applied⟩

/-- Between the read of a successful change and the change, the volume stays as it is. -/
theorem Run.unchanged_since_read (run : Run server jobs (.start scope id jobs s) log g) {i : ι}
    (unconditional : (jobs i).constraint = .unconditional) (succeeds : Succeeds g i) :
    ∃ before read between change after,
      log = before ++ read :: (between ++ change :: after) ∧
      read.client = i ∧ change.client = i ∧
      exchangesOf i log = [read.exchange, change.exchange] ∧
      read.exchange.call = .getVolume scope id ∧ Applied server change ∧
      server.volume? change.before = server.volume? read.before ∧
      ∀ e ∈ between, ¬ Applied server e := by
  obtain ⟨answer, finished⟩ := succeeds
  have stage := run.stage i
  rw [finished] at stage
  obtain ⟨v, _, conditional, _⟩ | ⟨resource, brought, -, exchanges⟩ := stage.of_ok
  · rw [unconditional] at conditional
    cases conditional
  obtain ⟨before, read, rest, rfl, reader, reading, others⟩ := exchangesOf_eq_cons exchanges
  obtain ⟨between, change, after, rfl, changer, changing, -⟩ := exchangesOf_eq_cons others
  -- The version that was read had been one of the volume by then, and is stored again when
  -- it is presented.
  obtain ⟨f₁, g₁, run₁, step₁, rest₁⟩ := run.at
  obtain ⟨f₂, g₂, run₂, step₂, -⟩ := rest₁.at
  have underway₁ := (underway_start s).run run₁
  have underway₂ := (underway₁.step step₁).run run₂
  have applied := step₂.applied_of_ok underway₂ changing
  have stored := step₂.stored_of_applied underway₂ (by rw [changing]) applied
  obtain ⟨at₁, -, -, served⟩ := step₁.served underway₁
  have at₂ := (step₂.served underway₂).1
  rw [at₂] at stored
  rw [reading] at served
  obtain ⟨same, unchanged⟩ :=
    (Run.step step₁ run₂).unchanged underway₁ (server.had_read served) stored
  refine ⟨before, read, between, change, after, rfl, reader, changer, ?_, ?_, applied, ?_, ?_⟩
  · rw [exchanges, reading, changing]
  · rw [reading]
    rfl
  · rw [at₁, at₂, same]
  · exact fun e member applied => applied.2 (unchanged e (.tail _ member))

/-- A successful change of a given version was applied while that version was stored. -/
theorem Run.stored_when_applied (run : Run server jobs (.start scope id jobs s) log g) {i : ι}
    {v : Version} (conditional : (jobs i).constraint = .conditional v) (succeeds : Succeeds g i) :
    ∃ change ∈ log, change.client = i ∧ exchangesOf i log = [change.exchange] ∧
      Applied server change ∧ (server.volume? change.before).map Volume.version = some v := by
  obtain ⟨answer, finished⟩ := succeeds
  have stage := run.stage i
  rw [finished] at stage
  obtain ⟨w, brought, given, exchanges⟩ | ⟨_, _, unconditional, _⟩ := stage.of_ok
  · rw [conditional] at given
    cases given
    obtain ⟨before, change, after, rfl, changer, changing, -⟩ := exchangesOf_eq_cons exchanges
    have member : change ∈ before ++ change :: after := List.mem_append_right before (.head _)
    obtain ⟨f', g', underway, step⟩ := run.step_of_mem member
    have applied := step.applied_of_ok underway changing
    exact ⟨change, member, changer, by rw [exchanges, changing], applied,
      step.stored_of_applied underway (by rw [changing]) applied⟩
  · rw [conditional] at unconditional
    cases unconditional

/-- No update is lost, however the calls of the clients follow each other. -/
theorem no_update_lost (run : Run server jobs (.start scope id jobs s) log g) :
    (∀ i, (jobs i).constraint = .unconditional → Succeeds g i →
      ∃ before read between change after,
        log = before ++ read :: (between ++ change :: after) ∧
        read.client = i ∧ change.client = i ∧
        exchangesOf i log = [read.exchange, change.exchange] ∧
        read.exchange.call = .getVolume scope id ∧ Applied server change ∧
        server.volume? change.before = server.volume? read.before ∧
        ∀ e ∈ between, ¬ Applied server e) ∧
    (∀ i v, (jobs i).constraint = .conditional v → Succeeds g i →
      ∃ change ∈ log, change.client = i ∧ exchangesOf i log = [change.exchange] ∧
        Applied server change ∧
        (server.volume? change.before).map Volume.version = some v) ∧
    (∀ v i j, Presents scope id jobs log i v → Presents scope id jobs log j v →
      (Changes server log i → Changes server log j → i = j) ∧
      (Succeeds g i → Succeeds g j → i = j) ∧
      (Succeeds g i → j ≠ i → Fails g j ∧ ¬ Changes server log j)) := by
  refine ⟨fun i => run.unchanged_since_read, fun i v => run.stored_when_applied, ?_⟩
  intro v i j presents₁ presents₂
  have unique := run.changes_unique presents₁ presents₂
  refine ⟨unique, fun succeeds₁ succeeds₂ => ?_, fun succeeds apart => ?_⟩
  · exact unique (run.changes_of_succeeds presents₁ succeeds₁)
      (run.changes_of_succeeds presents₂ succeeds₂)
  · have unchanged : ¬ Changes server log j := fun changes =>
      apart (unique (run.changes_of_succeeds presents₁ succeeds) changes).symm
    exact ⟨run.fails_of_not_changes presents₂ unchanged, unchanged⟩

/-- Of three clients that know the first version, the one whose change comes first succeeds. -/
theorem no_update_lost_among_three :
    let scope : NamespaceId := ⟨⟨"n", by decide⟩⟩
    let id : VolumeId := ⟨⟨"v", by decide⟩⟩
    let volume : Volume :=
      ⟨id, "disk", "", 1, scope, some ⟨⟨"node", by decide⟩⟩, .empty, .ext4, 0, none, [], none, none,
        World.firstVersion⟩
    let world : World := { World.empty with volumes := [volume] }
    let jobs : Fin 3 → VolumeJob := fun
      | 0 => ⟨.detach, .unconditional⟩
      | 1 => ⟨.setReplicas 2, .unconditional⟩
      | 2 => ⟨.delete none, .conditional World.firstVersion⟩
    let server := World.versioned scope id
    ∃ log g, Run server jobs (.start scope id jobs world) log g ∧
      Succeeds g 0 ∧ (Fails g 1 ∧ ¬ Changes server log 1) ∧
      (Fails g 2 ∧ ¬ Changes server log 2) := by
  intro scope id volume world jobs server
  have read : Run server jobs (.start scope id jobs world) _ _ :=
    (Run.rest _).snoc (.exchange (i := 0) rfl (World.serves_land rfl))
  have read' := read.snoc (.exchange (i := 1) rfl (World.serves_land rfl))
  have detached := read'.snoc (.exchange (i := 0) rfl (World.serves_land rfl))
  have refused := detached.snoc (.exchange (i := 1) rfl (World.serves_land rfl))
  have refused' := refused.snoc (.exchange (i := 2) rfl (World.serves_land rfl))
  obtain ⟨-, -, versions⟩ := no_update_lost refused'
  have beside (j : Fin 3) :=
    versions World.firstVersion 0 j ⟨_, .tail _ (.tail _ (.head _)), rfl, rfl⟩
  refine ⟨_, _, refused', ⟨(), rfl⟩, ?_, ?_⟩
  · have presents := beside 1 ⟨_, .tail _ (.tail _ (.tail _ (.head _))), rfl, rfl⟩
    exact presents.2.2 ⟨(), rfl⟩ (by decide)
  · have presents := beside 2 ⟨_, .tail _ (.tail _ (.tail _ (.tail _ (.head _)))), rfl, rfl⟩
    exact presents.2.2 ⟨(), rfl⟩ (by decide)

end Started

end Race

end StorageControl
