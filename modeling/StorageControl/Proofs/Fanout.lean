import Mathlib.Logic.Relation
import StorageControl.Proofs.Gathering.Clock
import StorageControl.Proofs.Transcript

/-! The tasks of a joint listing, from their start to long after it.

Each namespace has a task that makes one call. Tasks, the join that takes up their ends and
the client's token act in any order, one after the other, and the clock goes on only while
all of them wait. There are four ways to stop a task: the client's token, the token of the
tasks, which the join cancels when it gives up and its guard in any case, the order of the
join to abort, and the end of the set of tasks, which aborts them too. However the joint
listing ends, it leaves none of its tasks able to go on with its call.
-/

set_option autoImplicit false

namespace StorageControl

variable {σ : Type}

/-- Where the task of a namespace is. -/
inductive Stage where
  | fresh
  | flying (due : Nat)
  /-- Its call has taken effect and brings nothing. -/
  | silent
  | gone

structure Worker where
  scope : NamespaceId
  stage : Stage

def Worker.spawned (scope : NamespaceId) : Worker := ⟨scope, .fresh⟩

/-- A joint listing, and what is left of it after its end. -/
structure Fanout (σ : Type) where
  server : σ
  clock : Nat
  workers : List Worker
  /-- The ends of tasks that the join has not taken up, in their order. -/
  queue : List (Arrival Volume)
  merged : Aggregation Volume
  fired : Bool
  /-- Whether the token of the tasks was cancelled, by the join or by its guard. -/
  cancelled : Bool
  /-- Whether the tasks were aborted, by the join or because their set is gone. -/
  aborted : Bool
  /-- What it came to; while it waits, nothing. -/
  ending : Landing (Except ApiFault (Aggregation Volume))

namespace Fanout

/-- All tasks are spawned together; without namespaces there is nothing to wait for. -/
def start (server : σ) (clock : Nat) (scopes : List NamespaceId) : Fanout σ where
  server
  clock
  workers := scopes.map Worker.spawned
  queue := []
  merged := .empty
  fired := false
  cancelled := false
  aborted := false
  ending := if scopes.isEmpty then .landed (.ok .empty) else .waiting

/-- A task that is polled goes on with its call. -/
structure Free (g : Fanout σ) : Prop where
  fired : g.fired = false
  cancelled : g.cancelled = false
  aborted : g.aborted = false

/-- What one poll of the task of a namespace may do: the stage that it leaves, the server
after it, and the end that it brings. A task looks at the tokens before its call. -/
inductive Poll (T : Transport σ) (g : Fanout σ) (scope : NamespaceId) :
    Stage → Stage → σ → Option (Arrival Volume) → Prop where
  | launch {wait : Nat} {server : σ} (free : g.Free)
      (starts : T.start (.listVolumes scope) g.server = (wait, server)) :
      Poll T g scope .fresh (.flying (g.clock + wait)) server none
  | land {due : Nat} {reply : (Call.listVolumes scope).Reply} {server : σ} (free : g.Free)
      (ripe : due ≤ g.clock)
      (lands : T.land (.listVolumes scope) g.server = (some reply, server)) :
      Poll T g scope (.flying due) .gone server (some ⟨scope, .ofReply reply⟩)
  | hang {due : Nat} {server : σ} (free : g.Free) (ripe : due ≤ g.clock)
      (lands : T.land (.listVolumes scope) g.server = (none, server)) :
      Poll T g scope (.flying due) .silent server none
  | notice {stage : Stage} (unfinished : stage ≠ .gone)
      (visible : g.fired = true ∨ g.cancelled = true) (kept : g.aborted = false) :
      Poll T g scope stage .gone g.server (some ⟨scope, .cancelled⟩)
  | drop {stage : Stage} (aborted : g.aborted = true) : Poll T g scope stage .gone g.server none

/-- Everything waits, for moments that are not before this one. -/
structure Idle (deadline : Option Nat) (g : Fanout σ) (moment : Nat) : Prop where
  unfired : g.fired = false
  taken : g.queue = []
  begun : ∀ w ∈ g.workers, w.stage ≠ .fresh
  due : ∀ w ∈ g.workers, ∀ due, w.stage = .flying due → moment ≤ due
  deadline : ∀ last, deadline = some last → moment ≤ last

/-- Why the whole may be dropped: the client's token has fired, or the deadline has come. -/
def Cause (deadline : Option Nat) (g : Fanout σ) : Stop → Prop
  | .cancelled => g.fired = true
  | .expired => ∃ moment, deadline = some moment ∧ moment ≤ g.clock

inductive Step (T : Transport σ) (policy : ScopePolicy) (deadline : Option Nat) :
    Fanout σ → Fanout σ → Prop where
  | fire {g : Fanout σ} : Step T policy deadline g { g with fired := true }
  | wait {g : Fanout σ} {moment : Nat} (onward : g.clock ≤ moment)
      (idle : g.ending = .waiting → g.Idle deadline moment) :
      Step T policy deadline g { g with clock := moment }
  | poll {g : Fanout σ} {before after : List Worker} {scope : NamespaceId} {stage left : Stage}
      {server : σ} {arrival : Option (Arrival Volume)}
      (workers : g.workers = before ++ ⟨scope, stage⟩ :: after)
      (polled : Poll T g scope stage left server arrival) :
      Step T policy deadline g
        { g with server, workers := before ++ ⟨scope, left⟩ :: after
                 queue := g.queue ++ arrival.toList }
  | absorb {g : Fanout σ} {arrival : Arrival Volume} {rest : List (Arrival Volume)}
      {merged : Aggregation Volume} (waiting : g.ending = .waiting)
      (next : g.queue = arrival :: rest) (taken : g.merged.absorb arrival = .ok merged) :
      Step T policy deadline g { g with queue := rest, merged }
  /-- The join cancels the token of its tasks, aborts them and returns. -/
  | giveUp {g : Fanout σ} {arrival : Arrival Volume} {rest : List (Arrival Volume)}
      {fault : ApiFault} (waiting : g.ending = .waiting) (next : g.queue = arrival :: rest)
      (failed : g.merged.absorb arrival = .error fault) :
      Step T policy deadline g
        { g with queue := rest, cancelled := true, aborted := true
                 ending := .landed (.error fault) }
  /-- Nothing is left to wait for; the guard and the set of tasks go as the join returns. -/
  | conclude {g : Fanout σ} (waiting : g.ending = .waiting) (empty : g.queue = [])
      (finished : ∀ w ∈ g.workers, w.stage = .gone) :
      Step T policy deadline g
        { g with cancelled := true, aborted := true
                 ending := .landed (g.merged.close policy g.workers.length) }
  /-- The whole is dropped where it waits, and with it the guard and the set of tasks. -/
  | halt {g : Fanout σ} {stop : Stop} (waiting : g.ending = .waiting)
      (cause : g.Cause deadline stop) :
      Step T policy deadline g
        { g with cancelled := true, aborted := true, ending := .stopped stop }

def Steps (T : Transport σ) (policy : ScopePolicy) (deadline : Option Nat) :
    Fanout σ → Fanout σ → Prop :=
  Relation.ReflTransGen (Step T policy deadline)

variable {T : Transport σ} {policy : ScopePolicy} {deadline : Option Nat}

theorem Steps.of_eq {g later : Fanout σ} (same : g = later) : Steps T policy deadline g later :=
  same ▸ .refl

theorem Step.length {g next : Fanout σ} (step : Step T policy deadline g next) :
    next.workers.length = g.workers.length := by
  cases step with
  | poll workers => simp [workers]
  | fire | wait | absorb | giveUp | conclude | halt => rfl

theorem Steps.length {g later : Fanout σ} (steps : Steps T policy deadline g later) :
    later.workers.length = g.workers.length := by
  induction steps with
  | refl => rfl
  | tail _ step ih => exact step.length.trans ih

/-! ### Nothing goes on after the end -/

/-- The joint listing is over, and no task that is left can go on. -/
structure Halted (g : Fanout σ) : Prop where
  ended : g.ending ≠ .waiting
  stopped : g.aborted = true ∨ g.workers = []

theorem Poll.of_aborted {g : Fanout σ} {scope : NamespaceId} {stage left : Stage} {server : σ}
    {arrival : Option (Arrival Volume)} (polled : Poll T g scope stage left server arrival)
    (aborted : g.aborted = true) : left = .gone ∧ server = g.server ∧ arrival = none := by
  cases polled with
  | launch free | land free | hang free => rw [free.aborted] at aborted; cases aborted
  | notice _ _ kept => rw [kept] at aborted; cases aborted
  | drop => exact ⟨rfl, rfl, rfl⟩

theorem Halted.step {g next : Fanout σ} (halted : g.Halted) (step : Step T policy deadline g next) :
    next.Halted ∧ next.server = g.server ∧ next.queue = g.queue ∧ next.ending = g.ending := by
  obtain ⟨ended, stopped⟩ := halted
  cases step with
  | fire => exact ⟨⟨ended, stopped⟩, rfl, rfl, rfl⟩
  | wait => exact ⟨⟨ended, stopped⟩, rfl, rfl, rfl⟩
  | poll workers polled =>
    have aborted : g.aborted = true := stopped.resolve_right (by simp [workers])
    obtain ⟨-, server, arrival⟩ := polled.of_aborted aborted
    exact ⟨⟨ended, .inl aborted⟩, server, by simp [arrival], rfl⟩
  | absorb waiting => exact absurd waiting ended
  | giveUp waiting => exact absurd waiting ended
  | conclude waiting => exact absurd waiting ended
  | halt waiting => exact absurd waiting ended

theorem Halted.steps {g later : Fanout σ} (halted : g.Halted)
    (steps : Steps T policy deadline g later) :
    later.Halted ∧ later.server = g.server ∧ later.queue = g.queue ∧ later.ending = g.ending := by
  induction steps with
  | refl => exact ⟨halted, rfl, rfl, rfl⟩
  | tail _ step ih =>
    obtain ⟨halted, server, queue, ending⟩ := ih
    obtain ⟨halted, server', queue', ending'⟩ := halted.step step
    exact ⟨halted, server'.trans server, queue'.trans queue, ending'.trans ending⟩

theorem Step.halts {g next : Fanout σ} (step : Step T policy deadline g next)
    (waiting : g.ending = .waiting) (ended : next.ending ≠ .waiting) :
    next.Halted ∧ next.server = g.server := by
  cases step with
  | fire | wait | poll | absorb => exact absurd waiting ended
  | giveUp | conclude | halt => exact ⟨⟨ended, .inl rfl⟩, rfl⟩

/-- Whatever ends a joint listing stops all of its tasks. -/
theorem halted_of_ended {server : σ} {clock : Nat} {scopes : List NamespaceId} {g : Fanout σ}
    (steps : Steps T policy deadline (start server clock scopes) g)
    (ended : g.ending ≠ .waiting) : g.Halted := by
  induction steps with
  | refl =>
    refine ⟨ended, .inr ?_⟩
    cases scopes with
    | nil => rfl
    | cons scope rest => exact absurd rfl ended
  | @tail middle later _ step ih =>
    by_cases waiting : middle.ending = .waiting
    · exact (step.halts waiting ended).1
    · exact ((ih waiting).step step).1

/-! ### Failures on the clock -/

/-- Each namespace has a time that its listing takes, whatever else goes on. -/
structure Paced (T : Transport σ) (holds : σ → Prop) (delay : NamespaceId → Nat) : Prop
    extends Machine.Keeps T (fun c => c.isListing = true) holds where
  waits : ∀ scope s, holds s → (T.start (.listVolumes scope) s).1 = delay scope

/-- No listing has landed that takes longer than one that failed. -/
def Bounded (delay : NamespaceId → Nat) (seen : List Sighting) : Prop :=
  ∀ scope reply failing fatal, .landed (.listVolumes scope) reply ∈ seen →
    .landed (.listVolumes failing) (some fatal) ∈ seen →
      (ScopeOutcome.ofReply fatal).isFinal = true → delay scope ≤ delay failing

/-- What holds of a joint listing that waits: its tasks keep their moments, and a failure
is taken up before the clock goes on. -/
structure Pending (holds : σ → Prop) (delay : NamespaceId → Nat) (begun : Nat)
    (g : Fanout (Noted σ)) : Prop where
  held : holds g.server.server
  fresh : ∀ w ∈ g.workers, w.stage = .fresh → g.clock = begun
  flying : ∀ w ∈ g.workers, ∀ due, w.stage = .flying due →
    due = begun + delay w.scope ∧ g.clock ≤ due
  landed : ∀ scope reply, .landed (.listVolumes scope) reply ∈ g.server.seen →
    begun + delay scope ≤ g.clock
  failed : ∀ scope fatal, .landed (.listVolumes scope) (some fatal) ∈ g.server.seen →
    (ScopeOutcome.ofReply fatal).isFinal = true →
      g.clock ≤ begun + delay scope ∧ ∃ arrival ∈ g.queue, arrival.outcome.isFinal = true

variable {holds : σ → Prop} {delay : NamespaceId → Nat} {begun : Nat} {g next : Fanout (Noted σ)}

theorem Pending.bounded (pending : Pending holds delay begun g) :
    Bounded delay g.server.seen := by
  intro scope reply failing fatal landed failed final
  have arrived := pending.landed scope reply landed
  have clock := (pending.failed failing fatal failed final).1
  omega

theorem mem_of_replaced {before after : List Worker} {old new w : Worker}
    (member : w ∈ before ++ new :: after) : w = new ∨ w ∈ before ++ old :: after := by
  simp only [List.mem_append, List.mem_cons] at member ⊢
  tauto

/-- What a task notes as it lands, and when. -/
theorem Pending.land {g : Fanout (Noted σ)} (pending : Pending holds delay begun g)
    {scope : NamespaceId} {due : Nat} (ripe : due ≤ g.clock)
    (timely : due = begun + delay scope ∧ g.clock ≤ due)
    (reply : Option (Call.listVolumes scope).Reply) {queue : List (Arrival Volume)}
    (queued : ∀ arrival ∈ g.queue, arrival ∈ queue)
    (taken : ∀ fatal, reply = some fatal → ⟨scope, .ofReply fatal⟩ ∈ queue) :
    (∀ other brought, .landed (.listVolumes other) brought ∈
      g.server.seen ++ [.landed (.listVolumes scope) reply] → begun + delay other ≤ g.clock) ∧
    ∀ other fatal, .landed (.listVolumes other) (some fatal) ∈
      g.server.seen ++ [.landed (.listVolumes scope) reply] →
        (ScopeOutcome.ofReply fatal).isFinal = true →
          g.clock ≤ begun + delay other ∧ ∃ arrival ∈ queue, arrival.outcome.isFinal = true := by
  constructor
  · intro other brought landed
    rcases List.mem_append.mp landed with earlier | last
    · exact pending.landed other brought earlier
    · cases List.mem_singleton.mp last
      omega
  · intro other fatal landed final
    rcases List.mem_append.mp landed with earlier | last
    · obtain ⟨clock, arrival, waits, ends⟩ := pending.failed other fatal earlier final
      exact ⟨clock, arrival, queued arrival waits, ends⟩
    · cases List.mem_singleton.mp last
      exact ⟨by omega, _, taken fatal rfl, final⟩

theorem Pending.poll {T : Transport σ} (paced : Paced T holds delay)
    (pending : Pending holds delay begun g) {before after : List Worker} {scope : NamespaceId}
    {stage left : Stage} {server : Noted σ} {arrival : Option (Arrival Volume)}
    (workers : g.workers = before ++ ⟨scope, stage⟩ :: after)
    (polled : Poll T.noting g scope stage left server arrival) :
    Pending holds delay begun
      { g with server, workers := before ++ ⟨scope, left⟩ :: after
               queue := g.queue ++ arrival.toList } := by
  have here : ⟨scope, stage⟩ ∈ g.workers := by simp [workers]
  have others {w : Worker} (member : w ∈ before ++ ⟨scope, left⟩ :: after) :
      w = ⟨scope, left⟩ ∨ w ∈ g.workers := by
    rw [workers]
    exact mem_of_replaced member
  have queued : ∀ other ∈ g.queue, other ∈ g.queue ++ arrival.toList :=
    fun other member => List.mem_append_left _ member
  have failed : ∀ other fatal, .landed (.listVolumes other) (some fatal) ∈ g.server.seen →
      (ScopeOutcome.ofReply fatal).isFinal = true → g.clock ≤ begun + delay other ∧
        ∃ arrived ∈ g.queue ++ arrival.toList, arrived.outcome.isFinal = true := by
    intro other fatal landed final
    obtain ⟨clock, arrived, waits, ends⟩ := pending.failed other fatal landed final
    exact ⟨clock, arrived, queued arrived waits, ends⟩
  have fresh (begins : left ≠ .fresh) :
      ∀ w ∈ before ++ ⟨scope, left⟩ :: after, w.stage = .fresh → g.clock = begun := by
    intro w member waits
    rcases others member with rfl | member
    · exact absurd waits begins
    · exact pending.fresh w member waits
  have flying (lands : ∀ due, left = .flying due → due = begun + delay scope ∧ g.clock ≤ due) :
      ∀ w ∈ before ++ ⟨scope, left⟩ :: after, ∀ due, w.stage = .flying due →
        due = begun + delay w.scope ∧ g.clock ≤ due := by
    intro w member due flies
    rcases others member with rfl | member
    · exact lands due flies
    · exact pending.flying w member due flies
  cases polled with
  | @launch wait server free starts =>
    have waits := paced.waits scope g.server.server pending.held
    have kept := paced.start (.listVolumes scope) _ rfl pending.held
    obtain ⟨rfl, rfl⟩ := Prod.mk.inj starts
    refine ⟨kept, fresh nofun, flying fun due flies => ?_, ?_, ?_⟩
    · cases flies
      rw [pending.fresh _ here rfl, waits]
      exact ⟨rfl, Nat.le_add_right _ _⟩
    · intro other reply landed
      rcases List.mem_append.mp landed with earlier | last
      · exact pending.landed other reply earlier
      · cases List.mem_singleton.mp last
    · intro other fatal landed final
      rcases List.mem_append.mp landed with earlier | last
      · exact failed other fatal earlier final
      · cases List.mem_singleton.mp last
  | @land due reply server free ripe lands =>
    have kept := paced.land (.listVolumes scope) _ rfl pending.held
    obtain ⟨replied, rfl⟩ := Prod.mk.inj lands
    obtain ⟨landed, failed⟩ := pending.land ripe (pending.flying _ here due rfl) (some reply)
      queued fun fatal same => by cases same; simp
    rw [← replied] at landed failed
    exact ⟨kept, fresh nofun, flying nofun, landed, failed⟩
  | @hang due server free ripe lands =>
    have kept := paced.land (.listVolumes scope) _ rfl pending.held
    obtain ⟨replied, rfl⟩ := Prod.mk.inj lands
    obtain ⟨landed, failed⟩ := pending.land ripe (pending.flying _ here due rfl) none
      queued fun fatal same => by cases same
    rw [← replied] at landed failed
    exact ⟨kept, fresh nofun, flying nofun, landed, failed⟩
  | notice | drop => exact ⟨pending.held, fresh nofun, flying nofun, pending.landed, failed⟩

theorem Pending.step {T : Transport σ} (paced : Paced T holds delay)
    (pending : Pending holds delay begun g) (step : Step T.noting policy deadline g next)
    (waiting : next.ending = .waiting) : Pending holds delay begun next := by
  cases step with
  | fire => exact ⟨pending.held, pending.fresh, pending.flying, pending.landed, pending.failed⟩
  | wait onward idle =>
    have idle := idle waiting
    refine ⟨pending.held, fun w member fresh => absurd fresh (idle.begun w member),
      fun w member due flying => ?_, fun scope reply landed => ?_,
      fun scope fatal landed final => ?_⟩
    · exact ⟨(pending.flying w member due flying).1, idle.due w member due flying⟩
    · exact Nat.le_trans (pending.landed scope reply landed) onward
    · -- A failure would be in the queue, but nothing is.
      obtain ⟨-, arrival, queued, -⟩ := pending.failed scope fatal landed final
      rw [idle.taken] at queued
      cases queued
  | poll workers polled => exact pending.poll paced workers polled
  | @absorb arrival rest merged _ next taken =>
    refine ⟨pending.held, pending.fresh, pending.flying, pending.landed,
      fun scope fatal landed final => ?_⟩
    obtain ⟨clock, other, queued, last⟩ := pending.failed scope fatal landed final
    rw [next] at queued
    rcases List.mem_cons.mp queued with rfl | queued
    · -- What the join takes up without a failure is not one.
      rw [Aggregation.clear_of_absorb taken] at last
      cases last
    · exact ⟨clock, other, queued, last⟩
  | giveUp | conclude | halt => cases waiting

theorem Pending.start {server : Noted σ} {clock : Nat} {scopes : List NamespaceId}
    (held : holds server.server)
    (unlisted : ∀ scope reply, .landed (.listVolumes scope) reply ∉ server.seen) :
    Pending holds delay clock (Fanout.start server clock scopes) where
  held := held
  fresh _ _ _ := rfl
  flying w member due flies := by
    obtain ⟨scope, -, rfl⟩ := List.mem_map.mp member
    cases flies
  landed scope reply landed := absurd landed (unlisted scope reply)
  failed scope fatal landed := absurd landed (unlisted scope _)

/-- However tasks take turns: once a listing has failed, none that takes longer lands, while
the joint listing waits or after it. -/
theorem bounded_of_steps {T : Transport σ} (paced : Paced T holds delay) {server : Noted σ}
    (held : holds server.server)
    (unlisted : ∀ scope reply, .landed (.listVolumes scope) reply ∉ server.seen)
    {clock : Nat} {scopes : List NamespaceId}
    (steps : Steps T.noting policy deadline (Fanout.start server clock scopes) g) :
    Bounded delay g.server.seen := by
  suffices reached : (g.ending = .waiting → Pending holds delay clock g) ∧
      Bounded delay g.server.seen from reached.2
  induction steps with
  | refl =>
    have pending : Pending holds delay clock (Fanout.start server clock scopes) :=
      .start held unlisted
    exact ⟨fun _ => pending, pending.bounded⟩
  | @tail middle later reached step ih =>
    obtain ⟨pending, bounded⟩ := ih
    by_cases ended : middle.ending = .waiting
    · by_cases waiting : later.ending = .waiting
      · have pending := (pending ended).step paced step waiting
        exact ⟨fun _ => pending, pending.bounded⟩
      · obtain ⟨-, server⟩ := step.halts ended waiting
        exact ⟨fun waits => absurd waits waiting, by rw [server]; exact bounded⟩
    · -- Nothing more is seen once the joint listing is over.
      obtain ⟨halted, server, -⟩ := (halted_of_ended reached ended).step step
      exact ⟨fun waiting => absurd waiting halted.ended, by rwa [server]⟩

end Fanout

end StorageControl
