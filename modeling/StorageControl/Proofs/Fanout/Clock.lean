import StorageControl.Proofs.Fanout

/-! The joint listing on a clock is one of the ways in which its tasks may take turns.

The machine polls the tasks in the order of their namespaces, lands the listings moment by
moment and lets the join take up what ended. All of this is open to tasks that take turns in
some order, so what holds however they do holds of the machine.
-/

set_option autoImplicit false

namespace StorageControl

variable {σ : Type}

namespace Limits

theorem isBy_iff {moment : Nat} {due : Option Nat} :
    isBy moment due = true ↔ ∀ last, due = some last → moment ≤ last := by
  cases due <;> simp [isBy]

theorem isBefore_iff {moment : Nat} {due : Option Nat} :
    isBefore moment due = true ↔ ∀ last, due = some last → moment < last := by
  cases due <;> simp [isBefore]

/-- A deadline that does not come before the end of a wait is no earlier than that. -/
theorem le_of_filter_eq_none {deadline due : Option Nat}
    (late : deadline.filter (isBefore · due) = Option.none) {last : Nat}
    (set : deadline = some last) : ∃ ending, due = some ending ∧ ending ≤ last := by
  have after := Option.filter_eq_none_iff.mp late last set
  cases due with
  | none => exact absurd rfl after
  | some ending => exact ⟨ending, rfl, by simpa [isBefore] using after⟩

/-- A wait is stopped no later than it would end, and no later than at the deadline. -/
theorem stop?_eq_some {limits : Limits} {due : Option Nat} {stop : Stop} {moment : Nat}
    (stopped : limits.stop? due = some (stop, moment)) :
    (∀ last, due = some last → moment ≤ last) ∧
      (∀ last, limits.deadline = some last → moment ≤ last) ∧
      (stop = .expired → limits.deadline = some moment ∧
        ∀ last, due = some last → moment < last) := by
  have expires {d : Nat} (kept : limits.deadline.filter (isBefore · due) = some d) :
      (∀ last, due = some last → d ≤ last) ∧ (∀ last, limits.deadline = some last → d ≤ last) ∧
        limits.deadline = some d ∧ ∀ last, due = some last → d < last := by
    obtain ⟨set, early⟩ := Option.filter_eq_some_iff.mp kept
    have before := isBefore_iff.mp early
    refine ⟨fun last ends => Nat.le_of_lt (before last ends), fun last same => ?_, set, before⟩
    rw [set] at same
    exact Nat.le_of_eq (Option.some.inj same)
  unfold stop? at stopped
  split at stopped
  next c d fires kept =>
    obtain ⟨-, early⟩ := Option.filter_eq_some_iff.mp fires
    split at stopped
    next sooner =>
      cases stopped
      refine ⟨isBy_iff.mp early, fun last same => ?_, nofun⟩
      rw [(expires kept).2.2.1] at same
      exact Option.some.inj same ▸ sooner
    next =>
      cases stopped
      exact ⟨(expires kept).1, (expires kept).2.1, fun _ => (expires kept).2.2⟩
  next c fires late =>
    cases stopped
    obtain ⟨-, early⟩ := Option.filter_eq_some_iff.mp fires
    refine ⟨isBy_iff.mp early, fun last same => ?_, nofun⟩
    obtain ⟨ending, ends, before⟩ := le_of_filter_eq_none late same
    exact Nat.le_trans (isBy_iff.mp early ending ends) before
  next d _ kept =>
    cases stopped
    exact ⟨(expires kept).1, (expires kept).2.1, fun _ => (expires kept).2.2⟩
  next => cases stopped

/-- A call that nothing stops lands no later than at the deadline. -/
theorem le_of_stop?_eq_none {limits : Limits} {due : Nat}
    (unstopped : limits.stop? (some due) = Option.none) {last : Nat}
    (set : limits.deadline = some last) : due ≤ last := by
  unfold stop? at unstopped
  split at unstopped
  · split at unstopped <;> cases unstopped
  · cases unstopped
  · cases unstopped
  next late =>
    obtain ⟨ending, same, before⟩ := le_of_filter_eq_none late set
    cases same
    exact before

end Limits

def Worker.listing? : Worker → Option Machine.Listing
  | ⟨scope, .flying due⟩ => some ⟨due, scope⟩
  | ⟨_, .fresh⟩ | ⟨_, .silent⟩ | ⟨_, .gone⟩ => none

theorem Worker.listing?_eq_some {w : Worker} {l : Machine.Listing} :
    w.listing? = some l ↔ w = ⟨l.scope, .flying l.due⟩ := by
  rcases w with ⟨scope, _ | due | _ | _⟩ <;> cases l <;> simp [listing?, and_comm]

namespace Machine

/-! ### Listings in order -/

/-- An agenda is in the order of its moments, and none of them has passed. -/
def Ordered (clock : Nat) (agenda : List Listing) : Prop :=
  agenda.Pairwise (·.due ≤ ·.due) ∧ ∀ l ∈ agenda, clock ≤ l.due

theorem schedule_pairwise {l : Listing} {agenda : List Listing}
    (sorted : agenda.Pairwise (·.due ≤ ·.due)) : (schedule l agenda).Pairwise (·.due ≤ ·.due) := by
  induction agenda with
  | nil => simp [schedule]
  | cons first rest ih =>
    obtain ⟨least, sorted'⟩ := List.pairwise_cons.mp sorted
    rw [schedule]
    split
    next earlier =>
      refine List.pairwise_cons.mpr ⟨fun other member => ?_, sorted⟩
      rcases List.mem_cons.mp member with rfl | member
      · exact Nat.le_of_lt earlier
      · exact Nat.le_trans (Nat.le_of_lt earlier) (least other member)
    next later =>
      refine List.pairwise_cons.mpr ⟨fun other member => ?_, ih sorted'⟩
      rcases List.mem_cons.mp ((schedule_perm l rest).mem_iff.mp member) with rfl | member
      · exact Nat.not_lt.mp later
      · exact least other member

theorem Ordered.schedule {clock : Nat} {l : Listing} {agenda : List Listing}
    (ordered : Ordered clock agenda) (later : clock ≤ l.due) :
    Ordered clock (schedule l agenda) := by
  refine ⟨schedule_pairwise ordered.1, fun other member => ?_⟩
  rcases List.mem_cons.mp ((schedule_perm l agenda).mem_iff.mp member) with rfl | member
  · exact later
  · exact ordered.2 other member

theorem Ordered.tail {clock : Nat} {l : Listing} {rest : List Listing}
    (ordered : Ordered clock (l :: rest)) : Ordered l.due rest := by
  obtain ⟨least, sorted⟩ := List.pairwise_cons.mp ordered.1
  exact ⟨sorted, least⟩

theorem launchAll_ordered (T : Transport σ) (scopes : List NamespaceId) {agenda : List Listing}
    {m : Machine σ} (ordered : Ordered m.clock agenda) :
    Ordered m.clock (launchAll T scopes agenda m).1 := by
  induction scopes generalizing agenda m with
  | nil => exact ordered
  | cons scope rest ih => exact ih (ordered.schedule (Nat.le_add_right _ _))

end Machine

namespace Fanout

open Machine (Listing Gathered Ordered landAll launchAll gather join waitOn)

variable {T : Transport σ} {policy : ScopePolicy} {limits : Limits}

/-! ### Single moves -/

/-- The clock may go on to a moment, unless it is there already. -/
theorem reach_steps {deadline : Option Nat} {g : Fanout σ} {moment : Nat}
    (idle : g.clock < moment → g.Idle deadline moment) :
    Steps T policy deadline g { g with clock := max g.clock moment } := by
  rcases Nat.lt_or_ge g.clock moment with later | past
  · rw [Nat.max_eq_right (Nat.le_of_lt later)]
    exact .single (.wait (Nat.le_of_lt later) fun _ => idle later)
  · rw [Nat.max_eq_left past]
    exact .refl

/-- What stops a wait may come up for tasks that wait until then. -/
theorem stop_steps (T : Transport σ) (policy : ScopePolicy) {g : Fanout σ} {due : Option Nat}
    {stop : Stop} {moment : Nat} (stopped : limits.stop? due = some (stop, moment))
    (idle : g.clock < moment → g.Idle limits.deadline moment) :
    ∃ fired, Steps T policy limits.deadline g
        { g with clock := max g.clock moment, fired } ∧
      Cause limits.deadline { g with clock := max g.clock moment, fired } stop := by
  have reached : Steps T policy limits.deadline g _ := reach_steps idle
  cases stop with
  | cancelled => exact ⟨true, reached.tail .fire, rfl⟩
  | expired =>
    obtain ⟨-, -, expired⟩ := Limits.stop?_eq_some stopped
    exact ⟨g.fired, reached, moment, (expired rfl).1, Nat.le_max_right _ _⟩

theorem launchAll_steps (T : Transport σ) (policy : ScopePolicy) (deadline : Option Nat)
    (scopes : List NamespaceId)
    {agenda : List Listing} {m : Machine σ} {g : Fanout σ} (free : g.Free)
    (server : g.server = m.server) (clock : g.clock = m.clock) {before : List Worker}
    (workers : g.workers = before ++ scopes.map Worker.spawned)
    (begun : ∀ w ∈ before, ∃ due, w.stage = .flying due)
    (flying : (before.filterMap Worker.listing?).Perm agenda) :
    ∃ launched, Steps T policy deadline g
        { g with server := (launchAll T scopes agenda m).2.server, workers := launched } ∧
      (∀ w ∈ launched, ∃ due, w.stage = .flying due) ∧
      (launched.filterMap Worker.listing?).Perm (launchAll T scopes agenda m).1 := by
  induction scopes generalizing agenda m g before with
  | nil =>
    refine ⟨before, .of_eq ?_, begun, flying⟩
    rw [launchAll, ← server, ← List.append_nil before, ← List.map_nil, ← workers]
  | cons scope rest ih =>
    let l : Listing := ⟨(Machine.launch T (.listVolumes scope) m).1.due, scope⟩
    have polled : Poll T g scope .fresh (.flying l.due) (T.start (.listVolumes scope) m.server).2
        none := by
      have launched : Poll T g scope .fresh _ _ none := .launch free rfl
      rwa [clock, server] at launched
    let next : Fanout σ :=
      { g with server := (T.start (.listVolumes scope) m.server).2
               workers := before ++ ⟨scope, .flying l.due⟩ :: rest.map Worker.spawned }
    have step : Step T policy deadline g next := by
      simpa [next] using Step.poll workers polled
    have begun' : ∀ w ∈ before ++ [⟨scope, .flying l.due⟩], ∃ due, w.stage = .flying due := by
      intro w member
      rcases List.mem_append.mp member with earlier | last
      · exact begun w earlier
      · cases List.mem_singleton.mp last
        exact ⟨_, rfl⟩
    have flying' : ((before ++ [Worker.mk scope (.flying l.due)]).filterMap Worker.listing?).Perm
        (Machine.schedule l agenda) := by
      rw [List.filterMap_append]
      refine (flying.append_right _).trans ?_
      exact (List.perm_append_singleton l agenda).trans (Machine.schedule_perm l agenda).symm
    obtain ⟨launched, steps, flies, perm⟩ :=
      ih (m := (Machine.launch T (.listVolumes scope) m).2) (g := next)
        ⟨free.fired, free.cancelled, free.aborted⟩ rfl clock (by simp [next]) begun' flying'
    exact ⟨launched, .head step steps, flies, perm⟩

/-! ### Landing an agenda -/

/-- The tasks are where a machine is that has an agenda to land: some of the arrivals are
taken up already, the rest is in the queue, and it is a failure that keeps it there. -/
structure Mirrors (limits : Limits) (agenda : List Listing) (taken : List (Arrival Volume))
    (m : Machine σ) (g : Fanout σ) : Prop where
  server : g.server = m.server
  clock : g.clock = m.clock
  free : g.Free
  waiting : g.ending = .waiting
  begun : ∀ w ∈ g.workers, w.stage ≠ .fresh
  flying : (g.workers.filterMap Worker.listing?).Perm agenda
  joined : ∃ before, taken = before ++ g.queue ∧ Aggregation.empty.merge before = .ok g.merged
  last : ∀ arrival rest, g.queue = arrival :: rest → arrival.outcome.isFinal = true

variable {agenda rest : List Listing} {l : Listing} {taken : List (Arrival Volume)}
  {m after : Machine σ} {g : Fanout σ}

theorem Mirrors.idle (mirrors : Mirrors limits agenda taken m g) (empty : g.queue = [])
    {moment : Nat} (due : ∀ l ∈ agenda, moment ≤ l.due)
    (inTime : ∀ last, limits.deadline = some last → moment ≤ last) :
    g.Idle limits.deadline moment where
  unfired := mirrors.free.fired
  taken := empty
  begun := mirrors.begun
  due w member moment' flies := by
    have airborne : w.listing? = some ⟨moment', w.scope⟩ := by
      rw [Worker.listing?_eq_some, ← flies]
    exact due _ (mirrors.flying.mem_iff.mp (List.mem_filterMap.mpr ⟨w, member, airborne⟩))
  deadline := inTime

/-- The listing that is next belongs to some task, which is polled apart from the others. -/
theorem exists_worker {workers : List Worker}
    (flying : (workers.filterMap Worker.listing?).Perm (l :: rest)) :
    ∃ before behind, workers = before ++ ⟨l.scope, .flying l.due⟩ :: behind ∧
      ∀ stage, (Worker.mk l.scope stage).listing? = none →
        ((before ++ ⟨l.scope, stage⟩ :: behind).filterMap Worker.listing?).Perm rest := by
  obtain ⟨w, member, airborne⟩ :=
    List.mem_filterMap.mp (flying.mem_iff.mpr List.mem_cons_self)
  rw [Worker.listing?_eq_some] at airborne
  subst airborne
  obtain ⟨before, behind, split⟩ := List.append_of_mem member
  refine ⟨before, behind, split, fun stage grounded => ?_⟩
  have airborne : Worker.listing? ⟨l.scope, .flying l.due⟩ = some l := rfl
  rw [split, List.filterMap_append, List.filterMap_cons_some airborne] at flying
  rw [List.filterMap_append, List.filterMap_cons_none grounded]
  exact (List.perm_middle.symm.trans flying).cons_inv

/-- The clock goes on to the moment of the next listing, and its task is polled. -/
theorem Mirrors.poll (policy : ScopePolicy) (mirrors : Mirrors limits (l :: rest) taken m g)
    (idle : g.clock < l.due → g.Idle limits.deadline l.due) {stage : Stage}
    {arrival : Option (Arrival Volume)}
    (polled : Poll T { g with clock := max g.clock l.due } l.scope (.flying l.due) stage
      after.server arrival)
    (grounded : (Worker.mk l.scope stage).listing? = none) (left : stage ≠ .fresh) :
    ∃ workers, Steps T policy limits.deadline g
        { g with server := after.server, clock := max g.clock l.due, workers
                 queue := g.queue ++ arrival.toList } ∧
      (∀ w ∈ workers, w = ⟨l.scope, stage⟩ ∨ w ∈ g.workers) ∧
      (∀ w ∈ workers, w.stage ≠ .fresh) ∧ (workers.filterMap Worker.listing?).Perm rest := by
  obtain ⟨before, behind, split, perm⟩ := exists_worker mirrors.flying
  have reached : Steps T policy limits.deadline g _ := reach_steps idle
  have others {w : Worker} (member : w ∈ before ++ ⟨l.scope, stage⟩ :: behind) :
      w = ⟨l.scope, stage⟩ ∨ w ∈ g.workers := by
    rw [split]
    exact mem_of_replaced member
  refine ⟨before ++ ⟨l.scope, stage⟩ :: behind, reached.tail (.poll split polled),
    fun w => others, fun w member => ?_, perm stage grounded⟩
  rcases others member with rfl | member
  · exact left
  · exact mirrors.begun w member

/-- A listing lands, and the join takes up what it brings unless that has to wait. -/
theorem Mirrors.land (policy : ScopePolicy) (mirrors : Mirrors limits (l :: rest) taken m g)
    (idle : g.clock < l.due → g.Idle limits.deadline l.due)
    {reply : (Call.listVolumes l.scope).Reply}
    (lands : T.land (.listVolumes l.scope) m.server = (some reply, after.server))
    (clock : after.clock = max m.clock l.due) :
    ∃ next, Steps T policy limits.deadline g next ∧
      Mirrors limits rest (taken ++ [⟨l.scope, .ofReply reply⟩]) after next ∧
      (next.queue = [] ↔ g.queue = [] ∧ (ScopeOutcome.ofReply reply).isFinal = false) ∧
      ((∀ w ∈ g.workers, w.stage ≠ .silent) → ∀ w ∈ next.workers, w.stage ≠ .silent) := by
  have free := mirrors.free
  have polled : Poll T { g with clock := max g.clock l.due } l.scope (.flying l.due) .gone
      after.server (some ⟨l.scope, .ofReply reply⟩) :=
    .land ⟨free.fired, free.cancelled, free.aborted⟩ (Nat.le_max_right _ _)
      (by simpa [mirrors.server] using lands)
  obtain ⟨workers, steps, others, begun, flying⟩ :=
    mirrors.poll policy idle polled rfl nofun
  have clock : max g.clock l.due = after.clock := by rw [clock, mirrors.clock]
  have loud (loud : ∀ w ∈ g.workers, w.stage ≠ .silent) : ∀ w ∈ workers, w.stage ≠ .silent := by
    intro w member
    rcases others w member with rfl | member
    · exact nofun
    · exact loud w member
  obtain ⟨before, rfl, merged⟩ := mirrors.joined
  by_cases taken : g.queue = [] ∧ (ScopeOutcome.ofReply reply).isFinal = false
  · -- Nothing keeps the join from taking it up at once.
    obtain ⟨empty, clear⟩ := taken
    have absorbed := Aggregation.absorb_of_clear g.merged ⟨l.scope, .ofReply reply⟩ clear
    have queue : g.queue ++ (some (Arrival.mk l.scope (.ofReply reply))).toList =
        ⟨l.scope, .ofReply reply⟩ :: [] := by rw [empty]; rfl
    refine ⟨_, steps.tail (.absorb mirrors.waiting queue absorbed), ⟨rfl, clock,
      ⟨free.fired, free.cancelled, free.aborted⟩, mirrors.waiting, begun, flying,
      ⟨before ++ [⟨l.scope, .ofReply reply⟩], by simp [empty], ?_⟩, nofun⟩, by simp [empty, clear],
      loud⟩
    rw [Aggregation.merge_concat _ _ _ merged, absorbed]
  · refine ⟨_, steps, ⟨rfl, clock, ⟨free.fired, free.cancelled, free.aborted⟩, mirrors.waiting,
      begun, flying, ⟨before, by simp, merged⟩, ?_⟩, by simp [taken], loud⟩
    intro arrival others queued
    cases empty : g.queue with
    | nil =>
      rw [empty] at queued
      cases queued
      simpa [empty] using taken
    | cons first later =>
      rw [empty] at queued
      cases queued
      exact mirrors.last _ _ empty

theorem Mirrors.hang (policy : ScopePolicy) (mirrors : Mirrors limits (l :: rest) taken m g)
    (idle : g.clock < l.due → g.Idle limits.deadline l.due)
    (lands : T.land (.listVolumes l.scope) m.server = (none, after.server))
    (clock : after.clock = max m.clock l.due) :
    ∃ next, Steps T policy limits.deadline g next ∧ Mirrors limits rest taken after next ∧
      next.queue = g.queue := by
  have free := mirrors.free
  have polled : Poll T { g with clock := max g.clock l.due } l.scope (.flying l.due) .silent
      after.server none :=
    .hang ⟨free.fired, free.cancelled, free.aborted⟩ (Nat.le_max_right _ _)
      (by simpa [mirrors.server] using lands)
  obtain ⟨workers, steps, -, begun, flying⟩ :=
    mirrors.poll policy idle polled rfl nofun
  rw [Option.toList_none, List.append_nil] at steps
  exact ⟨_, steps, ⟨rfl, by simp [clock, mirrors.clock], ⟨free.fired, free.cancelled, free.aborted⟩,
    mirrors.waiting, begun, flying, mirrors.joined, mirrors.last⟩, rfl⟩

/-- The tasks are where a machine is that has landed what it could. -/
structure Settles (limits : Limits) (taken : List (Arrival Volume)) (gathered : Gathered)
    (m : Machine σ) (g : Fanout σ) : Prop where
  server : g.server = m.server
  clock : g.clock = m.clock
  waiting : g.ending = .waiting
  joined : ∃ before, taken ++ gathered.arrivals = before ++ g.queue ∧
    Aggregation.empty.merge before = .ok g.merged
  last : ∀ arrival rest, g.queue = arrival :: rest → arrival.outcome.isFinal = true
  stopped : ∀ stop, gathered.stop = some stop → g.Cause limits.deadline stop
  idle : gathered.stop = none → g.queue = [] → ∀ moment,
    (∀ last, limits.deadline = some last → moment ≤ last) → g.Idle limits.deadline moment

theorem Settles.miss {gathered : Gathered} (settles : Settles limits taken gathered m g)
    (scope : NamespaceId) : Settles limits taken (gathered.miss scope) m g :=
  ⟨settles.server, settles.clock, settles.waiting, settles.joined, settles.last, settles.stopped,
    settles.idle⟩

theorem Settles.arrive {gathered : Gathered} {scope : NamespaceId} {outcome : ScopeOutcome Volume}
    (settles : Settles limits (taken ++ [⟨scope, outcome⟩]) gathered m g) :
    Settles limits taken (gathered.arrive scope outcome) m g := by
  refine ⟨settles.server, settles.clock, settles.waiting, ?_, settles.last, settles.stopped,
    settles.idle⟩
  obtain ⟨before, arrived, merged⟩ := settles.joined
  exact ⟨before, by rw [← arrived, List.append_assoc]; rfl, merged⟩

theorem Mirrors.finish (mirrors : Mirrors limits [] taken m g) :
    Settles limits taken (.noneOf [] none) m g ∧
      ((∀ w ∈ g.workers, w.stage ≠ .silent) → ∀ w ∈ g.workers, w.stage = .gone) := by
  refine ⟨⟨mirrors.server, mirrors.clock, mirrors.waiting, ?_, mirrors.last, nofun,
    fun _ empty moment inTime => mirrors.idle empty (by simp) inTime⟩, fun loud w member => ?_⟩
  · simpa [Gathered.noneOf] using mirrors.joined
  · have grounded : w.listing? = none :=
      List.filterMap_eq_nil_iff.mp mirrors.flying.eq_nil w member
    have begun := mirrors.begun w member
    have loud := loud w member
    rcases w with ⟨scope, _ | due | _ | _⟩
    · exact absurd rfl begun
    · cases grounded
    · exact absurd rfl loud
    · rfl

/-- A failure that waits in the queue ends the whole before the rest of the agenda. -/
theorem Mirrors.pass (mirrors : Mirrors limits agenda taken m g) (queued : g.queue ≠ []) :
    Settles limits taken (.noneOf (agenda.map Listing.scope) none) (m.dropAll agenda) g where
  server := by rw [Machine.dropAll_server, mirrors.server]
  clock := by rw [Machine.dropAll_clock, mirrors.clock]
  waiting := mirrors.waiting
  joined := by simpa [Gathered.noneOf] using mirrors.joined
  last := mirrors.last
  stopped := nofun
  idle _ empty := absurd empty queued

/-- The token or the deadline ends the wait for the rest of the agenda. -/
theorem Mirrors.stop (T : Transport σ) (policy : ScopePolicy)
    (mirrors : Mirrors limits agenda taken m g) {due : Option Nat} {stop : Stop} {moment : Nat}
    (stopped : limits.stop? due = some (stop, moment))
    (idle : g.clock < moment → g.Idle limits.deadline moment) :
    ∃ next, Steps T policy limits.deadline g next ∧
      Settles limits taken (.noneOf (agenda.map Listing.scope) (some stop))
        ((m.dropAll agenda).reach moment) next := by
  obtain ⟨fired, steps, cause⟩ := stop_steps T policy stopped idle
  refine ⟨_, steps, ⟨?_, ?_, mirrors.waiting, ?_, mirrors.last, ?_, nofun⟩⟩
  · rw [Machine.reach, Machine.dropAll_server, mirrors.server]
  · rw [Machine.reach, Machine.dropAll_clock, mirrors.clock]
  · simpa [Gathered.noneOf] using mirrors.joined
  · rintro _ ⟨⟩
    exact cause

/-- A listing that ends the whole does so at its own moment, unless one did at that moment. -/
theorem ended_now {ended : Option Nat} {clock due : Nat}
    (now : ∀ moment, ended = some moment → moment = clock) (arrives : clock = due) {final : Bool}
    (moment : Nat) (set : (if final then ended.or (some due) else ended) = some moment) :
    moment = clock := by
  split at set
  · rcases ended with _ | earlier
    · cases set
      exact arrives.symm
    · exact now moment set
  · exact now moment set

/-- The induction is on the agenda: what the machine does about the next listing is done by
its task, and the machine is mirrored again. -/
theorem landAll_steps (policy : ScopePolicy) (ended : Option Nat)
    (mirrors : Mirrors limits agenda taken m g) (ordered : Ordered m.clock agenda)
    (goesOn : ended = none ↔ g.queue = [])
    (now : ∀ moment, ended = some moment → moment = m.clock) :
    ∃ next, Steps T policy limits.deadline g next ∧
      Settles limits taken (landAll T limits ended agenda m).1
        (landAll T limits ended agenda m).2 next ∧
      ((∀ w ∈ g.workers, w.stage ≠ .silent) →
        (landAll T limits ended agenda m).1.missing = [] →
          ∀ w ∈ next.workers, w.stage = .gone) := by
  induction agenda generalizing ended taken m g with
  | nil => exact ⟨g, .refl, mirrors.finish.1, fun loud _ => mirrors.finish.2 loud⟩
  | cons l rest ih =>
    rw [landAll]
    split
    next passed =>
      have queued : g.queue ≠ [] := fun empty => by simp [goesOn.mpr empty] at passed
      exact ⟨g, .refl, mirrors.pass queued, by simp [Gathered.noneOf]⟩
    next goes =>
      have least : ∀ other ∈ l :: rest, l.due ≤ other.due :=
        List.forall_mem_cons.mpr ⟨Nat.le_refl _, ordered.tail.2⟩
      have ahead : m.clock ≤ l.due := ordered.2 l List.mem_cons_self
      have present (moment : Nat) (set : ended = some moment) : l.due = m.clock := by
        have past := now moment set
        simp only [set, Option.any_some, decide_eq_true_eq] at goes
        omega
      -- Where the clock has to go on, nothing keeps an arrival in the queue.
      have empty (later : g.clock < l.due) : g.queue = [] := by
        rw [← goesOn, Option.eq_none_iff_forall_ne_some]
        intro moment set
        rw [mirrors.clock, present moment set] at later
        exact Nat.lt_irrefl _ later
      split
      next stop moment stopped =>
        obtain ⟨soon, early, -⟩ := Limits.stop?_eq_some stopped
        have before := soon l.due rfl
        obtain ⟨next, steps, settles⟩ := mirrors.stop T policy stopped fun later =>
          mirrors.idle (empty (Nat.lt_of_lt_of_le later before))
            (fun other member => Nat.le_trans before (least other member)) early
        exact ⟨next, steps, settles, by simp [Gathered.noneOf]⟩
      next unstopped =>
        have idle (later : g.clock < l.due) : g.Idle limits.deadline l.due :=
          mirrors.idle (empty later) least fun _ => Limits.le_of_stop?_eq_none unstopped
        have lands : T.land (.listVolumes l.scope) m.server =
            (Machine.touchDown T (.listVolumes l.scope) l.due (m.drop l.flight)).map id
              Machine.server := rfl
        have clock : (Machine.touchDown T (.listVolumes l.scope) l.due (m.drop l.flight)).2.clock =
            max m.clock l.due := rfl
        generalize Machine.touchDown T (.listVolumes l.scope) l.due (m.drop l.flight) = touched
          at lands clock
        obtain ⟨reply, after⟩ := touched
        have due : after.clock = l.due := clock.trans (Nat.max_eq_right ahead)
        have ordered' : Ordered after.clock rest := due ▸ ordered.tail
        have now' (moment : Nat) (set : ended = some moment) : moment = after.clock := by
          rw [due, present moment set, now moment set]
        cases reply with
        | none =>
          obtain ⟨next, steps, mirrored, queue⟩ := mirrors.hang policy idle lands clock
          obtain ⟨final, onward, settles, -⟩ :=
            ih ended mirrored ordered' (by rw [queue, goesOn]) now'
          exact ⟨final, steps.trans onward, settles.miss l.scope, by simp [Gathered.miss]⟩
        | some reply =>
          obtain ⟨next, steps, mirrored, queue, loud⟩ := mirrors.land policy idle lands clock
          have goesOn' : (if (ScopeOutcome.ofReply reply).isFinal then ended.or (some l.due)
              else ended) = none ↔ next.queue = [] := by
            rw [queue, ← goesOn]
            split <;> simp [*]
          obtain ⟨final, onward, settles, complete⟩ :=
            ih _ mirrored ordered' goesOn' (ended_now now' due)
          exact ⟨final, steps.trans onward, settles.arrive, fun quiet => complete (loud quiet)⟩

/-! ### The joint listing -/

/-- What is left of a joint listing is taken up, or given up. -/
theorem Settles.join_steps (T : Transport σ) (policy : ScopePolicy) {scopes : List NamespaceId}
    {gathered : Gathered} (settles : Settles limits [] gathered m g) (nonempty : scopes ≠ [])
    (size : g.workers.length = scopes.length)
    (complete : gathered.missing = [] → ∀ w ∈ g.workers, w.stage = .gone) :
    ∃ final, Steps T policy limits.deadline g final ∧
      final.server = (join limits policy scopes gathered m).2.server ∧
      final.clock = (join limits policy scopes gathered m).2.clock ∧
      final.ending = (join limits policy scopes gathered m).1 := by
  obtain ⟨before, arrived, merged⟩ := settles.joined
  rw [List.nil_append] at arrived
  have collected : Aggregation.collect policy scopes gathered.arrivals =
      match g.merged.merge g.queue with
      | .error fault => .error fault
      | .ok merged => merged.close policy scopes.length := by
    rw [Aggregation.collect, if_neg (by simpa using nonempty), arrived,
      Aggregation.merge_append _ _ _ merged]
    cases g.merged.merge g.queue <;> rfl
  cases halted : gathered.stop with
  | some stop =>
    rw [join, halted]
    exact ⟨_, .single (.halt settles.waiting (settles.stopped stop halted)), settles.server,
      settles.clock, rfl⟩
  | none =>
    cases queue : g.queue with
    | cons first rest =>
      -- The oldest end that is left is a failure.
      have final := settles.last first rest queue
      obtain ⟨fault, ends⟩ : ∃ fault, first.outcome.fault? = some fault := by
        refine Option.ne_none_iff_exists'.mp fun clear => ?_
        rw [(ScopeOutcome.fault?_eq_none_iff _).mp clear] at final
        cases final
      have failed := Aggregation.absorb_of_fault g.merged first ends
      have decided : (gathered.isFinal || gathered.missing.isEmpty) = true := by
        simp [Gathered.isFinal, arrived, queue, final]
      rw [queue, Aggregation.merge, failed] at collected
      rw [join, halted, decided, collected]
      exact ⟨_, .single (.giveUp settles.waiting queue failed), settles.server, settles.clock, rfl⟩
    | nil =>
      rw [queue, List.append_nil] at arrived
      have clear : gathered.isFinal = false := by
        rw [Gathered.isFinal, arrived, List.any_eq_false]
        simpa using Aggregation.clear_of_merge merged
      rw [queue, Aggregation.merge] at collected
      by_cases all : gathered.missing = []
      · simp only [join, halted, clear, all, List.isEmpty_nil, Bool.or_true, if_true, collected]
        exact ⟨_, .single (.conclude settles.waiting queue (complete all)), settles.server,
          settles.clock, by rw [size]⟩
      · have pending : (gathered.isFinal || gathered.missing.isEmpty) = false := by
          simp [clear, all]
        rw [join, halted, pending]
        simp only [Bool.false_eq_true, if_false, waitOn]
        cases stopped : limits.stop? none with
        | none => exact ⟨g, .refl, settles.server, settles.clock, settles.waiting⟩
        | some stop =>
          obtain ⟨-, early, -⟩ := Limits.stop?_eq_some stopped
          obtain ⟨fired, steps, cause⟩ := stop_steps T policy stopped (g := g)
            fun _ => settles.idle halted queue stop.2 early
          exact ⟨_, steps.tail (.halt settles.waiting cause), settles.server,
            congrArg (max · stop.2) settles.clock, rfl⟩

/-- Once its tasks have been polled, a joint listing is where a machine begins to land. -/
theorem launch_steps (T : Transport σ) (limits : Limits) (policy : ScopePolicy)
    {scopes : List NamespaceId} (nonempty : scopes ≠ []) (m : Machine σ) :
    let launched := launchAll T scopes [] m
    ∃ g, Steps T policy limits.deadline (start m.server m.clock scopes) g ∧
      Mirrors limits launched.1 [] launched.2 g ∧ g.queue = [] ∧
      ∀ w ∈ g.workers, w.stage ≠ .silent := by
  intro launched
  have waiting : (start m.server m.clock scopes).ending = .waiting := by simp [start, nonempty]
  have none : ∀ w ∈ ([] : List Worker), ∃ due, w.stage = .flying due := by simp
  obtain ⟨workers, steps, flies, flying⟩ := launchAll_steps T policy limits.deadline scopes
    (g := start m.server m.clock scopes) (m := m) ⟨rfl, rfl, rfl⟩ rfl rfl rfl none .nil
  refine ⟨_, steps, ⟨rfl, (Machine.launchAll_clock T scopes [] m).symm, ⟨rfl, rfl, rfl⟩, waiting,
    fun w member => ?_, flying, ⟨[], rfl, rfl⟩, nofun⟩, rfl, fun w member => ?_⟩
  · obtain ⟨due, flies⟩ := flies w member
    rw [flies]
    exact nofun
  · obtain ⟨due, flies⟩ := flies w member
    rw [flies]
    exact nofun

/-- What a machine makes of a joint listing is one of the things that its tasks may come to. -/
theorem joint_steps (T : Transport σ) (limits : Limits) (policy : ScopePolicy)
    (scopes : List NamespaceId) (m : Machine σ) (unfired : limits.hasFired m.clock = false) :
    let gathering := gather T limits scopes m
    let joined := join limits policy scopes gathering.1 gathering.2
    ∃ g, Steps T policy limits.deadline (start m.server m.clock scopes) g ∧
      g.server = joined.2.server ∧ g.clock = joined.2.clock ∧ g.ending = joined.1 := by
  have gathered : gather T limits scopes m =
      landAll T limits none (launchAll T scopes [] m).1 (launchAll T scopes [] m).2 := by
    rw [gather, unfired]
    rfl
  rw [gathered]
  by_cases nonempty : scopes = []
  · subst nonempty
    exact ⟨_, .refl, rfl, rfl, rfl⟩
  · obtain ⟨begun, steps, mirrors, queue, loud⟩ := launch_steps T limits policy nonempty m
    have ordered : Ordered (launchAll T scopes [] m).2.clock (launchAll T scopes [] m).1 := by
      rw [Machine.launchAll_clock]
      exact Machine.launchAll_ordered T scopes ⟨.nil, by simp⟩
    obtain ⟨landed, onward, settles, complete⟩ :=
      landAll_steps policy none mirrors ordered (iff_of_true rfl queue) (by simp)
    have size : landed.workers.length = scopes.length := by
      rw [Steps.length (steps.trans onward)]
      exact List.length_map Worker.spawned
    obtain ⟨final, last, same⟩ :=
      settles.join_steps T policy nonempty size (complete loud)
    exact ⟨final, (steps.trans onward).trans last, same⟩

end Fanout

end StorageControl
