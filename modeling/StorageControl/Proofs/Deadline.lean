import StorageControl.Proofs.Abandonment
import StorageControl.Proofs.Passage
import StorageControl.Proofs.Steady
import StorageControl.Proofs.Transcript

/-! Operations under a deadline.

A run under a deadline goes as the run without one goes, up to the first wait that is longer
than the deadline allows. So a deadline that is late enough changes nothing, and one that is
too early ends the operation after a beginning of what it does without.
-/

set_option autoImplicit false

namespace StorageControl

variable {σ α β : Type}

namespace Limits

/-- A deadline, without a token. -/
def expiring (deadline : Nat) : Limits := ⟨Option.none, some deadline⟩

theorem stop?_none (due : Option Nat) : none.stop? due = Option.none := rfl

theorem stop?_expiring_of_lt {deadline due : Nat} (late : deadline < due) :
    (expiring deadline).stop? (some due) = some (.expired, deadline) := by
  simp only [stop?, expiring, Option.filter, isBefore, late, decide_true, if_true]

theorem stop?_expiring_of_le {deadline due : Nat} (inTime : due ≤ deadline) :
    (expiring deadline).stop? (some due) = Option.none := by
  simp only [stop?, expiring, Option.filter, isBefore, Nat.not_lt.mpr inTime, decide_false,
    Bool.false_eq_true, if_false]

end Limits

namespace Machine

/-! ### With and without a deadline -/

/-- How what goes on under a deadline compares with what goes on without: it comes to the same
in time; or it is cut short, where the other would have gone on beyond the deadline. -/
inductive Curtails (deadline : Nat) :
    Landing α × Machine (Noted σ) → Landing α × Machine (Noted σ) → Prop where
  | inTime (a : α) {after : Machine (Noted σ)} (inTime : after.clock ≤ deadline) :
      Curtails deadline (.landed a, after) (.landed a, after)
  | late {free : Landing α × Machine (Noted σ)} {cut : Machine (Noted σ)}
      (overdue : free.1 = .waiting ∨ deadline < free.2.clock)
      (seen : cut.server.seen <+: free.2.server.seen) :
      Curtails deadline free (.stopped .expired, cut)

theorem Curtails.eq_of_inTime {deadline : Nat} {free timed : Landing α × Machine (Noted σ)}
    (curtails : Curtails deadline free timed) (ended : free.1 ≠ .waiting)
    (inTime : free.2.clock ≤ deadline) : timed = free := by
  cases curtails with
  | inTime => rfl
  | late overdue =>
    rcases overdue with waiting | overdue
    · exact absurd waiting ended
    · exact absurd inTime (Nat.not_le.mpr overdue)

theorem Curtails.of_overdue {deadline : Nat} {free timed : Landing α × Machine (Noted σ)}
    (curtails : Curtails deadline free timed) (overdue : deadline < free.2.clock) :
    timed.1 = .stopped .expired ∧ timed.2.server.seen <+: free.2.server.seen := by
  cases curtails with
  | inTime _ inTime => exact absurd inTime (Nat.not_le.mpr overdue)
  | late _ seen => exact ⟨rfl, seen⟩

theorem waitOn_curtails (deadline : Nat) (m : Machine (Noted σ)) :
    Curtails (α := α) deadline (waitOn .none m) (waitOn (.expiring deadline) m) :=
  .late (.inl rfl) List.prefix_rfl

theorem perform_curtails (T : Transport σ) {deadline : Nat} (c : Call) (m : Machine (Noted σ))
    (early : m.clock ≤ deadline) :
    Curtails deadline (perform T.noting .none c m) (perform T.noting (.expiring deadline) c m) := by
  simp only [perform, Limits.stop?_none]
  -- Both start the call alike.
  generalize (launch T.noting c m).1.due = due
  have begun : ((launch T.noting c m).2.drop (launch T.noting c m).1).clock ≤ deadline := early
  generalize (launch T.noting c m).2.drop (launch T.noting c m).1 = flown at begun
  have told : flown.server.seen <+: (touchDown T.noting c due flown).2.server.seen :=
    List.prefix_append _ _
  have clock : (touchDown T.noting c due flown).2.clock = max flown.clock due := rfl
  generalize touchDown T.noting c due flown = touched at told clock
  obtain ⟨reply, after⟩ := touched
  simp only at told clock
  rcases Nat.lt_or_ge deadline due with late | inTime
  · have overdue : deadline < after.clock := by omega
    rw [Limits.stop?_expiring_of_lt late]
    cases reply with
    | some reply => exact .late (.inr overdue) told
    | none => exact .late (.inl rfl) told
  · have timely : after.clock ≤ deadline := by omega
    rw [Limits.stop?_expiring_of_le inTime]
    cases reply with
    | some reply => exact .inTime reply timely
    | none => exact waitOn_curtails deadline after

/-- How a joint listing under a deadline compares with the same without. -/
inductive Hurries (deadline : Nat) :
    Gathered × Machine (Noted σ) → Gathered × Machine (Noted σ) → Prop where
  | inTime (g : Gathered) {after : Machine (Noted σ)} (inTime : after.clock ≤ deadline) :
      Hurries deadline (g, after) (g, after)
  | late {free : Gathered × Machine (Noted σ)} {g : Gathered} {cut : Machine (Noted σ)}
      (stopped : g.stop = some .expired) (overdue : deadline < free.2.clock)
      (seen : cut.server.seen <+: free.2.server.seen) :
      Hurries deadline free (g, cut)

theorem Hurries.map {deadline : Nat} {free timed : Gathered × Machine (Noted σ)}
    (hurries : Hurries deadline free timed) {f : Gathered → Gathered}
    (keeps : ∀ g, (f g).stop = g.stop) :
    Hurries deadline (Prod.map f id free) (Prod.map f id timed) := by
  cases hurries with
  | inTime g inTime => exact .inTime (f g) inTime
  | late stopped overdue seen => exact .late ((keeps _).trans stopped) overdue seen

/-- A listing that lands keeps the whole at least until its moment. -/
theorem landAll_of_due (T : Transport σ) {ended : Option Nat} {l : Listing}
    (rest : List Listing) (m : Machine σ) (goesOn : ended.any (· < l.due) = false) :
    l.due ≤ (landAll T .none ended (l :: rest) m).2.clock := by
  rw [landAll, goesOn]
  simp only [Bool.false_eq_true, if_false, Limits.stop?_none]
  have clock : l.due ≤ (touchDown T (.listVolumes l.scope) l.due (m.drop l.flight)).2.clock :=
    Nat.le_max_right _ _
  generalize touchDown T (.listVolumes l.scope) l.due (m.drop l.flight) = touched at clock
  obtain ⟨reply, after⟩ := touched
  cases reply with
  | none => exact Nat.le_trans clock (landAll_precedes T .none ended rest after).clock
  | some reply => exact Nat.le_trans clock (landAll_precedes T .none _ rest after).clock

theorem landAll_hurries (T : Transport σ) {deadline : Nat} (ended : Option Nat)
    (agenda : List Listing) (m : Machine (Noted σ)) (early : m.clock ≤ deadline) :
    Hurries deadline (landAll T.noting .none ended agenda m)
      (landAll T.noting (.expiring deadline) ended agenda m) := by
  induction agenda generalizing ended m with
  | nil => exact .inTime _ early
  | cons l rest ih =>
    cases passed : ended.any (· < l.due) with
    | true =>
      rw [landAll, landAll, passed]
      exact .inTime _ (Nat.le_trans (Nat.le_of_eq (dropAll_clock m _)) early)
    | false =>
      rcases Nat.lt_or_ge deadline l.due with late | inTime
      · obtain ⟨listing, seen, -⟩ := landAll_survey T .none ended (l :: rest) m
        have overdue := Nat.lt_of_lt_of_le late (landAll_of_due T.noting rest m passed)
        -- The time of the free run is settled: what matters is what the other one has seen.
        generalize landAll T.noting .none ended (l :: rest) m = free at seen overdue
        rw [landAll, passed, Limits.stop?_expiring_of_lt late]
        refine .late rfl overdue ?_
        simp only [reach, dropAll_server, seen]
        exact List.prefix_append _ _
      · simp only [landAll, passed, Bool.false_eq_true, if_false, Limits.stop?_none,
          Limits.stop?_expiring_of_le inTime]
        have clock : (touchDown T.noting (.listVolumes l.scope) l.due (m.drop l.flight)).2.clock =
          max m.clock l.due := rfl
        generalize touchDown T.noting (.listVolumes l.scope) l.due (m.drop l.flight) = touched
          at clock
        obtain ⟨reply, after⟩ := touched
        have timely : after.clock ≤ deadline := by simp only at clock; omega
        cases reply with
        | none => exact (ih ended after timely).map fun _ => rfl
        | some reply => exact (ih _ after timely).map fun _ => rfl

theorem gather_hurries (T : Transport σ) {deadline : Nat} (scopes : List NamespaceId)
    (m : Machine (Noted σ)) (early : m.clock ≤ deadline) :
    Hurries deadline (gather T.noting .none scopes m)
      (gather T.noting (.expiring deadline) scopes m) := by
  have launched := launchAll_clock T.noting scopes [] m
  exact landAll_hurries T none _ _ (launched ▸ early)

theorem join_curtails {deadline : Nat} (policy : ScopePolicy) (scopes : List NamespaceId)
    {free timed : Gathered × Machine (Noted σ)} (hurries : Hurries deadline free timed)
    (unstopped : free.1.stop = none) :
    Curtails deadline (join .none policy scopes free.1 free.2)
      (join (.expiring deadline) policy scopes timed.1 timed.2) := by
  cases hurries with
  | @inTime g after inTime =>
    simp only at unstopped
    rw [join, join, unstopped]
    simp only
    split
    · exact .inTime _ inTime
    · exact waitOn_curtails deadline after
  | @late free g cut stopped overdue seen =>
    obtain ⟨-, kept⟩ := join_joins .none policy scopes free.1 free.2
    have later := join_precedes .none policy scopes free.1 free.2
    simp only [join.eq_def (.expiring deadline), stopped]
    exact .late (.inr (Nat.lt_of_lt_of_le overdue later.clock)) (by rwa [kept])

/-- What a late call or listing goes on with stays late, and only adds to what is seen. -/
theorem goOn_curtails (T : Transport σ) {deadline : Nat} (next : β → Program α)
    {free : Landing β × Machine (Noted σ)} {cut : Machine (Noted σ)}
    (overdue : free.1 = .waiting ∨ deadline < free.2.clock)
    (seen : cut.server.seen <+: free.2.server.seen) :
    Curtails deadline (goOn T.noting .none next free) (.stopped .expired, cut) := by
  rcases free with ⟨b | stop | _, after⟩
  · have overdue : deadline < after.clock := overdue.resolve_left nofun
    have later := run_precedes T.noting .none (next b) after
    obtain ⟨sightings, told, -⟩ := run_transcript T .none (next b) after
    refine .late (.inr (Nat.lt_of_lt_of_le overdue later.clock)) ?_
    rw [goOn, told]
    exact List.IsPrefix.trans seen (List.prefix_append _ _)
  · exact .late (.inr (overdue.resolve_left nofun)) seen
  · exact .late (.inl rfl) seen

/-- A run under a deadline is the one without, or it is cut short where that goes on for
longer. -/
theorem run_curtails (T : Transport σ) {deadline : Nat} (program : Program α)
    (m : Machine (Noted σ)) (early : m.clock ≤ deadline) :
    Curtails deadline (run T.noting .none program m)
      (run T.noting (.expiring deadline) program m) := by
  induction program generalizing m with
  | done result => exact .inTime result early
  | call c next ih =>
    have curtails := perform_curtails T c m early
    rw [run_call, run_call]
    generalize perform T.noting .none c m = free at curtails
    generalize perform T.noting (.expiring deadline) c m = timed at curtails
    cases curtails with
    | inTime reply inTime => exact ih reply _ inTime
    | late overdue seen => exact goOn_curtails T next overdue seen
  | gather policy scopes next ih =>
    have curtails := join_curtails policy scopes (gather_hurries T scopes m early)
      (gather_unstopped T.noting scopes m)
    rw [run_gather, run_gather]
    generalize join .none policy scopes _ _ = free at curtails
    generalize join (.expiring deadline) policy scopes _ _ = timed at curtails
    cases curtails with
    | inTime joined inTime => exact ih joined _ inTime
    | late overdue seen => exact goOn_curtails T next overdue seen

/-! ### Operations that end -/

theorem answering_always {T : Transport σ} (answers : ∀ c s, (T.land c s).1 ≠ none) :
    Answering T (fun _ => True) (fun _ => True) where
  start _ _ _ _ := trivial
  land _ _ _ _ := trivial
  answers c s _ _ := answers c s

theorem perform_answered {T : Transport σ} (answers : ∀ c s, (T.land c s).1 ≠ none)
    (limits : Limits) (c : Call) (m : Machine σ) : (perform T limits c m).1 ≠ .waiting := by
  simp only [perform]
  split
  · simp
  next =>
    obtain ⟨reply, replied⟩ := Option.ne_none_iff_exists'.mp
      (answers c ((launch T c m).2.drop (launch T c m).1).server)
    simp only [touchDown, replied]
    simp

theorem join_answered {T : Transport σ} (answers : ∀ c s, (T.land c s).1 ≠ none)
    (limits : Limits) (policy : ScopePolicy) (scopes : List NamespaceId) (m : Machine σ) :
    (join limits policy scopes (gather T limits scopes m).1 (gather T limits scopes m).2).1 ≠
      .waiting := by
  have settled := gather_settled (answering_always answers) limits scopes (fun _ _ => trivial) m
    trivial
  generalize gather T limits scopes m = gathering at settled
  obtain ⟨g, after⟩ := gathering
  rw [join]
  split
  · simp
  next unstopped =>
    rw [if_pos (by simpa using settled unstopped)]
    simp

theorem goOn_answered {T : Transport σ} {limits : Limits} {next : β → Program α}
    (rest : ∀ b m, (run T limits (next b) m).1 ≠ .waiting) {ended : Landing β × Machine σ}
    (answered : ended.1 ≠ .waiting) : (goOn T limits next ended).1 ≠ .waiting := by
  rcases ended with ⟨b | stop | _, after⟩
  · exact rest b after
  · simp [goOn]
  · exact absurd rfl answered

/-- When every call is answered, no run waits for ever. -/
theorem run_answered {T : Transport σ} (answers : ∀ c s, (T.land c s).1 ≠ none)
    (limits : Limits) (program : Program α) (m : Machine σ) :
    (run T limits program m).1 ≠ .waiting := by
  induction program generalizing m with
  | done result => simp [run]
  | call c next ih =>
    rw [run_call]
    exact goOn_answered ih (perform_answered answers limits c m)
  | gather policy scopes next ih =>
    rw [run_gather]
    exact goOn_answered ih (join_answered answers limits policy scopes m)

end Machine

namespace Client

theorem allowance_of_covers {timeout : Span} {taken : Nat} (foreseeable : taken < horizon)
    (longer : taken * Span.perMilli < timeout.nanoseconds) : taken ≤ allowance timeout := by
  rw [allowance]
  split
  · rw [Span.millisecondsUp, Nat.le_div_iff_mul_le (by decide)]
    omega
  · exact Nat.le_of_lt foreseeable

theorem allowance_of_exceeded {timeout : Span} {taken : Nat} (foreseeable : taken < horizon)
    (shorter : timeout.millisecondsUp < taken) : allowance timeout < taken := by
  rw [allowance]
  split
  · exact shorter
  next long =>
    -- So long a timeout is beyond the horizon.
    have beyond : horizon < timeout.millisecondsUp := by
      simp only [Span.seconds, Span.perSecond, Word.limit, Nat.pow_eq] at long
      simp only [Span.millisecondsUp, Span.perMilli, horizon]
      omega
    omega

/-- The settings of a client matter only to the failure of what was stopped. -/
theorem outcome_of_unstopped (client other : Client) (operation : Operation α)
    {ending : Landing (Except ApiFault α)} (unstopped : ∀ stop, ending ≠ .stopped stop) :
    client.outcome operation ending = other.outcome operation ending := by
  cases ending with
  | landed result => rfl
  | stopped stop => exact absurd rfl (unstopped stop)
  | waiting => rfl

section Untied

variable {m : Machine σ} (unset : m.cancelAt = none) (client : Client) (T : Transport σ)
  (operation : Operation α)

include unset

theorem perform_untied :
    client.perform T operation m =
      Prod.map (client.outcome operation) id (m.run T (client.limits m) operation.program) := by
  refine perform_of_unfired ?_ T operation
  rw [Limits.hasFired, limits, unset]

theorem perform_noted :
    client.perform T operation m =
      Prod.map (client.outcome operation) (Machine.map Noted.server)
        (m.fresh.run T.noting (client.limits m) operation.program) := by
  have same := perform_map T.noting_covers client operation m.fresh
  rw [perform_untied (m := m.fresh) unset, Machine.map_fresh] at same
  exact same

theorem seen_untied :
    client.seen T operation m =
      (m.fresh.run T.noting (client.limits m) operation.program).2.server.seen := by
  rw [seen, perform_untied (m := m.fresh) unset]
  rfl

end Untied

theorem perform_answered {T : Transport σ} (answers : ∀ c s, (T.land c s).1 ≠ none)
    (client : Client) (operation : Operation α) (m : Machine σ) :
    ∃ result, (client.perform T operation m).1 = some result := by
  cases fired : (client.limits m).hasFired m.clock with
  | true =>
    rw [perform_of_fired fired]
    exact ⟨_, rfl⟩
  | false =>
    have answered := Machine.run_answered answers (client.limits m) operation.program m
    rw [perform_of_unfired fired]
    generalize Machine.run T (client.limits m) operation.program m = ran at answered
    rcases ran with ⟨result | stop | _, after⟩
    · exact ⟨_, rfl⟩
    · exact ⟨_, rfl⟩
    · exact absurd rfl answered

/-- A deadline that is not reached changes nothing. One that is too early ends the operation
with its own failure, after a beginning of what it does without. -/
theorem deadline_only_cuts_short {T : Transport σ} (client : Client) (operation : Operation α)
    {m : Machine σ} (unset : m.cancelAt = none) :
    let free := client.withTimeout none
    let ran := free.perform T operation m
    let taken := ran.2.clock - m.clock
    ((∀ c s, (T.land c s).1 ≠ none) → ∃ result, ran.1 = some result) ∧
    (ran.1 ≠ none → taken < horizon → ∀ timeout : Span,
      let timed := client.withTimeout (some timeout)
      (taken * Span.perMilli < timeout.nanoseconds →
        timed.perform T operation m = ran ∧
          timed.seen T operation m = free.seen T operation m) ∧
      (timeout.millisecondsUp < taken →
        (timed.perform T operation m).1 =
            some (.error (.deadlineExceeded operation.name timeout)) ∧
          timed.seen T operation m <+: free.seen T operation m)) := by
  intro free ran taken
  refine ⟨fun answers => perform_answered answers free operation m, ?_⟩
  intro returned foreseeable timeout timed
  have curtails : Machine.Curtails (m.clock + allowance timeout) _ _ :=
    Machine.run_curtails T operation.program m.fresh (Nat.le_add_right _ _)
  have untimed : free.limits m = .none := by
    rw [limits, unset]
    rfl
  have bounded : timed.limits m = .expiring (m.clock + allowance timeout) := by
    rw [limits, unset]
    rfl
  have ended : (m.fresh.run T.noting .none operation.program).1 ≠ .waiting := by
    intro waiting
    apply returned
    rw [show ran = _ from perform_noted unset free T operation, untimed, Prod.map_fst, waiting]
    rfl
  have clock : ran.2.clock = (m.fresh.run T.noting .none operation.program).2.clock := by
    rw [show ran = _ from perform_noted unset free T operation, untimed]
    rfl
  have onward : m.clock ≤ ran.2.clock := (perform_precedes free T operation m).clock
  rw [show ran = _ from perform_noted unset free T operation, perform_noted unset timed,
    seen_untied unset free, seen_untied unset timed, untimed, bounded]
  constructor
  · intro longer
    have covered := allowance_of_covers foreseeable longer
    rw [curtails.eq_of_inTime ended (by omega)]
    refine ⟨Prod.ext ?_ rfl, rfl⟩
    exact outcome_of_unstopped timed free operation
      (Machine.run_unstopped T.noting operation.program m.fresh)
  · intro shorter
    have exceeded := allowance_of_exceeded foreseeable shorter
    obtain ⟨stopped, seen⟩ := curtails.of_overdue (by omega)
    exact ⟨by rw [Prod.map_fst, stopped]; rfl, seen⟩

/-- Two listings overlap after the read of their namespaces: eighty milliseconds in all. -/
theorem deadline_around_two_listings :
    let a : NamespaceId := ⟨⟨"a", by decide⟩⟩
    let b : NamespaceId := ⟨⟨"b", by decide⟩⟩
    let space (id : NamespaceId) : Namespace :=
      ⟨id, "space", .empty, none, none, World.firstVersion⟩
    let world : World := { World.empty with
      namespaces := [space a, space b],
      delays := [⟨⟨"list_namespaces", none⟩, 10⟩, ⟨⟨"list_volumes", some "a"⟩, 70⟩,
        ⟨⟨"list_volumes", some "b"⟩, 30⟩] }
    let m : Machine World := ⟨world, 0, [], none⟩
    let client : Client := ⟨none, .skip⟩
    let operation : Operation (List Volume) := .getAllVolumes .skip []
    let free := client.perform World.transport operation m
    let timed (timeout : Span) :=
      (client.withTimeout (some timeout)).perform World.transport operation m
    free.1 = some (.ok []) ∧ free.2.clock = 80 ∧ free.2.server.completed = [b, a] ∧
      timed ⟨80000001⟩ = free ∧
      (timed ⟨79000000⟩).1 =
        some (.error (.deadlineExceeded "list volumes in all namespaces" ⟨79000000⟩)) ∧
      (timed ⟨79000000⟩).2.server.completed = [b] := by
  intro a b space world m client operation free timed
  obtain ⟨-, deadlines⟩ :=
    deadline_only_cuts_short (T := World.transport) client operation (m := m) rfl
  have returned : free.1 = some (.ok []) := rfl
  have foreseeable : free.2.clock - m.clock < horizon := by decide
  have deadlines := deadlines (returned.trans_ne nofun) foreseeable
  exact ⟨returned, rfl, rfl, ((deadlines ⟨80000001⟩).1 (by decide)).1,
    ((deadlines ⟨79000000⟩).2 (by decide)).1, rfl⟩

end Client

end StorageControl
