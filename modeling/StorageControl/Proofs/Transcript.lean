import StorageControl.Proofs.Gathering.Clock

/-! What a transport sees of any program.

A program that lists namespaces at once has no single order of exchanges: its listings
land in an order of their own, and some of them may never land. What the transport sees
of it still settles what the program goes on with, since the joint listing is made of the
replies in the order in which they came.
-/

set_option autoImplicit false

namespace StorageControl

variable {σ α : Type}

namespace Sighting

def call : Sighting → Call
  | started c | landed c _ => c

/-- The listing of a namespace that was answered. -/
def task? : Sighting → Option (Task Volume)
  | landed (.listVolumes scope) (some reply) => some ⟨scope, reply⟩
  | _ => none

end Sighting

/-- The listings that were answered, in the order of their replies. -/
def tasksIn (seen : List Sighting) : List (Task Volume) := seen.filterMap Sighting.task?

@[simp]
theorem tasksIn_nil : tasksIn [] = [] := rfl

@[simp]
theorem tasksIn_append (before after : List Sighting) :
    tasksIn (before ++ after) = tasksIn before ++ tasksIn after :=
  List.filterMap_append

@[simp]
theorem tasksIn_started (c : Call) (seen : List Sighting) :
    tasksIn (.started c :: seen) = tasksIn seen := rfl

@[simp]
theorem tasksIn_unanswered (c : Call) (seen : List Sighting) :
    tasksIn (.landed c none :: seen) = tasksIn seen := by
  cases c <;> rfl

theorem mem_tasksIn {seen : List Sighting} {task : Task Volume} :
    task ∈ tasksIn seen ↔ .landed (.listVolumes task.scope) (some task.reply) ∈ seen := by
  rw [tasksIn, List.mem_filterMap]
  constructor
  · rintro ⟨s, member, found⟩
    unfold Sighting.task? at found
    split at found
    next scope reply =>
      cases found
      exact member
    next => cases found
  · intro member
    exact ⟨_, member, rfl⟩

namespace Machine

/-- What is seen of a joint listing, and what becomes of it. -/
structure Survey (scopes : List NamespaceId) (listing : List Sighting) (g : Gathered) : Prop where
  lists : ∀ s ∈ listing, ∃ scope ∈ scopes, s.call = .listVolumes scope
  arrivals : g.arrivals = (tasksIn listing).map fun task => (TaskEnd.mk task false).arrival
  spread : ((tasksIn listing).map Task.scope ++ g.missing).Perm scopes

theorem Survey.ofNone (scopes : List NamespaceId) (stop : Option Stop) :
    Survey scopes [] (.noneOf scopes stop) :=
  ⟨by simp, rfl, .rfl⟩

theorem Survey.mono {scopes others : List NamespaceId} {listing : List Sighting} {g : Gathered}
    (survey : Survey scopes listing g) (perm : scopes.Perm others) : Survey others listing g := by
  refine ⟨fun s member => ?_, survey.arrivals, survey.spread.trans perm⟩
  obtain ⟨scope, listed, call⟩ := survey.lists s member
  exact ⟨scope, perm.mem_iff.mp listed, call⟩

theorem Survey.arrive {scopes : List NamespaceId} {listing : List Sighting} {g : Gathered}
    (survey : Survey scopes listing g) (scope : NamespaceId)
    (reply : (Call.listVolumes scope).Reply) :
    Survey (scope :: scopes) (.landed (.listVolumes scope) (some reply) :: listing)
      (g.arrive scope (.ofReply reply)) where
  lists s member := by
    rcases List.mem_cons.mp member with rfl | member
    · exact ⟨scope, List.mem_cons_self, rfl⟩
    · obtain ⟨other, listed, call⟩ := survey.lists s member
      exact ⟨other, List.mem_cons_of_mem _ listed, call⟩
  arrivals := congrArg (List.cons _) survey.arrivals
  spread := survey.spread.cons scope

theorem Survey.miss {scopes : List NamespaceId} {listing : List Sighting} {g : Gathered}
    (survey : Survey scopes listing g) (scope : NamespaceId) :
    Survey (scope :: scopes) (.landed (.listVolumes scope) none :: listing) (g.miss scope) where
  lists s member := by
    rcases List.mem_cons.mp member with rfl | member
    · exact ⟨scope, List.mem_cons_self, rfl⟩
    · obtain ⟨other, listed, call⟩ := survey.lists s member
      exact ⟨other, List.mem_cons_of_mem _ listed, call⟩
  arrivals := by
    rw [tasksIn_unanswered]
    exact survey.arrivals
  spread := by
    rw [tasksIn_unanswered]
    exact List.perm_middle.trans (survey.spread.cons scope)

theorem launchAll_seen (T : Transport σ) (scopes : List NamespaceId) (agenda : List Listing)
    (m : Machine (Noted σ)) :
    (launchAll T.noting scopes agenda m).2.server.seen =
      m.server.seen ++ scopes.map fun scope => .started (.listVolumes scope) := by
  induction scopes generalizing agenda m with
  | nil => simp [launchAll]
  | cons scope rest ih =>
    rw [launchAll, List.map_cons, ← List.singleton_append, ← List.append_assoc]
    exact ih _ _

theorem landAll_survey (T : Transport σ) (limits : Limits) (ended : Option Nat)
    (agenda : List Listing) (m : Machine (Noted σ)) :
    ∃ listing, (landAll T.noting limits ended agenda m).2.server.seen =
        m.server.seen ++ listing ∧
      Survey (agenda.map Listing.scope) listing (landAll T.noting limits ended agenda m).1 := by
  induction agenda generalizing ended m with
  | nil => exact ⟨[], by simp [landAll], .ofNone [] none⟩
  | cons l rest ih =>
    rw [landAll]
    split
    · exact ⟨[], by simp [dropAll_server], .ofNone _ none⟩
    · split
      next stop moment _ =>
        exact ⟨[], by simp [reach, dropAll_server], .ofNone _ (some stop)⟩
      next =>
        -- The listing lands: what it brings is noted before the others land.
        generalize landing :
          touchDown T.noting (.listVolumes l.scope) l.due (m.drop l.flight) = touched
        obtain ⟨reply, landed⟩ := touched
        have noted : landed.server.seen =
            m.server.seen ++ [.landed (.listVolumes l.scope) reply] := by
          cases landing
          rfl
        cases reply with
        | none =>
          obtain ⟨listing, seen, survey⟩ := ih ended landed
          refine ⟨_ :: listing, ?_, survey.miss l.scope⟩
          rw [noted, List.append_assoc] at seen
          exact seen
        | some reply =>
          obtain ⟨listing, seen, survey⟩ :=
            ih (if (ScopeOutcome.ofReply reply).isFinal then ended.or (some l.due) else ended)
              landed
          refine ⟨_ :: listing, ?_, survey.arrive l.scope reply⟩
          rw [noted, List.append_assoc] at seen
          exact seen

theorem tasksIn_launched (scopes : List NamespaceId) :
    tasksIn (scopes.map fun scope => .started (.listVolumes scope)) = [] := by
  induction scopes with
  | nil => rfl
  | cons scope rest ih => exact ih

theorem gather_survey (T : Transport σ) (limits : Limits) (scopes : List NamespaceId)
    (m : Machine (Noted σ)) :
    ∃ listing, (gather T.noting limits scopes m).2.server.seen = m.server.seen ++ listing ∧
      Survey scopes listing (gather T.noting limits scopes m).1 := by
  rw [gather]
  split
  · exact ⟨[], by simp, .ofNone scopes _⟩
  · -- The listings land in another order than the one in which they were started.
    have launched := launchAll_scopes T.noting scopes [] m
    obtain ⟨listing, seen, survey⟩ := landAll_survey T limits none
      (launchAll T.noting scopes [] m).1 (launchAll T.noting scopes [] m).2
    rw [launchAll_seen, List.append_assoc] at seen
    refine ⟨_, seen, ?_, ?_, ?_⟩
    · intro s member
      rcases List.mem_append.mp member with starts | lands
      · obtain ⟨scope, listed, rfl⟩ := List.mem_map.mp starts
        exact ⟨scope, listed, rfl⟩
      · exact (survey.mono launched).lists s lands
    · rw [tasksIn_append, tasksIn_launched]
      exact survey.arrivals
    · rw [tasksIn_append, tasksIn_launched]
      exact survey.spread.trans launched

/-- How the wait for a joint listing may end. -/
inductive Joins (policy : ScopePolicy) (scopes : List NamespaceId) (g : Gathered) :
    Landing (Except ApiFault (Aggregation Volume)) → Prop where
  | decided (decided : g.isFinal = true ∨ g.missing = []) :
      Joins policy scopes g (.landed (Aggregation.collect policy scopes g.arrivals))
  | stopped (stop : Stop) : Joins policy scopes g (.stopped stop)
  | undecided (clear : g.isFinal = false) (missing : g.missing ≠ []) :
      Joins policy scopes g .waiting

theorem join_joins (limits : Limits) (policy : ScopePolicy) (scopes : List NamespaceId)
    (g : Gathered) (m : Machine σ) :
    Joins policy scopes g (join limits policy scopes g m).1 ∧
      (join limits policy scopes g m).2.server = m.server := by
  rw [join]
  split
  next stop _ => exact ⟨.stopped stop, rfl⟩
  next =>
    split
    next decided => exact ⟨.decided (by simpa using decided), rfl⟩
    next undecided =>
      have pending : g.isFinal = false ∧ g.missing ≠ [] := by simpa using undecided
      generalize waited : (waitOn limits m : Landing (Except ApiFault (Aggregation Volume)) × _) =
        waiting
      obtain ⟨ending, after⟩ := waiting
      obtain ⟨kept, rfl | ⟨stop, rfl⟩⟩ := waitOn_cases waited
      · exact ⟨.undecided pending.1 pending.2, kept⟩
      · exact ⟨.stopped stop, kept⟩

end Machine

open Machine (Gathered Survey Joins)

namespace Program

/-- What a transport sees of a program up to its end. -/
inductive Transcript : Program α → List Sighting → Landing (Except ApiFault α) → Prop where
  | halted {program : Program α} {ending : Landing (Except ApiFault α)} {last : List Sighting}
      (halts : Halts program ending last) : Transcript program last ending
  | answered {c : Call} {next : c.Reply → Program α} {reply : c.Reply} {seen : List Sighting}
      {ending : Landing (Except ApiFault α)} (rest : Transcript (next reply) seen ending) :
      Transcript (.call c next) (.started c :: .landed c (some reply) :: seen) ending
  | joined {policy : ScopePolicy} {scopes : List NamespaceId}
      {next : Except ApiFault (Aggregation Volume) → Program α} {listing seen : List Sighting}
      {g : Gathered} {ending : Landing (Except ApiFault α)}
      {result : Except ApiFault (Aggregation Volume)} (survey : Survey scopes listing g)
      (joins : Joins policy scopes g (.landed result))
      (rest : Transcript (next result) seen ending) :
      Transcript (.gather policy scopes next) (listing ++ seen) ending
  | cut {policy : ScopePolicy} {scopes : List NamespaceId}
      {next : Except ApiFault (Aggregation Volume) → Program α} {listing : List Sighting}
      {g : Gathered} (survey : Survey scopes listing g) (stop : Stop) :
      Transcript (.gather policy scopes next) listing (.stopped stop)
  | unjoined {policy : ScopePolicy} {scopes : List NamespaceId}
      {next : Except ApiFault (Aggregation Volume) → Program α} {listing : List Sighting}
      {g : Gathered} (survey : Survey scopes listing g) (joins : Joins policy scopes g .waiting) :
      Transcript (.gather policy scopes next) listing .waiting

theorem transcript_done {result : Except ApiFault α} {seen : List Sighting}
    {ending : Landing (Except ApiFault α)} (transcript : (done result).Transcript seen ending) :
    seen = [] ∧ ending = .landed result := by
  cases transcript with
  | halted halts =>
    cases halts
    exact ⟨rfl, rfl⟩

end Program

/-- A run leaves a transcript of its program. -/
theorem Machine.run_transcript (T : Transport σ) (limits : Limits) (program : Program α)
    (m : Machine (Noted σ)) :
    ∃ sightings, (run T.noting limits program m).2.server.seen = m.server.seen ++ sightings ∧
      program.Transcript sightings (run T.noting limits program m).1 := by
  induction program generalizing m with
  | done result => exact ⟨[], by simp [run], .halted (.finished result)⟩
  | call c next ih =>
    obtain ⟨sightings, seen, attempt⟩ := perform_attempt T limits c m
    rw [run]
    generalize perform T.noting limits c m = performed at seen attempt
    obtain ⟨outcome, after⟩ := performed
    cases attempt with
    | answered reply =>
      obtain ⟨later, told, transcript⟩ := ih reply after
      rw [seen, List.append_assoc] at told
      exact ⟨_, told, .answered transcript⟩
    | unanswered => exact ⟨_, seen, .halted (.unanswered c next)⟩
    | dropped stop => exact ⟨_, seen, .halted (.dropped c next stop)⟩
    | abandoned stop => exact ⟨_, seen, .halted (.abandoned c next stop)⟩
  | gather policy scopes next ih =>
    obtain ⟨listing, seen, survey⟩ := gather_survey T limits scopes m
    rw [run]
    generalize gather T.noting limits scopes m = gathering at seen survey
    obtain ⟨g, after⟩ := gathering
    obtain ⟨joins, kept⟩ := join_joins limits policy scopes g after
    simp only at seen survey ⊢
    rw [← kept] at seen
    generalize join limits policy scopes g after = joined at joins seen
    rcases joined with ⟨result | stop | _, late⟩
    · obtain ⟨later, told, transcript⟩ := ih result late
      simp only at seen
      rw [seen, List.append_assoc] at told
      exact ⟨_, told, .joined survey joins transcript⟩
    · exact ⟨_, seen, .cut survey stop⟩
    · exact ⟨_, seen, .unjoined survey joins⟩

/-- What a transport sees of an operation under the settings of a client. -/
inductive Operation.Transcript (client : Client) (operation : Operation α) :
    List Sighting → Option (Except ApiFault α) → Prop where
  | refused : Transcript client operation [] (some (.error (.cancelled operation.name)))
  | ran {seen : List Sighting} {ending : Landing (Except ApiFault α)}
      (transcript : operation.program.Transcript seen ending) :
      Transcript client operation seen (client.outcome operation ending)

namespace Client

theorem perform_transcript (client : Client) (T : Transport σ) (operation : Operation α)
    (m : Machine (Noted σ)) :
    ∃ sightings,
      (client.perform T.noting operation m).2.server.seen = m.server.seen ++ sightings ∧
        operation.Transcript client sightings (client.perform T.noting operation m).1 := by
  by_cases fired : (client.limits m).hasFired m.clock = true
  · rw [perform, if_pos fired]
    exact ⟨[], by simp, .refused⟩
  · rw [perform_of_unfired (Bool.not_eq_true _ ▸ fired)]
    obtain ⟨sightings, seen, transcript⟩ :=
      Machine.run_transcript T (client.limits m) operation.program m
    exact ⟨sightings, seen, .ran transcript⟩

variable {client : Client} {T : Transport σ} {operation : Operation α} {m : Machine σ}

theorem Undisturbed.transcript (undisturbed : client.Undisturbed T operation m) :
    ∃ ending, operation.program.Transcript (client.seen T operation m) ending ∧
      (∀ stop, ending ≠ .stopped stop) ∧
      (client.perform T operation m).1 = client.outcome operation ending := by
  obtain ⟨unfired, unstopped⟩ := undisturbed
  obtain ⟨sightings, seen, transcript⟩ :=
    Machine.run_transcript T (client.limits m) operation.program m.fresh
  have same := Machine.run_map T.noting_covers (client.limits m) operation.program m.fresh
  rw [Machine.map_fresh] at same
  refine ⟨_, ?_, by rwa [same] at unstopped, by rw [perform_of_unfired unfired, same]; rfl⟩
  have seen : client.seen T operation m = sightings := by
    rw [Client.seen, perform_of_unfired (m := m.fresh) unfired]
    exact seen
  rw [seen]
  exact transcript

end Client

end StorageControl
