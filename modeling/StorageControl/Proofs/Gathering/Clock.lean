import Mathlib.Data.List.Perm.Basic
import StorageControl.Proofs.Conversation
import StorageControl.Proofs.Gathering

/-! The joint listing on a clock is one of the runs of its tasks.

On the clock every listing lands at the moment that its start set, and those that the
token stops end at its sight. Whatever the transport does, the result is that of a run in
which the tasks of the same namespaces end in the order in which the listings landed; so
what holds of every run holds on the clock.
-/

set_option autoImplicit false

namespace StorageControl

/-- The calls that list something. -/
def Call.isListing : Call → Bool
  | .listNamespaces | .listVolumes _ => true
  | _ => false

namespace Machine

variable {σ : Type}

theorem schedule_perm (l : Listing) (agenda : List Listing) :
    (schedule l agenda).Perm (l :: agenda) := by
  induction agenda with
  | nil => exact .rfl
  | cons first rest ih =>
    rw [schedule]
    split
    · exact .rfl
    · exact (ih.cons first).trans (.swap l first rest)

theorem launchAll_scopes (T : Transport σ) (scopes : List NamespaceId) (agenda : List Listing)
    (m : Machine σ) :
    ((launchAll T scopes agenda m).1.map Listing.scope).Perm
      (agenda.map Listing.scope ++ scopes) := by
  induction scopes generalizing agenda m with
  | nil => simp [launchAll]
  | cons scope rest ih =>
    simp only [launchAll]
    refine (ih _ _).trans ?_
    refine (((schedule_perm _ agenda).map Listing.scope).append_right rest).trans ?_
    exact List.perm_middle.symm

/-- A property of the server that the calls of some kind keep. -/
structure Keeps (T : Transport σ) (asked : Call → Prop) (holds : σ → Prop) : Prop where
  start : ∀ c s, asked c → holds s → holds (T.start c s).2
  land : ∀ c s, asked c → holds s → holds (T.land c s).2

variable {T : Transport σ} {asked : Call → Prop} {holds : σ → Prop}

theorem perform_keeps (keeps : Keeps T asked holds) (limits : Limits) {c : Call} (asks : asked c)
    (m : Machine σ) (held : holds m.server) : holds (perform T limits c m).2.server := by
  have started := keeps.start c m.server asks held
  simp only [perform]
  cases limits.stop? (some (launch T c m).1.due) with
  | some stop => exact started
  | none =>
    have landed : holds (touchDown T c (launch T c m).1.due
        ((launch T c m).2.drop (launch T c m).1)).2.server := keeps.land c _ asks started
    generalize touchDown T c _ _ = touched at landed
    obtain ⟨reply, after⟩ := touched
    cases reply with
    | some reply => exact landed
    | none =>
      simp only
      generalize waited : (waitOn limits after : Landing c.Reply × Machine σ) = ending
      obtain ⟨ending, late⟩ := ending
      have kept := (waitOn_cases waited).1
      rw [kept]
      exact landed

theorem launchAll_server (keeps : Keeps T asked holds) (scopes : List NamespaceId)
    (lists : ∀ scope ∈ scopes, asked (.listVolumes scope)) (agenda : List Listing)
    (m : Machine σ) (held : holds m.server) : holds (launchAll T scopes agenda m).2.server := by
  induction scopes generalizing agenda m with
  | nil => exact held
  | cons scope rest ih =>
    obtain ⟨here, later⟩ := List.forall_mem_cons.mp lists
    exact ih later _ _ (keeps.start _ _ here held)

theorem launchAll_clock (T : Transport σ) (scopes : List NamespaceId) (agenda : List Listing)
    (m : Machine σ) : (launchAll T scopes agenda m).2.clock = m.clock := by
  induction scopes generalizing agenda m with
  | nil => rfl
  | cons scope rest ih => exact ih _ _

theorem dropAll_server (m : Machine σ) (agenda : List Listing) :
    (m.dropAll agenda).server = m.server := by
  induction agenda generalizing m with
  | nil => rfl
  | cons l rest ih => exact ih (m.drop l.flight)

theorem dropAll_clock (m : Machine σ) (agenda : List Listing) :
    (m.dropAll agenda).clock = m.clock := by
  induction agenda generalizing m with
  | nil => rfl
  | cons l rest ih => exact ih (m.drop l.flight)

/-- Listings that land end with the replies that the server gives; every other is missing. -/
theorem landAll_arrivals (keeps : Keeps T asked holds) (limits : Limits) (ended : Option Nat)
    (agenda : List Listing) (lists : ∀ l ∈ agenda, asked (.listVolumes l.scope))
    (m : Machine σ) (held : holds m.server) :
    ∃ ends : List (TaskEnd Volume), (∀ ending ∈ ends, ending.sawToken = false ∧
        ∃ s, holds s ∧ (T.land (.listVolumes ending.task.scope) s).1 = some ending.task.reply) ∧
      (landAll T limits ended agenda m).1.arrivals = ends.map TaskEnd.arrival ∧
      ((ends.map (·.task.scope)) ++ (landAll T limits ended agenda m).1.missing).Perm
        (agenda.map Listing.scope) ∧
      holds (landAll T limits ended agenda m).2.server := by
  induction agenda generalizing ended m with
  | nil => exact ⟨[], by simp, rfl, .rfl, held⟩
  | cons l rest ih =>
    obtain ⟨here, later⟩ := List.forall_mem_cons.mp lists
    rw [landAll]
    split
    · exact ⟨[], by simp, rfl, .rfl, by rwa [dropAll_server]⟩
    · split
      · exact ⟨[], by simp, rfl, .rfl, by simpa [reach, dropAll_server] using held⟩
      · have kept : holds (touchDown T _ l.due (m.drop l.flight)).2.server :=
          keeps.land (.listVolumes l.scope) m.server here held
        have replied : (T.land (.listVolumes l.scope) m.server).1 =
          (touchDown T _ l.due (m.drop l.flight)).1 := rfl
        generalize touchDown T (.listVolumes l.scope) l.due (m.drop l.flight) = landing
          at kept replied
        obtain ⟨reply, landed⟩ := landing
        cases reply with
        | none =>
          obtain ⟨ends, given, arrivals, spread, last⟩ := ih ended later landed kept
          exact ⟨ends, given, arrivals, List.perm_middle.trans (spread.cons l.scope), last⟩
        | some reply =>
          obtain ⟨ends, given, arrivals, spread, last⟩ :=
            ih (if (ScopeOutcome.ofReply reply).isFinal then ended.or (some l.due) else ended)
              later landed kept
          refine ⟨⟨⟨l.scope, reply⟩, false⟩ :: ends, ?_, ?_, spread.cons l.scope, last⟩
          · exact List.forall_mem_cons.mpr ⟨⟨rfl, m.server, held, replied⟩, given⟩
          · exact congrArg (List.cons _) arrivals

theorem gather_arrivals (keeps : Keeps T asked holds) (limits : Limits)
    (scopes : List NamespaceId) (lists : ∀ scope ∈ scopes, asked (.listVolumes scope))
    (m : Machine σ) (held : holds m.server) :
    ∃ ends : List (TaskEnd Volume), (∀ ending ∈ ends, ending.sawToken = false ∧
        ∃ s, holds s ∧ (T.land (.listVolumes ending.task.scope) s).1 = some ending.task.reply) ∧
      (gather T limits scopes m).1.arrivals = ends.map TaskEnd.arrival ∧
      ((ends.map (·.task.scope)) ++ (gather T limits scopes m).1.missing).Perm scopes ∧
      holds (gather T limits scopes m).2.server := by
  rw [gather]
  split
  · exact ⟨[], by simp, rfl, .rfl, held⟩
  · have launched := launchAll_scopes T scopes [] m
    obtain ⟨ends, given, arrivals, spread, held⟩ := landAll_arrivals keeps limits none
      (launchAll T scopes [] m).1
      (fun l member => lists _ (launched.mem_iff.mp (List.mem_map_of_mem member)))
      (launchAll T scopes [] m).2 (launchAll_server keeps scopes lists [] m held)
    exact ⟨ends, given, arrivals, spread.trans launched, held⟩

/-- The join lands with what arrived, once that ends the whole or nothing is missing. -/
theorem join_landed {limits : Limits} {policy : ScopePolicy} {scopes : List NamespaceId}
    {g : Gathered} {m after : Machine σ} {result : Except ApiFault (Aggregation Volume)}
    (landed : join limits policy scopes g m = (.landed result, after)) :
    result = Aggregation.collect policy scopes g.arrivals ∧
      (g.isFinal = true ∨ g.missing = []) := by
  rw [join] at landed
  split at landed
  · cases landed
  · split at landed
    next decided =>
      cases landed
      simpa using decided
    next =>
      rw [waitOn] at landed
      split at landed <;> cases landed

/-- Tasks can be put into the order of their namespaces. -/
theorem exists_tasks_of_scopes {tasks : List (Task Volume)} {scopes : List NamespaceId}
    (spread : (tasks.map Task.scope).Perm scopes) :
    ∃ ordered : List (Task Volume), ordered.map Task.scope = scopes ∧ tasks.Perm ordered := by
  have paired : List.Forall₂ (fun scope task => scope = Task.scope task)
      (tasks.map Task.scope) tasks :=
    List.forall₂_map_left_iff.mpr (List.forall₂_same.mpr fun _ _ => rfl)
  obtain ⟨ordered, same, perm⟩ := List.perm_comp_forall₂ spread.symm paired
  have equal : List.Forall₂ (· = ·) scopes (ordered.map Task.scope) :=
    List.forall₂_map_right_iff.mpr same
  rw [List.forall₂_eq_eq_eq] at equal
  exact ⟨ordered, equal.symm, perm.symm⟩

open Gathering (Run Fired)

/-- A join that lands is the end of a run in which the token does not fire. -/
theorem join_is_run {limits : Limits} {policy : ScopePolicy} {tasks missing : List (Task Volume)}
    {ends : List (TaskEnd Volume)} (unseen : ∀ ending ∈ ends, ending.sawToken = false)
    (spread : (ends.map TaskEnd.task ++ missing).Perm tasks) {g : Gathered}
    (arrivals : g.arrivals = ends.map TaskEnd.arrival)
    (left : g.missing = missing.map Task.scope) {m after : Machine σ}
    {result : Except ApiFault (Aggregation Volume)}
    (landed : join limits policy (tasks.map Task.scope) g m = (.landed result, after)) :
    ∃ trace final, Run policy tasks trace final ∧ final.result = some result ∧
      ¬Fired trace := by
  obtain ⟨rfl, decided⟩ := join_landed landed
  -- The join was over: an arrival ended it, or all were there.
  have settled : (∃ ending ∈ ends, ending.isClear = false) ∨ missing = [] := by
    refine decided.imp (fun final => ?_) (by simp [left])
    simp only [Gathered.isFinal, arrivals, List.any_map, List.any_eq_true] at final
    obtain ⟨ending, member, final⟩ := final
    exact ⟨ending, member, by simpa [ending.isFinal_outcome] using final⟩
  obtain ⟨trace, final, run, -, fires, given⟩ :=
    Gathering.exists_run_of_endings policy tasks ends missing spread settled
  refine ⟨trace, final, run, by rw [given, arrivals], fun fired => ?_⟩
  obtain ⟨ending, member, saw⟩ := fires fired
  rw [unseen ending member] at saw
  cases saw

/-- A result on the clock is that of a run of tasks for the same namespaces, in which the
client's token fires only if it is set. -/
theorem collect_is_run (T : Transport σ) (policy : ScopePolicy) (scopes : List NamespaceId)
    (m after : Machine σ) (result : Except ApiFault (Aggregation Volume))
    (landed : m.collect T policy scopes = (.landed result, after)) :
    ∃ tasks trace g, tasks.map Task.scope = scopes ∧ Run policy tasks trace g ∧
      g.result = some result ∧ (Fired trace → m.cancelAt.isSome = true) := by
  have keeps : Keeps T (fun _ => True) (fun _ => True) :=
    ⟨fun _ _ _ _ => trivial, fun _ _ _ _ => trivial⟩
  obtain ⟨ends, given, arrivals, spread, -⟩ := gather_arrivals keeps ⟨m.cancelAt, none⟩ scopes
    (fun _ _ => trivial) m trivial
  have unstopped : m.cancelAt = none → (gather T ⟨m.cancelAt, none⟩ scopes m).1.stop = none :=
    fun unset => by rw [unset]; exact gather_unstopped T scopes m
  rw [collect] at landed
  generalize gather T ⟨m.cancelAt, none⟩ scopes m = gathering at landed arrivals spread unstopped
  obtain ⟨gathered, late⟩ := gathering
  simp only at landed arrivals spread unstopped
  -- Tasks for the namespaces whose listing is missing: what they would have brought is open.
  let missing := gathered.missing.map fun scope => (⟨scope, .ok []⟩ : Task Volume)
  have left : gathered.missing = missing.map Task.scope := by simp [missing, Function.comp_def]
  obtain ⟨tasks, rfl, perm⟩ : ∃ tasks : List (Task Volume), tasks.map Task.scope = scopes ∧
      (ends.map TaskEnd.task ++ missing).Perm tasks :=
    exists_tasks_of_scopes (by simpa [missing, Function.comp_def] using spread)
  split at landed
  next stop stopped =>
    cases landed
    have perm : ((ends ++ missing.map (TaskEnd.mk · true)).map TaskEnd.task ++ []).Perm tasks := by
      simpa [Function.comp_def] using perm
    obtain ⟨trace, g, run, -, fires, result⟩ :=
      Gathering.exists_run_of_endings policy tasks _ [] perm (.inr rfl)
    refine ⟨tasks, trace, g, rfl, run, ?_, fun _ => ?_⟩
    · rw [result, arrivals]
      simp [missing, Function.comp_def, TaskEnd.arrival]
    · cases unset : m.cancelAt with
      | some moment => rfl
      | none =>
        rw [unset] at stopped
        exact absurd (congrArg Prod.fst stopped) (join_unstopped (unstopped unset))
  next =>
    obtain ⟨trace, g, run, result, unfired⟩ :=
      join_is_run (fun ending member => (given ending member).1) perm arrivals left landed
    exact ⟨tasks, trace, g, rfl, run, result, fun fired => absurd fired unfired⟩

end Machine

end StorageControl
