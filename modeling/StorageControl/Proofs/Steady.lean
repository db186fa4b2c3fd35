import StorageControl.Proofs.Gathering.Clock

/-! Programs against a server that does not change.

When the server answers the calls of a program always alike, only the order in which the
listings of a joint listing end is open. Whatever a program comes to on the clock, unless
it is stopped, it comes to with some run of each joint listing.
-/

set_option autoImplicit false

namespace StorageControl

open Gathering (Run Fired)

variable {σ α : Type} {answers : (c : Call) → c.Reply}

/-- The listing of a namespace, with the reply that the server has for it. -/
def taskOf (answers : (c : Call) → c.Reply) (scope : NamespaceId) : Task Volume :=
  ⟨scope, answers (.listVolumes scope)⟩

namespace Program

/-- What a program can come to, for all orders in which listings end. -/
inductive Yields (answers : (c : Call) → c.Reply) :
    Program α → Except ApiFault α → Prop where
  | done (result : Except ApiFault α) : Yields answers (.done result) result
  | call {c : Call} {next : c.Reply → Program α} {result : Except ApiFault α} :
      Yields answers (next (answers c)) result → Yields answers (.call c next) result
  | gather {policy : ScopePolicy} {scopes : List NamespaceId}
      {next : Except ApiFault (Aggregation Volume) → Program α}
      {trace : List (Gathering.Event Volume)} {g : Gathering Volume}
      {joined : Except ApiFault (Aggregation Volume)} {result : Except ApiFault α} :
      Run policy (scopes.map (taskOf answers)) trace g → ¬Fired trace →
      g.result = some joined → Yields answers (next joined) result →
      Yields answers (.gather policy scopes next) result

def Asks (asked : Call → Prop) : Program α → Prop
  | .done _ => True
  | .call c next => asked c ∧ ∀ reply, (next reply).Asks asked
  | .gather _ scopes next =>
    (∀ scope ∈ scopes, asked (.listVolumes scope)) ∧ ∀ joined, (next joined).Asks asked

end Program

open Program (Yields Asks)

namespace Machine

structure Answering (T : Transport σ) (asked : Call → Prop) (holds : σ → Prop) : Prop
    extends Keeps T asked holds where
  answers : ∀ c s, asked c → holds s → (T.land c s).1 ≠ none

/-- The server answers calls of one kind always alike. -/
structure Steady (T : Transport σ) (asked : Call → Prop) (holds : σ → Prop)
    (answers : (c : Call) → c.Reply) : Prop extends Keeps T asked holds where
  answered : ∀ c s, asked c → holds s → (T.land c s).1 = some (answers c)

variable {T : Transport σ} {asked : Call → Prop} {holds : σ → Prop}

theorem Steady.answering (steady : Steady T asked holds answers) : Answering T asked holds where
  toKeeps := steady.toKeeps
  answers c s asks held := by rw [steady.answered c s asks held]; exact nofun

theorem perform_steady (steady : Steady T asked holds answers) (limits : Limits) {c : Call}
    (asks : asked c) (m : Machine σ) (held : holds m.server) :
    ((perform T limits c m).1 = .landed (answers c) ∨
      ∃ stop, (perform T limits c m).1 = .stopped stop) ∧
    holds (perform T limits c m).2.server := by
  have started := steady.start c m.server asks held
  have replied := steady.answered c _ asks started
  simp only [perform]
  split
  next stop moment _ => exact ⟨.inr ⟨stop, rfl⟩, started⟩
  next =>
    simp only [touchDown, launch, drop, replied]
    exact ⟨.inl trivial, steady.land c _ asks started⟩

/-- When nothing has stopped it, a joint listing is complete or has met its end. -/
theorem landAll_settled (answering : Answering T asked holds) (limits : Limits)
    (ended : Option Nat) (agenda : List Listing)
    (lists : ∀ l ∈ agenda, asked (.listVolumes l.scope)) (m : Machine σ)
    (held : holds m.server) :
    (landAll T limits ended agenda m).1.stop = none →
      ended.isSome = true ∨ (landAll T limits ended agenda m).1.isFinal = true ∨
        (landAll T limits ended agenda m).1.missing = [] := by
  induction agenda generalizing ended m with
  | nil => exact fun _ => .inr (.inr rfl)
  | cons l rest ih =>
    obtain ⟨here, later⟩ := List.forall_mem_cons.mp lists
    rw [landAll]
    split
    next finished =>
      obtain ⟨moment, given, -⟩ := (Option.any_eq_true _ _).mp finished
      exact fun _ => .inl (by rw [given]; rfl)
    next =>
      split
      · intro unstopped; cases unstopped
      · have replied := answering.answers (.listVolumes l.scope) m.server here held
        have kept := answering.land (.listVolumes l.scope) m.server here held
        obtain ⟨reply, replied⟩ := Option.ne_none_iff_exists'.mp replied
        simp only [touchDown, drop, replied]
        intro unstopped
        cases final : (ScopeOutcome.ofReply reply).isFinal with
        | true => exact .inr (.inl (by simp [Gathered.isFinal, Gathered.arrive, final]))
        | false =>
          simp only [final] at unstopped ⊢
          have settled := ih ended later _ kept unstopped
          simpa [Gathered.isFinal, Gathered.arrive, final] using settled

theorem gather_settled (answering : Answering T asked holds) (limits : Limits)
    (scopes : List NamespaceId) (lists : ∀ scope ∈ scopes, asked (.listVolumes scope))
    (m : Machine σ) (held : holds m.server)
    (unstopped : (gather T limits scopes m).1.stop = none) :
    (gather T limits scopes m).1.isFinal = true ∨ (gather T limits scopes m).1.missing = [] := by
  revert unstopped
  rw [gather]
  split
  · intro unstopped; cases unstopped
  · intro unstopped
    have launched := launchAll_scopes T scopes [] m
    have settled := landAll_settled answering limits none (launchAll T scopes [] m).1
      (fun l member => lists _ (launched.mem_iff.mp (List.mem_map_of_mem member)))
      (launchAll T scopes [] m).2
      (launchAll_server answering.toKeeps scopes lists [] m held) unstopped
    simpa using settled

/-- A joint listing lands with the result of a run of its tasks, or it is stopped. -/
theorem join_steady (steady : Steady T asked holds answers) (limits : Limits)
    (policy : ScopePolicy) (scopes : List NamespaceId)
    (lists : ∀ scope ∈ scopes, asked (.listVolumes scope)) (m : Machine σ)
    (held : holds m.server) :
    let (gathered, late) := gather T limits scopes m
    holds late.server ∧
      ((∃ trace g joined, Run policy (scopes.map (taskOf answers)) trace g ∧ ¬Fired trace ∧
          g.result = some joined ∧
          join limits policy scopes gathered late = (.landed joined, late)) ∨
        ∃ stop, join limits policy scopes gathered late = (.stopped stop, late)) := by
  obtain ⟨ends, given, arrivals, spread, last⟩ :=
    gather_arrivals steady.toKeeps limits scopes lists m held
  have settled := gather_settled steady.answering limits scopes lists m held
  generalize gather T limits scopes m = gathering at arrivals spread last settled
  obtain ⟨gathered, late⟩ := gathering
  refine ⟨last, ?_⟩
  cases halted : gathered.stop with
  | some stop => exact .inr ⟨stop, by simp [join, halted]⟩
  | none =>
    have landed : join limits policy scopes gathered late =
        (.landed (Aggregation.collect policy scopes gathered.arrivals), late) := by
      rw [join, halted]
      simp [settled halted]
    -- Every end is that of the task of its namespace.
    have same : ends.map TaskEnd.task = (ends.map (·.task.scope)).map (taskOf answers) := by
      rw [List.map_map]
      refine List.map_congr_left fun ending member => ?_
      obtain ⟨-, s, held, replied⟩ := given ending member
      have among : ending.task.scope ∈ scopes :=
        spread.mem_iff.mp (List.mem_append_left _ (List.mem_map_of_mem member))
      rw [steady.answered _ s (lists _ among) held, Option.some.injEq] at replied
      simp only [Function.comp_apply, taskOf, replied]
    have perm : (ends.map TaskEnd.task ++ gathered.missing.map (taskOf answers)).Perm
        (scopes.map (taskOf answers)) := by
      rw [same, ← List.map_append]
      exact spread.map _
    have namespaces : (scopes.map (taskOf answers)).map Task.scope = scopes := by
      simp [Function.comp_def, taskOf]
    rw [← namespaces] at landed
    obtain ⟨trace, g, run, result, unfired⟩ := join_is_run
      (fun ending member => (given ending member).1) perm arrivals
      (by simp [Function.comp_def, taskOf]) landed
    rw [namespaces] at landed result
    exact .inl ⟨trace, g, _, run, unfired, result, landed⟩

theorem run_steady (steady : Steady T asked holds answers) (limits : Limits)
    (program : Program α) (asks : program.Asks asked) (m : Machine σ) (held : holds m.server) :
    (∃ result, (run T limits program m).1 = .landed result ∧ Yields answers program result) ∨
      ∃ stop, (run T limits program m).1 = .stopped stop := by
  induction program generalizing m with
  | done result => exact .inl ⟨result, rfl, .done result⟩
  | call c next ih =>
    obtain ⟨ended, kept⟩ := perform_steady steady limits asks.1 m held
    rw [run]
    generalize perform T limits c m = performed at ended kept
    obtain ⟨outcome, after⟩ := performed
    rcases ended with landed | ⟨stop, stopped⟩
    · simp only at landed
      subst landed
      rcases ih _ (asks.2 _) after kept with ⟨result, landed, yields⟩ | stopped
      · exact .inl ⟨result, landed, .call yields⟩
      · exact .inr stopped
    · simp only at stopped
      subst stopped
      exact .inr ⟨stop, rfl⟩
  | gather policy scopes next ih =>
    have settled := join_steady steady limits policy scopes asks.1 m held
    rw [run]
    generalize gather T limits scopes m = gathering at settled
    obtain ⟨gathered, late⟩ := gathering
    obtain ⟨kept, ended⟩ := settled
    rcases ended with ⟨trace, g, joined, going, unfired, given, landed⟩ | ⟨stop, stopped⟩
    · simp only [landed]
      rcases ih _ (asks.2 _) _ kept with ⟨result, landed, yields⟩ | stopped
      · exact .inl ⟨result, landed, .gather going unfired given yields⟩
      · exact .inr stopped
    · simp only [stopped]
      exact .inr ⟨stop, rfl⟩

end Machine

/-- An operation that nothing disturbs ends, with something that its program yields. -/
theorem Client.perform_steady {T : Transport σ} {asked : Call → Prop} {holds : σ → Prop}
    (steady : Machine.Steady T asked holds answers) {client : Client}
    {operation : Operation α} (asks : operation.program.Asks asked) {m : Machine σ}
    (held : holds m.server) (undisturbed : client.Undisturbed T operation m) :
    ∃ result, (client.perform T operation m).1 = some result ∧
      Yields answers operation.program result := by
  obtain ⟨unfired, unstopped⟩ := undisturbed
  rw [perform_of_unfired unfired, Prod.map_fst]
  rcases Machine.run_steady steady (client.limits m) operation.program asks m held with
    ⟨result, landed, yields⟩ | ⟨stop, stopped⟩
  · exact ⟨result, by rw [landed]; rfl, yields⟩
  · exact absurd stopped (unstopped stop)

end StorageControl
