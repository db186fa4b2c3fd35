import StorageControl.Proofs.Flights
import StorageControl.Proofs.Passage
import StorageControl.Proofs.Session

/-! Two runs side by side.

Two machines carry out programs of one shape over transports of their own. One clock is
ahead of the other by a fixed time, so all deadlines are ahead by that time too. As long
as the calls bring replies that the programs read alike, both runs come to the same result
at moments that are that time apart. The states may also part; whatever shows that is kept
by both transports, so it is still there at the end.
-/

set_option autoImplicit false

namespace StorageControl

variable {σ τ α β : Type}

/-! ### Moments of another clock -/

namespace Limits

/-- The limits on a clock that is some milliseconds ahead. -/
def later (k : Nat) (limits : Limits) : Limits :=
  ⟨limits.cancelAt.map (· + k), limits.deadline.map (· + k)⟩

variable (k : Nat) (limits : Limits)

theorem isBy_later (moment : Nat) (due : Option Nat) :
    isBy (moment + k) (due.map (· + k)) = isBy moment due := by
  cases due <;> simp [isBy]

theorem isBefore_later (moment : Nat) (due : Option Nat) :
    isBefore (moment + k) (due.map (· + k)) = isBefore moment due := by
  cases due <;> simp [isBefore]

theorem stop?_later (due : Option Nat) :
    (limits.later k).stop? (due.map (· + k)) =
      (limits.stop? due).map (Prod.map id (· + k)) := by
  have token : (limits.later k).cancelAt.filter (isBy · (due.map (· + k))) =
      (limits.cancelAt.filter (isBy · due)).map (· + k) := by
    simp only [later, Option.filter_map, Function.comp_def, isBy_later]
  have deadline : (limits.later k).deadline.filter (isBefore · (due.map (· + k))) =
      (limits.deadline.filter (isBefore · due)).map (· + k) := by
    simp only [later, Option.filter_map, Function.comp_def, isBefore_later]
  rw [stop?, token, deadline, stop?]
  cases limits.cancelAt.filter (isBy · due) with
  | none => cases limits.deadline.filter (isBefore · due) <;> rfl
  | some c =>
    cases limits.deadline.filter (isBefore · due) with
    | none => rfl
    | some d =>
      simp only [Option.map_some, Nat.add_le_add_iff_right]
      split <;> rfl

theorem hasFired_later (moment : Nat) :
    (limits.later k).hasFired (moment + k) = limits.hasFired moment := by
  simp only [hasFired, later]
  cases limits.cancelAt <;> simp

end Limits

/-- What was waited for, read in some way. -/
def Landing.map (read : α → β) : Landing α → Landing β
  | .landed a => .landed (read a)
  | .stopped stop => .stopped stop
  | .waiting => .waiting

namespace Machine

/-- A listing that lands on a clock that is some milliseconds ahead. -/
def Listing.later (k : Nat) (l : Listing) : Listing := ⟨l.due + k, l.scope⟩

theorem schedule_later (k : Nat) (l : Listing) (agenda : List Listing) :
    schedule (l.later k) (agenda.map (Listing.later k)) =
      (schedule l agenda).map (Listing.later k) := by
  induction agenda with
  | nil => rfl
  | cons first rest ih =>
    simp only [List.map_cons, schedule, Listing.later, Nat.add_lt_add_iff_right]
    split
    · rfl
    · exact congrArg (List.cons _) ih

theorem waitOn_server (limits : Limits) (m : Machine σ) :
    (waitOn limits m : Landing α × Machine σ).2.server = m.server :=
  (waitOn_cases rfl).1

section Landings

variable {T : Transport σ} {limits : Limits} {ended : Option Nat} {l : Listing}
  {rest : List Listing} {m : Machine σ}

/-- What the whole has ended by when a listing has landed at a moment. -/
def endedBy (ended : Option Nat) (due : Nat) :
    Option (Except TransportFault (List Volume)) → Option Nat
  | none => ended
  | some reply => if (ScopeOutcome.ofReply reply).isFinal then ended.or (some due) else ended

theorem endedBy_later (k : Nat) (ended : Option Nat) (due : Nat)
    (reply : Option (Except TransportFault (List Volume))) :
    endedBy (ended.map (· + k)) (due + k) reply = (endedBy ended due reply).map (· + k) := by
  cases reply with
  | none => rfl
  | some reply =>
    simp only [endedBy]
    split
    · cases ended <;> rfl
    · rfl

/-- Take up what a listing that landed brought. -/
def Gathered.take (scope : NamespaceId) (g : Gathered) :
    Option (Except TransportFault (List Volume)) → Gathered
  | none => g.miss scope
  | some reply => g.arrive scope (.ofReply reply)

theorem landAll_of_past (past : ended.any (· < l.due) = true) :
    landAll T limits ended (l :: rest) m =
      (.noneOf ((l :: rest).map Listing.scope) none, m.dropAll (l :: rest)) := by
  rw [landAll, if_pos past]

theorem landAll_of_stop {stopped : Stop × Nat} (past : ended.any (· < l.due) = false)
    (stops : limits.stop? (some l.due) = some stopped) :
    landAll T limits ended (l :: rest) m =
      (.noneOf ((l :: rest).map Listing.scope) (some stopped.1),
        (m.dropAll (l :: rest)).reach stopped.2) := by
  rw [landAll, if_neg (by simp [past]), stops]

theorem landAll_of_landing (past : ended.any (· < l.due) = false)
    (free : limits.stop? (some l.due) = none) :
    landAll T limits ended (l :: rest) m =
      let landed := touchDown T (.listVolumes l.scope) l.due (m.drop l.flight)
      let (gathered, last) := landAll T limits (endedBy ended l.due landed.1) rest landed.2
      (gathered.take l.scope landed.1, last) := by
  rw [landAll, if_neg (by simp [past]), free]
  generalize touchDown T _ _ _ = landed
  obtain ⟨reply, after⟩ := landed
  cases reply <;> rfl

end Landings

theorem waitOn_read (read : α → β) (limits : Limits) (m : Machine σ) :
    Prod.map (Landing.map read) id (waitOn limits m) = waitOn limits m := by
  unfold waitOn
  cases limits.stop? none <;> rfl

theorem goOn_map {γ : Type} (T : Transport σ) (limits : Limits) (read : γ → β)
    (next : β → Program α) (ended : Landing γ × Machine σ) :
    goOn T limits (fun c => next (read c)) ended =
      goOn T limits next (Prod.map (Landing.map read) id ended) := by
  rcases ended with ⟨c | stop | _, after⟩ <;> rfl

theorem goOn_keeps {T : Transport σ} {holds : σ → Prop}
    (keeps : Keeps T (fun _ => True) holds) (limits : Limits) (next : β → Program α)
    (ended : Landing β × Machine σ) (held : holds ended.2.server) :
    holds (goOn T limits next ended).2.server := by
  rcases ended with ⟨b | stop | _, after⟩
  · exact run_keeps keeps limits (next b) after held
  · exact held
  · exact held

end Machine

namespace Procedure

/-- What follows an operation. -/
def goOn (client : Client) (T : Transport σ) (next : Except ApiFault β → Procedure α) :
    Option (Except ApiFault β) × Machine σ → Option (Except Failure α) × Machine σ
  | (some result, m) => (next result).run client T m
  | (none, m) => (none, m)

theorem run_perform (client : Client) (T : Transport σ) (operation : Operation β)
    (next : Except ApiFault β → Procedure α) (m : Machine σ) :
    (perform operation next).run client T m =
      goOn client T next (client.perform T operation m) := by
  rw [run]
  rcases client.perform T operation m with ⟨_ | result, after⟩ <;> rfl

theorem goOn_keeps {T : Transport σ} {holds : σ → Prop}
    (keeps : Machine.Keeps T (fun _ => True) holds) (client : Client)
    (next : Except ApiFault β → Procedure α) (ended : Option (Except ApiFault β) × Machine σ)
    (held : holds ended.2.server) : holds (goOn client T next ended).2.server := by
  rcases ended with ⟨_ | result, after⟩
  · exact held
  · exact (next result).run_keeps keeps client after held

end Procedure

/-! ### Couplings -/

/-- Calls over two transports that take the same time and bring replies that read alike,
unless the states part. -/
structure Twins (T : Transport σ) (U : Transport τ) (related parted : σ → τ → Prop)
    {c c' : Call} (read : c.Reply → β) (read' : c'.Reply → β) : Prop where
  start : ∀ s t, related s t →
    (T.start c s).1 = (U.start c' t).1 ∧ related (T.start c s).2 (U.start c' t).2
  land : ∀ s t, related s t →
    ((T.land c s).1.map read = (U.land c' t).1.map read' ∧
        related (T.land c s).2 (U.land c' t).2) ∨
      parted (T.land c s).2 (U.land c' t).2

/-- Two transports, and what ties their states. What shows that two states have parted is
kept by either transport on its own. -/
structure Coupling (σ τ : Type) where
  near : Transport σ
  far : Transport τ
  related : σ → τ → Prop
  parted : σ → τ → Prop
  same : ∀ c : Call, Twins near far related parted (id : c.Reply → c.Reply)
    (id : c.Reply → c.Reply)
  near_keeps : ∀ t, Machine.Keeps near (fun _ => True) (parted · t)
  far_keeps : ∀ s, Machine.Keeps far (fun _ => True) (parted s)

namespace Coupling

variable (C : Coupling σ τ) (k : Nat)

/-- The machines are tied by their states, the far one with its clock ahead. -/
structure Beside (m : Machine σ) (n : Machine τ) : Prop where
  server : C.related m.server n.server
  clock : n.clock = m.clock + k
  cancelAt : n.cancelAt = m.cancelAt.map (· + k)

/-- Two ends are alike, on machines beside each other, or the states have parted. -/
def Agree (x : α × Machine σ) (y : α × Machine τ) : Prop :=
  (x.1 = y.1 ∧ C.Beside k x.2 y.2) ∨ C.parted x.2.server y.2.server

variable {C} {k} {m : Machine σ} {n : Machine τ}

theorem Agree.map {x : α × Machine σ} {y : α × Machine τ} (agree : C.Agree k x y)
    (read : α → β) : C.Agree k (Prod.map read id x) (Prod.map read id y) :=
  agree.imp_left fun ⟨same, beside⟩ => ⟨congrArg read same, beside⟩

theorem Beside.reach (beside : C.Beside k m n) (moment : Nat) :
    C.Beside k (m.reach moment) (n.reach (moment + k)) where
  server := beside.server
  clock := by simp only [Machine.reach, beside.clock, Nat.add_max_add_right]
  cancelAt := beside.cancelAt

/-- Calls in the air do not tie machines: only time alone makes them land. -/
theorem Beside.drop (beside : C.Beside k m n) (flight flight' : Flight) :
    C.Beside k (m.drop flight) (n.drop flight') :=
  ⟨beside.server, beside.clock, beside.cancelAt⟩

theorem Beside.dropAll (beside : C.Beside k m n) (agenda agenda' : List Machine.Listing) :
    C.Beside k (m.dropAll agenda) (n.dropAll agenda') where
  server := by rw [Machine.dropAll_server, Machine.dropAll_server]; exact beside.server
  clock := by rw [Machine.dropAll_clock, Machine.dropAll_clock]; exact beside.clock
  cancelAt := by
    rw [(m.dropAll_precedes agenda).cancelAt, (n.dropAll_precedes agenda').cancelAt]
    exact beside.cancelAt

theorem waitOn_agree (beside : C.Beside k m n) (limits : Limits) :
    C.Agree k (Machine.waitOn limits m : Landing α × Machine σ)
      (Machine.waitOn (limits.later k) n) := by
  have stops : (limits.later k).stop? none = _ := limits.stop?_later k none
  rw [Machine.waitOn, Machine.waitOn, stops]
  cases limits.stop? none with
  | none => exact .inl ⟨rfl, beside⟩
  | some stopped => exact .inl ⟨rfl, beside.reach stopped.2⟩

section Calls

variable {c c' : Call} {read : c.Reply → β} {read' : c'.Reply → β}

theorem launch_beside (twins : Twins C.near C.far C.related C.parted read read')
    (beside : C.Beside k m n) :
    (Machine.launch C.far c' n).1.due = (Machine.launch C.near c m).1.due + k ∧
      C.Beside k (Machine.launch C.near c m).2 (Machine.launch C.far c' n).2 := by
  obtain ⟨waits, kept⟩ := twins.start _ _ beside.server
  refine ⟨?_, kept, beside.clock, beside.cancelAt⟩
  show n.clock + (C.far.start c' n.server).1 = m.clock + (C.near.start c m.server).1 + k
  rw [← waits, beside.clock]
  omega

theorem touchDown_agree (twins : Twins C.near C.far C.related C.parted read read')
    (beside : C.Beside k m n) (due : Nat) :
    C.Agree k (Prod.map (Option.map read) id (Machine.touchDown C.near c due m))
      (Prod.map (Option.map read') id (Machine.touchDown C.far c' (due + k) n)) := by
  refine (twins.land _ _ beside.server).imp_left fun ⟨replied, kept⟩ => ⟨replied, kept, ?_, ?_⟩
  · simp only [Machine.touchDown, beside.clock, Prod.map_snd, id_eq, Nat.add_max_add_right]
  · exact beside.cancelAt

theorem perform_agree (twins : Twins C.near C.far C.related C.parted read read')
    (beside : C.Beside k m n) (limits : Limits) :
    C.Agree k (Prod.map (Landing.map read) id (Machine.perform C.near limits c m))
      (Prod.map (Landing.map read') id (Machine.perform C.far (limits.later k) c' n)) := by
  obtain ⟨due, launched⟩ := launch_beside twins beside
  have stops : (limits.later k).stop? (some ((Machine.launch C.near c m).1.due + k)) = _ :=
    limits.stop?_later k (some (Machine.launch C.near c m).1.due)
  simp only [Machine.perform, due, stops]
  cases limits.stop? (some (Machine.launch C.near c m).1.due) with
  | some stopped => exact .inl ⟨rfl, (launched.drop _ _).reach stopped.2⟩
  | none =>
    have landed := touchDown_agree twins (launched.drop (Machine.launch C.near c m).1
      (Machine.launch C.far c' n).1) (Machine.launch C.near c m).1.due
    simp only [Option.map_none]
    generalize Machine.touchDown C.near c _ _ = near at landed
    generalize Machine.touchDown C.far c' _ _ = far at landed
    obtain ⟨reply, after⟩ := near
    obtain ⟨reply', after'⟩ := far
    rcases landed with ⟨same, beside⟩ | parted
    · cases reply with
      | none =>
        obtain rfl : reply' = none := Option.map_eq_none_iff.mp same.symm
        simp only [Machine.waitOn_read]
        exact waitOn_agree beside limits
      | some reply =>
        obtain ⟨reply', rfl, alike⟩ := Option.map_eq_some_iff.mp same.symm
        exact .inl ⟨congrArg Landing.landed alike.symm, beside⟩
    · cases reply <;> cases reply' <;> exact .inr (by simpa [Machine.waitOn_server] using parted)

end Calls

/-! ### Joint listings -/

theorem parted_landAll (C : Coupling σ τ) {limits limits' : Limits} {ended ended' : Option Nat}
    {agenda agenda' : List Machine.Listing} (parted : C.parted m.server n.server) :
    C.parted (Machine.landAll C.near limits ended agenda m).2.server
      (Machine.landAll C.far limits' ended' agenda' n).2.server := by
  obtain ⟨-, -, -, -, near⟩ := Machine.landAll_arrivals (C.near_keeps _) limits ended agenda
    (fun _ _ => trivial) m parted
  obtain ⟨-, -, -, -, far⟩ := Machine.landAll_arrivals (C.far_keeps _) limits' ended' agenda'
    (fun _ _ => trivial) n near
  exact far

theorem launchAll_beside (scopes : List NamespaceId) (agenda : List Machine.Listing)
    (beside : C.Beside k m n) :
    (Machine.launchAll C.far scopes (agenda.map (.later k)) n).1 =
        (Machine.launchAll C.near scopes agenda m).1.map (.later k) ∧
      C.Beside k (Machine.launchAll C.near scopes agenda m).2
        (Machine.launchAll C.far scopes (agenda.map (.later k)) n).2 := by
  induction scopes generalizing agenda m n with
  | nil => exact ⟨rfl, beside⟩
  | cons scope rest ih =>
    obtain ⟨due, launched⟩ := launch_beside (C.same (.listVolumes scope)) beside
    simp only [Machine.launchAll, due]
    have scheduled := Machine.schedule_later k
      ⟨(Machine.launch C.near (.listVolumes scope) m).1.due, scope⟩ agenda
    simp only [Machine.Listing.later] at scheduled
    rw [scheduled]
    exact ih _ launched

theorem landAll_agree (limits : Limits) (ended : Option Nat) (agenda : List Machine.Listing)
    (beside : C.Beside k m n) :
    C.Agree k (Machine.landAll C.near limits ended agenda m)
      (Machine.landAll C.far (limits.later k) (ended.map (· + k)) (agenda.map (.later k)) n) := by
  induction agenda generalizing ended m n with
  | nil => exact .inl ⟨rfl, beside⟩
  | cons l rest ih =>
    have scopes : (l.later k :: rest.map (.later k)).map Machine.Listing.scope =
        (l :: rest).map Machine.Listing.scope := by
      rw [← List.map_cons, List.map_map]
      rfl
    have passes : (ended.map (· + k)).any (· < (l.later k).due) = ended.any (· < l.due) := by
      cases ended <;> simp [Machine.Listing.later]
    have stops : (limits.later k).stop? (some (l.later k).due) = _ :=
      limits.stop?_later k (some l.due)
    rw [List.map_cons]
    cases past : ended.any (· < l.due) with
    | true =>
      rw [Machine.landAll_of_past past, Machine.landAll_of_past (passes.trans past), scopes]
      exact .inl ⟨rfl, beside.dropAll _ _⟩
    | false =>
      cases stopped : limits.stop? (some l.due) with
      | some stop =>
        rw [stopped] at stops
        rw [Machine.landAll_of_stop past stopped, Machine.landAll_of_stop (passes.trans past) stops,
          scopes]
        exact .inl ⟨rfl, (beside.dropAll _ _).reach stop.2⟩
      | none =>
        rw [stopped] at stops
        rw [Machine.landAll_of_landing past stopped,
          Machine.landAll_of_landing (passes.trans past) stops]
        have landed := touchDown_agree (C.same (.listVolumes l.scope))
          (beside.drop l.flight (l.later k).flight) l.due
        simp only [Option.map_id, Prod.map_id] at landed
        simp only [Machine.Listing.later] at landed ⊢
        generalize Machine.touchDown C.near (.listVolumes l.scope) _ _ = near at landed
        generalize Machine.touchDown C.far (.listVolumes l.scope) _ _ = far at landed
        obtain ⟨reply, after⟩ := near
        obtain ⟨reply', after'⟩ := far
        rcases landed with ⟨same, beside⟩ | parted
        · obtain rfl : reply = reply' := same
          have ended := Machine.endedBy_later k ended l.due reply
          simp only
          rw [ended]
          exact (ih _ beside).map (Machine.Gathered.take l.scope · reply)
        · exact .inr (C.parted_landAll parted)

theorem gather_agree (limits : Limits) (scopes : List NamespaceId) (beside : C.Beside k m n) :
    C.Agree k (Machine.gather C.near limits scopes m)
      (Machine.gather C.far (limits.later k) scopes n) := by
  rw [Machine.gather, Machine.gather, beside.clock, limits.hasFired_later]
  split
  · exact .inl ⟨rfl, beside⟩
  · obtain ⟨agenda, launched⟩ := launchAll_beside scopes [] beside
    rw [List.map_nil] at agenda launched
    simp only [agenda]
    exact landAll_agree limits none _ launched

theorem join_agree (limits : Limits) (policy : ScopePolicy) (scopes : List NamespaceId)
    (g : Machine.Gathered) (beside : C.Beside k m n) :
    C.Agree k (Machine.join limits policy scopes g m)
      (Machine.join (limits.later k) policy scopes g n) := by
  rw [Machine.join, Machine.join]
  cases g.stop with
  | some stop => exact .inl ⟨rfl, beside⟩
  | none =>
    simp only
    split
    · exact .inl ⟨rfl, beside⟩
    · exact waitOn_agree beside limits

/-! ### Programs -/

/-- Programs that make calls which read alike, and then go on alike. -/
inductive InStep (C : Coupling σ τ) : Program α → Program α → Prop where
  | done (result : Except ApiFault α) : InStep C (.done result) (.done result)
  | call {β : Type} {c c' : Call} {read : c.Reply → β} {read' : c'.Reply → β}
      {next next' : β → Program α} (twins : Twins C.near C.far C.related C.parted read read')
      (rest : ∀ b, InStep C (next b) (next' b)) :
      InStep C (.call c fun reply => next (read reply)) (.call c' fun reply => next' (read' reply))
  | gather {policy : ScopePolicy} {scopes : List NamespaceId}
      {next next' : Except ApiFault (Aggregation Volume) → Program α}
      (rest : ∀ joined, InStep C (next joined) (next' joined)) :
      InStep C (.gather policy scopes next) (.gather policy scopes next')

theorem InStep.refl (C : Coupling σ τ) (program : Program α) : C.InStep program program := by
  induction program with
  | done result => exact .done result
  | call c next ih => exact .call (C.same c) ih
  | gather policy scopes next ih => exact .gather ih

theorem parted_goOn {limits limits' : Limits} {next next' : β → Program α}
    {x : Landing β × Machine σ} {y : Landing β × Machine τ}
    (parted : C.parted x.2.server y.2.server) :
    C.parted (Machine.goOn C.near limits next x).2.server
      (Machine.goOn C.far limits' next' y).2.server :=
  Machine.goOn_keeps (C.far_keeps _) limits' next' y
    (Machine.goOn_keeps (C.near_keeps _) limits next x parted)

theorem goOn_agree {limits limits' : Limits} {next next' : β → Program α}
    {x : Landing β × Machine σ} {y : Landing β × Machine τ} (agree : C.Agree k x y)
    (rest : ∀ b m n, C.Beside k m n →
      C.Agree k (Machine.run C.near limits (next b) m) (Machine.run C.far limits' (next' b) n)) :
    C.Agree k (Machine.goOn C.near limits next x) (Machine.goOn C.far limits' next' y) := by
  obtain ⟨ending, after⟩ := x
  obtain ⟨ending', after'⟩ := y
  rcases agree with ⟨same, beside⟩ | parted
  · obtain rfl : ending = ending' := same
    cases ending with
    | landed b => exact rest b after after' beside
    | stopped stop => exact .inl ⟨rfl, beside⟩
    | waiting => exact .inl ⟨rfl, beside⟩
  · exact .inr (parted_goOn parted)

theorem run_agree (limits : Limits) {program program' : Program α}
    (inStep : C.InStep program program') (beside : C.Beside k m n) :
    C.Agree k (Machine.run C.near limits program m)
      (Machine.run C.far (limits.later k) program' n) := by
  induction inStep generalizing m n with
  | done result => exact .inl ⟨rfl, beside⟩
  | call twins rest ih =>
    rw [Machine.run_call, Machine.run_call, Machine.goOn_map C.near, Machine.goOn_map C.far]
    exact goOn_agree (perform_agree twins beside limits) fun b _ _ => ih b
  | gather rest ih =>
    rw [Machine.run_gather, Machine.run_gather]
    refine goOn_agree ?_ fun joined _ _ => ih joined
    rcases gather_agree limits _ beside with ⟨same, beside⟩ | parted
    · rw [← same]
      exact join_agree limits _ _ _ beside
    · refine .inr ?_
      rw [(Machine.join_joins limits _ _ _ _).2, (Machine.join_joins (limits.later k) _ _ _ _).2]
      exact parted

/-! ### Operations and procedures -/

theorem Beside.limits (beside : C.Beside k m n) (client : Client) :
    client.limits n = (client.limits m).later k := by
  simp only [Client.limits, Limits.later, beside.clock, beside.cancelAt, Option.map_map,
    Function.comp_def, Nat.add_right_comm]

theorem perform_operation_agree (client : Client) {operation operation' : Operation α}
    (named : operation.name = operation'.name)
    (inStep : C.InStep operation.program operation'.program) (beside : C.Beside k m n) :
    C.Agree k (client.perform C.near operation m) (client.perform C.far operation' n) := by
  have fires : (client.limits n).hasFired n.clock = (client.limits m).hasFired m.clock := by
    rw [beside.limits, beside.clock, Limits.hasFired_later]
  cases fired : (client.limits m).hasFired m.clock with
  | true =>
    rw [Client.perform_of_fired fired, Client.perform_of_fired (fires.trans fired), named]
    exact .inl ⟨rfl, beside⟩
  | false =>
    have outcome : client.outcome operation' = client.outcome operation := by
      funext landing
      cases landing <;> simp only [Client.outcome, named]
    rw [Client.perform_of_unfired fired, Client.perform_of_unfired (fires.trans fired),
      beside.limits, outcome]
    exact (run_agree _ inStep beside).map _

/-- Procedures of operations that go in step, and then on alike. -/
inductive InPace (C : Coupling σ τ) : Procedure α → Procedure α → Prop where
  | done (result : Except Failure α) : InPace C (.done result) (.done result)
  | perform {β : Type} {operation operation' : Operation β}
      {next next' : Except ApiFault β → Procedure α} (named : operation.name = operation'.name)
      (inStep : C.InStep operation.program operation'.program)
      (rest : ∀ result, InPace C (next result) (next' result)) :
      InPace C (.perform operation next) (.perform operation' next')

theorem InPace.refl (C : Coupling σ τ) (procedure : Procedure α) :
    C.InPace procedure procedure := by
  induction procedure with
  | done result => exact .done result
  | perform operation next ih => exact .perform rfl (.refl C operation.program) ih

theorem parted_after {client : Client} {next next' : Except ApiFault β → Procedure α}
    {x : Option (Except ApiFault β) × Machine σ} {y : Option (Except ApiFault β) × Machine τ}
    (parted : C.parted x.2.server y.2.server) :
    C.parted (Procedure.goOn client C.near next x).2.server
      (Procedure.goOn client C.far next' y).2.server :=
  Procedure.goOn_keeps (C.far_keeps _) client next' y
    (Procedure.goOn_keeps (C.near_keeps _) client next x parted)

theorem run_procedure_agree (client : Client) {procedure procedure' : Procedure α}
    (inPace : C.InPace procedure procedure') (beside : C.Beside k m n) :
    C.Agree k (procedure.run client C.near m) (procedure'.run client C.far n) := by
  induction inPace generalizing m n with
  | done result => exact .inl ⟨rfl, beside⟩
  | perform named inStep rest ih =>
    have performed := perform_operation_agree client named inStep beside
    rw [Procedure.run_perform, Procedure.run_perform]
    generalize client.perform C.near _ m = near at performed
    generalize client.perform C.far _ n = far at performed
    obtain ⟨result, after⟩ := near
    obtain ⟨result', after'⟩ := far
    rcases performed with ⟨same, beside⟩ | parted
    · obtain rfl : result = result' := same
      cases result with
      | none => exact .inl ⟨rfl, beside⟩
      | some result => exact ih result beside
    · exact .inr (parted_after parted)

end Coupling

end StorageControl
