import StorageControl.Proofs.Coupling
import StorageControl.Proofs.Effects
import StorageControl.Proofs.Log
import StorageControl.Proofs.Login

/-! What a server tells when its answers depend on requests alone.

An exchange with such a server ends alike and adds the same to the log whenever it takes
place. So the credential in store decides what a call is told. A client that allows an
operation a moment hears the reply to its first call, and a call that only reads changes
nothing for those after it but the time and the log.
-/

set_option autoImplicit false

namespace StorageControl

variable {σ τ α : Type}

/-! ### Exchanges -/

namespace Http

/-- Whether what becomes of a request depends on the request alone. -/
def Network.AnswersBy (network : Network σ) (answer : Request → Outcome) : Prop :=
  ∀ r s, (network r s).1 = answer r

/-- The network of the answers, without a state of its own. -/
def Network.ofAnswer (answer : Request → Outcome) : Network Unit := fun r s => (answer r, s)

theorem Network.ofAnswer_answersBy (answer : Request → Outcome) :
    (Network.ofAnswer answer).AnswersBy answer := fun _ _ => rfl

/-- Two ways to go on from two logs end alike and add the same. -/
def AddAlike {β : Type} (s : Logged σ) (t : Logged τ) (x : β × Logged σ) (y : β × Logged τ) :
    Prop :=
  x.1 = y.1 ∧ ∃ entries, x.2.log = s.log ++ entries ∧ y.2.log = t.log ++ entries

section Answers

variable {near : Network σ} {far : Network τ} {answer : Request → Outcome}

theorem pursue_addAlike (byNear : near.AnswersBy answer) (byFar : far.AnswersBy answer)
    (userAgent first : String) (left : Nat) (e : Errand) (s : Logged σ) (t : Logged τ) :
    AddAlike s t (pursue near.logging userAgent first left e s)
      (pursue far.logging userAgent first left e t) := by
  induction left using Nat.strongRecOn generalizing e s t with
  | ind left ih =>
    unfold pursue
    simp only [Network.logging]
    have same : (near (e.request userAgent) s.server).1 = (far (e.request userAgent) t.server).1 :=
      (byNear _ _).trans (byFar _ _).symm
    generalize near (e.request userAgent) s.server = answered at same
    generalize far (e.request userAgent) t.server = answered' at same
    obtain ⟨outcome, server⟩ := answered
    obtain ⟨outcome', server'⟩ := answered'
    obtain rfl : outcome = outcome' := same
    cases outcome with
    | lost => exact ⟨rfl, _, rfl, rfl⟩
    | silent => exact ⟨rfl, _, rfl, rfl⟩
    | reply r =>
      simp only
      cases lead first e r with
      | stay => exact ⟨rfl, _, rfl, rfl⟩
      | flawed flaw => exact ⟨rfl, _, rfl, rfl⟩
      | go url next =>
        cases left with
        | zero => exact ⟨rfl, _, rfl, rfl⟩
        | succ left =>
          simp only
          split
          · obtain ⟨ends, entries, added, added'⟩ := ih left (Nat.lt_succ_self left) next
              ⟨server, s.log ++ [(e.request userAgent, .reply r)]⟩
              ⟨server', t.log ++ [(e.request userAgent, .reply r)]⟩
            exact ⟨ends, _, added.trans (List.append_assoc _ _ _),
              added'.trans (List.append_assoc _ _ _)⟩
          · exact ⟨rfl, _, rfl, rfl⟩

end Answers

end Http

namespace Service

open Http (AddAlike Logged Network Outcome Request)

variable {near : Network σ} {far : Network τ} {answer : Request → Outcome}

theorem send_addAlike (byNear : near.AnswersBy answer) (byFar : far.AnswersBy answer)
    (service : Service) (route : Route) (credential : Option Credential) (s : Logged σ)
    (t : Logged τ) :
    AddAlike s t (service.send near.logging route credential s)
      (service.send far.logging route credential t) := by
  cases made : service.errand? route credential with
  | none =>
    obtain ⟨flaw, sent⟩ := send_of_unmade made
    rw [sent, sent]
    exact ⟨rfl, [], by simp⟩
  | some errand =>
    obtain ⟨first, e⟩ := errand
    rw [send_of_errand made, send_of_errand made]
    exact Http.pursue_addAlike byNear byFar service.userAgent first Http.patience e s t

/-- The credential in store after a call, given how its exchange ended: only the reply to
a login brings another. -/
def storedAfter : Call → Http.Ending → Option Credential → Option Credential
  | .authenticate _ _, .reply r, stored => (login r).1.or stored
  | _, _, stored => stored

theorem land_stored (service : Service) (network : Network σ) (c : Call) (s : Session σ) :
    (service.land network c s).2.credential =
      storedAfter c (service.send network c.route (shown c s.credential) s.server).1
        s.credential := by
  cases c with
  | authenticate username password =>
    simp only [land, authenticate, shown]
    rcases service.send network _ none s.server with ⟨r | flaw | _, server⟩ <;> rfl
  | _ =>
    simp only [land, storedAfter]
    exact service.request_credential network _ s

/-- A call brings the same to sessions with one credential in store. -/
theorem land_addAlike (byNear : near.AnswersBy answer) (byFar : far.AnswersBy answer)
    (service : Service) (c : Call) {s : Session (Logged σ)} {t : Session (Logged τ)}
    (stored : s.credential = t.credential) :
    let x := service.land near.logging c s
    let y := service.land far.logging c t
    x.2.credential = y.2.credential ∧
      AddAlike s.server t.server (x.1, x.2.server) (y.1, y.2.server) := by
  intro x y
  obtain ⟨brings, served⟩ := service.land_eq near.logging c s
  obtain ⟨brings', served'⟩ := service.land_eq far.logging c t
  obtain ⟨ends, entries, added, added'⟩ := send_addAlike byNear byFar service c.route
    (shown c s.credential) s.server t.server
  rw [← stored] at brings' served'
  refine ⟨?_, ?_, entries, ?_, ?_⟩
  · rw [land_stored, land_stored, ← stored, ends]
  · rw [brings, brings', ends]
  · rw [served, added]
  · rw [served', added']

/-- What a server that answers requests by themselves tells a call. -/
def told (service : Service) (answer : Request → Outcome) (credential : Option Credential)
    (c : Call) : Option c.Reply :=
  (service.land (.ofAnswer answer) c ⟨credential, ()⟩).1

theorem land_ofAnswer (service : Service) (answer : Request → Outcome) (c : Call)
    (credential : Option Credential) :
    service.land (.ofAnswer answer) c ⟨credential, ()⟩ =
      Prod.map id Session.unlogged
        (service.land (Network.ofAnswer answer).logging c ⟨credential, ⟨(), []⟩⟩) :=
  (service.transport_logging (.ofAnswer answer)).land c ⟨credential, ⟨(), []⟩⟩

theorem land_told (byNear : near.AnswersBy answer) (service : Service) (c : Call)
    (s : Session (Logged σ)) :
    (service.land near.logging c s).1 = service.told answer s.credential c := by
  obtain ⟨-, brings, -⟩ := land_addAlike byNear (Network.ofAnswer_answersBy answer) service c
    (t := ⟨s.credential, ⟨(), []⟩⟩) rfl
  rw [told, land_ofAnswer]
  exact brings

/-! ### Reading -/

/-- A call that only reads leaves the credential, and adds requests that only read. -/
theorem land_reads (service : Service) (network : Network σ) {c : Call}
    (get : c.route.method = .get) (s : Session (Logged σ)) :
    (service.land network.logging c s).2.credential = s.credential ∧
      ∃ reads, (service.land network.logging c s).2.server.log = s.server.log ++ reads ∧
        ∀ entry ∈ reads, entry.1.method = .get := by
  constructor
  · unfold land
    split
    next => cases get
    next => exact service.request_credential network.logging c s
  · rw [(service.land_eq network.logging c s).2]
    cases made : service.errand? c.route (shown c s.credential) with
    | none =>
      obtain ⟨flaw, sent⟩ := send_of_unmade made
      rw [sent]
      exact ⟨[], (List.append_nil _).symm, by simp⟩
    | some errand =>
      obtain ⟨first, e⟩ := errand
      rw [send_of_errand made]
      obtain ⟨entries, logged, trail, -⟩ :=
        Http.pursue_logging network service.userAgent first Http.patience e s.server
      refine ⟨entries, logged, fun entry member => ?_⟩
      rcases trail.kept entry member with gets | ⟨method, -⟩
      · exact gets
      · rw [method, errand?_method made, get]

end Service

/-! ### On the clock -/

open Http (Logged Network Outcome Request)
open Service (Session)

/-- Whether the client allows every operation a moment at least. -/
def Client.Roomy (client : Client) : Prop :=
  ∀ timeout, client.timeout = some timeout → 1 ≤ allowance timeout

namespace Machine

/-- A machine after some reads: they are in its log, and apart from the time nothing else
is different. -/
structure ReadsOn (m : Machine (Session (Logged σ))) (reads : List (Request × Outcome))
    (after : Machine (Session (Logged σ))) : Prop where
  clock : m.clock ≤ after.clock
  cancelAt : after.cancelAt = m.cancelAt
  credential : after.server.credential = m.server.credential
  log : after.server.server.log = m.server.server.log ++ reads
  gets : ∀ entry ∈ reads, entry.1.method = .get

variable {m middle after : Machine (Session (Logged σ))} {reads more : List (Request × Outcome)}

theorem ReadsOn.refl (m : Machine (Session (Logged σ))) : m.ReadsOn [] m :=
  ⟨Nat.le_refl _, rfl, rfl, (List.append_nil _).symm, by simp⟩

theorem ReadsOn.trans (earlier : m.ReadsOn reads middle) (later : middle.ReadsOn more after) :
    m.ReadsOn (reads ++ more) after where
  clock := Nat.le_trans earlier.clock later.clock
  cancelAt := later.cancelAt.trans earlier.cancelAt
  credential := later.credential.trans earlier.credential
  log := by rw [later.log, earlier.log, List.append_assoc]
  gets := List.forall_mem_append.mpr ⟨earlier.gets, later.gets⟩

end Machine

section Calls

variable {client : Client} {service : Service} {network : Network σ}
  {m : Machine (Session (Logged σ))}

/-- An exchange takes a moment, and nothing stops it if there is that moment. -/
theorem Client.stop?_of_roomy (roomy : client.Roomy) (unset : m.cancelAt = none) :
    (client.limits m).stop? (some (m.clock + 1)) = none := by
  rw [Limits.stop?, limits, unset]
  cases timed : client.timeout with
  | none => rfl
  | some timeout =>
    have room := roomy timeout timed
    have late : ¬m.clock + allowance timeout < m.clock + 1 := by omega
    simp [Option.filter, Limits.isBefore, late]

theorem Client.stop?_of_cramped (cramped : ¬client.Roomy) (unset : m.cancelAt = none) :
    ∃ stop, (client.limits m).stop? (some (m.clock + 1)) = some stop := by
  obtain ⟨timeout, cramped⟩ := not_forall.mp cramped
  obtain ⟨timed, cramped⟩ := Classical.not_imp.mp cramped
  have early : m.clock + allowance timeout < m.clock + 1 := by omega
  rw [Limits.stop?, limits, unset, timed]
  simp [Option.filter, Limits.isBefore, early]

theorem Machine.perform_of_roomy (roomy : client.Roomy) (unset : m.cancelAt = none) {c : Call}
    {reply : c.Reply} {server : Session (Logged σ)}
    (landed : service.land network.logging c m.server = (some reply, server)) :
    ∃ after, Machine.perform (service.transport network.logging) (client.limits m) c m =
        (.landed reply, after) ∧
      m.clock ≤ after.clock ∧ after.cancelAt = m.cancelAt ∧ after.server = server := by
  simp only [Machine.perform, Machine.launch, Service.transport,
    Client.stop?_of_roomy roomy unset, Machine.touchDown, Machine.drop, landed]
  exact ⟨_, rfl, Nat.le_max_left _ _, rfl, rfl⟩

/-- A call that has its moment takes effect, whether or not it is answered. -/
theorem Machine.perform_lands (roomy : client.Roomy) (unset : m.cancelAt = none) (c : Call) :
    (Machine.perform (service.transport network.logging) (client.limits m) c m).2.server =
      (service.land network.logging c m.server).2 := by
  simp only [Machine.perform, Machine.launch, Service.transport,
    Client.stop?_of_roomy roomy unset, Machine.touchDown, Machine.drop]
  cases (service.land network.logging c m.server).1 with
  | some reply => rfl
  | none => exact Machine.waitOn_server _ _

theorem Machine.perform_of_cramped (service : Service) (network : Network σ)
    (cramped : ¬client.Roomy) (unset : m.cancelAt = none) (c : Call) :
    ∃ stop after, Machine.perform (service.transport network.logging) (client.limits m) c m =
      (.stopped stop, after) ∧ after.server = m.server := by
  obtain ⟨stop, stops⟩ := Client.stop?_of_cramped cramped unset
  simp only [Machine.perform, Machine.launch, Service.transport, stops]
  exact ⟨_, _, rfl, rfl⟩

theorem Client.unfired (client : Client) (unset : m.cancelAt = none) :
    (client.limits m).hasFired m.clock = false := by
  rw [Limits.hasFired, limits, unset]

/-- An operation of one call that only reads hears what the server tells. -/
theorem Client.perform_reads (roomy : client.Roomy) (unset : m.cancelAt = none)
    {answer : Request → Outcome} (answers : network.AnswersBy answer) {operation : Operation α}
    {c : Call} {next : c.Reply → Program α} (program : operation.program = .call c next)
    (get : c.route.method = .get) {reply : c.Reply}
    (told : service.told answer m.server.credential c = some reply) {result : Except ApiFault α}
    (ends : next reply = .done result) :
    ∃ reads after, client.perform (service.transport network.logging) operation m =
      (some result, after) ∧ m.ReadsOn reads after := by
  have brings := (service.land_told answers c m.server).trans told
  obtain ⟨credential, reads, logged, gets⟩ := service.land_reads network get m.server
  generalize landed : service.land network.logging c m.server = landing at brings credential logged
  obtain ⟨_, server⟩ := landing
  obtain rfl := brings
  obtain ⟨after, performed, clock, cancelAt, rfl⟩ := Machine.perform_of_roomy roomy unset landed
  refine ⟨reads, after, ?_, clock, cancelAt, credential, logged, gets⟩
  rw [perform_of_unfired (client.unfired unset), program, Machine.run_call, performed]
  simp only [Machine.goOn, ends, Machine.run]
  rfl

theorem Machine.perform_landed {limits : Limits} {c : Call} {reply : c.Reply}
    {after : Machine (Session (Logged σ))}
    (performed : perform (service.transport network.logging) limits c m = (.landed reply, after)) :
    service.land network.logging c m.server = (some reply, after.server) ∧
      after.cancelAt = m.cancelAt := by
  revert performed
  simp only [perform]
  cases limits.stop? (some (launch (service.transport network.logging) c m).1.due) with
  | some stop =>
    intro stopped
    cases stopped
  | none =>
    simp only [touchDown, launch, drop, Service.transport]
    cases replied : (service.land network.logging c m.server).1 with
    | some brought =>
      intro performed
      cases performed
      exact ⟨Prod.ext replied rfl, rfl⟩
    | none =>
      intro waited
      obtain ⟨-, waiting | ⟨stop, stopped⟩⟩ := waitOn_cases waited
      · cases waiting
      · cases stopped

/-- A login that succeeds has been allowed its moment, and brought what is in store. -/
theorem Client.of_login_ok (unset : m.cancelAt = none) {username password : String} {user : User}
    {after : Machine (Session (Logged σ))}
    (performed : client.perform (service.transport network.logging)
      (.authenticate username password) m = (some (.ok user), after)) :
    client.Roomy ∧ after.cancelAt = none ∧
      service.land network.logging (.authenticate username password) m.server =
        (some (.ok user), after.server) := by
  rw [perform_of_unfired (client.unfired unset), Operation.authenticate, Program.only_eq,
    Machine.run_call] at performed
  generalize attempt : Machine.perform (service.transport network.logging) (client.limits m)
    (.authenticate username password) m = ended at performed
  obtain ⟨ending, late⟩ := ended
  rcases ending with ⟨fault | brought⟩ | stop | _
  · cases performed
  · cases performed
    obtain ⟨landed, cancelAt⟩ := Machine.perform_landed attempt
    refine ⟨Classical.byContradiction fun cramped => ?_, cancelAt.trans unset, landed⟩
    obtain ⟨stop, late, stopped, -⟩ := Machine.perform_of_cramped service network cramped unset
      (.authenticate username password)
    rw [attempt] at stopped
    cases stopped
  · cases performed
  · cases performed

end Calls

end StorageControl
