import StorageControl.Proofs.Abandonment
import StorageControl.Service

/-! Logging in.

The reply to a login can fail it at five points. At the first four the stored credential
stays as it was. The last one, a user that lacks its identifier or its version, comes after
the credential has been stored: such a login fails and is in force.
-/

set_option autoImplicit false

namespace StorageControl

variable {σ : Type}

/-- An operation that is one call leaves a view of the server, unless the call is answered
and the answer is its result. -/
theorem Client.perform_only {ε : Type} {T : Transport σ} {view : σ → ε}
    (effective : T.EffectiveOnReply view) {c : Call} {operation : Operation c.Answer}
    (only : operation.program = .only c) (client : Client) (m : Machine σ) :
    view (client.perform T operation m).2.server = view m.server ∨
      ∃ reply, T.land c (T.start c m.server).2 =
          (some reply, (client.perform T operation m).2.server) ∧
        (client.perform T operation m).1 = some (c.conclude reply) := by
  have started := effective.start c m.server
  cases fired : (client.limits m).hasFired m.clock with
  | true =>
    rw [perform_of_fired fired]
    exact .inl rfl
  | false =>
    rw [perform_of_unfired fired, only, Program.only_eq, Machine.run]
    simp only [Machine.perform]
    cases (client.limits m).stop? (some (Machine.launch T c m).1.due) with
    | some stop => exact .inl started
    | none =>
      simp only [Machine.touchDown, Machine.launch, Machine.drop]
      cases replied : (T.land c (T.start c m.server).2).1 with
      | some reply => exact .inr ⟨reply, Prod.ext replied rfl, rfl⟩
      | none =>
        have silent := effective.unanswered c _ replied
        simp only
        generalize waited : (Machine.waitOn (client.limits m) _ :
          Landing c.Reply × Machine σ) = ending
        obtain ⟨ending, late⟩ := ending
        -- Waiting leaves the server as it is, however the wait ends.
        obtain ⟨kept, rfl | ⟨stop, rfl⟩⟩ := Machine.waitOn_cases waited
        · exact .inl (by simp only [Prod.map, id, kept, silent, started])
        · exact .inl (by simp only [Prod.map, id, kept, silent, started])

/-! ### Replies to a login -/

theorem Wire.User.resource_of_useful {model : Wire.User} (named : model.id ≠ "")
    (versioned : model.version ≠ "") : ∃ user, model.resource = .ok user := by
  have id : (Id.ofText? model.id : Option UserId) ≠ none :=
    mt (Id.ofText?_eq_none_iff model.id).mp named
  obtain ⟨id, read⟩ := Option.ne_none_iff_exists'.mp id
  have version : Version.ofText? model.version ≠ none := by
    simpa [Version.ofText?, Token.ofText?_eq_none_iff] using versioned
  obtain ⟨version, read'⟩ := Option.ne_none_iff_exists'.mp version
  rw [resource, read, read']
  exact ⟨_, rfl⟩

namespace Service

open Http (Network Reply Ending)

/-- A reply that succeeds, with a credential and a user. -/
structure Grants (r : Reply) (credential : Credential) (model : Wire.User) : Prop where
  isSuccess : r.isSuccess = true
  handed : handedOut r = some credential
  isWhole : r.isWhole = true
  read : Json.readRunes Wire.toUser r.body = .ok model

/-- A reply whose user is of no use, although its credential is. -/
def HalfDone (r : Reply) : Prop :=
  ∃ credential model, Grants r credential model ∧ (model.id = "" ∨ model.version = "")

theorem accepted_eq_ok {r accepts : Reply} (h : accepted r = .ok accepts) :
    r.isSuccess = true ∧ accepts = r := by
  unfold accepted at h
  split at h
  next success => exact ⟨success, by cases h; rfl⟩
  next => cases h

theorem body_eq_ok {r : Reply} {text : List Text.Rune} (h : body r = .ok text) :
    r.isWhole = true ∧ text = r.body := by
  unfold body at h
  split at h
  next whole => exact ⟨whole, by cases h; rfl⟩
  next => cases h

theorem login_of_grants {r : Reply} {credential : Credential} {model : Wire.User}
    (grants : Grants r credential model) : login r = (some credential, model.resource) := by
  simp only [login, accepted, grants.isSuccess, grants.handed, body, grants.isWhole, grants.read,
    if_true]

/-- A reply to a login either fails it before anything is stored or brings a user. -/
theorem login_cases (r : Reply) :
    ((login r).1 = none ∧ (∃ fault, (login r).2 = .error fault) ∧ ¬ HalfDone r) ∨
      ∃ credential model, Grants r credential model := by
  -- One case for each step of a login, in the order in which they may fail.
  refine Classical.or_iff_not_imp_right.mpr fun ungranted => ?_
  refine and_assoc.mp ⟨?_, fun ⟨credential, model, grants, _⟩ => ungranted ⟨_, _, grants⟩⟩
  rw [login]
  split
  next fault _ => exact ⟨rfl, fault, rfl⟩
  next accepts =>
    obtain ⟨success, rfl⟩ := accepted_eq_ok accepts
    split
    next => exact ⟨rfl, _, rfl⟩
    next credential handed =>
      split
      next fault _ => exact ⟨rfl, fault, rfl⟩
      next brought =>
        obtain ⟨whole, rfl⟩ := body_eq_ok brought
        split
        next => exact ⟨rfl, _, rfl⟩
        next model read => exact (ungranted ⟨_, _, success, handed, whole, read⟩).elim

/-- The reply to a login, if it brings one. -/
def loginReply? (service : Service) (network : Network σ) (username password : String)
    (server : σ) : Option Reply :=
  match (service.send network (Call.authenticate username password).route none server).1 with
  | .reply r => some r
  | .flawed _ | .silent => none

/-- The result of a login and the credential after it. -/
inductive LoginEnd (reply : Option Reply) (before : Option Credential) :
    Option (Except TransportFault User) → Option Credential → Prop where
  | kept {result : Option (Except TransportFault User)} :
      (∀ r, reply = some r → ¬ HalfDone r) → (∀ user, result ≠ some (.ok user)) →
      LoginEnd reply before result before
  | stored {r : Reply} {credential : Credential} {model : Wire.User} {user : User} :
      reply = some r → Grants r credential model → model.resource = .ok user →
      LoginEnd reply before (some (.ok user)) (some credential)
  | halfDone {r : Reply} {credential : Credential} {model : Wire.User} {fault : TransportFault} :
      reply = some r → Grants r credential model → model.id = "" ∨ model.version = "" →
      model.resource = .error fault → LoginEnd reply before (some (.error fault)) (some credential)

theorem LoginEnd.of_silence {reply : Option Reply} {before after : Option Credential}
    (ended : LoginEnd reply before none after) : after = before := by
  cases ended with
  | kept => rfl

theorem LoginEnd.of_failure {reply : Option Reply} {before after : Option Credential}
    {result : Option (Except TransportFault User)} (ended : LoginEnd reply before result after)
    (failed : ∀ user, result ≠ some (.ok user)) (useful : ∀ r, reply = some r → ¬ HalfDone r) :
    after = before := by
  cases ended with
  | kept => rfl
  | stored => exact absurd rfl (failed _)
  | halfDone brought grants useless => exact absurd ⟨_, _, grants, useless⟩ (useful _ brought)

theorem authenticate_end (service : Service) (network : Network σ) (username password : String)
    (s : Session σ) :
    LoginEnd (service.loginReply? network username password s.server) s.credential
      (service.authenticate network username password s).1
      (service.authenticate network username password s).2.credential := by
  rw [loginReply?, authenticate]
  generalize service.send network _ none s.server = sent
  obtain ⟨ending, server⟩ := sent
  cases ending with
  | silent => exact .kept (by simp) (by simp)
  | flawed flaw => exact .kept (by simp) (by simp)
  | reply r =>
    rcases login_cases r with ⟨unstored, ⟨fault, failed⟩, whole⟩ | ⟨credential, model, grants⟩
    · simp only [unstored, failed, Option.none_or]
      exact .kept (by simpa using whole) (by simp)
    · simp only [login_of_grants grants, Option.some_or]
      cases resource : model.resource with
      | ok user => exact .stored rfl grants resource
      | error fault =>
        -- A model with an identifier and a version makes a user, so this one lacks one.
        refine .halfDone rfl grants (Classical.byContradiction fun useful => ?_) resource
        obtain ⟨named, versioned⟩ := not_or.mp useful
        obtain ⟨user, usable⟩ := Wire.User.resource_of_useful named versioned
        rw [usable] at resource
        cases resource

theorem request_credential (service : Service) (network : Network σ) (c : Call)
    (s : Session σ) : (service.request network c s).2.credential = s.credential := by
  rw [request]
  split <;> rfl

/-- The service with calls that take any time. -/
def delayed (service : Service) (network : Network σ) (delay : Call → Session σ → Nat) :
    Transport (Session σ) :=
  ⟨fun c s => (delay c s, s), service.land network⟩

theorem delayed_effective (service : Service) (network : Network σ)
    (delay : Call → Session σ → Nat) :
    (service.delayed network delay).EffectiveOnReply Session.credential where
  start _ _ := rfl
  unanswered c s := by
    simp only [delayed]
    unfold land
    split
    next username password =>
      intro silent
      have ended := service.authenticate_end network username password s
      rw [silent] at ended
      exact ended.of_silence
    next => exact fun _ => service.request_credential network c s

/-- A login that is given up, or that fails, leaves the stored credential, and nothing of
it changes the credential later; only one whose reply brings a credential beside a user of
no use fails with the credential replaced. -/
theorem login_atomic_unless_half_done (service : Service) (network : Network σ)
    (username password : String) :
    (∀ s : Session σ,
      let ran := service.authenticate network username password s
      LoginEnd (service.loginReply? network username password s.server) s.credential
        ran.1 ran.2.credential) ∧
    ∀ (delay : Call → Session σ → Nat) (client : Client) (m : Machine (Session σ)),
      let T := service.delayed network delay
      let ran := client.perform T (.authenticate username password) m
      let reply := service.loginReply? network username password m.server.server
      (∀ fault, ran.1 = some (.error fault) → fault.isAbandonment = true →
        ran.2.server.credential = m.server.credential) ∧
      ((∀ user, ran.1 ≠ some (.ok user)) → (∀ r, reply = some r → ¬ HalfDone r) →
        ran.2.server.credential = m.server.credential) ∧
      (m.flights = [] → ∀ milliseconds,
        (ran.2.advance T milliseconds).server = ran.2.server) := by
  refine ⟨service.authenticate_end network username password, ?_⟩
  intro delay client m T ran reply
  have whole := service.authenticate_end network username password m.server
  have only : (Operation.authenticate username password).program =
      .only (.authenticate username password) := rfl
  have once := Client.perform_only (c := .authenticate username password)
    (service.delayed_effective network delay) only client m
  refine ⟨?_, ?_, Client.advance_after⟩
  · intro fault failed abandoned
    rcases once with same | ⟨answer, -, result⟩
    · exact same
    · obtain concluded := Option.some.inj (result.symm.trans failed)
      rw [Call.conclude_isAbandonment concluded] at abandoned
      cases abandoned
  · intro failed useful
    rcases once with same | ⟨answer, landed, result⟩
    · exact same
    · have landing : service.authenticate network username password m.server =
        (some answer, ran.2.server) := landed
      rw [landing] at whole
      refine whole.of_failure (fun user done => failed user ?_) useful
      cases done
      exact result

/-- The token fires at the moment at which the reply to a login arrives. -/
theorem login_kept_when_cancelled_at_landing :
    let service : Service := ⟨"http://cluster/v2", "storageos-cli"⟩
    let reply : Reply :=
      ⟨200, [("Authorization", "Bearer new")],
        Text.runes "\x7b\"id\": \"u\", \"version\": \"1\"\x7d", true⟩
    let network : Network Unit := fun _ s => (.reply reply, s)
    let m : Machine (Session Unit) := ⟨⟨Credential.ofText? "old", ()⟩, 0, [], some 20⟩
    let client : Client := ⟨none, .skip⟩
    let T := service.delayed network fun _ _ => 20
    let ran := client.perform T (.authenticate "u" "p") m
    ran.1 = some (.error (.cancelled "authenticate")) ∧
      ∀ milliseconds, (ran.2.advance T milliseconds).server.credential.map Credential.text =
        some "old" := by
  intro service reply network m client T ran
  obtain ⟨-, given⟩ := service.login_atomic_unless_half_done network "u" "p"
  obtain ⟨abandoned, -, later⟩ := given (fun _ _ => 20) client m
  have cancelled : ran.1 = some (.error (.cancelled "authenticate")) := rfl
  refine ⟨cancelled, fun milliseconds => ?_⟩
  rw [later rfl milliseconds, abandoned _ cancelled rfl]
  rfl

set_option maxRecDepth 4000 in
/-- A user without an identifier: the login fails, and its credential is the one in use. -/
theorem login_fails_with_credential_replaced :
    let service : Service := ⟨"http://cluster/v2", "storageos-cli"⟩
    let reply : Reply := ⟨200, [("Authorization", "Bearer new")], Text.runes "\x7b\x7d", true⟩
    let network : Network Unit := fun _ s => (.reply reply, s)
    let s : Session Unit := ⟨Credential.ofText? "old", ()⟩
    let ran := service.authenticate network "u" "p" s
    ran.1 = some (.error (.decode "user has no id")) ∧
      s.credential.map Credential.text = some "old" ∧
      ran.2.credential.map Credential.text = some "new" := by
  intro service reply network s ran
  have sent : service.send network (Call.authenticate "u" "p").route none () =
      (.reply reply, ()) := by
    simp only [service, network, reply]
    decide +kernel
  have handed : handedOut reply = some ⟨⟨"new", by decide⟩⟩ := by
    simp only [reply]
    decide +kernel
  have grants : Grants reply ⟨⟨"new", by decide⟩⟩ ⟨"", "", false, [], none, none, ""⟩ :=
    ⟨rfl, handed, rfl, rfl⟩
  have ended :
      ran = (some (.error (.decode "user has no id")), ⟨some ⟨⟨"new", by decide⟩⟩, ()⟩) := by
    simp only [ran, authenticate, s, sent, login_of_grants grants]
    rfl
  rw [ended]
  exact ⟨rfl, rfl, rfl⟩

end Service

end StorageControl
