import StorageControl.Proofs.Endpoint
import StorageControl.Proofs.Telling

/-! Whether a process sends anything.

A process begins with its login. The login is sent unless all endpoints are blank, its URL
cannot be used, or the timeout leaves no time for it. Without a login nothing is sent.
-/

set_option autoImplicit false

namespace StorageControl

open Http (Logged Network Outcome Request)

variable {σ : Type}

/-! ### What a call leaves in the log -/

theorem Http.Trail.ne_nil {userAgent first : String} {e : Errand}
    {entries : List (Request × Outcome)} {ending : Ending}
    (trail : Trail userAgent first e entries ending) : entries ≠ [] := by
  cases trail <;> exact List.cons_ne_nil _ _

namespace Service

variable {service : Service} {c : Call}

theorem errand?_eq_none_iff {route : Route} :
    service.errand? route none = none ↔
      ∀ url, service.url? route = some url → Http.isUsable url.withoutLogin = false := by
  unfold errand?
  cases service.url? route <;> simp

/-- A call leaves the log as it is only when its request cannot be made. -/
theorem land_log_eq_iff (network : Network σ) (s : Session (Logged σ)) :
    (service.land network.logging c s).2.server.log = s.server.log ↔
      service.errand? c.route (shown c s.credential) = none := by
  rw [(service.land_eq network.logging c s).2]
  cases made : service.errand? c.route (shown c s.credential) with
  | none =>
    obtain ⟨flaw, sent⟩ := send_of_unmade made
    rw [sent]
    exact iff_of_true rfl rfl
  | some errand =>
    obtain ⟨first, e⟩ := errand
    obtain ⟨entries, logged, trail, -⟩ :=
      Http.pursue_logging network service.userAgent first Http.patience e s.server
    rw [send_of_errand made, logged]
    simpa using trail.ne_nil

theorem land_of_unmade {s : Session (Logged σ)}
    (unmade : service.errand? c.route (shown c s.credential) = none) (network : Network σ) :
    ∃ flaw, (service.land network.logging c s).1 = some (.error (fault flaw)) := by
  obtain ⟨flaw, sent⟩ := send_of_unmade unmade
  refine ⟨flaw, ?_⟩
  rw [(service.land_eq network.logging c s).1, sent]
  rfl

end Service

/-! ### The login -/

theorem Client.allowance_eq_zero_iff {timeout : Span} :
    allowance timeout = 0 ↔ timeout = .zero := by
  obtain ⟨nanoseconds⟩ := timeout
  rw [allowance, Span.zero, Span.mk.injEq]
  split
  next =>
    simp only [Span.millisecondsUp, Span.perMilli]
    omega
  next long =>
    simp only [Span.seconds, Span.perSecond, Word.limit, Nat.pow_eq] at long
    simp only [horizon]
    omega

namespace Invocation

open Service (Session)

def loginCall (i : Invocation) : Call := .authenticate i.options.username i.options.password

/-- Why not even the login of a process can be sent. -/
inductive Stranded (i : Invocation) : Prop where
  | unset (blank : ∀ text ∈ i.options.endpoints, Text.Blank text)
  | unusable {service : Service} (made : i.service = .ok service)
      (unusable : ∀ url, service.url? i.loginCall.route = some url →
        Http.isUsable url.withoutLogin = false)
  | timeless (none : i.options.timeout = .zero)

variable {i : Invocation} {service : Service}

theorem roomy_iff (i : Invocation) : i.client.Roomy ↔ i.options.timeout ≠ .zero := by
  rw [ne_eq, ← Client.allowance_eq_zero_iff, ← ne_eq, ← Nat.one_le_iff_ne_zero]
  simp [Client.Roomy, client]

theorem stranded_of_unmade {failure : Failure} (unmade : i.service = .error failure) :
    i.Stranded := by
  refine .unset ?_
  cases chosen : i.options.endpoint with
  | error fault => exact (Options.endpoint_eq_error_iff.mp chosen).2
  | ok endpoint =>
    obtain ⟨service, made, -⟩ := service_of_endpoint chosen
    rw [unmade] at made
    cases made

theorem stranded_iff (made : i.service = .ok service) :
    i.Stranded ↔ ¬i.client.Roomy ∨ service.errand? i.loginCall.route none = none := by
  rw [roomy_iff, not_not, Service.errand?_eq_none_iff]
  constructor
  · intro stranded
    cases stranded with
    | unset blank =>
      have unset := Options.endpoint_eq_error_iff.mpr ⟨rfl, blank⟩
      rw [Invocation.service, unset] at made
      cases made
    | unusable reached unusable =>
      obtain rfl := Except.ok.inj (made.symm.trans reached)
      exact .inr unusable
    | timeless none => exact .inl none
  · rintro (none | unusable)
    · exact .timeless none
    · exact .unusable made unusable

theorem login_log (network : Network σ) {m : Machine (Session (Logged σ))}
    (unset : m.cancelAt = none) (service : Service) :
    let ended := i.client.perform (service.transport network.logging)
      (.authenticate i.options.username i.options.password) m
    (ended.2.server.server.log = m.server.server.log ↔
        ¬i.client.Roomy ∨ service.errand? i.loginCall.route none = none) ∧
      ∀ user, ended.1 = some (.ok user) → ended.2.server.server.log ≠ m.server.server.log := by
  intro ended
  -- The login is one call, and no more than that is done with the machine.
  have single : ended.2 = (Machine.perform (service.transport network.logging)
      (i.client.limits m) i.loginCall m).2 := by
    simp only [ended]
    rw [Client.perform_of_unfired (i.client.unfired unset), Operation.authenticate,
      Program.only_eq, Machine.run_call]
    show (Machine.goOn _ _ _ (Machine.perform _ _ i.loginCall m)).2 = _
    rcases Machine.perform _ _ i.loginCall m with ⟨⟨fault | user⟩ | stop | _, after⟩ <;> rfl
  have left : ended.2.server.server.log = m.server.server.log ↔
      ¬i.client.Roomy ∨ service.errand? i.loginCall.route none = none := by
    rw [single]
    by_cases roomy : i.client.Roomy
    · rw [Machine.perform_lands roomy unset, Service.land_log_eq_iff]
      exact (or_iff_right (not_not.mpr roomy)).symm
    · obtain ⟨stop, after, stopped, same⟩ :=
        Machine.perform_of_cramped service network roomy unset i.loginCall
      rw [stopped, same]
      exact iff_of_true rfl (.inl roomy)
  refine ⟨left, fun user answered => ?_⟩
  obtain ⟨roomy, -, landed⟩ := Client.of_login_ok unset (Prod.ext answered rfl)
  rw [ne_eq, left, not_or, not_not]
  refine ⟨roomy, fun unmade => ?_⟩
  obtain ⟨flaw, failed⟩ := Service.land_of_unmade (s := m.server) (c := i.loginCall) unmade network
  rw [show service.land network.logging i.loginCall m.server = _ from landed] at failed
  cases failed

/-- A process sends nothing exactly if its login cannot be sent. -/
theorem log_eq_nil_iff (i : Invocation) (network : Network σ) (server : σ) :
    i.log network server = [] ↔ i.Stranded := by
  cases made : i.service with
  | error failure =>
    refine iff_of_true ?_ (stranded_of_unmade made)
    rw [log, run, made]
  | ok service =>
    rw [stranded_iff made]
    let start : Machine (Session (Logged σ)) := ⟨⟨none, ⟨server, []⟩⟩, 0, [], none⟩
    obtain ⟨left, leaves⟩ := i.login_log network (m := start) rfl service
    have ran : i.log network server = (i.procedure.run i.client
        (service.transport network.logging) start).2.server.server.log := by
      rw [log, run, made]
    rw [ran, procedure, Procedure.askWithin, Procedure.run_perform]
    generalize i.client.perform (service.transport network.logging)
      (.authenticate i.options.username i.options.password) start = ended at left leaves
    obtain ⟨_ | fault | user, after⟩ := ended
    · exact left
    · exact left
    · -- Whatever follows a login that succeeds only adds to the log.
      have logged := leaves user rfl
      refine iff_of_false (fun none => logged ?_) fun stranded => logged (left.mpr stranded)
      have keeps : Machine.Keeps (service.transport network.logging) (fun _ => True)
          fun s => after.server.server.log <+: s.server.log :=
        ⟨fun _ _ _ begins => begins, fun c s _ begins =>
          begins.trans (service.land_begins network c s)⟩
      refine List.prefix_nil.mp ?_
      rw [← none]
      exact Procedure.run_keeps keeps i.client (i.command.procedure i.options) after
        List.prefix_rfl

end Invocation

end StorageControl
