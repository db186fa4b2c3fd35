import StorageControl.Command.Usage
import StorageControl.Proofs.Causes
import StorageControl.Proofs.Conduct
import StorageControl.Proofs.Departure

/-! What a process sends.

As long as the server does not redirect, a process logs in, then it only reads, and its
last request may change something; it sends nothing only if its login cannot be sent. If
anything fails that the command relies on, nothing is changed, the process prints nothing
and its exit code says so.
-/

set_option autoImplicit false

namespace StorageControl

variable {σ : Type}

/-! ### Requests and calls -/

namespace Service

open Http (Ending Outcome Request)

/-- Whether a request is that of a call. -/
def Asks (service : Service) (c : Call) (r : Request) : Prop :=
  ∃ credential first e, (∀ username password, c = .authenticate username password →
      credential = none) ∧ service.errand? c.route credential = some (first, e) ∧
    r = e.request service.userAgent

theorem Asks.method {service : Service} {c : Call} {r : Request} (asks : service.Asks c r) :
    r.method = c.route.method := by
  obtain ⟨credential, first, e, -, made, rfl⟩ := asks
  exact errand?_method made

variable {service : Service} {seen : List Sighting} {log : List (Request × Outcome)} {c : Call}

theorem Pursues.of_still {trail : List (Request × Outcome)} {ending : Ending}
    (pursues : service.Pursues c trail ending) (still : ∀ entry ∈ trail, entry.2.IsStill) :
    ∃ r outcome, trail = [(r, outcome)] ∧ service.Asks c r := by
  obtain @⟨credential, first, e, _, _, bare, made, trail⟩ := pursues
  obtain ⟨outcome, rfl⟩ := trail.of_still still
  exact ⟨_, outcome, rfl, credential, first, e, bare, made, rfl⟩

/-- Without redirects, the requests are those of the calls that took effect, or of some of
them. -/
theorem Records.requests (records : Records service seen log)
    (still : ∀ entry ∈ log, entry.2.IsStill) :
    ∃ calls, calls.Sublist (callsIn seen) ∧
      List.Forall₂ service.Asks calls (log.map Prod.fst) := by
  induction records with
  | nil => exact ⟨[], .slnil, .nil⟩
  | @cons s seen entries log shows rest ih =>
    obtain ⟨here, later⟩ := List.forall_mem_append.mp still
    obtain ⟨calls, among, asked⟩ := ih later
    cases shows with
    | started c => exact ⟨calls, among, asked⟩
    | unsent c flaw => exact ⟨calls, among.cons _, asked⟩
    | @sent c _ _ pursues =>
      obtain ⟨r, outcome, rfl, asks⟩ := pursues.of_still here
      exact ⟨c :: calls, among.cons_cons c, .cons asks asked⟩

theorem Records.call_of_request (records : Records service seen log)
    (still : ∀ entry ∈ log, entry.2.IsStill) {r : Request} (sent : r ∈ log.map Prod.fst) :
    ∃ c ∈ callsIn seen, service.Asks c r := by
  obtain ⟨calls, among, asked⟩ := records.requests still
  have asker : ∃ c ∈ calls, service.Asks c r := by
    clear among records
    generalize log.map Prod.fst = requests at asked sent
    induction asked with
    | nil => cases sent
    | @cons c _ calls _ asks _ ih =>
      rcases List.mem_cons.mp sent with rfl | sent
      · exact ⟨c, List.mem_cons_self, asks⟩
      · obtain ⟨c', member, asks⟩ := ih sent
        exact ⟨c', List.mem_cons_of_mem _ member, asks⟩
  obtain ⟨c, member, asks⟩ := asker
  exact ⟨c, among.subset member, asks⟩

/-- A call that was answered with success left a trail that ends with its reply. -/
theorem Records.of_answered {answer : c.Answer}
    (records : Records service (.landed c (some (.ok answer)) :: seen) log) :
    ∃ trail reply rest, log = trail ++ rest ∧ service.Pursues c trail (.reply reply) ∧
      brings c reply = .ok answer ∧ Records service seen rest := by
  cases records with
  | @cons _ _ entries rest shows later =>
    generalize answered : Sighting.landed c (some (.ok answer)) = s at shows
    cases shows with
    | started => cases answered
    | unsent => cases answered
    | @sent _ _ ending pursues =>
      obtain ⟨rfl, brought⟩ := Sighting.landed.inj answered
      cases ending with
      | reply reply =>
        have answer := (Option.some.inj (eq_of_heq brought)).symm
        exact ⟨entries, reply, rest, rfl, pursues, answer, later⟩
      | flawed flaw => cases eq_of_heq brought
      | silent => cases eq_of_heq brought

end Service

namespace Invocation

/-- Whether everything is there that a process relies on: its login and what its command
needs. -/
def Ready (i : Invocation) (seen : List Sighting) : Prop :=
  (∃ user, Answered seen i.loginCall user) ∧ i.command.Ready i.options seen

def LogsIn (i : Invocation) (r : Http.Request) : Prop :=
  ∃ service, i.service = .ok service ∧ service.Asks i.loginCall r

theorem Program.landed_of_answered {c : Call} {seen : List Sighting}
    {ending : Landing (Except ApiFault c.Answer)}
    (transcript : (Program.only c).Transcript seen ending) {answer : c.Answer}
    (answered : Answered seen c answer) : ending = .landed (.ok answer) := by
  rw [Program.only_eq] at transcript
  cases transcript with
  | halted halts => exact absurd answered (halts.no_answer c _)
  | @answered _ _ reply _ _ later =>
    obtain ⟨rfl, rfl⟩ := Program.transcript_done later
    have same : .ok answer = reply := by simpa [Answered] using answered
    rw [← same]
    rfl

/-- A process logs in, or ends with the login. -/
theorem transcript_login {i : Invocation} {client : Client} {seen : List Sighting}
    {result : Except Failure (Option Json.Value)}
    (transcript : i.procedure.Transcript client seen (some result)) :
    ((callsIn seen = [] ∨ callsIn seen = [i.loginCall]) ∧ (∃ failure, result = .error failure) ∧
      ∀ user, ¬Answered seen i.loginCall user) ∨
    ∃ user rest, seen = .started i.loginCall :: .landed i.loginCall (some (.ok user)) :: rest ∧
      (i.command.procedure i.options).Transcript client rest (some result) := by
  cases transcript with
  | @performed _ _ _ first rest login _ step later =>
    -- The login is the first of the procedure, and what follows it needs its success.
    cases login with
    | error fault =>
      cases later
      rw [List.append_nil]
      obtain rfl | ⟨ending, transcript, same⟩ := step.program
      · exact .inl ⟨.inl rfl, ⟨_, rfl⟩, by simp [Answered]⟩
      · refine .inl ⟨Program.transcript_only transcript, ⟨_, rfl⟩, fun user answered => ?_⟩
        rw [Program.landed_of_answered transcript answered] at same
        cases same
    | ok user =>
      obtain ⟨answer, after, rfl, finished⟩ := Program.transcript_ask step.of_ok
      obtain ⟨rfl, -⟩ := Program.transcript_done finished
      exact .inr ⟨answer, rest, rfl, later⟩

end Invocation

/-! ### What is there stays there -/

theorem Command.Ready.after {command : Command} {o : Options} {seen : List Sighting}
    (ready : command.Ready o seen) (before : List Sighting) :
    command.Ready o (before ++ seen) := by
  have versioned {version : Option String} {change : Change}
      (versioned : Versioned seen version change) : Versioned (before ++ seen) version change := by
    obtain ⟨constraint, given, informed⟩ := versioned
    exact ⟨constraint, given, informed.after before⟩
  cases command with
  | getCluster => trivial
  | getNode name | getNamespace name | getUser name =>
    obtain ⟨id, finds⟩ := ready
    exact ⟨id, finds.mono fun _ answered => answered.after before⟩
  | getNodes names | getNamespaces names | getUsers names =>
    exact ready.mono fun _ answered => answered.after before
  | getVolume name =>
    obtain ⟨scope, id, scopes, finds⟩ := ready
    exact ⟨scope, id, scopes.after before, finds.mono fun _ answered => answered.after before⟩
  | getVolumes names =>
    cases within : o.scope with
    | none =>
      simp only [Ready, within] at ready ⊢
      refine ready.mono fun all listed => ?_
      obtain ⟨listing, suffix, same⟩ := listed
      exact ⟨listing, suffix.trans (List.suffix_append before seen), same⟩
    | some argument =>
      simp only [Ready, within] at ready ⊢
      obtain ⟨scope, finds, selects⟩ := ready
      exact ⟨scope, finds.after before, selects.mono fun _ answered => answered.after before⟩
  | createVolume name description size filesystem labels asyncMax =>
    obtain ⟨read, scope, scopes⟩ := ready
    exact ⟨read, scope, scopes.after before⟩
  | createNamespace name labels => exact ready
  | createUser username password isAdmin groups => exact ready
  | deleteVolume name version asyncMax | setReplicas name replicas version
  | detachVolume name version =>
    obtain ⟨scope, id, scopes, finds, version⟩ := ready
    exact ⟨scope, id, scopes.after before, finds.mono fun _ answered => answered.after before,
      versioned version⟩
  | deleteNamespace name version | deleteUser name version =>
    obtain ⟨id, finds, version⟩ := ready
    exact ⟨id, finds.mono fun _ answered => answered.after before, versioned version⟩

/-! ### Exits -/

theorem Report.ofResult_of_error (failure : Failure) :
    (Report.ofResult (.error failure)).exit ≠ 0 ∧ (Report.ofResult (.error failure)).output = "" :=
  ⟨(Exit.ofFailure_bounds failure).1.ne', rfl⟩

theorem Report.ofUsage_of_misuse {usage : Usage} (misuse : usage.isRequest = false) :
    (Report.ofUsage usage).exit ≠ 0 ∧ (Report.ofUsage usage).output = "" := by
  cases usage with
  | help | version => cases misuse
  | _ => exact ⟨nofun, rfl⟩

namespace Invocation

open Http (Network Request)

/-- A login, reads behind it, and one change at most behind these. -/
def InOrder (i : Invocation) (requests : List Request) : Prop :=
  ∃ login reads changes, requests = login :: (reads ++ changes) ∧ i.LogsIn login ∧
    (∀ r ∈ reads, r.method = .get) ∧ changes.length ≤ 1 ∧
    ∀ r ∈ changes, r.method.isMutation = true

theorem inOrder_of_orderly {i : Invocation} {service : Service} {seen : List Sighting}
    {log : List (Request × Http.Outcome)} (made : i.service = .ok service) {login : Request}
    (logsIn : service.Asks i.loginCall login) (orderly : Orderly seen)
    (records : service.Records seen log) (still : ∀ entry ∈ log, entry.2.IsStill) :
    i.InOrder (login :: log.map Prod.fst) := by
  obtain ⟨reads, changes, split, gets, single, alter⟩ := orderly
  obtain ⟨calls, among, asked⟩ := records.requests still
  rw [split] at among
  obtain ⟨reads', changes', rfl, amongReads, amongChanges⟩ := List.sublist_append_iff.mp among
  -- The requests have the methods of their calls, so they are split where the calls are.
  have methods : (log.map Prod.fst).map Request.method =
      reads'.map (fun c => c.route.method) ++ changes'.map fun c => c.route.method := by
    have same : List.Forall₂ Eq ((reads' ++ changes').map fun c => c.route.method)
        ((log.map Prod.fst).map Request.method) :=
      List.forall₂_map_left_iff.mpr
        (List.forall₂_map_right_iff.mpr (asked.imp fun c r asks => asks.method.symm))
    rw [List.forall₂_eq_eq_eq] at same
    rw [← same, List.map_append]
  obtain ⟨first, second, requests, firstMethods, secondMethods⟩ := List.map_eq_append_iff.mp methods
  refine ⟨login, first, second, by rw [requests], ⟨service, made, logsIn⟩, ?_, ?_, ?_⟩
  · intro r member
    have method : r.method ∈ first.map Request.method := List.mem_map_of_mem member
    rw [firstMethods] at method
    obtain ⟨c, listed, same⟩ := List.mem_map.mp method
    rw [← same]
    exact gets c (amongReads.subset listed)
  · have length := congrArg List.length secondMethods
    rw [List.length_map, List.length_map] at length
    rw [length]
    exact Nat.le_trans amongChanges.length_le single
  · intro r member
    have method : r.method ∈ second.map Request.method := List.mem_map_of_mem member
    rw [secondMethods] at method
    obtain ⟨c, listed, same⟩ := List.mem_map.mp method
    rw [← same]
    exact Call.isMutation_method (alter c (amongChanges.subset listed))

theorem inOrder_of_login {i : Invocation} {service : Service} {seen : List Sighting}
    {log : List (Request × Http.Outcome)} (made : i.service = .ok service)
    (calls : callsIn seen = [] ∨ callsIn seen = [i.loginCall])
    (records : service.Records seen log) (still : ∀ entry ∈ log, entry.2.IsStill) :
    (log.map Prod.fst = [] ∨ i.InOrder (log.map Prod.fst)) ∧ (log.map Prod.fst).tail = [] := by
  obtain ⟨asked, among, asks⟩ := records.requests still
  have once : asked = [] ∨ asked = [i.loginCall] := by
    rcases calls with none | login
    · rw [none] at among
      exact .inl (List.sublist_nil.mp among)
    · rw [login] at among
      exact List.sublist_singleton.mp among
  rcases once with rfl | rfl
  · have none : log.map Prod.fst = [] := List.forall₂_nil_left_iff.mp asks
    exact ⟨.inl none, by rw [none, List.tail_nil]⟩
  · obtain ⟨login, others, logsIn, nothing, single⟩ := List.forall₂_cons_left_iff.mp asks
    obtain rfl := List.forall₂_nil_left_iff.mp nothing
    rw [single, List.tail_cons]
    exact ⟨.inr ⟨login, [], [], rfl, ⟨service, made, logsIn⟩, by simp⟩, rfl⟩

theorem gets_of_unready {service : Service} {ready : List Sighting → Prop} {seen : List Sighting}
    {result : Except Failure (Option Json.Value)} {log : List (Request × Http.Outcome)}
    (careful : Careful ready seen result) (unready : ¬ready seen)
    (records : service.Records seen log) (still : ∀ entry ∈ log, entry.2.IsStill) :
    (∀ r ∈ log.map Prod.fst, r.method = .get) ∧ ∃ failure, result = .error failure := by
  refine ⟨fun r member => ?_, ?_⟩
  · obtain ⟨c, called, asks⟩ := records.call_of_request still member
    obtain ⟨reads, alterations, split, gets, -, alter⟩ := careful.orderly
    rw [asks.method]
    have part := called
    rw [split] at part
    rcases List.mem_append.mp part with read | altered
    · exact gets c read
    · exact absurd (careful.changes ⟨c, called, alter c altered⟩) unready
  · cases result with
    | ok document => exact absurd (careful.succeeds ⟨document, rfl⟩) unready
    | error failure => exact ⟨failure, rfl⟩

/-- What a process sends is in order, if it sends anything; and a process that is not ready
only reads after its login, and fails. -/
theorem conduct_of_transcript {i : Invocation} {service : Service} {seen : List Sighting}
    {result : Except Failure (Option Json.Value)} {log : List (Request × Http.Outcome)}
    (made : i.service = .ok service)
    (transcript : i.procedure.Transcript i.client seen (some result))
    (records : service.Records seen log) (still : ∀ entry ∈ log, entry.2.IsStill) :
    (log.map Prod.fst = [] ∨ i.InOrder (log.map Prod.fst)) ∧
      (¬i.Ready seen → (∀ r ∈ (log.map Prod.fst).tail, r.method = .get) ∧
        ∃ failure, result = .error failure) := by
  obtain ⟨calls, failed, -⟩ | ⟨user, rest, rfl, later⟩ := transcript_login transcript
  · -- The login failed: at most its own request went out.
    obtain ⟨order, single⟩ := inOrder_of_login made calls records still
    exact ⟨order, fun _ => ⟨by simp [single], failed⟩⟩
  · -- The login succeeded: what follows is what the command itself asks.
    cases records with
    | cons shows records =>
      cases shows with
      | started =>
        obtain ⟨trail, reply, log, rfl, pursues, -, shown⟩ := records.of_answered
        rw [List.nil_append] at still ⊢
        obtain ⟨here, stillAfter⟩ := List.forall_mem_append.mp still
        obtain ⟨login, outcome, rfl, logsIn⟩ := pursues.of_still here
        have careful := i.command.careful i.options i.client rest result later
        refine ⟨.inr (inOrder_of_orderly made logsIn careful.orderly shown stillAfter),
          fun unready => ?_⟩
        have unready : ¬i.command.Ready i.options rest := fun ready =>
          unready ⟨⟨user, by simp [Answered]⟩, ready.after [_, _]⟩
        exact gets_of_unready careful unready shown stillAfter

/-- A process whose login cannot be sent sends nothing, and the requests of all others are in
order. Unless everything is there that it relies on, a process only reads after the login,
prints nothing and fails; and so does a process whose words are of no use. -/
theorem changes_last (i : Invocation) {network : Network σ} (direct : network.Direct)
    (server : σ) :
    let requests := (i.log network server).map Prod.fst
    (∃ report, (i.run network server).1 = some report ∧
      (i.Stranded ∧ requests = [] ∨ ¬i.Stranded ∧ i.InOrder requests) ∧
      (¬i.Ready (i.seen network server) →
        (∀ r ∈ requests.tail, r.method = .get) ∧ report.exit ≠ 0 ∧ report.output = "")) ∧
    ∀ usage : Usage, usage.isRequest = false →
      (Report.ofUsage usage).exit ≠ 0 ∧ (Report.ofUsage usage).output = "" := by
  intro requests
  refine ⟨?_, fun usage misuse => Report.ofUsage_of_misuse misuse⟩
  -- Which of the two it is, is decided by the login alone.
  have decided (order : requests = [] ∨ i.InOrder requests) :
      i.Stranded ∧ requests = [] ∨ ¬i.Stranded ∧ i.InOrder requests := by
    have empty : requests = [] ↔ i.Stranded :=
      List.map_eq_nil_iff.trans (i.log_eq_nil_iff network server)
    by_cases stranded : i.Stranded
    · exact .inl ⟨stranded, empty.mpr stranded⟩
    · exact .inr ⟨stranded, order.resolve_left fun none => stranded (empty.mp none)⟩
  have watched := i.watched_run network server
  generalize (i.run network server).1 = report at watched
  have sent : requests = (i.log network server).map Prod.fst := rfl
  generalize i.log network server = log at watched sent
  generalize i.seen network server = seen at watched
  cases watched with
  | @unreachable failure _ =>
    exact ⟨_, rfl, decided (.inl sent),
      fun _ => ⟨by simp [sent], Report.ofResult_of_error failure⟩⟩
  | @reached service _ _ result made transcript records answers =>
    have still : ∀ entry ∈ log, entry.2.IsStill := fun entry member => by
      obtain ⟨s, answered⟩ := answers entry member
      rw [← answered]
      exact direct entry.1 s
    obtain ⟨order, reads⟩ := conduct_of_transcript made transcript records still
    rw [← sent] at order reads
    refine ⟨_, rfl, decided order, fun unready => ?_⟩
    obtain ⟨gets, failure, rfl⟩ := reads unready
    exact ⟨gets, Report.ofResult_of_error failure⟩

/-- The deletion of a user whose version is read first. -/
theorem deletion_in_order :
    let user := Text.runes "\x7b\"id\":\"u\",\"username\":\"ann\",\"version\":\"1\"\x7d"
    let network : Network Unit := fun r s => (.reply (match r.method with
      | .post => ⟨200, [("Authorization", "Bearer tok")], user, true⟩
      | .get => ⟨200, [], user, true⟩
      | .put | .delete => ⟨204, [], [], true⟩), s)
    let options : Options :=
      ⟨["node"], Span.ofParts 5 0, "storageos", "storageos", true, none, .skip, .text⟩
    let i : Invocation := ⟨options, .deleteUser "u" none⟩
    network.Direct ∧ ((i.log network ()).map fun entry => (entry.1.method, entry.1.target)) =
      [(.post, "/v2/auth/login"), (.get, "/v2/users/u"), (.delete, "/v2/users/u?version=1")] ∧
    i.InOrder ((i.log network ()).map Prod.fst) ∧ (i.run network ()).1 = some ⟨0, none, ""⟩ ∧
    i.Ready (i.seen network ()) := by
  intro user network options i
  have direct : network.Direct := by
    intro r s reply answered redirect
    obtain ⟨place, method, target, body, authorization, userAgent⟩ := r
    cases answered
    cases method <;> simp [Http.redirects] at redirect
  have requests : ((i.log network ()).map fun entry => (entry.1.method, entry.1.target)) =
      [(.post, "/v2/auth/login"), (.get, "/v2/users/u"), (.delete, "/v2/users/u?version=1")] := by
    decide +kernel
  have ran : (i.run network ()).1 = some ⟨0, none, ""⟩ := by decide +kernel
  obtain ⟨⟨report, reported, order, unready⟩, -⟩ := i.changes_last direct ()
  rw [ran] at reported
  cases reported
  refine ⟨direct, requests, (order.resolve_left fun stranded => ?_).2, ran, ?_⟩
  · rw [List.map_eq_nil_iff.mp stranded.2] at requests
    cases requests
  · refine Classical.byContradiction fun failed => ?_
    obtain ⟨-, fails, -⟩ := unready failed
    exact fails rfl

/-- Without an endpoint there is not even a login. -/
theorem nothing_sent_without_endpoint :
    let words := ["get", "cluster", "--endpoints", " "]
    let network : Network Unit := fun _ s => (.silent, s)
    ∃ i, ofWords (fun _ => none) words = .ok i ∧ network.Direct ∧ i.log network () = [] ∧
      (i.run network ()).1 = some ⟨2, some "error: no API endpoint configured", ""⟩ := by
  intro words network
  refine ⟨_, rfl, nofun, rfl, ?_⟩
  decide +kernel

end Invocation

end StorageControl
