import StorageControl.Proofs.Coupling
import StorageControl.Proofs.Effects
import StorageControl.Proofs.Log
import StorageControl.Proofs.Token

/-! What a command shows of its secrets.

Two runs of a command may differ in the password of the login, in the credential that the
login hands out and in the password of a new user. When they are answered alike otherwise,
they go side by side from the first request to the last, and leave the same report: nothing
that is printed depends on a secret.
-/

set_option autoImplicit false

namespace StorageControl

variable {σ τ : Type}

/-! ### Answers that are the same up to a credential -/

namespace Http

/-- Replies that are the same up to the credential in them; either both hand one out or
none does. -/
structure Reply.SameBut (r r' : Reply) : Prop where
  status : r.status = r'.status
  headers : (r.headers.filter fun h => h.1.toLower ≠ "authorization") =
    r'.headers.filter fun h => h.1.toLower ≠ "authorization"
  body : r.body = r'.body
  isWhole : r.isWhole = r'.isWhole
  granted : (Service.handedOut r).isSome = (Service.handedOut r').isSome

inductive Outcome.SameBut : Outcome → Outcome → Prop where
  | reply {r r' : Reply} (same : r.SameBut r') : SameBut (.reply r) (.reply r')
  | lost : SameBut .lost .lost
  | silent : SameBut .silent .silent

inductive Ending.SameBut : Ending → Ending → Prop where
  | reply {r r' : Reply} (same : r.SameBut r') : SameBut (.reply r) (.reply r')
  | flawed (flaw : Flaw) : SameBut (.flawed flaw) (.flawed flaw)
  | silent : SameBut .silent .silent

variable {r r' : Reply}

theorem Reply.SameBut.isSuccess (same : r.SameBut r') : r.isSuccess = r'.isSuccess := by
  rw [Reply.isSuccess, Reply.isSuccess, same.status]

/-- A header of any other name is in both replies. -/
theorem Reply.SameBut.header? (same : r.SameBut r') {name : String}
    (other : name.toLower ≠ "authorization") : r.header? name = r'.header? name := by
  have kept (headers : List (String × String)) :
      headers.find? (fun h => h.1.toLower == name.toLower) =
        (headers.filter fun h => h.1.toLower ≠ "authorization").find?
          fun h => h.1.toLower == name.toLower := by
    rw [List.find?_filter]
    congr 1
    funext h
    by_cases named : h.1.toLower = name.toLower
    · simp [named, other]
    · simp [named]
  rw [Reply.header?, Reply.header?, kept r.headers, kept r'.headers, same.headers]

/-! ### Exchanges -/

/-- Logs that differ at one place by more than secrets. -/
def Diverged (log log' : List (Request × Outcome)) : Prop :=
  ∃ (n : Nat) (a b : Request × Outcome), log[n]? = some a ∧ log'[n]? = some b ∧ ¬a.2.SameBut b.2

theorem getElem?_of_prefix {α : Type} {items longer : List α} (begins : items <+: longer) {n : Nat}
    {a : α} (here : items[n]? = some a) : longer[n]? = some a := by
  obtain ⟨bound, rfl⟩ := List.getElem?_eq_some_iff.mp here
  exact List.prefix_iff_getElem?.mp begins n bound

theorem Diverged.grow {log log' longer longer' : List (Request × Outcome)}
    (diverged : Diverged log log') (near : log <+: longer) (far : log' <+: longer') :
    Diverged longer longer' := by
  obtain ⟨n, a, b, here, there, differ⟩ := diverged
  exact ⟨n, a, b, getElem?_of_prefix near here, getElem?_of_prefix far there, differ⟩

/-- Two entries at the end of logs of one length show that these diverge. -/
theorem Diverged.of_last {log log' : List (Request × Outcome)} (even : log.length = log'.length)
    {a b : Request × Outcome} (differ : ¬a.2.SameBut b.2) : Diverged (log ++ [a]) (log' ++ [b]) :=
  ⟨log.length, a, b, by simp, by simp [even], differ⟩

/-- Errands to one address by one method. -/
structure Errand.SameBut (e e' : Errand) : Prop where
  method : e.method = e'.method
  address : e.address = e'.address

inductive Lead.SameBut : Lead → Lead → Prop where
  | stay : SameBut .stay .stay
  | flawed (flaw : Flaw) : SameBut (.flawed flaw) (.flawed flaw)
  | go (url : Url) {next next' : Errand} (same : next.SameBut next') :
      SameBut (.go url next) (.go url next')

theorem Errand.SameBut.redirected {e e' : Errand} (same : e.SameBut e') (status : Nat)
    (next : Address) (isTrusted : Bool) :
    (e.redirected status next isTrusted).SameBut (e'.redirected status next isTrusted) := by
  simp only [Errand.redirected, same.method]
  split
  · exact ⟨rfl, rfl⟩
  · exact ⟨rfl, rfl⟩

theorem lead_sameBut {e e' : Errand} (errands : e.SameBut e') (replies : r.SameBut r')
    (first : String) : (lead first e r).SameBut (lead first e' r') := by
  have location : r.header? "location" = r'.header? "location" := replies.header? (by decide +kernel)
  simp only [lead, ← replies.status, ← location, ← errands.address]
  by_cases redirect : redirects.contains r.status = true
  · rw [if_pos redirect, if_pos redirect]
    cases (r.header? "location").bind e.address.resolve? with
    | none => exact .stay
    | some destination =>
      cases destination with
      | placeless scheme text => exact .flawed _
      | address next =>
        simp only
        cases Url.ofText? next.text with
        | none => exact .flawed _
        | some url =>
          cases Url.ofText? e.address.text with
          | none => exact .flawed _
          | some here => exact .go url (errands.redirected _ _ _)
  · rw [if_neg redirect, if_neg redirect]
    exact .stay

/-- What follows the first answer of an exchange only adds to the log. -/
theorem pursue_begins (network : Network σ) (userAgent first : String) (left : Nat) (e : Errand)
    (s : Logged σ) :
    s.log ++ [(e.request userAgent, (network (e.request userAgent) s.server).1)] <+:
      (pursue network.logging userAgent first left e s).2.log := by
  unfold pursue
  simp only [Network.logging]
  rcases network (e.request userAgent) s.server with ⟨r | _ | _, server⟩
  · simp only
    cases lead first e r with
    | stay => exact List.prefix_rfl
    | flawed flaw => exact List.prefix_rfl
    | go url next =>
      cases left with
      | zero => exact List.prefix_rfl
      | succ left =>
        simp only
        split
        · obtain ⟨entries, logged, -, -⟩ := pursue_logging network userAgent first left next
            ⟨server, s.log ++ [(e.request userAgent, .reply r)]⟩
          exact ⟨entries, logged.symm⟩
        · exact List.prefix_rfl
  · exact List.prefix_rfl
  · exact List.prefix_rfl

/-- Exchanges end alike after as many requests, unless the logs diverge. -/
theorem pursue_sameBut (near : Network σ) (far : Network τ) (userAgent first : String) (left : Nat)
    {e e' : Errand} (errands : e.SameBut e') {s : Logged σ} {t : Logged τ}
    (even : s.log.length = t.log.length) :
    let x := pursue near.logging userAgent first left e s
    let y := pursue far.logging userAgent first left e' t
    (x.1.SameBut y.1 ∧ x.2.log.length = y.2.log.length) ∨ Diverged x.2.log y.2.log := by
  induction left using Nat.strongRecOn generalizing e e' s t with
  | ind left ih =>
    have begins := pursue_begins near userAgent first left e s
    have begins' := pursue_begins far userAgent first left e' t
    by_cases same : (near (e.request userAgent) s.server).1.SameBut
        (far (e'.request userAgent) t.server).1
    · clear begins begins'
      unfold pursue
      simp only [Network.logging]
      generalize near (e.request userAgent) s.server = answered at same
      generalize far (e'.request userAgent) t.server = answered' at same
      obtain ⟨outcome, server⟩ := answered
      obtain ⟨outcome', server'⟩ := answered'
      have even : (s.log ++ [(e.request userAgent, outcome)]).length =
          (t.log ++ [(e'.request userAgent, outcome')]).length := by
        simp [even]
      cases same with
      | lost => exact .inl ⟨.flawed _, even⟩
      | silent => exact .inl ⟨.silent, even⟩
      | @reply r r' same =>
        have leads := lead_sameBut errands same first
        simp only
        generalize lead first e r = led at leads
        generalize lead first e' r' = led' at leads
        cases leads with
        | stay => exact .inl ⟨.reply same, even⟩
        | flawed flaw => exact .inl ⟨.flawed flaw, even⟩
        | go url next =>
          rw [errands.address]
          cases left with
          | zero => exact .inl ⟨.flawed _, even⟩
          | succ left =>
            simp only
            split
            · exact ih left (Nat.lt_succ_self left) next even
            · exact .inl ⟨.flawed _, even⟩
    · exact .inr ((Diverged.of_last even same).grow begins begins')

end Http

namespace Service

open Http (Ending Logged Network Reply Diverged)

/-! ### Calls -/

/-- Whether a stored credential can be sent. -/
def Sendable (credential : Option Credential) : Prop :=
  (credential.map Credential.text).toList.all Http.isHeaderValue = true

theorem mem_of_withoutLeads (lead text : List Char) {c : Char}
    (member : c ∈ withoutLeads lead text) : c ∈ text := by
  induction text using withoutLeads.induct lead with
  | case1 text rest dropped shorter ih =>
    rw [withoutLeads, dropped] at member
    simp only [if_pos shorter] at member
    rw [Grammar.eq_append_of_dropLead dropped]
    exact List.mem_append_right lead (ih member)
  | case2 text rest dropped same =>
    rw [withoutLeads, dropped] at member
    simpa only [if_neg same] using member
  | case3 text kept =>
    rw [withoutLeads] at member
    simpa only [kept] using member

theorem sendable_ofText? {text : String} (plain : Http.isHeaderValue text = true) :
    Sendable (Credential.ofText? text) := by
  by_cases empty : text = ""
  · simp [Sendable, Credential.ofText?, Token.ofText?, empty]
  · simp [Sendable, Credential.ofText?, Token.ofText?, empty, Credential.text, plain]

/-- A credential that a login hands out can be sent. -/
theorem handedOut_sendable (r : Reply) : Sendable (handedOut r) := by
  unfold handedOut
  split
  next value _ =>
    split
    next readable =>
      apply sendable_ofText?
      rw [Http.isHeaderValue, List.all_eq_true, String.toList_ofList]
      intro c member
      have printable := List.all_eq_true.mp readable c (mem_of_withoutLeads _ _ member)
      simp only [Bool.or_eq_true, Bool.and_eq_true, decide_eq_true_eq] at printable ⊢
      exact printable.imp_left (And.imp_right Nat.ne_of_lt)
    next => rfl
  next => rfl

theorem login_sendable (r : Reply) : Sendable (login r).1 := by
  rcases login_cases r with ⟨none, -, -⟩ | ⟨credential, model, grants⟩
  · rw [none]
    rfl
  · rw [login_of_grants grants, ← grants.handed]
    exact handedOut_sendable r

theorem land_sendable (service : Service) (network : Network σ) (c : Call) (s : Session σ)
    (sendable : Sendable s.credential) : Sendable (service.land network c s).2.credential := by
  unfold land
  split
  next username password =>
    rw [authenticate]
    rcases service.send network _ none s.server with ⟨r | flaw | _, server⟩
    · have given := login_sendable r
      simp only
      generalize login r = brought at given
      obtain ⟨credential, user⟩ := brought
      cases credential with
      | none => exact sendable
      | some credential => exact given
    · exact sendable
    · exact sendable
  next =>
    rw [request_credential]
    exact sendable

variable {r r' : Reply}

theorem answer_sameBut (same : r.SameBut r') (c : Call) : answer c r = answer c r' := by
  have also := same.isSuccess.symm
  cases success : r.isSuccess with
  | true =>
    rw [success] at also
    simp only [answer, accepted, success, also, if_true, body, same.isWhole, same.body]
  | false =>
    rw [success] at also
    simp only [answer, accepted, success, also, Bool.false_eq_true, if_false, failureBody,
      same.status, same.isWhole, same.body]

theorem login_sameBut (same : r.SameBut r') : (login r).2 = (login r').2 := by
  have also := same.isSuccess.symm
  cases success : r.isSuccess with
  | true =>
    rw [success] at also
    have granted := same.granted
    simp only [login, accepted, success, also, if_true, body, same.isWhole, same.body]
    cases handed : handedOut r with
    | none =>
      rw [handed] at granted
      simp only [Option.isNone_iff_eq_none.mp (by simpa using granted.symm)]
    | some credential =>
      rw [handed] at granted
      obtain ⟨credential', handed'⟩ := Option.isSome_iff_exists.mp granted.symm
      simp only [handed']
      split
      · rfl
      · split <;> rfl
  | false =>
    rw [success] at also
    simp only [login, accepted, success, also, Bool.false_eq_true, if_false, failureBody,
      same.status, same.isWhole, same.body]

/-- Requests that differ in their bodies and credentials only are answered alike. -/
theorem send_sameBut (service : Service) (near : Network σ) (far : Network τ) {route route' : Route}
    (method : route.method = route'.method) (path : route.path = route'.path)
    (query : route.query = route'.query) {credential credential' : Option Credential}
    (sendable : Sendable credential) (sendable' : Sendable credential') {s : Logged σ}
    {t : Logged τ} (even : s.log.length = t.log.length) :
    let x := service.send near.logging route credential s
    let y := service.send far.logging route' credential' t
    (x.1.SameBut y.1 ∧ x.2.log.length = y.2.log.length) ∨ Diverged x.2.log y.2.log := by
  have url : service.url? route = service.url? route' := by rw [url?, url?, path, query]
  unfold send
  rw [← url]
  cases service.url? route with
  | none => exact .inl ⟨.flawed _, even⟩
  | some url =>
    simp only [show _ = true from sendable, show _ = true from sendable', if_true, Http.exchange]
    split
    · refine Http.pursue_sameBut near far _ _ _ ?_ even
      exact ⟨method, rfl⟩
    · exact .inl ⟨.flawed _, even⟩

/-! ### Runs -/

/-- Sessions that are as far as each other, with credentials that can be sent. -/
structure InTune (s : Session (Logged σ)) (t : Session (Logged τ)) : Prop where
  near : Sendable s.credential
  far : Sendable t.credential
  even : s.server.log.length = t.server.log.length

/-- Sessions whose logs show that they were not answered alike. -/
def Apart (s : Session (Logged σ)) (t : Session (Logged τ)) : Prop :=
  Diverged s.server.log t.server.log

theorem shown_sendable (c : Call) {stored : Option Credential} (sendable : Sendable stored) :
    Sendable (shown c stored) := by
  cases c with
  | authenticate => rfl
  | _ => exact sendable

/-- Two calls go alike when they ask alike and make the same of alike replies. -/
theorem twins_of_brings {β : Type} (service : Service) (near : Network σ) (far : Network τ)
    {c c' : Call} {read : c.Reply → β} {read' : c'.Reply → β}
    (method : c.route.method = c'.route.method) (path : c.route.path = c'.route.path)
    (query : c.route.query = c'.route.query)
    (flaws : ∀ fault, read (.error fault) = read' (.error fault))
    (replies : ∀ r r', r.SameBut r' → read (brings c r) = read' (brings c' r')) :
    Twins (service.transport near.logging) (service.transport far.logging) InTune Apart
      read read' where
  start s t inTune := ⟨rfl, inTune⟩
  land s t inTune := by
    show ((service.land near.logging c s).1.map read = (service.land far.logging c' t).1.map read' ∧
        InTune (service.land near.logging c s).2 (service.land far.logging c' t).2) ∨
      Apart (service.land near.logging c s).2 (service.land far.logging c' t).2
    obtain ⟨reads, served⟩ := service.land_eq near.logging c s
    obtain ⟨reads', served'⟩ := service.land_eq far.logging c' t
    have sent := service.send_sameBut near far method path query (shown_sendable c inTune.near)
      (shown_sendable c' inTune.far) inTune.even
    simp only [← served, ← served'] at sent
    refine sent.imp_left fun ⟨ends, even⟩ => ⟨?_, ?_, ?_, even⟩
    · rw [reads, reads']
      generalize (service.send near.logging _ _ _).1 = ending at ends
      generalize (service.send far.logging _ _ _).1 = ending' at ends
      cases ends with
      | reply same => exact congrArg some (replies _ _ same)
      | flawed flaw => exact congrArg some (flaws _)
      | silent => rfl
    · exact service.land_sendable near.logging c s inTune.near
    · exact service.land_sendable far.logging c' t inTune.far

theorem brings_sameBut (same : r.SameBut r') (c : Call) : brings c r = brings c r' := by
  cases c with
  | authenticate => exact login_sameBut same
  | _ => exact answer_sameBut same _

/-- One service over two networks that may hand out different credentials. -/
def coupling (service : Service) (near : Network σ) (far : Network τ) :
    Coupling (Session (Logged σ)) (Session (Logged τ)) where
  near := service.transport near.logging
  far := service.transport far.logging
  related := InTune
  parted := Apart
  same c := service.twins_of_brings near far rfl rfl rfl (fun _ => rfl) fun _ _ same =>
    brings_sameBut same c
  near_keeps _ := ⟨fun _ _ _ apart => apart, fun c s _ apart =>
    apart.grow (service.land_begins near c s) List.prefix_rfl⟩
  far_keeps _ := ⟨fun _ _ _ apart => apart, fun c t _ apart =>
    apart.grow List.prefix_rfl (service.land_begins far c t)⟩

end Service

/-! ### Commands -/

/-- Commands that are the same up to the password of a new user. -/
inductive Command.SameBut : Command → Command → Prop where
  | refl (command : Command) : SameBut command command
  | createUser (username password password' : String) (isAdmin : Bool) (groups : List String) :
      SameBut (.createUser username password isAdmin groups)
        (.createUser username password' isAdmin groups)

section Pace

variable {α : Type} {service : Service} {near : Http.Network σ} {far : Http.Network τ}

open Coupling (InStep InPace)

theorem inStep_of_calls {c c' : Call} {read : c.Reply → Except ApiFault α}
    {read' : c'.Reply → Except ApiFault α}
    (twins : Twins (service.transport near.logging) (service.transport far.logging)
      Service.InTune Service.Apart read read') :
    (service.coupling near far).InStep (.call c fun reply => .done (read reply))
      (.call c' fun reply => .done (read' reply)) :=
  .call twins .done

theorem inStep_authenticate (username password password' : String) :
    (service.coupling near far).InStep (Operation.authenticate username password).program
      (Operation.authenticate username password').program := by
  simp only [Operation.authenticate, Program.only_eq]
  refine inStep_of_calls
    (service.twins_of_brings near far rfl rfl rfl (fun _ => rfl) fun r r' same => ?_)
  show Call.conclude (.authenticate username password) (Service.login r).2 = _
  rw [Service.login_sameBut same]
  simp only [Service.brings]
  cases (Service.login r').2 <;> rfl

theorem inStep_createUser (spec : UserSpec) (password : String) :
    (service.coupling near far).InStep (Operation.createUser spec).program
      (Operation.createUser { spec with password }).program := by
  simp only [Operation.createUser, Program.only_eq]
  refine inStep_of_calls
    (service.twins_of_brings near far rfl rfl rfl (fun _ => rfl) fun r r' same => ?_)
  show Call.conclude (.createUser spec) (Service.answer (.createUser spec) r) = _
  rw [Service.answer_sameBut same]
  simp only [Service.brings]
  have answered : Service.answer (.createUser { spec with password }) r' =
    Service.answer (.createUser spec) r' := rfl
  rw [answered]
  cases Service.answer (.createUser spec) r' <;> rfl

theorem inPace_ask {β : Type} {C : Coupling σ τ} {operation operation' : Operation β}
    (named : operation.name = operation'.name)
    (inStep : C.InStep operation.program operation'.program) (next : β → Procedure α) :
    C.InPace (.ask operation next) (.ask operation' next) :=
  .perform named inStep fun _ => .refl C _

theorem inPace_procedure {command command' : Command} (same : command.SameBut command')
    (o : Options) (password : String) :
    (service.coupling near far).InPace (command.procedure o)
      (command'.procedure { o with password }) := by
  cases same with
  | refl =>
    have same : command.procedure { o with password } = command.procedure o := by
      cases command <;> rfl
    rw [same]
    exact .refl _ _
  | createUser username secret secret' isAdmin groups =>
    simp only [Command.procedure]
    cases Argument.ids "policy group" groups with
    | error fault => exact .refl _ _
    | ok groups =>
      have inStep : (service.coupling near far).InStep _ _ :=
        inStep_createUser ⟨username, secret, isAdmin, groups⟩ secret'
      exact inPace_ask (by rfl) inStep _

end Pace

namespace Invocation

open Http (Logged Network)

/-- The same invocation with other passwords. -/
inductive SameBut (i : Invocation) : Invocation → Prop where
  | mk (password : String) {command : Command} (same : i.command.SameBut command) :
      SameBut i ⟨{ i.options with password }, command⟩

theorem inPace {service : Service} {near : Network σ} {far : Network τ} {i j : Invocation}
    (same : i.SameBut j) : (service.coupling near far).InPace i.procedure j.procedure := by
  obtain ⟨password, same⟩ := same
  refine .perform rfl (inStep_authenticate _ _ _) fun result => ?_
  cases result with
  | error fault => exact .refl _ _
  | ok user => exact inPace_procedure same i.options password

/-- What a command prints and how it exits depends on no secret: not on the password of the
login, not on the credential that the login hands out, and not on the password of a new
user. Both runs send as many requests, and a specification is described without the
password. -/
theorem reports_no_secret {i j : Invocation} (same : i.SameBut j) (near : Network σ)
    (far : Network τ) (s : σ) (t : τ)
    (answers : ∀ (n : Nat) a b, (i.log near s)[n]? = some a → (j.log far t)[n]? = some b →
      a.2.SameBut b.2) :
    (i.run near s).1 = (j.run far t).1 ∧ (i.log near s).length = (j.log far t).length ∧
      ∀ (spec : UserSpec) (password : String),
        Document.describeUserSpec { spec with password } = Document.describeUserSpec spec := by
  rw [← and_assoc]
  refine ⟨?_, fun _ _ => rfl⟩
  have service : j.service = i.service := by
    obtain ⟨password, same⟩ := same
    rfl
  have client : j.client = i.client := by
    obtain ⟨password, same⟩ := same
    rfl
  rw [run_logging i, run_logging j]
  unfold log at answers ⊢
  unfold run at answers ⊢
  rw [service, client] at answers ⊢
  cases made : i.service with
  | error failure => exact ⟨rfl, rfl⟩
  | ok service =>
    rw [made] at answers
    simp only at answers ⊢
    have beside : (service.coupling near far).Beside 0 ⟨⟨none, ⟨s, []⟩⟩, 0, [], none⟩
      ⟨⟨none, ⟨t, []⟩⟩, 0, [], none⟩ := ⟨⟨rfl, rfl, rfl⟩, rfl, rfl⟩
    rcases Coupling.run_procedure_agree i.client (inPace same) beside with ⟨ends, beside⟩ | apart
    · exact ⟨congrArg (Option.map Report.ofResult) ends, beside.server.even⟩
    · obtain ⟨n, a, b, here, there, differ⟩ := apart
      exact absurd (answers n a b here there) differ

theorem log_answers (i : Invocation) (network : Network σ) (server : σ) :
    ∀ entry ∈ i.log network server, network.Answers entry := by
  have watched := i.watched_run network server
  generalize i.log network server = log at watched
  generalize i.seen network server = seen at watched
  generalize (i.run network server).1 = report at watched
  cases watched with
  | unreachable => exact fun _ member => absurd member List.not_mem_nil
  | reached _ _ _ answers => exact answers

/-- A new user, with other passwords and another credential. -/
theorem reports_no_secret_of_new_user :
    let user := Text.runes "\x7b\"id\":\"u\",\"username\":\"bob\",\"version\":\"1\"\x7d"
    let handing (token : String) : Http.Reply :=
      ⟨200, [("Authorization", "Bearer " ++ token)], user, true⟩
    let network (token : String) : Network Unit := fun _ s => (.reply (handing token), s)
    let options (password : String) : Options :=
      ⟨["node"], Span.ofParts 5 0, "storageos", password, false, none, .skip, .text⟩
    let i : Invocation := ⟨options "old", .createUser "bob" "first" false []⟩
    let j : Invocation := ⟨options "new", .createUser "bob" "second" false []⟩
    i.SameBut j ∧ (handing "one").SameBut (handing "two") ∧
      (i.run (network "one") ()).1.map Report.exit = some 0 ∧
      (i.run (network "one") ()).1 = (j.run (network "two") ()).1 := by
  intro user handing network options i j
  have invocations : i.SameBut j := .mk "new" (.createUser "bob" "first" "second" false [])
  have replies : (handing "one").SameBut (handing "two") := by
    refine ⟨rfl, ?_, rfl, rfl, ?_⟩
    · decide +kernel
    · decide +kernel
  refine ⟨invocations, replies, by decide +kernel, ?_⟩
  refine (reports_no_secret invocations (network "one") (network "two") () () ?_).1
  intro n a b here there
  obtain ⟨_, answered⟩ := i.log_answers _ () a (List.mem_of_getElem? here)
  obtain ⟨_, answered'⟩ := j.log_answers _ () b (List.mem_of_getElem? there)
  rw [← answered, ← answered']
  exact .reply replies

end Invocation

end StorageControl
