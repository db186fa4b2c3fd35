import StorageControl.Command.Report
import StorageControl.Proofs.Request
import StorageControl.Proofs.Session

/-! The log of a network.

A network can be made to log every request that reaches it, with what became of it. A
call that takes effect leaves a trail in the log: its request, and one request for every
redirect that is followed. What the transport sees of the call is how its trail ends.
-/

set_option autoImplicit false

namespace StorageControl

variable {σ : Type}

/-- An item of a list with one more at its end is this one, or it was there before. -/
theorem split_snoc {α : Type} {items before after : List α} {last item : α}
    (split : items ++ [last] = before ++ item :: after) :
    (items = before ∧ last = item) ∨ ∃ rest, items = before ++ item :: rest := by
  rcases List.eq_nil_or_concat after with rfl | ⟨rest, final, rfl⟩
  · obtain ⟨same, ends⟩ := List.append_inj' split rfl
    exact .inl ⟨same, List.singleton_inj.mp ends⟩
  · rw [List.concat_eq_append, ← List.cons_append, ← List.append_assoc] at split
    exact .inr ⟨rest, (List.append_inj' split rfl).1⟩

namespace Http

/-- A network's state, and what it was asked and what became of it. -/
structure Logged (σ : Type) where
  server : σ
  log : List (Request × Outcome)

def Network.logging (network : Network σ) : Network (Logged σ) := fun r s =>
  let (outcome, server) := network r s.server
  (outcome, ⟨server, s.log ++ [(r, outcome)]⟩)

/-- Whether a request, and what became of it, may be in the log of a network. -/
def Network.Answers (network : Network σ) (entry : Request × Outcome) : Prop :=
  ∃ s, (network entry.1 s).1 = entry.2

/-- Whether an outcome is a redirect by its status. -/
def Outcome.isRedirect : Outcome → Bool
  | .reply r => redirects.contains r.status
  | _ => false

/-- Whether an outcome leads to no other place. -/
def Outcome.IsStill (outcome : Outcome) : Prop :=
  ∀ r, outcome = .reply r → redirects.contains r.status = true → r.header? "location" = none

/-- Whether no reply leads to another place. -/
def Network.Direct (network : Network σ) : Prop := ∀ r s, (network r s).1.IsStill

/-- The entries of an exchange in the log, and how it ends. Every entry but the first is
for a request that follows a redirect. -/
inductive Trail (userAgent first : String) : Errand → List (Request × Outcome) → Ending → Prop where
  | lost (e : Errand) :
      Trail userAgent first e [(e.request userAgent, .lost)] (.flawed (.unsent first))
  | silent (e : Errand) : Trail userAgent first e [(e.request userAgent, .silent)] .silent
  | stayed {e : Errand} {r : Reply} (stays : lead first e r = .stay) :
      Trail userAgent first e [(e.request userAgent, .reply r)] (.reply r)
  | astray {e : Errand} {r : Reply} (leads : lead first e r ≠ .stay) (flaw : Flaw) :
      Trail userAgent first e [(e.request userAgent, .reply r)] (.flawed flaw)
  | led {e next : Errand} {r : Reply} {url : Url} {entries : List (Request × Outcome)}
      {ending : Ending} (leads : lead first e r = .go url next)
      (rest : Trail userAgent first next entries ending) :
      Trail userAgent first e ((e.request userAgent, .reply r) :: entries) ending

section Trails

variable {userAgent first : String} {e : Errand} {entries : List (Request × Outcome)}
  {ending : Ending}

theorem lead_of_still {r : Reply} (still : (Outcome.reply r).IsStill) : lead first e r = .stay := by
  unfold lead
  split
  next redirect =>
    rw [still r rfl redirect]
    rfl
  next => rfl

theorem redirects_of_lead {r : Reply} (leads : lead first e r ≠ .stay) :
    redirects.contains r.status = true := by
  by_contra stays
  exact leads (by rw [lead, if_neg stays])

theorem Trail.of_still (trail : Trail userAgent first e entries ending)
    (still : ∀ entry ∈ entries, entry.2.IsStill) :
    ∃ outcome, entries = [(e.request userAgent, outcome)] := by
  cases trail with
  | lost | silent | stayed | astray => exact ⟨_, rfl⟩
  | led leads rest =>
    rw [lead_of_still (still _ List.mem_cons_self)] at leads
    cases leads

/-- An entry of a trail is the first, or it follows redirects only. -/
theorem Trail.follows (trail : Trail userAgent first e entries ending)
    {front rest : List (Request × Outcome)} {entry : Request × Outcome}
    (split : entries = front ++ entry :: rest) :
    (∀ other ∈ front, other.2.isRedirect = true) ∧
      (front = [] → entry.1 = e.request userAgent) := by
  induction trail generalizing front with
  | lost | silent | stayed | astray =>
    cases front with
    | nil =>
      obtain ⟨rfl, -⟩ := List.cons.inj split
      exact ⟨by simp, fun _ => rfl⟩
    | cons head front => simp at split
  | @led e next r url entries ending leads trail ih =>
    cases front with
    | nil =>
      obtain ⟨rfl, -⟩ := List.cons.inj split
      exact ⟨by simp, fun _ => rfl⟩
    | cons head front =>
      obtain ⟨rfl, later⟩ := List.cons.inj split
      have away : lead first e r ≠ .stay := by rw [leads]; exact nofun
      exact ⟨List.forall_mem_cons.mpr ⟨redirects_of_lead away, (ih later).1⟩, nofun⟩

/-- Whether a request goes to the location in the reply to another one. -/
def Request.Follows (r before : Request) (reply : Reply) : Prop :=
  ∃ here there : Address, before.place = placeOf here ∧ before.target = here.target ∧
    (reply.header? "location").bind here.resolve? = some (.address there) ∧
    r.place = placeOf there ∧ r.target = there.target

theorem next_of_lead {next : Errand} {r : Reply} {url : Url}
    (leads : lead first e r = .go url next) :
    (r.header? "location").bind e.address.resolve? = some (.address next.address) ∧
      ∃ isTrusted, next = e.redirected r.status next.address isTrusted := by
  unfold lead at leads
  split at leads
  next =>
    split at leads
    next => cases leads
    next => cases leads
    next there located =>
      split at leads
      next url' here _ _ =>
        have address (isTrusted : Bool) :
            (e.redirected r.status there isTrusted).address = there := by
          unfold Errand.redirected
          split <;> rfl
        cases leads
        rw [address]
        exact ⟨located, _, rfl⟩
      next => cases leads
  next => cases leads

theorem kept_of_lead {next : Errand} {r : Reply} {url : Url}
    (leads : lead first e r = .go url next) :
    next.method = .get ∨ (next.method = e.method ∧ next.body = e.body) := by
  obtain ⟨-, isTrusted, same⟩ := next_of_lead leads
  rw [same, Errand.redirected]
  split
  · exact .inl rfl
  · exact .inr ⟨rfl, rfl⟩

/-- The request behind another one in a trail goes where the reply to that one says. -/
theorem Trail.redirected (trail : Trail userAgent first e entries ending)
    {front rest : List (Request × Outcome)} {before r : Request} {outcome after : Outcome}
    (split : entries = front ++ (before, outcome) :: (r, after) :: rest) :
    ∃ reply, outcome = .reply reply ∧ r.Follows before reply := by
  induction trail generalizing front with
  | lost | silent | stayed | astray =>
    have count := congrArg List.length split
    simp only [List.length_append, List.length_cons, List.length_nil] at count
    omega
  | @led e next reply url entries ending leads trail ih =>
    cases front with
    | nil =>
      obtain ⟨here, later⟩ := List.cons.inj split
      obtain ⟨rfl, rfl⟩ := Prod.mk.inj here
      have begins : entries = [] ++ (r, after) :: rest := later
      obtain rfl : r = next.request userAgent := (trail.follows begins).2 rfl
      exact ⟨reply, rfl, e.address, next.address, rfl, rfl, (next_of_lead leads).1, rfl, rfl⟩
    | cons head front =>
      obtain ⟨-, later⟩ := List.cons.inj split
      exact ih later

/-- A redirect turns a request into a GET, or leaves its method and its body. -/
theorem Trail.kept (trail : Trail userAgent first e entries ending) :
    ∀ entry ∈ entries, entry.1.method = .get ∨
      (entry.1.method = e.method ∧ entry.1.body = e.body) := by
  induction trail with
  | lost | silent | stayed | astray => simp [Errand.request]
  | @led e next r url entries ending leads trail ih =>
    refine List.forall_mem_cons.mpr ⟨.inr ⟨rfl, rfl⟩, fun entry member => ?_⟩
    rcases ih entry member with get | ⟨method, body⟩
    · exact .inl get
    · rw [method, body]
      exact kept_of_lead leads

end Trails

theorem pursue_logging (network : Network σ) (userAgent first : String) (left : Nat) (e : Errand)
    (s : Logged σ) :
    ∃ entries, (pursue network.logging userAgent first left e s).2.log = s.log ++ entries ∧
      Trail userAgent first e entries (pursue network.logging userAgent first left e s).1 ∧
      ∀ entry ∈ entries, network.Answers entry := by
  -- On the redirects that are left: one that is followed has a trail of its own behind it.
  induction left using Nat.strongRecOn generalizing e s with
  | ind left ih =>
    unfold pursue
    simp only [Network.logging]
    have answers : network.Answers
        (e.request userAgent, (network (e.request userAgent) s.server).1) := ⟨s.server, rfl⟩
    generalize network (e.request userAgent) s.server = answered at answers
    obtain ⟨outcome, server⟩ := answered
    have single : ∀ entry ∈ [(e.request userAgent, outcome)], network.Answers entry := by
      simpa using answers
    cases outcome with
    | lost => exact ⟨_, rfl, .lost e, single⟩
    | silent => exact ⟨_, rfl, .silent e, single⟩
    | reply r =>
      simp only
      cases leads : lead first e r with
      | stay => exact ⟨_, rfl, .stayed leads, single⟩
      | flawed flaw => exact ⟨_, rfl, .astray (by rw [leads]; exact nofun) flaw, single⟩
      | go url next =>
        have away : lead first e r ≠ .stay := by rw [leads]; exact nofun
        cases left with
        | zero => exact ⟨_, rfl, .astray away _, single⟩
        | succ left =>
          simp only
          split
          · obtain ⟨entries, logged, trail, given⟩ := ih left (Nat.lt_succ_self left) next
              ⟨server, s.log ++ [(e.request userAgent, .reply r)]⟩
            exact ⟨_ :: entries, logged.trans (List.append_assoc _ _ _), .led leads trail,
              List.forall_mem_cons.mpr ⟨answers, given⟩⟩
          · exact ⟨_, rfl, .astray away _, single⟩

theorem pursue_of_logging (network : Network σ) (userAgent first : String) (left : Nat)
    (e : Errand) (s : Logged σ) :
    pursue network userAgent first left e s.server =
      Prod.map id Logged.server (pursue network.logging userAgent first left e s) := by
  induction left generalizing e s with
  | zero =>
    simp only [pursue, Network.logging]
    rcases network (e.request userAgent) s.server with ⟨r | _ | _, server⟩
    · simp only
      cases lead first e r <;> rfl
    · rfl
    · rfl
  | succ left ih =>
    unfold pursue
    simp only [Network.logging]
    rcases network (e.request userAgent) s.server with ⟨r | _ | _, server⟩
    · simp only
      cases lead first e r with
      | stay => rfl
      | flawed flaw => rfl
      | go url next =>
        simp only
        split
        · exact ih next ⟨server, s.log ++ [(e.request userAgent, .reply r)]⟩
        · rfl
    · rfl
    · rfl

end Http

namespace Service

open Http (Ending Errand Logged Network Outcome Request)

/-- The first errand of a request and its URL, unless it cannot be sent. -/
def errand? (service : Service) (route : Route) (credential : Option Credential) :
    Option (String × Errand) :=
  match service.url? route with
  | none => none
  | some url =>
    let tokens := (credential.map Credential.text).toList
    if tokens.all Http.isHeaderValue && Http.isUsable url.withoutLogin then
      some (url.withoutLogin.text,
        ⟨route.method, Address.ofUrl url.withoutLogin, route.body.map Json.Value.text,
          (Http.basicCredential url).toList ++ tokens, true⟩)
    else none

theorem send_of_errand {service : Service} {route : Route} {credential : Option Credential}
    {first : String} {e : Errand} (made : service.errand? route credential = some (first, e))
    (network : Network σ) (s : σ) :
    service.send network route credential s =
      Http.pursue network service.userAgent first Http.patience e s := by
  unfold errand? at made
  unfold send
  cases url : service.url? route with
  | none =>
    rw [url] at made
    cases made
  | some url =>
    simp only [url] at made ⊢
    split at made
    next sendable =>
      obtain ⟨tokens, usable⟩ := Bool.and_eq_true_iff.mp sendable
      cases made
      rw [if_pos tokens, Http.exchange, if_pos usable]
    next => cases made

theorem send_of_unmade {service : Service} {route : Route} {credential : Option Credential}
    (unmade : service.errand? route credential = none) :
    ∃ flaw, ∀ {σ : Type} (network : Network σ) (s : σ),
      service.send network route credential s = (.flawed flaw, s) := by
  unfold errand? at unmade
  unfold send
  cases parsed : service.url? route with
  | none => exact ⟨.unbuilt, fun _ _ => rfl⟩
  | some url =>
    simp only [parsed] at unmade ⊢
    split
    next tokens =>
      have unusable : Http.isUsable url.withoutLogin = false := by simpa [tokens] using unmade
      exact ⟨_, fun _ _ => by rw [Http.exchange, unusable]; rfl⟩
    next => exact ⟨.unbuilt, fun _ _ => rfl⟩

theorem send_of_logging (service : Service) (network : Network σ) (route : Route)
    (credential : Option Credential) (s : Logged σ) :
    service.send network route credential s.server =
      Prod.map id Logged.server (service.send network.logging route credential s) := by
  cases made : service.errand? route credential with
  | none =>
    obtain ⟨flaw, sent⟩ := send_of_unmade made
    rw [sent, sent]
    rfl
  | some errand =>
    obtain ⟨first, e⟩ := errand
    rw [send_of_errand made, send_of_errand made]
    exact Http.pursue_of_logging network _ first _ e s

theorem errand?_method {service : Service} {route : Route} {credential : Option Credential}
    {first : String} {e : Errand} (made : service.errand? route credential = some (first, e)) :
    e.method = route.method := by
  unfold errand? at made
  split at made
  · cases made
  · simp only at made
    split at made
    · cases made
      rfl
    · cases made

def brings : (c : Call) → Http.Reply → c.Reply
  | .authenticate _ _, r => (login r).2
  | c, r => answer c r

def reading (c : Call) : Ending → Option c.Reply
  | .reply r => some (brings c r)
  | .flawed flaw => some (.error (fault flaw))
  | .silent => none

/-- The credential that goes with a call, given the stored one. -/
def shown : Call → Option Credential → Option Credential
  | .authenticate _ _, _ => none
  | _, stored => stored

theorem land_eq (service : Service) (network : Network σ) (c : Call) (s : Session σ) :
    (service.land network c s).1 =
        reading c (service.send network c.route (shown c s.credential) s.server).1 ∧
      (service.land network c s).2.server =
        (service.send network c.route (shown c s.credential) s.server).2 := by
  cases c with
  | authenticate username password =>
    simp only [land, authenticate, shown]
    rcases service.send network _ none s.server with ⟨r | flaw | _, server⟩ <;> exact ⟨rfl, rfl⟩
  | _ =>
    simp only [land, request, shown]
    rcases service.send network _ s.credential s.server with ⟨r | flaw | _, server⟩ <;>
      exact ⟨rfl, rfl⟩

/-- The trail of a call, and how it ends. A login shows no credential. -/
inductive Pursues (service : Service) (c : Call) : List (Request × Outcome) → Ending → Prop where
  | sent {credential : Option Credential} {first : String} {e : Errand}
      {entries : List (Request × Outcome)} {ending : Ending}
      (bare : ∀ username password, c = .authenticate username password → credential = none)
      (made : service.errand? c.route credential = some (first, e))
      (trail : Http.Trail service.userAgent first e entries ending) :
      Pursues service c entries ending

/-- A sighting, and the entries of the log that belong to it. -/
inductive Shows (service : Service) : Sighting → List (Request × Outcome) → Prop where
  | started (c : Call) : Shows service (.started c) []
  | unsent (c : Call) (flaw : Http.Flaw) : Shows service (.landed c (some (.error (fault flaw)))) []
  | sent {c : Call} {entries : List (Request × Outcome)} {ending : Ending}
      (pursues : service.Pursues c entries ending) :
      Shows service (.landed c (reading c ending)) entries

inductive Records (service : Service) : List Sighting → List (Request × Outcome) → Prop where
  | nil : Records service [] []
  | cons {s : Sighting} {seen : List Sighting} {entries log : List (Request × Outcome)}
      (shows : Shows service s entries) (rest : Records service seen log) :
      Records service (s :: seen) (entries ++ log)

variable {service : Service} {seen before after : List Sighting}
  {log : List (Request × Outcome)}

theorem Records.single {s : Sighting} (shows : Shows service s log) : Records service [s] log := by
  have records := Records.cons shows .nil
  rwa [List.append_nil] at records

theorem Records.append {more : List (Request × Outcome)} (first : Records service before log)
    (second : Records service after more) : Records service (before ++ after) (log ++ more) := by
  induction first with
  | nil => exact second
  | cons shows _ ih =>
    rw [List.append_assoc]
    exact .cons shows ih

theorem Records.split (records : Records service (before ++ after) log) :
    ∃ first second, log = first ++ second ∧ Records service before first ∧
      Records service after second := by
  -- The log is cut where the sightings are.
  induction before generalizing log with
  | nil => exact ⟨[], log, rfl, .nil, records⟩
  | cons s before ih =>
    cases records with
    | @cons _ _ entries _ shows rest =>
      obtain ⟨first, second, rfl, here, later⟩ := ih rest
      exact ⟨entries ++ first, second, (List.append_assoc _ _ _).symm, .cons shows here, later⟩

theorem land_shows (service : Service) (network : Network σ) (c : Call)
    (s : Session (Logged σ)) :
    ∃ entries, (service.land network.logging c s).2.server.log = s.server.log ++ entries ∧
      Shows service (.landed c (service.land network.logging c s).1) entries ∧
      ∀ entry ∈ entries, network.Answers entry := by
  obtain ⟨replied, served⟩ := service.land_eq network.logging c s
  have bare : ∀ username password, c = .authenticate username password →
      shown c s.credential = none := by
    rintro username password rfl
    rfl
  rw [replied, served]
  -- A request that cannot be made is seen as a fault and leaves nothing in the log.
  cases made : service.errand? c.route (shown c s.credential) with
  | none =>
    obtain ⟨flaw, sent⟩ := send_of_unmade made
    rw [sent]
    exact ⟨[], (List.append_nil _).symm, .unsent c flaw, by simp⟩
  | some errand =>
    obtain ⟨first, e⟩ := errand
    rw [send_of_errand made]
    obtain ⟨entries, logged, trail, answers⟩ :=
      Http.pursue_logging network service.userAgent first Http.patience e s.server
    exact ⟨entries, logged, .sent (.sent bare made trail), answers⟩

theorem land_begins (service : Service) (network : Network σ) (c : Call)
    (s : Session (Logged σ)) : s.server.log <+: (service.land network.logging c s).2.server.log := by
  obtain ⟨entries, logged, -, -⟩ := service.land_shows network c s
  exact ⟨entries, logged.symm⟩

/-- A session, apart from the log of its network. -/
def Session.unlogged (s : Session (Logged σ)) : Session σ := ⟨s.credential, s.server.server⟩

theorem transport_logging (service : Service) (network : Network σ) :
    (service.transport network.logging).Covers Session.unlogged (service.transport network) where
  start _ _ := rfl
  land c s := by
    show service.land network c s.unlogged =
      Prod.map id Session.unlogged (service.land network.logging c s)
    have sent (route : Route) (credential : Option Credential) :=
      service.send_of_logging network route credential s.server
    cases c with
    | authenticate username password =>
      simp only [land, authenticate, Session.unlogged, sent]
      rcases service.send network.logging _ none s.server with ⟨r | flaw | _, server⟩ <;> rfl
    | _ =>
      simp only [land, request, Session.unlogged, sent]
      rcases service.send network.logging _ s.credential s.server with ⟨r | flaw | _, server⟩ <;>
        rfl

/-- The log that a session keeps belongs to what the transport sees. -/
theorem keeps_records (service : Service) (network : Network σ) :
    Machine.Keeps (service.transport network.logging).noting (fun _ => True) fun n =>
      Records service n.seen n.server.server.log ∧
        ∀ entry ∈ n.server.server.log, network.Answers entry where
  start c n _ held := by
    obtain ⟨records, answers⟩ := held
    have records := records.append (.single (.started c))
    rw [List.append_nil] at records
    exact ⟨records, answers⟩
  land c n _ held := by
    obtain ⟨records, answers⟩ := held
    obtain ⟨entries, logged, shows, given⟩ := service.land_shows network c n.server
    have records := records.append (.single shows)
    have answers := List.forall_mem_append.mpr ⟨answers, given⟩
    rw [← logged] at records answers
    exact ⟨records, answers⟩

end Service

namespace Invocation

open Http (Logged Network)

def watched (i : Invocation) (network : Network σ) (server : σ) :
    Noted (Service.Session (Logged σ)) :=
  match i.service with
  | .error _ => ⟨⟨none, ⟨server, []⟩⟩, []⟩
  | .ok service =>
    (i.procedure.run i.client (service.transport network.logging).noting
      ⟨⟨⟨none, ⟨server, []⟩⟩, []⟩, 0, [], none⟩).2.server

def seen (i : Invocation) (network : Network σ) (server : σ) : List Sighting :=
  (i.watched network server).seen

def log (i : Invocation) (network : Network σ) (server : σ) :
    List (Http.Request × Http.Outcome) :=
  (i.run network.logging ⟨server, []⟩).2.log

/-- The log changes nothing of what a command does. -/
theorem run_logging (i : Invocation) (network : Network σ) (server : σ) :
    i.run network server = Prod.map id Logged.server (i.run network.logging ⟨server, []⟩) := by
  unfold run
  cases reached : i.service with
  | error failure => rfl
  | ok service =>
    have same := i.procedure.run_map (service.transport_logging network) i.client
      ⟨⟨none, ⟨server, []⟩⟩, 0, [], none⟩
    simp only
    rw [show (⟨⟨none, server⟩, 0, [], none⟩ : Machine (Service.Session σ)) =
      Machine.map Service.Session.unlogged ⟨⟨none, ⟨server, []⟩⟩, 0, [], none⟩ from rfl, same]
    rfl

/-- A command is not run when its service cannot be reached. Otherwise what is seen is a
transcript of its procedure, the log belongs to what is seen, and there is a report. -/
inductive Watched (i : Invocation) (network : Network σ) :
    List Sighting → List (Http.Request × Http.Outcome) → Option Report → Prop where
  | unreachable {failure : Failure} (unmade : i.service = .error failure) :
      Watched i network [] [] (some (.ofResult (.error failure)))
  | reached {service : Service} {seen : List Sighting} {log : List (Http.Request × Http.Outcome)}
      {result : Except Failure (Option Json.Value)} (made : i.service = .ok service)
      (transcript : i.procedure.Transcript i.client seen (some result))
      (records : service.Records seen log) (answers : ∀ entry ∈ log, network.Answers entry) :
      Watched i network seen log (some (.ofResult result))

theorem watched_run (i : Invocation) (network : Network σ) (server : σ) :
    Watched i network (i.seen network server) (i.log network server) (i.run network server).1 := by
  rw [run_logging]
  unfold seen log watched run
  cases reached : i.service with
  | error failure => exact .unreachable reached
  | ok service =>
    let start : Machine (Noted (Service.Session (Logged σ))) :=
      ⟨⟨⟨none, ⟨server, []⟩⟩, []⟩, 0, [], none⟩
    -- The log is kept by the network and the sightings around it; neither changes the run.
    have same :=
      i.procedure.run_map (service.transport network.logging).noting_covers i.client start
    have ends := i.procedure.run_timed i.client rfl
      (service.transport network.logging).noting start
    have records := i.procedure.run_keeps (service.keeps_records network) i.client start
      ⟨.nil, by simp [start]⟩
    obtain ⟨sightings, seen, transcript⟩ := i.procedure.run_transcript i.client
      (service.transport network.logging) start
    simp only
    rw [show (⟨⟨none, ⟨server, []⟩⟩, 0, [], none⟩ : Machine (Service.Session (Logged σ))) =
      Machine.map Noted.server start from rfl, same]
    show Watched i network (i.procedure.run i.client (service.transport network.logging).noting
      start).2.server.seen _ _
    generalize i.procedure.run i.client (service.transport network.logging).noting start = ran
      at ends records seen transcript
    obtain ⟨result, after⟩ := ran
    cases result with
    | none => exact absurd rfl ends
    | some result =>
      rw [show after.server.seen = sightings from seen] at records ⊢
      exact .reached reached transcript records.1 records.2

end Invocation

end StorageControl
