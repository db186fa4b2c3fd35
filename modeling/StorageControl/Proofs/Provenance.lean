import StorageControl.Proofs.Form
import StorageControl.Proofs.Line
import StorageControl.Proofs.Process

/-! Where the version of a change comes from.

A change that a command makes presents one version: the one on the command line, or the
one in the document that was read just before from the resource itself. On the way the
version is written into a query or into a document of its own, and whoever reads these
finds the text as it was.
-/

set_option autoImplicit false

namespace StorageControl

open Http (Ending Errand Outcome Reply Request)

variable {σ α : Type}

/-! ### Versions in requests -/

/-- The version that a request carries: in the document that it puts, or as the last pair
of that name in its query. -/
def Http.Request.version? (r : Request) : Option String :=
  match r.method with
  | .put => r.body.bind fun text =>
      ((Json.Document.ofRunes (Text.runes text)).tree.only? "version").bind Json.Tree.text?
  | _ => ((Url.targetPairs r.target).filter (·.1 == "version")).getLast?.map Prod.snd

theorem Service.errand?_parts {service : Service} {route : Route} {credential : Option Credential}
    {first : String} {e : Errand} (made : service.errand? route credential = some (first, e)) :
    e.body = route.body.map Json.Value.text ∧ ∃ url : Url, '?' ∉ url.path.toList ∧
      e.address.target = (url.withPairs route.query).target := by
  unfold errand? at made
  cases parsed : service.url? route with
  | none =>
    rw [parsed] at made
    cases made
  | some url =>
    simp only [parsed] at made
    split at made
    next =>
      cases made
      refine ⟨rfl, ?_⟩
      obtain ⟨base, read, rfl⟩ := Option.map_eq_some_iff.mp parsed
      exact ⟨base, Url.query_not_mem_path read, rfl⟩
    next => cases made

theorem version_of_pairs {before : List (String × String)} {v : Version} (asyncMax : Option Span) :
    ((before ++ Route.versionPair v :: Route.asyncPairs asyncMax).filter
      (·.1 == "version")).getLast?.map Prod.snd = some v.text := by
  have others : (Route.asyncPairs asyncMax).filter (·.1 == "version") = [] := by
    cases asyncMax <;> rfl
  rw [List.filter_append, List.filter_cons_of_pos rfl, others, List.getLast?_append]
  rfl

theorem version_of_deletion {service : Service} {c : Call} {path : String} {v : Version}
    {asyncMax : Option Span} (route : c.route = .delete path v asyncMax) {r : Request}
    (asks : service.Asks c r) : r.version? = some v.text := by
  have method := asks.method
  obtain ⟨credential, first, e, -, made, rfl⟩ := asks
  obtain ⟨-, url, plain, target⟩ := Service.errand?_parts made
  rw [route] at method target
  rw [Request.version?, method]
  show ((Url.targetPairs e.address.target).filter _).getLast?.map Prod.snd = _
  rw [target, Url.targetPairs_withPairs plain]
  exact version_of_pairs asyncMax

theorem version_of_put {change : Change} {v : Version} {r : Request} (method : r.method = .put)
    (body : r.body = (change.present v).route.body.map Json.Value.text)
    (puts : (change.present v).route.method = .put) : r.version? = some v.text := by
  rw [Request.version?, method, body]
  rcases change with ⟨scope, id, asyncMax | _ | replicas⟩ | id | id
  · cases puts
  · cases puts
  · simp only [Change.present, Call.route, Option.map_some, Option.bind_some, Json.ofRunes_text]
    rfl
  · cases puts
  · cases puts

/-- The request of a change carries the version that the change presents. -/
theorem Service.Asks.version {service : Service} {change : Change} {v : Version} {r : Request}
    (asks : service.Asks (change.present v) r) : r.version? = some v.text := by
  have method := asks.method
  rcases change with ⟨scope, id, asyncMax | _ | replicas⟩ | id | id
  · exact version_of_deletion rfl asks
  · exact version_of_deletion rfl asks
  · obtain ⟨credential, first, e, -, made, rfl⟩ := asks
    exact version_of_put method (errand?_parts made).1 rfl
  · exact version_of_deletion rfl asks
  · exact version_of_deletion rfl asks

/-! ### Versions in documents -/

/-- The version that the document of a resource has. -/
def Change.written? (change : Change) (body : List Text.Rune) : Option String :=
  let t := (Json.Document.ofRunes body).tree
  (match change with
    | .volume _ _ _ => Wire.volume.field? "version" t
    | .deleteNamespace _ => Wire.scope.field? "version" t
    | .deleteUser _ => Wire.user.field? "version" t).bind Json.Tree.text?

theorem Service.of_answer_ok {c : Call} (expects : c.expectsBody = true) {r : Reply}
    {a : c.Answer} (answered : answer c r = .ok a) : c.readBody r.body = .ok a := by
  unfold answer accepted at answered
  split at answered
  next => cases answered
  next r' accepted =>
    split at accepted
    · cases accepted
      rw [if_pos expects] at answered
      unfold body at answered
      split at answered
      next => cases answered
      next text whole =>
        split at whole
        · cases whole
          exact answered
        · cases whole
    · cases accepted

/-- The version that is read from a resource is the one that its document has. -/
theorem Change.written_of_brings {change : Change} {r : Reply} {resource : change.read.Answer}
    (brought : Service.brings change.read r = .ok resource) :
    change.written? r.body = some (change.version resource).text := by
  -- A version is never empty, so it is not one that was left out.
  cases change with
  | volume scope id what =>
    obtain ⟨m, decoded, made⟩ := Wire.of_read_ok (Service.of_answer_ok rfl brought)
    have version := Wire.version_of_volume made
    have some : m.version ≠ "" := version ▸ resource.version.token.nonempty
    exact (Wire.version_of_toVolume decoded some).trans (congrArg Option.some version.symm)
  | deleteNamespace id =>
    obtain ⟨m, decoded, made⟩ := Wire.of_read_ok (Service.of_answer_ok rfl brought)
    have version := Wire.version_of_namespace made
    have some : m.version ≠ "" := version ▸ resource.version.token.nonempty
    exact (Wire.version_of_toNamespace decoded some).trans (congrArg Option.some version.symm)
  | deleteUser id =>
    obtain ⟨m, decoded, made⟩ := Wire.of_read_ok (Service.of_answer_ok rfl brought)
    have version := Wire.version_of_user made
    have some : m.version ≠ "" := version ▸ resource.version.token.nonempty
    exact (Wire.version_of_toUser decoded some).trans (congrArg Option.some version.symm)

/-! ### What a command asks for -/

namespace Command

def isChange : Command → Bool
  | deleteVolume _ _ _ | deleteNamespace _ _ | deleteUser _ _ => true
  | setReplicas _ _ _ | detachVolume _ _ => true
  | _ => false

/-- Whether a change is the one that a command is for, given what is listed. -/
def Alters (o : Options) (seen : List Sighting) : Command → Change → Prop
  | deleteVolume name _ asyncMax, change => ∃ scope id, o.FindsScope seen scope ∧
      o.FindsVolume seen scope name id ∧ change = .volume scope id (.delete asyncMax)
  | setReplicas name replicas _, change => ∃ scope id, o.FindsScope seen scope ∧
      o.FindsVolume seen scope name id ∧ change = .volume scope id (.setReplicas replicas)
  | detachVolume name _, change => ∃ scope id, o.FindsScope seen scope ∧
      o.FindsVolume seen scope name id ∧ change = .volume scope id .detach
  | deleteNamespace name _, change => ∃ id, o.FindsNamespace seen name id ∧
      change = .deleteNamespace id
  | deleteUser name _, change => ∃ id, o.FindsUser seen name id ∧ change = .deleteUser id
  | _, _ => False

/-- What is seen of a command that changes something: listings, and then the change if it
comes to that. -/
inductive Course (o : Options) (client : Client) (command : Command) : List Sighting → Prop where
  | lists {seen : List Sighting} (lists : ∀ s ∈ seen, s.call.isLookup = true) :
      Course o client command seen
  | alters {first rest : List Sighting} {change : Change} {constraint : VersionConstraint}
      {result : Option (Except ApiFault change.Answer)}
      (lists : ∀ s ∈ first, s.call.isLookup = true) (alters : command.Alters o first change)
      (given : Argument.constraint command.version? = .ok constraint)
      (step : (change.operation constraint).Transcript client rest result) :
      Course o client command (first ++ rest)

variable {o : Options} {client : Client} {command : Command}

open Procedure

theorem course_change (change : Change) {constraint : VersionConstraint}
    {write : change.Answer → α} {first : List Sighting}
    (lists : ∀ s ∈ first, s.call.isLookup = true) (alters : command.Alters o first change)
    (given : Argument.constraint command.version? = .ok constraint) :
    (ask (change.operation constraint) fun answer => .done (.ok (write answer))).Ensures client
      fun rest _ => Course o client command (first ++ rest) := by
  refine ensures_ask (fun rest _ step _ => .alters lists alters given step)
    fun rest _ step => ensures_done ?_
  rw [List.append_nil]
  exact .alters lists alters given step

theorem course_volumeChange (o : Options) (command : Command) {name : String} (what : VolumeChange)
    {write : (scope : NamespaceId) → (id : VolumeId) → (Change.volume scope id what).Answer → α}
    (alters : ∀ seen scope id, o.FindsScope seen scope → o.FindsVolume seen scope name id →
      command.Alters o seen (.volume scope id what)) :
    (check (Argument.constraint command.version?) fun constraint =>
      o.withScope fun scope => o.withVolume scope name fun id =>
        ask ((Change.volume scope id what).operation constraint) fun answer =>
          .done (.ok (write scope id answer))).Ensures client
            fun seen _ => Course o client command seen := by
  refine ensures_check (fun _ _ _ => .lists (by simp)) fun constraint given => ?_
  refine Options.ensures_withScope (fun _ _ lists => .lists lists)
    fun first scope lists scopes => ?_
  refine Options.ensures_withVolume
    (fun second _ more => .lists (List.forall_mem_append.mpr ⟨lists, more⟩))
    fun second id more finds => ?_
  have all := List.forall_mem_append.mpr ⟨lists, more⟩
  have here := alters (first ++ second) scope id (scopes.before second) (finds.after first)
  intro rest result transcript
  rw [← List.append_assoc]
  exact course_change _ all here given rest result transcript

theorem course (o : Options) (client : Client) {command : Command}
    (changes : command.isChange = true) :
    (command.procedure o).Ensures client fun seen _ => Course o client command seen := by
  cases command with
  | deleteVolume name version asyncMax =>
    exact course_volumeChange o (.deleteVolume name version asyncMax) (.delete asyncMax)
      fun seen scope id scopes finds =>
        ⟨scope, id, scopes, finds, rfl⟩
  | setReplicas name replicas version =>
    exact course_volumeChange o (.setReplicas name replicas version) (.setReplicas replicas)
      fun seen scope id scopes finds =>
        ⟨scope, id, scopes, finds, rfl⟩
  | detachVolume name version =>
    exact course_volumeChange o (.detachVolume name version) .detach
      fun seen scope id scopes finds =>
        ⟨scope, id, scopes, finds, rfl⟩
  | deleteNamespace name version =>
    refine ensures_check (fun _ _ _ => .lists (by simp)) fun constraint given => ?_
    refine Options.ensures_withNamespace (fun _ _ lists => .lists lists)
      fun first id lists finds => ?_
    exact course_change (.deleteNamespace id) lists ⟨id, finds, rfl⟩ given
  | deleteUser name version =>
    refine ensures_check (fun _ _ _ => .lists (by simp)) fun constraint given => ?_
    refine Options.ensures_withUser (fun _ _ lists => .lists lists) fun first id lists finds => ?_
    exact course_change (.deleteUser id) lists ⟨id, finds, rfl⟩ given
  | _ => cases changes

end Command

/-! ### Trails in the log -/

/-- Whether requests of the method change something that is there. -/
def Http.Method.isAlteration : Http.Method → Bool
  | .put | .delete => true
  | .get | .post => false

theorem Call.IsGet.not_isAlteration {c : Call} (get : c.IsGet) :
    c.route.method.isAlteration = false := by
  rw [get]
  rfl

theorem Http.Trail.last {userAgent first : String} {e : Errand}
    {entries : List (Request × Outcome)} {ending : Ending} {reply : Reply}
    (trail : Trail userAgent first e entries ending) (replied : ending = .reply reply) :
    ∃ front r, entries = front ++ [(r, .reply reply)] := by
  induction trail with
  | lost | silent | astray => cases replied
  | stayed stays =>
    cases replied
    exact ⟨[], _, rfl⟩
  | led leads rest ih =>
    obtain ⟨front, r, rfl⟩ := ih replied
    exact ⟨_ :: front, r, rfl⟩

/-- A course with an alteration comes to its change. -/
theorem Command.Course.presents {o : Options} {client : Client} {command : Command}
    {seen : List Sighting} (course : command.Course o client seen) {c : Call}
    (called : c ∈ callsIn seen) (alters : c.route.method.isAlteration = true) :
    ∃ first rest change constraint v, seen = first ++ rest ∧
      (∀ c ∈ callsIn first, c.isLookup = true) ∧ command.Alters o first change ∧
      Argument.constraint command.version? = .ok constraint ∧
      change.Presented constraint v rest := by
  -- Listings and the read of the version alter nothing.
  have not_get (get : c.IsGet) : False := by
    rw [get.not_isAlteration] at alters
    cases alters
  cases course with
  | lists lists => exact (not_get (gets_of_lists lists c called)).elim
  | @alters first rest change constraint _ lists chosen given step =>
    have listing : ∀ c ∈ callsIn first, c.isLookup = true := by
      intro c listed
      obtain ⟨reply, member⟩ := mem_callsIn.mp listed
      exact lists _ member
    rw [callsIn_append] at called
    rcases List.mem_append.mp called with listed | called
    · exact (not_get (Call.isGet_of_isLookup (listing c listed))).elim
    · obtain rfl | ⟨ending, transcript, -⟩ := step.program
      · cases called
      · obtain ⟨reads, -⟩ | ⟨v, presented⟩ := Change.transcript_cases transcript
        · rw [reads c called] at not_get
          exact (not_get change.read_isGet).elim
        · exact ⟨first, rest, change, constraint, v, rfl, listing, chosen, given, presented⟩

namespace Service

variable {service : Service} {c : Call} {seen : List Sighting}
  {log before after front rest : List (Request × Outcome)} {r : Request} {outcome : Outcome}
  {ending : Ending}

/-- A redirect leaves the method and the body of an alteration. -/
theorem Pursues.kept (pursues : service.Pursues c (front ++ (r, outcome) :: rest) ending)
    (alters : r.method.isAlteration = true) :
    r.method = c.route.method ∧ r.body = c.route.body.map Json.Value.text := by
  obtain @⟨credential, first, e, _, _, bare, made, trail⟩ := pursues
  rcases trail.kept (r, outcome) (by simp) with get | ⟨method, body⟩
  · rw [get] at alters
    cases alters
  · exact ⟨method.trans (errand?_method made), body.trans (errand?_parts made).1⟩

theorem Pursues.follows (pursues : service.Pursues c (front ++ (r, outcome) :: rest) ending) :
    (∀ other ∈ front, other.2.isRedirect = true) ∧ (front = [] → service.Asks c r) ∧
      ∀ earlier before redirect, front = earlier ++ [(before, redirect)] →
        ∃ reply, redirect = .reply reply ∧ r.Follows before reply := by
  obtain @⟨credential, first, e, _, _, bare, made, trail⟩ := pursues
  obtain ⟨redirects, opens⟩ := trail.follows rfl
  refine ⟨redirects, fun begins => ⟨credential, first, e, bare, made, opens begins⟩, ?_⟩
  rintro earlier before redirect rfl
  exact trail.redirected (List.append_assoc ..)

/-- Whether entries of a log are the trail of a call. -/
def Traces (service : Service) (c : Call) (trail : List (Request × Outcome)) : Prop :=
  ∃ ending, service.Pursues c trail ending

theorem Records.trails (records : Records service seen log) :
    ∃ calls trails, calls.Sublist (callsIn seen) ∧ List.Forall₂ service.Traces calls trails ∧
      log = trails.flatten := by
  induction records with
  | nil => exact ⟨[], [], .slnil, .nil, rfl⟩
  | @cons s seen entries log shows rest ih =>
    obtain ⟨calls, trails, among, traced, rfl⟩ := ih
    -- Only a request that was sent has left a trail.
    cases shows with
    | started c => exact ⟨calls, trails, among, traced, rfl⟩
    | unsent c flaw => exact ⟨calls, trails, among.cons _, traced, rfl⟩
    | @sent c _ ending pursues =>
      exact ⟨c :: calls, entries :: trails, among.cons_cons c, .cons ⟨ending, pursues⟩ traced, rfl⟩

/-- Every entry is in the trail of a call, behind what was sent before the call. -/
theorem Records.within (records : Records service seen log)
    (split : log = before ++ (r, outcome) :: after) :
    ∃ first c reply later sent front rest ending, seen = first ++ .landed c reply :: later ∧
      Records service first sent ∧ before = sent ++ front ∧
      service.Pursues c (front ++ (r, outcome) :: rest) ending := by
  induction records generalizing before with
  | nil => cases before <;> cases split
  | @cons s seen entries log shows records ih =>
    -- The entry is behind the trail of the first sighting, or in it.
    have parts : (∃ behind, before = entries ++ behind ∧ log = behind ++ (r, outcome) :: after) ∨
        ∃ more, entries = before ++ (r, outcome) :: more := by
      rcases List.append_eq_append_iff.mp split with ⟨behind, same, later⟩ | ⟨more, same, later⟩
      · exact .inl ⟨behind, same, later⟩
      · cases more with
        | nil => exact .inl ⟨[], by rw [same, List.append_nil, List.append_nil], later.symm⟩
        | cons entry more =>
          obtain ⟨rfl, -⟩ := List.cons.inj later
          exact .inr ⟨more, same⟩
    rcases parts with ⟨behind, rfl, later⟩ | ⟨more, rfl⟩
    · obtain ⟨first, c, reply, tail, sent, front, rest, ending, rfl, early, rfl, pursues⟩ :=
        ih later
      exact ⟨s :: first, c, reply, tail, entries ++ sent, front, rest, ending, rfl,
        .cons shows early, (List.append_assoc _ _ _).symm, pursues⟩
    · generalize trail : before ++ (r, outcome) :: more = entries at shows
      cases shows with
      | started => simp at trail
      | unsent => simp at trail
      | @sent c _ ending pursues =>
        subst trail
        exact ⟨[], c, _, seen, [], before, more, ending, rfl, .nil, rfl, pursues⟩

section Alterations

variable (split : log = before ++ (r, outcome) :: after) (alters : r.method.isAlteration = true)
include split alters

theorem Records.alteration (records : Records service seen log) :
    ∃ c ∈ callsIn seen, c.route.method.isAlteration = true := by
  obtain ⟨first, c, reply, later, sent, front, rest, ending, rfl, -, -, pursues⟩ :=
    records.within split
  refine ⟨c, by simp, ?_⟩
  rw [← (pursues.kept alters).1]
  exact alters

/-- If only the last call alters anything, then an alteration is in its trail. -/
theorem Records.of_last {seen : List Sighting} {reply : Option c.Reply}
    (records : Records service (seen ++ [.landed c reply]) log)
    (others : ∀ c ∈ callsIn seen, c.route.method.isAlteration = false) :
    ∃ sent front rest ending, Records service seen sent ∧ before = sent ++ front ∧
      service.Pursues c (front ++ (r, outcome) :: rest) ending := by
  obtain ⟨first, c', reply', later, sent, front, rest, ending, same, early, parts, pursues⟩ :=
    records.within split
  obtain ⟨rfl, landed⟩ | ⟨more, rfl⟩ := split_snoc same
  · obtain ⟨rfl, -⟩ := Sighting.landed.inj landed
    exact ⟨sent, front, rest, ending, early, parts, pursues⟩
  · -- Otherwise the call is among the ones before.
    have still := others c' (by simp)
    rw [← (pursues.kept alters).1, alters] at still
    cases still

end Alterations

theorem Records.nil_of_calls (records : Records service seen log) (none : callsIn seen = []) :
    log = [] := by
  obtain ⟨calls, trails, among, traced, rfl⟩ := records.trails
  rw [none] at among
  obtain rfl := List.sublist_nil.mp among
  obtain rfl := List.forall₂_nil_left_iff.mp traced
  rfl

end Service

/-! ### Changes of commands -/

theorem Argument.constraint_ok {version : Option String} {asked : VersionConstraint}
    (given : constraint version = .ok asked) :
    (version = none ∧ asked = .unconditional) ∨
      ∃ v : Version, version = some v.text ∧ asked = .conditional v := by
  cases version with
  | none =>
    cases given
    exact .inl ⟨rfl, rfl⟩
  | some text =>
    simp only [constraint] at given
    split at given
    next v read =>
      cases given
      exact .inr ⟨v, by rw [Version.text_of_ofText? read], rfl⟩
    next => cases given

theorem Command.Alters.within {o : Options} {seen : List Sighting} {command : Command}
    {change : Change} (alters : command.Alters o seen change) (before after : List Sighting) :
    command.Alters o (before ++ (seen ++ after)) change := by
  have volumes {name : String} {what : VolumeChange}
      (finds : ∃ scope id, o.FindsScope seen scope ∧ o.FindsVolume seen scope name id ∧
        change = .volume scope id what) :
      ∃ scope id, o.FindsScope (before ++ (seen ++ after)) scope ∧
        o.FindsVolume (before ++ (seen ++ after)) scope name id ∧
        change = .volume scope id what := by
    obtain ⟨scope, id, scopes, finds, rfl⟩ := finds
    exact ⟨scope, id, (scopes.before after).after before, (finds.before after).after before, rfl⟩
  cases command with
  | deleteVolume | setReplicas | detachVolume => exact volumes alters
  | deleteNamespace =>
    obtain ⟨id, finds, rfl⟩ := alters
    exact ⟨id, (finds.before after).after before, rfl⟩
  | deleteUser =>
    obtain ⟨id, finds, rfl⟩ := alters
    exact ⟨id, (finds.before after).after before, rfl⟩
  | _ => exact alters.elim

namespace Invocation

open Http (Network Outcome Reply Request)

variable {i : Invocation} {service : Service} {change : Change} {v : Version}

/-- What was sent before a change, and where the version is from that it presents. Names
are looked up after the login. A version on the command line is presented as it stands;
otherwise the resource itself was read last, and the version is the one in its document. -/
inductive Sourced (i : Invocation) (service : Service) (change : Change) (v : Version) :
    List (Request × Outcome) → Prop where
  | given {lookups : List Call} {trails : List (List (Request × Outcome))}
      (said : i.command.version? = some v.text) (lists : ∀ c ∈ lookups, c.isLookup = true)
      (sent : List.Forall₂ service.Traces (i.loginCall :: lookups) trails) :
      Sourced i service change v trails.flatten
  | read {lookups : List Call} {trails : List (List (Request × Outcome))}
      {front : List (Request × Outcome)} {r : Request} {reply : Reply}
      (unsaid : i.command.version? = none) (lists : ∀ c ∈ lookups, c.isLookup = true)
      (sent : List.Forall₂ service.Traces (i.loginCall :: lookups) trails)
      (asked : service.Pursues change.read (front ++ [(r, .reply reply)]) (.reply reply))
      (written : change.written? reply.body = some v.text) :
      Sourced i service change v (trails.flatten ++ (front ++ [(r, .reply reply)]))

def loggedIn (i : Invocation) (user : User) : List Sighting :=
  [.started i.loginCall, .landed i.loginCall (some (.ok user))]

theorem traces_of_lists {user : User} {seen : List Sighting} {log : List (Request × Outcome)}
    (lists : ∀ c ∈ callsIn seen, c.isLookup = true)
    (records : service.Records (i.loggedIn user ++ seen) log) :
    ∃ lookups trails, (∀ c ∈ lookups, c.isLookup = true) ∧
      List.Forall₂ service.Traces (i.loginCall :: lookups) trails ∧ log = trails.flatten := by
  cases records with
  | cons shows records =>
    cases shows with
    | started =>
      obtain ⟨trail, reply, rest, rfl, pursues, -, records⟩ := records.of_answered
      obtain ⟨calls, trails, among, traced, rfl⟩ := records.trails
      exact ⟨calls, trail :: trails, fun c called => lists c (among.subset called),
        .cons ⟨_, pursues⟩ traced, rfl⟩

/-- An alteration is in the trail of the change that was presented, at a version of known
source. -/
theorem sourced_of_presented {user : User} {first rest : List Sighting}
    {constraint : VersionConstraint} {log before after : List (Request × Outcome)} {r : Request}
    {outcome : Outcome} (given : Argument.constraint i.command.version? = .ok constraint)
    (lists : ∀ c ∈ callsIn first, c.isLookup = true)
    (presented : change.Presented constraint v rest)
    (records : service.Records (i.loggedIn user ++ first ++ rest) log)
    (split : log = before ++ (r, outcome) :: after) (alters : r.method.isAlteration = true) :
    ∃ sent front rest ending, i.Sourced service change v sent ∧ before = sent ++ front ∧
      service.Pursues (change.present v) (front ++ (r, outcome) :: rest) ending := by
  have stills : ∀ c ∈ i.loginCall :: callsIn first, c.route.method.isAlteration = false :=
    List.forall_mem_cons.mpr
      ⟨rfl, fun c called => (Call.isGet_of_isLookup (lists c called)).not_isAlteration⟩
  cases presented with
  | given _ reply =>
    obtain ⟨-, same⟩ | ⟨w, said, same⟩ := Argument.constraint_ok given
    · cases same
    cases same
    rw [List.append_cons] at records
    obtain ⟨sent, front, rest, ending, early, parts, pursues⟩ :=
      records.of_last split alters (by simpa [loggedIn] using stills)
    rw [List.append_assoc] at early
    obtain ⟨lookups, trails, listing, traced, rfl⟩ := traces_of_lists (by simpa using lists) early
    exact ⟨_, front, rest, ending, .given said listing traced, parts, pursues⟩
  | read resource reply =>
    obtain ⟨unsaid, -⟩ | ⟨w, -, same⟩ := Argument.constraint_ok given
    rotate_left
    · cases same
    -- The read is the last that is answered before the change is sent.
    have steps : i.loggedIn user ++ first ++ [.started change.read,
        .landed change.read (some (.ok resource)),
        .started (change.present (change.version resource)),
        .landed (change.present (change.version resource)) reply] =
        i.loggedIn user ++ (first ++ [.started change.read]) ++
          [.landed change.read (some (.ok resource)),
            .started (change.present (change.version resource))] ++
          [.landed (change.present (change.version resource)) reply] := by simp
    rw [steps] at records
    have others : ∀ c ∈ callsIn (i.loggedIn user ++ (first ++ [.started change.read]) ++
        [.landed change.read (some (.ok resource)),
          .started (change.present (change.version resource))]),
        c.route.method.isAlteration = false := by
      have calls := List.forall_mem_append.mpr
        ⟨stills, List.forall_mem_singleton.mpr change.read_isGet.not_isAlteration⟩
      simpa [loggedIn] using calls
    obtain ⟨sent, front, rest, ending, early, parts, pursues⟩ := records.of_last split alters others
    obtain ⟨looked, read, rfl, looking, reading⟩ := early.split
    obtain ⟨lookups, trails, listing, traced, rfl⟩ := traces_of_lists (by simpa using lists) looking
    obtain ⟨trail, answer, nothing, rfl, asked, brought, starting⟩ := reading.of_answered
    obtain rfl := starting.nil_of_calls rfl
    obtain ⟨_, _, rfl⟩ : ∃ redirects q, trail = redirects ++ [(q, .reply answer)] := by
      obtain @⟨_, _, _, _, _, -, -, trail⟩ := asked
      exact trail.last rfl
    rw [List.append_nil] at parts
    exact ⟨_, front, rest, ending,
      .read unsaid listing traced asked (Change.written_of_brings brought), parts, pursues⟩

/-- Every change that a command sends carries one version, whole: the one on the command
line, after nothing but the lookup of names, or the one in the document of the resource
that was read just before. Only a deletion that follows a redirect goes without: it asks for
what the location in the redirect names. -/
theorem version_intact (i : Invocation) (changes : i.command.isChange = true)
    (network : Network σ) (server : σ) :
    (∀ env words, ofWords env words = .ok i →
      i.command.version? = Grammar.versionOn words) ∧
    ∀ before r outcome after, i.log network server = before ++ (r, outcome) :: after →
      r.method.isAlteration = true →
        ∃ service change v sent front, i.service = .ok service ∧
          i.command.Alters i.options (i.seen network server) change ∧ v.text ≠ "" ∧
          i.Sourced service change v sent ∧ before = sent ++ front ∧
          (∀ entry ∈ front, entry.2.isRedirect = true) ∧
          (front = [] → service.Asks (change.present v) r) ∧
          (∀ earlier previous redirect, front = earlier ++ [(previous, redirect)] →
            ∃ reply, redirect = .reply reply ∧ r.Follows previous reply) ∧
          (front = [] ∨ r.method = .put → r.version? = some v.text) := by
  refine ⟨fun env words accepted => version_of_words accepted,
    fun before r outcome after split alters => ?_⟩
  have watched := i.watched_run network server
  generalize i.seen network server = seen at watched ⊢
  generalize i.log network server = log at watched split
  generalize (i.run network server).1 = report at watched
  cases watched with
  | unreachable => simp at split
  | @reached service _ _ result made transcript records answers =>
    obtain ⟨c, called, altering⟩ := records.alteration split alters
    obtain ⟨calls, -, -⟩ | ⟨user, rest, rfl, later⟩ := transcript_login transcript
    · -- A process that ends with its login alters nothing.
      rcases calls with none | login
      · simp [none] at called
      · rw [login, List.mem_singleton] at called
        rw [called] at altering
        cases altering
    · -- A login alters nothing, so the call is one of the command.
      have called : c ∈ callsIn rest := by
        refine (List.mem_cons.mp called).resolve_left ?_
        rintro rfl
        cases altering
      have course := i.command.course i.options i.client changes rest result later
      obtain ⟨first, rest, change, constraint, v, rfl, lists, chosen, given, presented⟩ :=
        course.presents called altering
      have records : service.Records (i.loggedIn user ++ first ++ rest) log := by
        rw [List.append_assoc]
        exact records
      obtain ⟨sent, front, _, _, sourced, parts, pursues⟩ :=
        sourced_of_presented given lists presented records split alters
      obtain ⟨redirects, opens, follows⟩ := pursues.follows
      refine ⟨service, change, v, sent, front, made, chosen.within (i.loggedIn user) rest,
        v.token.nonempty, sourced, parts, redirects, opens, follows, ?_⟩
      rintro (begins | puts)
      · exact (opens begins).version
      · obtain ⟨method, body⟩ := pursues.kept alters
        exact version_of_put puts body (method.symm.trans puts)

/-- A version of odd characters, on the way to a deletion. -/
theorem odd_version_intact :
    let version := "a&b=c+d% \"é\""
    let words := ["delete", "user", "u", "--use-ids", "--cas", version]
    let user := Text.runes "\x7b\"id\":\"u\",\"username\":\"ann\",\"version\":\"1\"\x7d"
    let network : Network Unit := fun r s => (.reply (match r.method with
      | .post => ⟨200, [("Authorization", "Bearer tok")], user, true⟩
      | .get => ⟨200, [], user, true⟩
      | .put | .delete => ⟨204, [], [], true⟩), s)
    ∃ i r, ofWords (fun _ => none) words = .ok i ∧ i.command.isChange = true ∧
      ((i.log network ()).map Prod.fst).getLast? = some r ∧ r.method = .delete ∧
      r.target = "/v2/users/u?version=a%26b%3Dc%2Bd%25+%22%C3%A9%22" ∧
      r.version? = some version := by
  intro version words user network
  let options : Options :=
    ⟨["localhost:5705"], Span.ofParts 5 0, "storageos", "storageos", true, none, .skip, .text⟩
  let i : Invocation := ⟨options, .deleteUser "u" (some version)⟩
  have accepted : ofWords (fun _ => none) words = .ok i := by
    subst words version
    rfl
  have sent : ((i.log network ()).map fun entry =>
      (entry.2.isRedirect, entry.1.method, entry.1.target)) =
      [(false, .post, "/v2/auth/login"),
        (false, .delete, "/v2/users/u?version=a%26b%3Dc%2Bd%25+%22%C3%A9%22")] := by
    decide +kernel
  obtain ⟨login, rest, split, first, later⟩ := List.map_eq_cons_iff.mp sent
  obtain ⟨⟨r, outcome⟩, rest, rfl, last, none⟩ := List.map_eq_cons_iff.mp later
  obtain rfl := List.map_eq_nil_iff.mp none
  have method : r.method = .delete := congrArg (fun shown => shown.2.1) last
  have target := congrArg (fun shown => shown.2.2) last
  have still : login.2.isRedirect = false := congrArg Prod.fst first
  obtain ⟨-, carries⟩ := i.version_intact rfl network ()
  obtain ⟨service, change, v, before, front, -, -, -, sourced, parts, redirects, -, -, carried⟩ :=
    carries [login] r outcome [] split (by rw [method]; rfl)
  have opens : front = [] := by
    refine List.eq_nil_iff_forall_not_mem.mpr fun entry member => ?_
    have here : entry ∈ [login] := parts ▸ List.mem_append_right before member
    rw [List.mem_singleton.mp here] at member
    rw [redirects login member] at still
    cases still
  have whole : some version = some v.text := by
    cases sourced with
    | given said => exact said
    | read unsaid => cases unsaid
  refine ⟨i, r, accepted, rfl, by rw [split]; rfl, method, target, ?_⟩
  rw [carried (.inl opens), whole]

/-- The version of a document that is a list is an item of it, and no member. -/
theorem item_sent_as_version :
    let user := Text.runes "\x7b\"id\":\"u\",\"username\":\"ann\",\"version\":\"1\"\x7d"
    let items := Text.runes "[\"u\",\"ann\",false,[],null,null,\"7\"]"
    let network : Network Unit := fun r s => (.reply (match r.method with
      | .post => ⟨200, [("Authorization", "Bearer tok")], user, true⟩
      | .get => ⟨200, [], items, true⟩
      | .put | .delete => ⟨204, [], [], true⟩), s)
    let options : Options :=
      ⟨["localhost:5705"], Span.ofParts 5 0, "storageos", "storageos", true, none, .skip, .text⟩
    let i : Invocation := ⟨options, .deleteUser "u" none⟩
    ofWords (fun _ => none) ["delete", "user", "u", "--use-ids"] = .ok i ∧
      ((i.log network ()).map fun entry => (entry.1.method, entry.1.target)) =
        [(.post, "/v2/auth/login"), (.get, "/v2/users/u"), (.delete, "/v2/users/u?version=7")] ∧
      (Json.Document.ofRunes items).tree.only? "version" = none := by
  intro user items network options i
  refine ⟨rfl, ?_, ?_⟩
  · decide +kernel
  · exact Option.isNone_iff_eq_none.mp (by decide +kernel)

/-- A deletion that follows a redirect may have no version, and a document that is a list
has no member that is the version. -/
theorem version_lost_by_redirect :
    let user := Text.runes "\x7b\"id\":\"u\",\"username\":\"ann\",\"version\":\"1\"\x7d"
    let items := Text.runes "[\"u\",\"ann\",false,[],null,null,\"7\"]"
    let moving : Network Unit := fun r s => (.reply (match r.method with
      | .post => ⟨200, [("Authorization", "Bearer tok")], user, true⟩
      | .get => ⟨404, [], [], true⟩
      | .put | .delete => if r.path = "/v2/elsewhere" then ⟨204, [], [], true⟩
        else ⟨307, [("Location", "/v2/elsewhere")], [], true⟩), s)
    let listing : Network Unit := fun r s => (.reply (match r.method with
      | .post => ⟨200, [("Authorization", "Bearer tok")], user, true⟩
      | .get => ⟨200, [], items, true⟩
      | .put | .delete => ⟨204, [], [], true⟩), s)
    let options : Options :=
      ⟨["localhost:5705"], Span.ofParts 5 0, "storageos", "storageos", true, none, .skip, .text⟩
    let given : Invocation := ⟨options, .deleteUser "u" (some "T")⟩
    let ungiven : Invocation := ⟨options, .deleteUser "u" none⟩
    (ofWords (fun _ => none) ["delete", "user", "u", "--use-ids", "--cas", "T"] = .ok given ∧
      ((given.log moving ()).map fun entry =>
        (entry.1.method, entry.1.target, entry.1.version?)) =
        [(.post, "/v2/auth/login", none), (.delete, "/v2/users/u?version=T", some "T"),
          (.delete, "/v2/elsewhere", none)]) ∧
    ofWords (fun _ => none) ["delete", "user", "u", "--use-ids"] = .ok ungiven ∧
      ((ungiven.log listing ()).map fun entry => (entry.1.method, entry.1.target)) =
        [(.post, "/v2/auth/login"), (.get, "/v2/users/u"), (.delete, "/v2/users/u?version=7")] ∧
      (Json.Document.ofRunes items).tree.only? "version" = none := by
  intro user items moving listing options given ungiven
  refine ⟨⟨rfl, ?_⟩, item_sent_as_version⟩
  decide +kernel

end Invocation

end StorageControl
