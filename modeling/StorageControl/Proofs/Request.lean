import StorageControl.Proofs.Path
import StorageControl.Service

/-! Which call a request belongs to.

The method and the path of a request tell the operation and its identifiers, as long as
every identifier stands in the path for itself alone. Identifiers with characters that
mean something in a URL can make two calls send one and the same request.
-/

set_option autoImplicit false

namespace StorageControl

open StorageControl.Url (Plain slashed)

namespace Call

/-- The identifiers that a call is about. -/
def ids : Call → List String
  | authenticate _ _ | getCluster | listNodes | listNamespaces | listUsers => []
  | createNamespace _ | createUser _ => []
  | getNode id => [id.text]
  | getNamespace id | deleteNamespace id _ => [id.text]
  | getUser id | deleteUser id _ => [id.text]
  | listVolumes scope | createVolume scope _ _ => [scope.text]
  | getVolume scope id | deleteVolume scope id _ _ => [scope.text, id.text]
  | detachVolume scope id _ | setReplicas scope id _ _ => [scope.text, id.text]

/-- The segments of the path that a call asks for. -/
def segments : Call → List String
  | authenticate _ _ => ["auth", "login"]
  | getCluster => ["cluster"]
  | getNode id => ["nodes", id.text]
  | listNodes => ["nodes"]
  | getNamespace id | deleteNamespace id _ => ["namespaces", id.text]
  | listNamespaces | createNamespace _ => ["namespaces"]
  | getUser id | deleteUser id _ => ["users", id.text]
  | listUsers | createUser _ => ["users"]
  | getVolume scope id | deleteVolume scope id _ _ => ["namespaces", scope.text, "volumes", id.text]
  | listVolumes scope | createVolume scope _ _ => ["namespaces", scope.text, "volumes"]
  | detachVolume scope id _ => ["namespaces", scope.text, "volumes", id.text, "attach"]
  | setReplicas scope id _ _ => ["namespaces", scope.text, "volumes", id.text, "replicas"]

/-- The segments that are not identifiers. -/
def words : List String :=
  ["auth", "login", "cluster", "nodes", "namespaces", "users", "volumes", "attach", "replicas"]

theorem mem_segments {c : Call} {segment : String} (member : segment ∈ c.segments) :
    segment ∈ words ∨ segment ∈ c.ids := by
  cases c <;> simp [segments, words, ids] at member ⊢ <;> grind

theorem words_plain : ∀ word ∈ words, Plain word.toList := by decide

theorem segments_plain (c : Call) (plain : ∀ id ∈ c.ids, Plain id.toList) :
    ∀ segment ∈ c.segments.map String.toList, Plain segment := by
  intro segment member
  obtain ⟨text, listed, rfl⟩ := List.mem_map.mp member
  rcases mem_segments listed with word | id
  · exact words_plain text word
  · exact plain text id

theorem segments_ne_nil (c : Call) : c.segments ≠ [] := by
  cases c <;> simp [segments]

theorem route_path (c : Call) :
    c.route.path = String.ofList (slashed (c.segments.map String.toList)) := by
  apply String.toList_inj.mp
  cases c <;> simp [route, segments, Route.get, Route.post, Route.delete, Route.nodePath,
    Route.userPath, Route.volumePath, Route.volumesPath, Route.namespacePath]

/-- The operation and the identifiers that a method and a path stand for. -/
def ofSegments? : Http.Method → List String → Option (String × List String)
  | .post, ["auth", "login"] => some ("authenticate", [])
  | .get, ["cluster"] => some ("get_cluster", [])
  | .get, ["nodes"] => some ("list_nodes", [])
  | .get, ["nodes", id] => some ("get_node", [id])
  | .get, ["namespaces"] => some ("list_namespaces", [])
  | .get, ["namespaces", id] => some ("get_namespace", [id])
  | .get, ["users"] => some ("list_users", [])
  | .get, ["users", id] => some ("get_user", [id])
  | .get, ["namespaces", scope, "volumes"] => some ("list_volumes", [scope])
  | .get, ["namespaces", scope, "volumes", id] => some ("get_volume", [scope, id])
  | .post, ["namespaces", scope, "volumes"] => some ("create_volume", [scope])
  | .post, ["namespaces"] => some ("create_namespace", [])
  | .post, ["users"] => some ("create_user", [])
  | .put, ["namespaces", scope, "volumes", id, "replicas"] => some ("set_replicas", [scope, id])
  | .delete, ["namespaces", scope, "volumes", id] => some ("delete_volume", [scope, id])
  | .delete, ["namespaces", scope, "volumes", id, "attach"] => some ("detach_volume", [scope, id])
  | .delete, ["namespaces", id] => some ("delete_namespace", [id])
  | .delete, ["users", id] => some ("delete_user", [id])
  | _, _ => none

theorem ofSegments?_segments (c : Call) :
    ofSegments? c.route.method c.segments = some (c.name, c.ids) := by
  cases c <;> rfl

end Call

/-! ### Requests as they go out -/

@[simp]
theorem Url.withPairs_scheme (url : Url) (pairs : List (String × String)) :
    (url.withPairs pairs).scheme = url.scheme := by
  unfold withPairs
  split <;> rfl

/-- Pairs come behind a question mark, after the path. -/
theorem Url.target_withPairs {url : Url} (unqueried : url.query = none)
    (pairs : List (String × String)) :
    ∃ tail, (url.withPairs pairs).target.toList = url.path.toList ++ tail ∧
      ∀ c ∈ tail.head?, c = '?' := by
  unfold withPairs
  split
  · refine ⟨[], ?_, nofun⟩
    simp [target, queryText, unqueried]
  · refine ⟨_, by rw [target, String.toList_append, queryText], ?_⟩
    simp

theorem Url.takeWhile_query {text tail : List Char} (marked : ∀ c ∈ tail.head?, c = '?') :
    (escape pathEscaped text ++ tail).takeWhile (· ≠ '?') = escape pathEscaped text := by
  have kept : ∀ c ∈ escape pathEscaped text, decide (c ≠ '?') = true := by
    intro c member
    simp only [decide_eq_true_eq]
    rintro rfl
    exact query_not_mem_escape text member
  rw [List.takeWhile_append_of_pos kept]
  cases tail with
  | nil => simp
  | cons c rest => simp [marked c rfl]

theorem Http.isWeb_of_isHypertext {scheme : String} (hypertext : isHypertext scheme = true) :
    Url.isWeb scheme = true := by
  simp only [isHypertext, Bool.or_eq_true, beq_iff_eq] at hypertext
  rcases hypertext with rfl | rfl
  · decide
  · decide

/-- A network that keeps every request and answers none. -/
def Http.recording : Http.Network (List Http.Request) := fun r sent => (.lost, sent ++ [r])

theorem Http.pursue_recording (userAgent first : String) (left : Nat) (e : Errand) :
    (pursue recording userAgent first left e []).2 = [e.request userAgent] := by
  cases left <;> rfl

namespace Service

open Http (Network Request)

theorem request_server {σ : Type} (service : Service) (network : Network σ) (c : Call)
    (s : Session σ) :
    (service.request network c s).2.server =
      (service.send network c.route s.credential s.server).2 := by
  rw [request]
  split <;> simp [*]

theorem land_server {σ : Type} (service : Service) (network : Network σ) (c : Call)
    (s : Session σ) :
    ∃ token, (service.land network c s).2.server =
      (service.send network c.route token s.server).2 := by
  unfold land
  split
  · refine ⟨none, ?_⟩
    rw [authenticate]
    split <;> simp [*]
  · exact ⟨s.credential, service.request_server network _ s⟩

theorem land_of_mutation {σ : Type} (service : Service) (network : Network σ) {c : Call}
    (changes : c.isMutation = true) (s : Session σ) :
    service.land network c s = service.request network c s := by
  unfold land
  split
  · cases changes
  · rfl

/-- What a request has of its route. -/
theorem mem_send {service : Service} {route : Route} {token : Option Credential} {r : Request}
    (sent : r ∈ (service.send Http.recording route token []).2) :
    ∃ url, Url.ofText? (service.base ++ route.path) = some url ∧ Url.isWeb url.scheme = true ∧
      r.method = route.method ∧ r.target = (url.withPairs route.query).target := by
  rw [send, url?] at sent
  -- Nothing goes out unless the address is one that can be used.
  cases parsed : Url.ofText? (service.base ++ route.path) with
  | none => simp [parsed] at sent
  | some url =>
    simp only [parsed, Option.map_some] at sent
    split at sent
    · rw [Http.exchange] at sent
      split at sent
      next usable =>
        rw [Http.pursue_recording, List.mem_singleton] at sent
        subst sent
        refine ⟨url, rfl, ?_, rfl, rfl⟩
        simp only [Http.isUsable, Bool.and_eq_true, Url.withoutLogin, Url.withPairs_scheme] at usable
        exact Http.isWeb_of_isHypertext usable.1.1
      next => cases sent
    · cases sent

/-- The requests that a call sends. -/
def requests (service : Service) (c : Call) (credential : Option Credential) : List Request :=
  (service.land Http.recording c ⟨credential, []⟩).2.server

theorem base_of_settings {settings : Settings} {service : Service}
    (built : ofSettings settings = .ok service) :
    ∃ before, service.base.toList = before ++ ['/', 'v', '2'] := by
  rw [ofSettings] at built
  split at built
  · cases built
  · split at built
    · cases built
      exact ⟨_, String.toList_append⟩
    · cases built

/-- What the target of a request is made of: a front that all requests of the service share,
the segments of its call, and a query. -/
structure Spells (front : List Char) (c : Call) (r : Request) : Prop where
  method : r.method = c.route.method
  target : ∃ tail, (∀ mark ∈ tail.head?, mark = '?') ∧ r.target.toList =
    front ++ (Url.escape Url.pathEscaped (slashed (c.segments.map String.toList)) ++ tail)

theorem requests_spell {settings : Settings} {service : Service}
    (built : ofSettings settings = .ok service)
    (sealed : ∀ c ∈ service.base.toList, c ≠ '#' ∧ c ≠ '?') :
    ∃ front, ∀ c credential r, (∀ id ∈ c.ids, Plain id.toList) →
      r ∈ service.requests c credential → Spells front c r := by
  obtain ⟨before, base⟩ := base_of_settings built
  rw [base] at sealed
  obtain ⟨front, reads⟩ := Url.ofText?_slashed fun c member =>
    sealed c (List.mem_append_left _ member)
  refine ⟨front, fun c credential r plain sent => ?_⟩
  obtain ⟨token, same⟩ := service.land_server Http.recording c ⟨credential, []⟩
  rw [requests, same] at sent
  obtain ⟨url, parsed, web, method, target⟩ := mem_send sent
  have text : service.base ++ c.route.path =
      String.ofList (before ++ slashed (['v', '2'] :: c.segments.map String.toList)) := by
    apply String.toList_inj.mp
    rw [String.toList_append, base, c.route_path]
    simp
  rw [text] at parsed
  obtain ⟨path, unqueried⟩ := reads _ (by simpa using c.segments_ne_nil)
    (c.segments_plain plain) url parsed web
  obtain ⟨tail, written, marked⟩ := Url.target_withPairs unqueried c.route.query
  refine ⟨method, tail, marked, ?_⟩
  rw [target, written, path, Url.escape_slashed (by decide), List.append_assoc]

/-- Calls that send the same request, apart from its body, are calls of one operation with
the same identifiers, when these are plain. -/
theorem requests_unambiguous {settings : Settings} {service : Service}
    (built : ofSettings settings = .ok service)
    (sealed : ∀ c ∈ service.base.toList, c ≠ '#' ∧ c ≠ '?') {c₁ c₂ : Call}
    (plain₁ : ∀ id ∈ c₁.ids, Plain id.toList) (plain₂ : ∀ id ∈ c₂.ids, Plain id.toList)
    {token₁ token₂ : Option Credential} {r₁ r₂ : Request}
    (sent₁ : r₁ ∈ service.requests c₁ token₁) (sent₂ : r₂ ∈ service.requests c₂ token₂)
    (method : r₁.method = r₂.method) (target : r₁.target = r₂.target) :
    c₁.name = c₂.name ∧ c₁.ids = c₂.ids := by
  obtain ⟨front, spells⟩ := requests_spell built sealed
  obtain ⟨method₁, tail₁, marked₁, target₁⟩ := spells c₁ token₁ r₁ plain₁ sent₁
  obtain ⟨method₂, tail₂, marked₂, target₂⟩ := spells c₂ token₂ r₂ plain₂ sent₂
  rw [method₁, method₂] at method
  -- Behind the common front, each path ends at its question mark or with its target.
  have paths := target₁.symm.trans ((congrArg String.toList target).trans target₂)
  have written := congrArg (List.takeWhile (· ≠ '?')) (List.append_cancel_left paths)
  rw [Url.takeWhile_query marked₁, Url.takeWhile_query marked₂] at written
  have percent : Url.isMark '%' = true := rfl
  have escapeless {c : Call} (plain : ∀ id ∈ c.ids, Plain id.toList) :=
    Url.unmarked_slashed (c.segments_plain plain) percent (by decide)
  have joined := Url.escape_injective _ (escapeless plain₁) (escapeless plain₂) written
  have whole {c : Call} (plain : ∀ id ∈ c.ids, Plain id.toList) :
      ∀ segment ∈ c.segments.map String.toList, '/' ∉ segment :=
    fun segment member => (c.segments_plain plain segment member).not_mem rfl
  have split := Url.slashed_injective (whole plain₁) (whole plain₂) joined
  have segments := (List.map_inj_right fun _ _ => String.toList_inj.mp).mp split
  have read := c₁.ofSegments?_segments
  rw [method, segments, c₂.ofSegments?_segments, Option.some.injEq, Prod.mk.injEq] at read
  exact ⟨read.1.symm, read.2.symm⟩

/-- Two numbers of replicas for one volume: the requests differ in their bodies alone. -/
theorem requests_unambiguous_of_replicas :
    let settings := Settings.ofEndpoint "node"
    let scope : NamespaceId := ⟨⟨"default", by decide⟩⟩
    let id : VolumeId := ⟨⟨"my data", by decide⟩⟩
    let version : Version := ⟨⟨"1", by decide⟩⟩
    let one : Call := .setReplicas scope id 1 version
    let two : Call := .setReplicas scope id 2 version
    ∃ service, ofSettings settings = .ok service ∧
      ∃ r₁ r₂, r₁ ∈ service.requests one none ∧ r₂ ∈ service.requests two none ∧
        r₁.target = "/v2/namespaces/default/volumes/my%20data/replicas" ∧
        r₁.body ≠ r₂.body ∧ one.name = two.name ∧ one.ids = two.ids := by
  intro settings scope id version one two
  let service : Service := ⟨"http://node/v2", "storageos-cli/0.1.0"⟩
  have built : ofSettings settings = .ok service := by decide +kernel
  let request (body : String) : Request :=
    ⟨⟨"http", "node", 80⟩, .put, "/v2/namespaces/default/volumes/my%20data/replicas", some body, [],
      "storageos-cli/0.1.0"⟩
  have sent₁ : service.requests one none =
    [request "\x7b\"replicas\":1,\"version\":\"1\"\x7d"] := by decide +kernel
  have sent₂ : service.requests two none =
    [request "\x7b\"replicas\":2,\"version\":\"1\"\x7d"] := by decide +kernel
  have member₁ := sent₁ ▸ List.mem_singleton_self _
  have member₂ := sent₂ ▸ List.mem_singleton_self _
  have plain₁ : ∀ id ∈ one.ids, Plain id.toList := by decide
  have plain₂ : ∀ id ∈ two.ids, Plain id.toList := by decide
  have sealed : ∀ c ∈ service.base.toList, c ≠ '#' ∧ c ≠ '?' := by simp [service]
  obtain ⟨name, ids⟩ :=
    requests_unambiguous built sealed plain₁ plain₂ member₁ member₂ rfl rfl
  exact ⟨service, built, _, _, member₁, member₂, rfl, by decide, name, ids⟩

/-- An identifier with slashes: the namespace is to be deleted, and a volume is. -/
theorem deletion_of_slashed_namespace_deletes_volume :
    let service : Service := ⟨"http://node/v2", "storageos-cli/0.1.0"⟩
    let version : Version := ⟨⟨"1", by decide⟩⟩
    let one : Call := .deleteNamespace ⟨⟨"n/volumes/v", by decide⟩⟩ version
    let other : Call := .deleteVolume ⟨⟨"n", by decide⟩⟩ ⟨⟨"v", by decide⟩⟩ version none
    ofSettings (Settings.ofEndpoint "node") = .ok service ∧
      one.name ≠ other.name ∧ one.ids ≠ other.ids ∧
      (service.requests one none).length = 1 ∧
      ∀ token, service.requests one token = service.requests other token := by
  intro service version one other
  have route : one.route = other.route := rfl
  refine ⟨by decide +kernel, by decide, by decide, by decide +kernel, fun token => ?_⟩
  rw [requests, requests, service.land_of_mutation _ (c := one) rfl,
    service.land_of_mutation _ (c := other) rfl, request_server, request_server, route]

end Service

end StorageControl
