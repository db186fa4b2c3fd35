import StorageControl.Proofs.Endpoint
import StorageControl.Proofs.Misuse

/-! Where the requests of a process go.

All requests go to URLs that begin with the base that is made from the endpoint. When an
endpoint is nothing but slashes, the base holds no host, and the version behind it is read
as one. When all endpoints are blank, nothing is sent.
-/

set_option autoImplicit false

namespace StorageControl

variable {σ : Type}

/-! ### A base without a host -/

namespace Url

/-- A text that holds a slash keeps all that counts of what comes before it. -/
theorem essence_slash (before rest : List Char) :
    ∃ kept, essence (before ++ '/' :: rest) = opening before ++ '/' :: kept := by
  have slash : isMargin '/' = false := by decide
  have last (text : List Char) : ((text ++ '/' :: rest).reverse.dropWhile isMargin).reverse =
      text ++ '/' :: (rest.reverse.dropWhile isMargin).reverse := by
    rw [List.reverse_append, List.reverse_cons, List.append_assoc, List.singleton_append,
      dropWhile_append_cons slash]
    simp
  rw [essence, dropWhile_append_cons slash, last, List.filter_append,
    List.filter_cons_of_pos (by decide)]
  exact ⟨_, rfl⟩

theorem cut_append {mark : Char} {before : List Char} (without : mark ∉ before)
    (after : List Char) :
    cut mark (before ++ after) = (before ++ (cut mark after).1, (cut mark after).2) := by
  have kept : ∀ c ∈ before, decide (c ≠ mark) = true := by
    intro c member
    simp only [decide_eq_true_eq]
    rintro rfl
    exact without member
  simp only [cut, List.span_eq_takeWhile_dropWhile, List.takeWhile_append_of_pos kept,
    List.dropWhile_append_of_pos kept]
  cases after.dropWhile (· ≠ mark) <;> rfl

/-- Where there is no host in front of the version, the version is the host. -/
theorem ofText?_hostless (rest : List Char) :
    ∃ url, ofText? (String.ofList ("http:///v2".toList ++ '/' :: rest)) = some url ∧
      url.scheme = "http" ∧ url.host = .name ['v', '2'] ∧ url.port = none := by
  obtain ⟨kept, counted⟩ := essence_slash "http:///v2".toList rest
  have begun : scheme? (essence ("http:///v2".toList ++ '/' :: rest)) =
      some ("http", "///v2/".toList ++ kept) := by
    rw [counted, scheme?_append_slash]
    rfl
  -- The slashes in front are dropped, and the host ends at the slash behind the version.
  have spanned (path : List Char) :
      ((("///v2/".toList ++ path).map forward).dropWhile (· == '/')).span (· ≠ '/') =
        (['v', '2'], '/' :: path.map forward) := by
    rw [List.map_append]
    exact span_append_cons (by decide) ['v', '2'] _
  have authority : Authority.ofText? "http" ['v', '2'] =
      some ⟨"", none, .name ['v', '2'], none⟩ := rfl
  have web : isWeb "http" = true := rfl
  have forwards : (fun c => if c = '\\' then '/' else c) = forward := rfl
  simp only [ofText?, String.toList_ofList, begun, Option.bind_eq_bind, Option.bind_some]
  rw [cut_append (by decide), cut_append (by decide)]
  simp only [web, forwards, if_true, spanned, authority, Option.bind_some]
  exact ⟨_, rfl, rfl, rfl, rfl⟩

@[simp]
theorem withPairs_host (url : Url) (pairs : List (String × String)) :
    (url.withPairs pairs).host = url.host := by
  unfold withPairs
  split <;> rfl

@[simp]
theorem withPairs_port (url : Url) (pairs : List (String × String)) :
    (url.withPairs pairs).port = url.port := by
  unfold withPairs
  split <;> rfl

end Url

namespace Service

open Http (Place Request)

/-- The place that the version stands for when it is read as a host. -/
def versionPlace : Place := ⟨"http", "v2", 80⟩

theorem placeOf_version {url : Url} (scheme : url.scheme = "http")
    (host : url.host = .name ['v', '2']) (port : url.port = none) :
    Http.placeOf (Address.ofUrl url) = versionPlace := by
  have authority : (Address.ofUrl url).authority = "v2" := by
    show url.placeText = "v2"
    rw [Url.placeText, host, port]
    decide
  have scheme : (Address.ofUrl url).scheme = "http" := scheme
  simp only [Http.placeOf, authority, scheme]
  decide +kernel

theorem url?_hostless {service : Service} (base : service.base = "http:///v2") (c : Call) :
    ∃ url, service.url? c.route = some url ∧
      Http.placeOf (Address.ofUrl url.withoutLogin) = versionPlace := by
  obtain ⟨first, more, segments⟩ := List.exists_cons_of_ne_nil c.segments_ne_nil
  let rest := first.toList ++ Url.slashed (more.map String.toList)
  have text : service.base ++ c.route.path = String.ofList ("http:///v2".toList ++ '/' :: rest) := by
    apply String.toList_inj.mp
    rw [base, c.route_path, segments]
    simp [rest]
  obtain ⟨url, parsed, scheme, host, port⟩ := Url.ofText?_hostless rest
  refine ⟨url.withPairs c.route.query, by rw [url?, text, parsed]; rfl, ?_⟩
  exact placeOf_version (by simpa [Url.withoutLogin]) (by simpa [Url.withoutLogin])
    (by simpa [Url.withoutLogin])

theorem errand?_address {service : Service} {route : Route} {credential : Option Credential}
    {first : String} {e : Http.Errand} (made : service.errand? route credential = some (first, e)) :
    ∃ url, service.url? route = some url ∧ e.address = Address.ofUrl url.withoutLogin := by
  unfold errand? at made
  split at made
  · cases made
  next url parsed =>
    simp only at made
    split at made
    · cases made
      exact ⟨url, parsed, rfl⟩
    · cases made

theorem Asks.place {service : Service} (base : service.base = "http:///v2") {c : Call}
    {r : Request} (asks : service.Asks c r) : r.place = versionPlace := by
  obtain ⟨credential, first, e, -, made, rfl⟩ := asks
  obtain ⟨url, parsed, address⟩ := errand?_address made
  obtain ⟨other, same, place⟩ := url?_hostless base c
  rw [parsed, Option.some.injEq] at same
  rw [Http.Errand.request, address, same, place]

end Service

namespace Invocation

open Http (Network)

/-- With slashes alone for an endpoint, all requests go to a host that nobody named. -/
theorem sent_to_version {i : Invocation} {endpoint : String}
    (chosen : i.options.endpoint = .ok endpoint) (slashes : ∀ c ∈ endpoint.toList, c = '/')
    {network : Network σ} (direct : network.Direct) (server : σ) :
    ∀ entry ∈ i.log network server, entry.1.place = Service.versionPlace := by
  obtain ⟨service, made, base⟩ := service_of_endpoint chosen
  rw [Text.trimEndOf_eq_empty_iff.mpr slashes] at base
  have watched := i.watched_run network server
  intro entry member
  generalize i.seen network server = seen at watched
  generalize i.log network server = log at watched member
  generalize (i.run network server).1 = report at watched
  cases watched with
  | unreachable => cases member
  | @reached other _ _ _ reached _ records answers =>
    obtain rfl : service = other := Except.ok.inj (made.symm.trans reached)
    have still : ∀ entry ∈ log, entry.2.IsStill := fun entry member => by
      obtain ⟨s, answered⟩ := answers entry member
      exact answered ▸ direct entry.1 s
    obtain ⟨c, -, asks⟩ := records.call_of_request still (List.mem_map_of_mem member)
    exact asks.place base

/-- An endpoint that is used is the first one that is not blank, trimmed. A service is set up
for it, whose URLs begin with the endpoint less the slashes behind it; something is left of it
unless it is slashes alone. When all endpoints are blank, the process says so and sends
nothing. -/
theorem base_of_endpoints (i : Invocation) (network : Network σ) (server : σ) :
    (∀ endpoint, i.options.endpoint = .ok endpoint → i.options.Chooses endpoint ∧
      ∃ host, Text.Sheds (· == '/') endpoint.toList host.toList ∧
        (host = "" ↔ ∀ c ∈ endpoint.toList, c = '/') ∧
        (∀ scheme userAgent,
          Service.ofSettings ⟨endpoint, scheme, userAgent⟩ ≠ .error .noEndpoint ∧
          ∀ service, Service.ofSettings ⟨endpoint, scheme, userAgent⟩ = .ok service →
            service.base = scheme ++ "://" ++ host ++ "/v2") ∧
        ∃ service, i.service = .ok service ∧ service.base = "http://" ++ host ++ "/v2") ∧
    (i.options.endpoint = .error .noEndpoint ↔ ∀ text ∈ i.options.endpoints, Text.Blank text) ∧
    (i.options.endpoint = .error .noEndpoint →
      (i.run network server).1 = some (complaint .noEndpoint) ∧ i.log network server = []) := by
  refine ⟨fun endpoint chosen => ⟨Options.chooses_of_endpoint chosen, ?_⟩, ?_, fun unset => ?_⟩
  · obtain ⟨trimmed, some⟩ := (Options.chooses_of_endpoint chosen).trimmed
    refine ⟨Text.trimEndOf '/' endpoint, Text.trimEndOf_eq_iff.mp rfl, Text.trimEndOf_eq_empty_iff,
      fun scheme userAgent => ?_, service_of_endpoint chosen⟩
    rw [Service.ofSettings_of_trimmed trimmed some]
    split
    · refine ⟨nofun, ?_⟩
      rintro service ⟨⟩
      rfl
    · exact ⟨nofun, nofun⟩
  · rw [Options.endpoint_eq_error_iff, eq_self, true_and]
  · have unmade : i.service = .error (.of (.config .noEndpoint)) := by rw [service, unset]
    constructor
    · rw [run, unmade]
      rfl
    · rw [log, run, unmade]

/-- A slash for an endpoint: it passes, and the login goes to a host called v2. -/
theorem slash_sends_login_elsewhere :
    let words := ["get", "cluster", "--endpoints", "/"]
    let network : Network Unit := fun _ s => (.lost, s)
    ∃ i, ofWords (fun _ => none) words = .ok i ∧ i.options.endpoint = .ok "/" ∧
      (∃ service, i.service = .ok service ∧ service.base = "http:///v2") ∧
      (∀ entry ∈ i.log network (), entry.1.place = ⟨"http", "v2", 80⟩) ∧
      ((i.log network ()).map fun entry => (entry.1.method, entry.1.target, entry.1.body)) =
        [(.post, "/auth/login",
          some "\x7b\"username\":\"storageos\",\"password\":\"storageos\"\x7d")] ∧
      (i.run network ()).1 = some ⟨1, some ("error: authenticating as storageos: request failed: "
        ++ "error sending request for url (http://v2/auth/login)"), ""⟩ := by
  intro words network
  let options : Options :=
    ⟨["/"], Span.ofParts 5 0, "storageos", "storageos", false, none, .skip, .text⟩
  let i : Invocation := ⟨options, .getCluster⟩
  have chosen : i.options.endpoint = .ok "/" := by decide +kernel
  refine ⟨i, rfl, chosen, ⟨⟨"http:///v2", "storageos-cli/0.1.0"⟩, by decide +kernel, rfl⟩, ?_, ?_, ?_⟩
  · exact sent_to_version chosen (by simp) nofun ()
  · decide +kernel
  · decide +kernel

end Invocation

end StorageControl
