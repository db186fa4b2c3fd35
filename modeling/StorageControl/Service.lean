import StorageControl.Http.Basic
import StorageControl.Http.Exchange
import StorageControl.Service.Route

/-! The service over HTTP.

All clients of a service share one credential. It goes with every request but the login;
a login replaces it, as its last step before the user is looked at. Every answer outside
the two hundreds is a failure, told by the error document in its body or by the body
itself.
-/

set_option autoImplicit false

namespace StorageControl

structure Settings where
  endpoint : String
  scheme : String
  userAgent : String
  deriving DecidableEq, Repr

def Settings.ofEndpoint (endpoint : String) : Settings := ⟨endpoint, "http", "storageos-cli/0.1.0"⟩

inductive SetupFault where
  | noEndpoint
  | userAgent
  deriving DecidableEq, Repr

def SetupFault.message : SetupFault → String
  | .noEndpoint => "no API endpoint configured"
  | .userAgent => "failed to build HTTP client: " ++ Http.Flaw.unbuilt.message

structure Service where
  base : String
  userAgent : String
  deriving DecidableEq, Repr

namespace Service

open StorageControl.Http (Network Reply Flaw Ending)

def ofSettings (s : Settings) : Except SetupFault Service :=
  if Text.trim s.endpoint = "" then .error .noEndpoint
  else if Http.isHeaderValue s.userAgent then
    .ok ⟨s.scheme ++ "://" ++ Text.trimEndOf '/' s.endpoint ++ "/v2", s.userAgent⟩
  else .error .userAgent

structure Session (σ : Type) where
  credential : Option Credential
  server : σ

variable {σ : Type}

def url? (service : Service) (route : Route) : Option Url :=
  (Url.ofText? (service.base ++ route.path)).map (·.withPairs route.query)

def send (service : Service) (network : Network σ) (route : Route)
    (credential : Option Credential) (s : σ) : Ending × σ :=
  match service.url? route with
  | none => (.flawed .unbuilt, s)
  | some url =>
    let tokens := (credential.map Credential.text).toList
    if tokens.all Http.isHeaderValue then
      Http.exchange network service.userAgent route.method url.withoutLogin
        (route.body.map Json.Value.text) ((Http.basicCredential url).toList ++ tokens) s
    else (.flawed .unbuilt, s)

def fault (flaw : Flaw) : TransportFault := .request flaw.message

/-- The body of a failed reply; one that broke off counts as empty. -/
def failureBody (r : Reply) : String := if r.isWhole then Text.lossy r.body else ""

def accepted (r : Reply) : Except TransportFault Reply :=
  if r.isSuccess then .ok r else .error (.response r.status (Wire.payload (failureBody r)))

def body (r : Reply) : Except TransportFault (List Text.Rune) :=
  if r.isWhole then .ok r.body else .error (fault .unread)

def answer (c : Call) (r : Reply) : c.Reply :=
  match accepted r with
  | .error e => .error e
  | .ok r =>
    if c.expectsBody then
      match body r with
      | .error e => .error e
      | .ok text => c.readBody text
    else c.readBody []

/-- Take every leading occurrence of a text off another. -/
def withoutLeads (lead text : List Char) : List Char :=
  match Text.dropLead lead text with
  | some rest => if rest.length < text.length then withoutLeads lead rest else text
  | none => text
termination_by text.length

def handedOut (r : Reply) : Option Credential :=
  match r.header? "authorization" with
  | some value =>
    if Http.isReadable value then
      Credential.ofText? (String.ofList (withoutLeads "Bearer ".toList value.toList))
    else none
  | none => none

/-- What a login brings: the credential to store, if it comes to that, and the user. -/
def login (r : Reply) : Option Credential × Except TransportFault User :=
  match accepted r with
  | .error e => (none, .error e)
  | .ok r =>
    match handedOut r with
    | none => (none, .error (.decode "login response carried no token"))
    | some credential =>
      match body r with
      | .error e => (none, .error e)
      | .ok text =>
        match Json.readRunes Wire.toUser text with
        | .error cause => (none, .error (.decode cause.message))
        | .ok model => (some credential, Wire.User.resource model)

/-- Log in: the exchange holds the credential until it is over. -/
def authenticate (service : Service) (network : Network σ) (username password : String)
    (s : Session σ) : Option (Except TransportFault User) × Session σ :=
  match service.send network (Call.authenticate username password).route none s.server with
  | (.silent, server) => (none, { s with server })
  | (.flawed flaw, server) => (some (.error (fault flaw)), { s with server })
  | (.reply r, server) =>
    let (credential, user) := login r
    (some user, ⟨credential.or s.credential, server⟩)

def request (service : Service) (network : Network σ) (c : Call) (s : Session σ) :
    Option c.Reply × Session σ :=
  match service.send network c.route s.credential s.server with
  | (.silent, server) => (none, { s with server })
  | (.flawed flaw, server) => (some (.error (fault flaw)), { s with server })
  | (.reply r, server) => (some (answer c r), { s with server })

def land (service : Service) (network : Network σ) :
    (c : Call) → Session σ → Option c.Reply × Session σ
  | .authenticate username password, s => service.authenticate network username password s
  | c, s => service.request network c s

def transport (service : Service) (network : Network σ) : Transport (Session σ) :=
  ⟨fun _ s => (1, s), service.land network⟩

end Service

end StorageControl
