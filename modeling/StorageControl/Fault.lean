import StorageControl.Resource
import StorageControl.Span
import StorageControl.Text.Blank

/-! What can go wrong in a call to the server, and what the client makes of it.

A transport fault keeps whatever the server said. The client sorts faults with one of ten
statuses into kinds of its own and passes all others on unchanged; nothing is swallowed.
-/

set_option autoImplicit false

namespace StorageControl

/-- The body of a failed answer: the server's own error document, or any other text. -/
inductive Payload where
  | structured (error : String)
  | raw (body : String)
  deriving DecidableEq, Repr

/-- The explanation in a body, if it has one. A raw body counts without the blanks
around it. -/
def Payload.details (p : Payload) : Option String :=
  let text := match p with
    | .structured error => error
    | .raw body => Text.trim body
  if text = "" then none else some text

inductive TransportFault where
  | response (status : Nat) (payload : Payload)
  | request (message : String)
  | decode (message : String)
  deriving DecidableEq, Repr

def TransportFault.message : TransportFault → String
  | .response status payload =>
    "API responded with status " ++ toString status ++ ": " ++ payload.details.getD "no details"
  | .request message => "request failed: " ++ message
  | .decode message => "failed to decode response: " ++ message

inductive Refusal where
  | badRequest
  | authentication
  | unauthorised
  | notFound
  | conflict
  | staleWrite
  | invalidStateTransition
  | licenceCapability
  | server
  | store
  deriving DecidableEq, Repr

namespace Refusal

def all : List Refusal :=
  [.badRequest, .authentication, .unauthorised, .notFound, .conflict, .staleWrite,
    .invalidStateTransition, .licenceCapability, .server, .store]

def status : Refusal → Nat
  | .badRequest => 400
  | .authentication => 401
  | .unauthorised => 403
  | .notFound => 404
  | .conflict => 409
  | .staleWrite => 412
  | .invalidStateTransition => 422
  | .licenceCapability => 451
  | .server => 500
  | .store => 503

def ofStatus? (n : Nat) : Option Refusal := all.find? (·.status == n)

def message : Refusal → String
  | .badRequest => "bad request"
  | .authentication => "authentication failed"
  | .unauthorised => "unauthorised to perform operation"
  | .notFound => "not found"
  | .conflict => "conflict"
  | .staleWrite => "stale write: resource version does not match"
  | .invalidStateTransition => "invalid state transition"
  | .licenceCapability => "operation not permitted by licence"
  | .server => "internal server error"
  | .store => "store unavailable"

end Refusal

inductive ApiFault where
  | refused (refusal : Refusal) (details : Option String)
  | ambiguousName (kind : ResourceKind) (name : String) (found : Nat)
  | deadlineExceeded (operation : String) (timeout : Span)
  | cancelled (operation : String)
  /-- A fault that the statuses do not sort, unchanged. -/
  | transport (fault : TransportFault)
  deriving DecidableEq, Repr

inductive FaultKind where
  | refused (refusal : Refusal)
  | ambiguousName
  | deadlineExceeded
  | cancelled
  | transport
  deriving DecidableEq, Repr

instance : Inhabited FaultKind := ⟨.transport⟩

namespace FaultKind

def all : List FaultKind :=
  Refusal.all.map .refused ++ [.ambiguousName, .deadlineExceeded, .cancelled, .transport]

def name : FaultKind → String
  | .refused .badRequest => "bad_request"
  | .refused .authentication => "authentication"
  | .refused .unauthorised => "unauthorised"
  | .refused .notFound => "not_found"
  | .refused .conflict => "conflict"
  | .refused .staleWrite => "stale_write"
  | .refused .invalidStateTransition => "invalid_state_transition"
  | .refused .licenceCapability => "licence_capability"
  | .refused .server => "server"
  | .refused .store => "store"
  | .ambiguousName => "ambiguous_name"
  | .deadlineExceeded => "deadline_exceeded"
  | .cancelled => "cancelled"
  | .transport => "transport"

end FaultKind

namespace ApiFault

def kind : ApiFault → FaultKind
  | .refused refusal _ => .refused refusal
  | .ambiguousName _ _ _ => .ambiguousName
  | .deadlineExceeded _ _ => .deadlineExceeded
  | .cancelled _ => .cancelled
  | .transport _ => .transport

def message : ApiFault → String
  | .refused refusal details => details.getD refusal.message
  | .ambiguousName kind name found =>
    kind.name ++ " name " ++ name ++ " is ambiguous: " ++ toString found ++ " resources share it"
  | .deadlineExceeded operation timeout =>
    "timed out performing " ++ operation ++ " after " ++ timeout.inSeconds ++ "s"
  | .cancelled operation => operation ++ " was cancelled"
  | .transport fault => fault.message

def details? : ApiFault → Option String
  | .refused _ details => details
  | _ => none

def resourceNotFound (kind : ResourceKind) (key : String) : ApiFault :=
  .refused .notFound (some (kind.name ++ " " ++ key ++ " not found"))

end ApiFault

def TransportFault.sort (fault : TransportFault) : ApiFault :=
  match fault with
  | .response status payload =>
    match Refusal.ofStatus? status with
    | some refusal => .refused refusal payload.details
    | none => .transport fault
  | .request _ | .decode _ => .transport fault

end StorageControl
