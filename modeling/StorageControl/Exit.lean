import StorageControl.Fault

/-! Failures of a command, and the exit code of the process.

Every kind of API failure has a code of its own, so that scripts can tell outcomes apart.
A wrong use of the command line is 2, a command that ran out of time 124 and one that was
interrupted 130. What a command was doing when it failed is put in front of the message
and changes no code.
-/

set_option autoImplicit false

namespace StorageControl

inductive ConfigFault where
  | noEndpoint
  | namespaceRequired
  | emptyId (kind : String)
  | emptyVersion
  | labels (flaw : Labels.Flaw)
  deriving DecidableEq, Repr

def ConfigFault.message : ConfigFault → String
  | .noEndpoint => "no API endpoint configured"
  | .namespaceRequired => "a namespace is required: pass --namespace or set STORAGEOS_NAMESPACE"
  | .emptyId kind => kind ++ " identifier must not be empty"
  | .emptyVersion => "version token must not be empty"
  | .labels flaw => flaw.message

inductive Reason where
  | api (fault : ApiFault)
  | config (fault : ConfigFault)
  | transport (fault : TransportFault)
  | other (message : String)
  deriving DecidableEq, Repr

/-- The text of a reason; one that only passes on another shows that one's text. -/
def Reason.message : Reason → String
  | .api fault => fault.message
  | .config fault => fault.message
  | .transport fault => fault.message
  | .other message => message

/-- A reason inside any number of activities that it made fail. -/
inductive Failure where
  | of (reason : Reason)
  | within (activity : String) (inner : Failure)
  deriving DecidableEq, Repr

namespace Failure

def chain : Failure → List String
  | of reason => [reason.message]
  | within activity inner => activity :: inner.chain

def line (f : Failure) : String := "error: " ++ ": ".intercalate f.chain

def api? : Failure → Option ApiFault
  | of (.api fault) => some fault
  | of _ => none
  | within _ inner => inner.api?

def config? : Failure → Option ConfigFault
  | of (.config fault) => some fault
  | of _ => none
  | within _ inner => inner.config?

end Failure

namespace Exit

def general : Nat := 1
def usage : Nat := 2
def timedOut : Nat := 124
def interrupted : Nat := 130

def ofKind : FaultKind → Nat
  | .refused .badRequest => 3
  | .refused .authentication => 4
  | .refused .unauthorised => 5
  | .refused .notFound => 6
  | .refused .conflict => 7
  | .refused .staleWrite => 8
  | .refused .invalidStateTransition => 9
  | .refused .licenceCapability => 10
  | .refused .server => 11
  | .refused .store => 12
  | .ambiguousName => 13
  | .deadlineExceeded => timedOut
  | .cancelled => interrupted
  | .transport => general

/-- The code of a failure: that of an API failure first, of wrong input next. -/
def ofFailure (f : Failure) : Nat :=
  match f.api?, f.config? with
  | some fault, _ => ofKind fault.kind
  | none, some _ => usage
  | none, none => general

def ofResult {α : Type} : Except Failure α → Nat
  | .ok _ => 0
  | .error f => ofFailure f

end Exit

end StorageControl
