import StorageControl.Machine
import StorageControl.Word

/-! The client: its settings, and running an operation under them.

Every operation has the deadline of the client's timeout and ends when the client's
token fires. A token that has fired ends every later operation before its first call.
-/

set_option autoImplicit false

namespace StorageControl

structure Client where
  timeout : Option Span
  policy : ScopePolicy
  deriving DecidableEq, Repr

namespace Client

variable {σ α : Type}

def withTimeout (client : Client) (timeout : Option Span) : Client := { client with timeout }

/-- The wait, in milliseconds, that stands for a timeout too long for the clock: thirty
years of 365 days. -/
def horizon : Nat := 30 * 365 * 86400 * 1000

/-- The milliseconds that a timeout allows; a part of one counts as one. -/
def allowance (timeout : Span) : Nat :=
  if timeout.seconds < Word.limit 63 then timeout.millisecondsUp else horizon

def limits (client : Client) (m : Machine σ) : Limits :=
  ⟨m.cancelAt, client.timeout.map fun timeout => m.clock + allowance timeout⟩

def stopFault (client : Client) (operation : String) : Stop → ApiFault
  | .cancelled => .cancelled operation
  | .expired => .deadlineExceeded operation (client.timeout.getD Span.zero)

def perform (client : Client) (T : Transport σ) (operation : Operation α) (m : Machine σ) :
    Option (Except ApiFault α) × Machine σ :=
  let limits := client.limits m
  if limits.hasFired m.clock then (some (.error (.cancelled operation.name)), m)
  else
    match m.run T limits operation.program with
    | (.landed result, m) => (some result, m)
    | (.stopped stop, m) => (some (.error (client.stopFault operation.name stop)), m)
    | (.waiting, m) => (none, m)

def describe (client : Client) (cancelled : Bool) : String :=
  let timeout := match client.timeout with
    | some t => "Some(" ++ t.describe ++ ")"
    | none => "None"
  let policy := match client.policy with
    | .skip => "Skip"
    | .fail => "Fail"
  "Client \x7b config: ClientConfig \x7b command_timeout: " ++ timeout ++
    ", unauthorised_scopes: " ++ policy ++ " \x7d, cancelled: " ++
    (if cancelled then "true" else "false") ++ ", .. \x7d"

end Client

end StorageControl
