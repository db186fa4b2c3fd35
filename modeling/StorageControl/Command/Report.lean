import StorageControl.Command.Line
import StorageControl.Command.Procedure
import StorageControl.Service

/-! Running a command against a network, and what the process leaves behind. -/

set_option autoImplicit false

namespace StorageControl

/-- What a process leaves: its exit code, the line that says what failed, and its output. -/
structure Report where
  exit : Nat
  line : Option String
  output : String
  deriving DecidableEq, Repr

namespace Report

/-- The report on a command that ended. A document is printed on lines of its own. -/
def ofResult : Except Failure (Option Json.Value) → Report
  | .ok none => ⟨0, none, ""⟩
  | .ok (some document) => ⟨0, none, document.pretty ++ "\n"⟩
  | .error failure => ⟨Exit.ofFailure failure, some failure.line, ""⟩

def programVersion : String := "storageos 0.1.0"

def ofUsage (usage : Usage) : Report :=
  let line := if usage.isRequest then none else some ("error: " ++ usage.message)
  ⟨usage.exit, line, if usage = .version then programVersion ++ "\n" else ""⟩

end Report

namespace Invocation

variable {σ : Type}

def service (i : Invocation) : Except Failure Service :=
  match i.options.endpoint with
  | .error fault => .error (.of (.config fault))
  | .ok endpoint =>
    match Service.ofSettings (.ofEndpoint endpoint) with
    | .error fault => .error (.of (.other fault.message))
    | .ok service => .ok service

def run (i : Invocation) (network : Http.Network σ) (server : σ) : Option Report × σ :=
  match i.service with
  | .error failure => (some (.ofResult (.error failure)), server)
  | .ok service =>
    let start : Machine (Service.Session σ) := ⟨⟨none, server⟩, 0, [], none⟩
    let (result, m) := i.procedure.run i.client (service.transport network) start
    (result.map .ofResult, m.server.server)

end Invocation

end StorageControl
