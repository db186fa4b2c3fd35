import Std.Async.DNS
import Std.Async.TCP
import Std.Async.Timer
import StorageControl.Command.Report
import StorageControl.Http.Replay
import StorageControl.Http.Text

/-! The program: a command line in, requests to the service, a report out. -/

set_option autoImplicit false

namespace StorageControl.Program

open Std.Async (Async)
open StorageControl.Http (Outcome Place Replay Reply Request)

def addressOf (place : Place) : Async (Option Std.Net.SocketAddress) := do
  let port := place.port.toUInt16
  match Std.Net.IPv4Addr.ofString place.host with
  | some ip => pure (some (.v4 ⟨ip, port⟩))
  | none =>
    let found : Array Std.Net.IPAddr ←
      Std.Async.DNS.getAddrInfo place.host (toString place.port)
    match found.toList.head? with
    | some (.v4 ip) => pure (some (.v4 ⟨ip, port⟩))
    | some (.v6 ip) => pure (some (.v6 ⟨ip, port⟩))
    | none => pure none

def readAll (client : Std.Async.TCP.Socket.Client) : Nat → ByteArray → Async ByteArray
  | 0, received => pure received
  | count + 1, received => do
    match ← client.recv? 65536 with
    | some piece => readAll client count (received ++ piece)
    | none => pure received

def exchange (r : Request) : Async Outcome := do
  match ← addressOf r.place with
  | none => pure .lost
  | some address =>
    let client ← Std.Async.TCP.Socket.Client.mk
    client.connect address
    client.send ⟨r.octets.toArray⟩
    let received ← readAll client 65536 .empty
    pure (match Reply.ofOctets? received.toList with
      | some reply => .reply reply
      | none => .lost)

instance : Inhabited Outcome := ⟨.lost⟩

def within (milliseconds : Nat) (r : Request) : IO Outcome := do
  let answer : Async Outcome := do
    try exchange r catch _ => pure .lost
  let giveUp : Async Outcome := do
    Std.Async.sleep (.ofNat milliseconds)
    pure .silent
  (Async.race answer giveUp).block

/-- Run a command, finding out one answer after the other; there are at most `count`. -/
def carry (i : Invocation) : Nat → List Outcome → IO Report
  | 0, _ => pure (.ofResult (.error (.of (.other "too many requests"))))
  | count + 1, known => do
    let (report, replay) := i.run Replay.answer (.ofKnown known)
    match report, replay.wanted with
    | some report, none => pure report
    | _, some request =>
      let outcome ← within (Client.allowance i.options.timeout) request
      carry i count (known ++ [outcome])
    | none, none => pure (.ofResult (.error (.of (.other "no answer"))))

def patience : Nat := 100000

def environment : IO Environment := do
  let names := ["STORAGEOS_ENDPOINTS", "STORAGEOS_API_TIMEOUT", "STORAGEOS_USER_NAME",
    "STORAGEOS_PASSWORD", "STORAGEOS_USE_IDS", "STORAGEOS_NAMESPACE",
    "STORAGEOS_NEW_USER_PASSWORD"]
  let values ← names.mapM fun name => do pure (name, ← IO.getEnv name)
  pure fun name => (values.find? (·.1 == name)).bind (·.2)

end StorageControl.Program

open StorageControl in
def main (args : List String) : IO UInt32 := do
  let report ← match Invocation.ofWords (← Program.environment) args with
    | .error usage => pure (Report.ofUsage usage)
    | .ok i => Program.carry i Program.patience []
  IO.print report.output
  match report.line with
  | some line => IO.eprintln line
  | none => pure ()
  pure report.exit.toUInt32
