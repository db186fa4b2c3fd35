import StorageControl.Http.Message

/-! Answers that are known in advance.

A run against known answers goes as far as they reach. It notes the first request that
has none, so that the caller can find out the answer and run again.
-/

set_option autoImplicit false

namespace StorageControl.Http

structure Replay where
  known : List Outcome
  /-- The first request without an answer. -/
  wanted : Option Request

namespace Replay

def ofKnown (known : List Outcome) : Replay := ⟨known, none⟩

def answer : Network Replay := fun r s =>
  match s.known with
  | outcome :: rest => (outcome, { s with known := rest })
  | [] => (.silent, { s with wanted := s.wanted.or (some r) })

end Replay

end StorageControl.Http
