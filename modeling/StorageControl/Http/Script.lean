import StorageControl.Http.Message

/-! A server that answers from a script.

Every route has a list of replies that are used in order, the last one over and over. The
server notes the requests that reach it; all other places refuse connections.
-/

set_option autoImplicit false

namespace StorageControl.Http

inductive Mishap where
  | closed
  | truncated
  | hanging
  deriving DecidableEq, Repr

structure Scripted where
  reply : Reply
  mishap : Option Mishap
  deriving DecidableEq, Repr

def bodiless : List Nat := [101, 204, 304]

def Scripted.outcome (s : Scripted) : Outcome :=
  match s.mishap with
  | some .closed => .lost
  | some .hanging => .silent
  | mishap =>
    if bodiless.contains s.reply.status then .reply { s.reply with body := [], isWhole := true }
    else .reply { s.reply with isWhole := mishap.isNone }

structure Script where
  place : Place
  /-- The answers by method and path. -/
  routes : List (String × List Scripted)
  received : List Request

namespace Script

def routeName (r : Request) : String := r.method.name ++ " " ++ r.path

/-- Use a reply up, unless it is the last. -/
def rest : List Scripted → List Scripted
  | [] => []
  | [last] => [last]
  | _ :: others => others

def take (name : String) :
    List (String × List Scripted) → Option Scripted × List (String × List Scripted)
  | [] => (none, [])
  | (n, replies) :: others =>
    if n = name then (replies.head?, (n, rest replies) :: others)
    else
      let (reply, others) := take name others
      (reply, (n, replies) :: others)

def noRoute : Reply := ⟨404, [], Text.runes "no route", true⟩

def answer : Network Script := fun r s =>
  if r.place = s.place then
    let (reply, routes) := take (routeName r) s.routes
    let s := { s with routes, received := s.received ++ [r] }
    match reply with
    | some scripted => (scripted.outcome, s)
    | none => (.reply noRoute, s)
  else (.lost, s)

end Script

end StorageControl.Http
