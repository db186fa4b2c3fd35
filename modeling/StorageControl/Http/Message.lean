import StorageControl.Text.Rune
import StorageControl.Url

/-! Requests and replies.

A request goes to one place and asks it for a target; a request with a body says that it
is JSON. A reply has a status, headers and a body that may have broken off. Blanks at the
ends of a header's value do not travel.
-/

set_option autoImplicit false

namespace StorageControl.Http

inductive Method where
  | get
  | post
  | put
  | delete
  deriving DecidableEq, Repr

def Method.name : Method → String
  | .get => "GET"
  | .post => "POST"
  | .put => "PUT"
  | .delete => "DELETE"

def Method.isMutation : Method → Bool
  | .get => false
  | .post | .put | .delete => true

structure Place where
  scheme : String
  host : String
  port : Nat
  deriving DecidableEq, Repr

structure Request where
  place : Place
  method : Method
  /-- The path and the query. -/
  target : String
  body : Option String
  authorization : List String
  userAgent : String
  deriving DecidableEq, Repr

def Request.contentType (r : Request) : Option String := r.body.map fun _ => "application/json"

def Request.path (r : Request) : String := String.ofList (r.target.toList.takeWhile (· ≠ '?'))

structure Reply where
  status : Nat
  headers : List (String × String)
  body : List Text.Rune
  isWhole : Bool
  deriving DecidableEq, Repr

def isHeaderBlank (c : Char) : Bool := c == ' ' || c == '\t'

/-- A header's value as it travels. -/
def carried (value : String) : String :=
  String.ofList
    (((value.toList.dropWhile isHeaderBlank).reverse.dropWhile isHeaderBlank).reverse)

def Reply.header? (r : Reply) (name : String) : Option String :=
  (r.headers.find? fun h => h.1.toLower == name.toLower).map fun h => carried h.2

def Reply.isSuccess (r : Reply) : Bool := 200 ≤ r.status && r.status < 300

def isHeaderValue (value : String) : Bool :=
  value.toList.all fun c => (0x20 ≤ c.toNat && c.toNat ≠ 0x7F) || c == '\t'

/-- Whether a header's value is readable text. -/
def isReadable (value : String) : Bool :=
  value.toList.all fun c => (0x20 ≤ c.toNat && c.toNat < 0x7F) || c == '\t'

inductive Outcome where
  | reply (r : Reply)
  | lost
  | silent

abbrev Network (σ : Type) : Type := Request → σ → Outcome × σ

end StorageControl.Http
