import StorageControl.Http.Message
import StorageControl.Url.Reference

/-! One exchange: a request, the redirects that follow it, and the last reply.

A redirect is followed when its location makes sense, ten times at most. A redirect of a
POST, and one that asks for it, drops the body and goes on with a GET. The credential
goes along as long as the place stays the same.
-/

set_option autoImplicit false

namespace StorageControl.Http

inductive Flaw where
  | unbuilt
  | unusable (url : String)
  | unsent (url : String)
  | misdirected (url : String)
  | unread
  deriving DecidableEq, Repr

def Flaw.message : Flaw → String
  | .unbuilt => "builder error"
  | .unusable url => "builder error for url (" ++ url ++ ")"
  | .unsent url => "error sending request for url (" ++ url ++ ")"
  | .misdirected url => "error following redirect for url (" ++ url ++ ")"
  | .unread => "error decoding response body"

def isHypertext (scheme : String) : Bool := scheme == "http" || scheme == "https"

structure Errand where
  method : Method
  address : Address
  body : Option String
  authorization : List String
  /-- Whether the place is the one that the last request went to. -/
  isTrusted : Bool
  deriving DecidableEq, Repr

def placeOf (a : Address) : Place :=
  let (host, port) := Url.hostAndPort false (Url.cutLast '@' a.authority.toList).2
  let port := port.bind (Url.Host.valueIn 10 0)
  ⟨a.scheme, String.ofList host, port.getD ((Url.standardPort? a.scheme).getD 0)⟩

def Errand.request (userAgent : String) (e : Errand) : Request :=
  { place := placeOf e.address
    method := e.method
    target := e.address.target
    body := e.body
    authorization := if e.isTrusted then e.authorization.map carried else []
    userAgent := carried userAgent }

def Errand.redirected (e : Errand) (status : Nat) (next : Address) (isTrusted : Bool) : Errand :=
  if status = 303 ∨ ((status = 301 ∨ status = 302) ∧ e.method = .post) then
    { e with method := .get, address := next, body := none, isTrusted }
  else { e with address := next, isTrusted }

def redirects : List Nat := [301, 302, 303, 307, 308]

def isSamePlace (a b : Url) : Bool := a.host == b.host && a.connectedPort? == b.connectedPort?

inductive Lead where
  | stay
  | flawed (flaw : Flaw)
  | go (url : Url) (next : Errand)

/-- Where a reply to an errand leads; `first` is where the exchange began. -/
def lead (first : String) (e : Errand) (r : Reply) : Lead :=
  if redirects.contains r.status then
    match (r.header? "location").bind e.address.resolve? with
    | none => .stay
    | some (.placeless scheme text) =>
      .flawed (if isHypertext scheme then .unsent first else .unusable text)
    | some (.address next) =>
      match Url.ofText? next.text, Url.ofText? e.address.text with
      | some url, some here => .go url (e.redirected r.status next (isSamePlace url here))
      | _, _ => .flawed (.unusable first)
  else .stay

inductive Ending where
  | reply (r : Reply)
  | flawed (flaw : Flaw)
  | silent
  deriving DecidableEq, Repr

variable {σ : Type}

/-- Send an errand and follow at most `left` redirects. -/
def pursue (network : Network σ) (userAgent first : String) : Nat → Errand → σ → Ending × σ
  | left, e, s =>
    match network (e.request userAgent) s with
    | (.lost, s) => (.flawed (.unsent first), s)
    | (.silent, s) => (.silent, s)
    | (.reply r, s) =>
      match lead first e r with
      | .stay => (.reply r, s)
      | .flawed flaw => (.flawed flaw, s)
      | .go url next =>
        match left with
        | 0 => (.flawed (.misdirected (Url.ofText? e.address.text |>.elim "" Url.text)), s)
        | left + 1 =>
          if isHypertext url.scheme then
            pursue network userAgent first left next s
          else (.flawed (.unusable url.text), s)

def patience : Nat := 10

def longest : Nat := 65534

/-- Characters that a host may have when a connection is made. -/
def isHostChar (c : Char) : Bool :=
  Address.isNameChar c || c == '[' || c == ']' || c == ':'

def isUsable (url : Url) : Bool :=
  isHypertext url.scheme && url.host.text.toList.all isHostChar &&
    url.text.utf8ByteSize ≤ longest

def exchange (network : Network σ) (userAgent : String) (method : Method) (url : Url)
    (body : Option String) (authorization : List String) (s : σ) : Ending × σ :=
  if isUsable url then
    pursue network userAgent url.text patience
      ⟨method, Address.ofUrl url, body, authorization, true⟩ s
  else (.flawed (.unusable url.text), s)

end StorageControl.Http
