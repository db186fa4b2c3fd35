import StorageControl.Http.Message

/-! Requests and replies as octets on a connection.

Every connection carries one request and one reply. The body of a reply ends where its
headers say, by a length or by an empty chunk, or else where the connection ends.
-/

set_option autoImplicit false

namespace StorageControl.Http

def octetsOf (text : String) : List UInt8 := text.toList.flatMap Text.octets

def headerLine (name value : String) : String := name ++ ": " ++ value ++ "\r\n"

def hostValue (place : Place) : String :=
  if place.port = 80 then place.host else place.host ++ ":" ++ toString place.port

def Request.octets (r : Request) : List UInt8 :=
  let optional (name : String) (value : Option String) : String :=
    match value with
    | some v => headerLine name v
    | none => ""
  let length := r.body.map fun body => toString body.utf8ByteSize
  let head := r.method.name ++ " " ++ r.target ++ " HTTP/1.1\r\n" ++
    headerLine "host" (hostValue r.place) ++ headerLine "accept" "*/*" ++
    headerLine "user-agent" r.userAgent ++
    String.join (r.authorization.map (headerLine "authorization")) ++
    optional "content-type" r.contentType ++ optional "content-length" length ++
    headerLine "connection" "close" ++ "\r\n"
  octetsOf (head ++ r.body.getD "")

def line? : List UInt8 → Option (List UInt8 × List UInt8)
  | 13 :: 10 :: rest => some ([], rest)
  | c :: rest => (line? rest).map fun (line, rest) => (c :: line, rest)
  | [] => none

/-- The lines up to an empty one and what follows it; there are at most `count`. -/
def lines? : Nat → List UInt8 → Option (List String × List UInt8)
  | 0, _ => none
  | count + 1, octets => do
    let (line, rest) ← line? octets
    if line.isEmpty then pure ([], rest)
    else
      let (lines, rest) ← lines? count rest
      pure (Text.lossy (Text.Rune.ofOctets line) :: lines, rest)

def headerOf? (line : String) : Option (String × String) :=
  match line.toList.span (· ≠ ':') with
  | (name, _ :: value) => some (String.ofList name, carried (String.ofList value))
  | (_, []) => none

def status? (line : String) : Option Nat :=
  match (line.toList.dropWhile (· ≠ ' ')).dropWhile (· == ' ') |>.takeWhile Char.isDigit with
  | [] => none
  | digits => Url.Host.valueIn 10 0 digits

/-- The octets of chunks and whether the last one is there; there are at most `count`. -/
def unchunk : Nat → List UInt8 → List UInt8 × Bool
  | 0, _ => ([], false)
  | count + 1, octets =>
    match line? octets with
    | none => ([], false)
    | some (line, rest) =>
      let digits := (Text.lossy (Text.Rune.ofOctets line)).toList.takeWhile
        fun c => (Url.hexValue? c).isSome
      match digits, Url.Host.valueIn 16 0 digits with
      | [], _ | _, none => ([], false)
      | _, some 0 => ([], true)
      | _, some n =>
        if rest.length < n then (rest, false)
        else
          let (more, isWhole) := unchunk count (rest.drop (n + 2))
          (rest.take n ++ more, isWhole)

def bodyOf (r : Reply) (octets : List UInt8) : List UInt8 × Bool :=
  if (r.header? "transfer-encoding").any (·.toLower == "chunked") then
    unchunk (octets.length + 1) octets
  else match (r.header? "content-length").bind fun v => Url.Host.valueIn 10 0 v.toList with
    | some n => (octets.take n, n ≤ octets.length)
    | none => (octets, true)

def Reply.ofOctets? (octets : List UInt8) : Option Reply := do
  let (lines, rest) ← lines? (octets.length + 1) octets
  let status ← lines.head?.bind status?
  let head : Reply := ⟨status, lines.tail.filterMap headerOf?, [], true⟩
  let (body, isWhole) := bodyOf head rest
  pure { head with body := Text.Rune.ofOctets body, isWhole }

end StorageControl.Http
