import StorageControl.Url.Host

/-! URLs, read the way browsers read them.

Reading is lenient: blanks around a URL and line breaks inside it are dropped, a
backslash is a slash in web addresses, dot segments are resolved, and characters that a
part may not have are escaped. What is left is in one normal form, which is the text that
is sent and shown.
-/

set_option autoImplicit false

namespace StorageControl

open StorageControl.Text (splitAtChar)

structure Url where
  scheme : String
  user : String
  password : Option String
  host : Url.Host
  port : Option Nat
  path : String
  query : Option String
  fragment : Option String
  deriving DecidableEq, Repr

namespace Url

/-- The schemes of web addresses, which need a host, and their ports. -/
def webSchemes : List (String × Nat) :=
  [("http", 80), ("https", 443), ("ws", 80), ("wss", 443), ("ftp", 21)]

def standardPort? (scheme : String) : Option Nat := (webSchemes.find? (·.1 == scheme)).map (·.2)

def isWeb (scheme : String) : Bool := (standardPort? scheme).isSome

/-! ### Text -/

def userText (url : Url) : String :=
  let password := match url.password with
    | some p => ":" ++ p
    | none => ""
  if url.user.isEmpty && url.password.isNone then "" else url.user ++ password ++ "@"

def placeText (url : Url) : String :=
  url.host.text ++ match url.port with
    | some port => ":" ++ toString port
    | none => ""

def queryText (query : Option String) : String :=
  match query with
  | some q => "?" ++ q
  | none => ""

def target (url : Url) : String := url.path ++ queryText url.query

def text (url : Url) : String :=
  url.scheme ++ "://" ++ url.userText ++ url.placeText ++ url.target ++
    match url.fragment with
    | some f => "#" ++ f
    | none => ""

/-! ### Paths -/

def isHere (segment : List Char) : Bool :=
  [".", "%2e"].contains (String.ofList (segment.map Char.toLower))

def isUp (segment : List Char) : Bool :=
  ["..", ".%2e", "%2e.", "%2e%2e"].contains (String.ofList (segment.map Char.toLower))

/-- A segment that is the letter of a drive; no way leads up from it. -/
def isDrive (segment : List Char) : Bool :=
  match segment with
  | [letter, mark] => letter.isAlpha && (mark == ':' || mark == '|')
  | _ => false

def above : List (List Char) → List (List Char)
  | [] => []
  | segment :: rest => if isDrive segment then segment :: rest else rest

/-- Resolve the dot segments behind segments in reverse. -/
def settle (passed : List (List Char)) : List (List Char) → List (List Char)
  | [] => passed.reverse
  | [last] =>
    if isUp last then ([] :: above passed).reverse
    else if isHere last then ([] :: passed).reverse
    else (last :: passed).reverse
  | segment :: rest =>
    if isUp segment then settle (above passed) rest
    else if isHere segment then settle passed rest
    else settle (segment :: passed) rest

def pathText (path : List Char) : List Char :=
  '/' :: List.intercalate ['/'] (settle [] ((splitAtChar '/' path).map (escape pathEscaped)))

/-! ### Reading -/

/-- Spaces and controls, which do not count at the ends of a URL. -/
def isMargin (c : Char) : Bool := c.toNat ≤ 0x20

def essence (text : List Char) : List Char :=
  let text := ((text.dropWhile isMargin).reverse.dropWhile isMargin).reverse
  text.filter fun c => c ≠ '\t' ∧ c ≠ '\n' ∧ c ≠ '\r'

def cut (mark : Char) (text : List Char) : List Char × Option (List Char) :=
  match text.span (· ≠ mark) with
  | (before, _ :: after) => (before, some after)
  | (before, []) => (before, none)

def isSchemeChar (c : Char) : Bool := c.isAlphanum || c == '+' || c == '-' || c == '.'

def scheme? (text : List Char) : Option (String × List Char) :=
  match text.span isSchemeChar with
  | (first :: more, ':' :: rest) =>
    if first.isAlpha then some (String.ofList ((first :: more).map Char.toLower), rest) else none
  | _ => none

/-- A port; one that the scheme has anyway is left out. -/
def port? (scheme : String) (digits : List Char) : Option (Option Nat) :=
  if digits.isEmpty then some none
  else match Host.valueIn 10 0 digits with
    | none => none
    | some n =>
      if 65535 < n then none else some (if standardPort? scheme = some n then none else some n)

/-- A host and what follows its colon; no colon counts inside brackets. -/
def hostAndPort (inside : Bool) : List Char → List Char × Option (List Char)
  | [] => ([], none)
  | c :: rest =>
    if c = ':' ∧ inside = false then ([], some rest)
    else
      let inside := if c = '[' then true else if c = ']' then false else inside
      let (host, port) := hostAndPort inside rest
      (c :: host, port)

def cutLast (mark : Char) (text : List Char) : Option (List Char) × List Char :=
  match cut mark text.reverse with
  | (_, none) => (none, text)
  | (after, some before) => (some before.reverse, after.reverse)

/-- The parts of an authority; that of a file has no port. -/
structure Authority where
  user : String
  password : Option String
  host : Host
  port : Option Nat

def login (text : Option (List Char)) : String × Option String :=
  match text with
  | none => ("", none)
  | some text =>
    let (user, password) := cut ':' text
    let shown (t : List Char) := String.ofList (escape userEscaped t)
    (shown user, (password.filter (!·.isEmpty)).map shown)

def Authority.ofText? (scheme : String) (text : List Char) : Option Authority := do
  let (before, place) := cutLast '@' text
  let (user, password) := login before
  let (name, port) := hostAndPort false place
  if name.isEmpty && (isWeb scheme || port.isSome || before.isSome) then none
  else if scheme = "file" ∧ port.isSome then none
  else
    let host ← if isWeb scheme then Host.ofText? name else Host.ofOpaque? name
    let port ← port? scheme (port.getD [])
    pure ⟨user, password, host, port⟩

def tailText (scheme : String) (path : List Char) : String :=
  match path with
  | [] => if isWeb scheme then "/" else ""
  | _ :: rest => String.ofList (pathText rest)

def ofText? (input : String) : Option Url := do
  let (scheme, rest) ← scheme? (essence input.toList)
  let web := isWeb scheme
  let (rest, fragment) := cut '#' rest
  let (rest, query) := cut '?' rest
  let rest := if web then rest.map fun c => if c = '\\' then '/' else c else rest
  let rest ←
    if web then some (rest.dropWhile (· == '/')) else Text.dropLead ['/', '/'] rest
  let (place, path) := rest.span (· ≠ '/')
  let authority ← Authority.ofText? scheme place
  let escaped (set : Char → Bool) (text : List Char) := String.ofList (escape set text)
  pure {
    scheme
    user := authority.user
    password := authority.password
    host := authority.host
    port := authority.port
    path := tailText scheme path
    query := query.map (escaped (if web then webQueryEscaped else queryEscaped))
    fragment := fragment.map (escaped fragmentEscaped) }

def withPairs (url : Url) (pairs : List (String × String)) : Url :=
  if pairs.isEmpty then url
  else
    let added := List.intercalate ['&'] (pairs.map formPair)
    let before := match url.query with
      | none | some "" => []
      | some q => q.toList ++ ['&']
    { url with query := some (String.ofList (before ++ added)) }

def withoutLogin (url : Url) : Url := { url with user := "", password := none }

def connectedPort? (url : Url) : Option Nat := url.port.or (standardPort? url.scheme)

end Url

end StorageControl
