import StorageControl.Url

/-! References relative to an address, resolved strictly.

Unlike a URL, an address here has no lenient reading: every character must be allowed
where it stands, and every percent sign be followed by two digits. A reference that is
not well formed leads nowhere.
-/

set_option autoImplicit false

namespace StorageControl

structure Address where
  scheme : String
  authority : String
  path : String
  query : Option String
  deriving DecidableEq, Repr

namespace Address

open StorageControl.Text (splitAtChar)

def text (a : Address) : String :=
  a.scheme ++ "://" ++ a.authority ++ a.path ++ Url.queryText a.query

def target (a : Address) : String := a.path ++ Url.queryText a.query

def ofUrl (url : Url) : Address := ⟨url.scheme, url.placeText, url.path, url.query⟩

/-! ### Characters -/

def isUnreserved (c : Char) : Bool := c.isAlphanum || ['-', '.', '_', '~'].contains c

def isSubDelimiter (c : Char) : Bool :=
  ['!', '$', '&', '\'', '(', ')', '*', '+', ',', ';', '='].contains c

def isNameChar (c : Char) : Bool := isUnreserved c || isSubDelimiter c
def isUserChar (c : Char) : Bool := isNameChar c || c == ':'
def isPathChar (c : Char) : Bool := isUserChar c || c == '@' || c == '/'
def isQueryChar (c : Char) : Bool := isPathChar c || c == '?'

/-- Whether every character is allowed or part of a percent escape. -/
def isWritten (allowed : Char → Bool) : List Char → Bool
  | '%' :: a :: b :: rest =>
    (Url.hexValue? a).isSome && (Url.hexValue? b).isSome && isWritten allowed rest
  | c :: rest => allowed c && isWritten allowed rest
  | [] => true

/-! ### References -/

/-- The parts of a reference; a fragment has no effect. -/
structure Reference where
  scheme : Option String
  authority : Option (List Char)
  path : List Char
  query : Option (List Char)

def isPlace (place : List Char) : Bool :=
  match place with
  | '[' :: rest =>
    match Url.cut ']' rest with
    | (inner, some after) => (Url.Host.pieces? inner).isSome &&
      match after with
      | [] => true
      | ':' :: port => port.all Char.isDigit
      | _ => false
    | (_, none) => false
  | _ =>
    match Url.cut ':' place with
    | (name, port) => name.all isNameChar && !name.isEmpty && (port.getD []).all Char.isDigit

def isAuthority (text : List Char) : Bool :=
  match Url.cutLast '@' text with
  | (user, place) => (user.all (isWritten isUserChar)) && isPlace place

def schemeOf (text : List Char) : Option String × List Char :=
  match Url.scheme? text with
  | some (scheme, rest) => (some scheme, rest)
  | none => (none, text)

/-- A path without a scheme has no colon in its first segment. -/
def isUnambiguous (scheme : Option String) (authority : Option (List Char)) (path : List Char) :
    Bool :=
  scheme.isSome || authority.isSome || !(path.takeWhile (· ≠ '/')).contains ':'

def Reference.ofText? (text : List Char) : Option Reference :=
  let (rest, fragment) := Url.cut '#' text
  let (rest, query) := Url.cut '?' rest
  let (scheme, rest) := schemeOf rest
  let (authority, path) := match Text.dropLead ['/', '/'] rest with
    | some rest => (some (rest.takeWhile (· ≠ '/')), rest.dropWhile (· ≠ '/'))
    | none => (none, rest)
  if isWritten isPathChar path && query.all (isWritten isQueryChar) &&
      fragment.all (isWritten isQueryChar) && authority.all isAuthority &&
      isUnambiguous scheme authority path then
    some ⟨scheme, authority, path, query⟩
  else none

def settle (passed : List (List Char)) : List (List Char) → List (List Char)
  | [] => passed.reverse
  | [last] =>
    if Url.isUp last then ([] :: passed.tail).reverse
    else if Url.isHere last then ([] :: passed).reverse
    else (last :: passed).reverse
  | segment :: rest =>
    if Url.isUp segment then settle passed.tail rest
    else if Url.isHere segment then settle passed rest
    else settle (segment :: passed) rest

/-- A path without dot segments; an empty one is the root. -/
def plainPath (path : List Char) : List Char :=
  match path with
  | '/' :: rest => '/' :: List.intercalate ['/'] (settle [] (splitAtChar '/' rest))
  | _ => ['/']

def folder (path : List Char) : List Char := (path.reverse.dropWhile (· ≠ '/')).reverse

def isBase (a : Address) : Bool :=
  isWritten isPathChar a.path.toList && a.query.all fun q => isWritten isQueryChar q.toList

inductive Destination where
  | address (a : Address)
  | placeless (scheme text : String)
  deriving DecidableEq, Repr

/-- Whether the text behind a scheme could be taken for a host and a port. -/
def isPlaceLike (text : List Char) : Bool :=
  match Url.cutLast '@' text with
  | (user, place) =>
    !text.contains '/' && !place.contains '%' && place.count ':' ≤ (if user.isSome then 1 else 0) &&
      (user.isNone || !place.isEmpty)

def Reference.resolve? (base : Address) (r : Reference) : Option Destination :=
  let query := r.query.map String.ofList
  let path (chars : List Char) := String.ofList (plainPath chars)
  match r.scheme, r.authority with
  | some scheme, some authority =>
    some (.address ⟨scheme, String.ofList authority, path r.path, query⟩)
  | some scheme, none =>
    if query.isNone ∧ isPlaceLike r.path then
      some (.placeless scheme (scheme ++ ":" ++ String.ofList r.path))
    else none
  | none, some authority =>
    some (.address ⟨base.scheme, String.ofList authority, path r.path, query⟩)
  | none, none =>
    if r.path.isEmpty then some (.address { base with query := query.or base.query })
    else if r.path.head? = some '/' then
      some (.address ⟨base.scheme, base.authority, path r.path, query⟩)
    else
      some (.address ⟨base.scheme, base.authority, path (folder base.path.toList ++ r.path), query⟩)

def resolve? (base : Address) (text : String) : Option Destination :=
  if base.isBase then (Reference.ofText? text.toList).bind (·.resolve? base) else none

end Address

end StorageControl
