import StorageControl.Url

/-! The credential that a URL itself may hold.

A user and a password in front of the host are taken out of the URL and sent as a basic
credential, in base sixty-four.
-/

set_option autoImplicit false

namespace StorageControl.Http

def digit64 (n : Nat) : Char :=
  if n < 26 then Char.ofNat (0x41 + n)
  else if n < 52 then Char.ofNat (0x61 + (n - 26))
  else if n < 62 then Char.ofNat (0x30 + (n - 52))
  else if n = 62 then '+'
  else '/'

/-- Three octets as four digits; fewer at the end are filled up with equals signs. -/
def base64 : List UInt8 → List Char
  | a :: b :: c :: rest =>
    let n := (a.toNat * 256 + b.toNat) * 256 + c.toNat
    digit64 (n / 64 / 64 / 64) :: digit64 (n / 64 / 64 % 64) :: digit64 (n / 64 % 64) ::
      digit64 (n % 64) :: base64 rest
  | [a, b] =>
    let n := (a.toNat * 256 + b.toNat) * 4
    [digit64 (n / 64 / 64), digit64 (n / 64 % 64), digit64 (n % 64), '=']
  | [a] =>
    let n := a.toNat * 16
    [digit64 (n / 64), digit64 (n % 64), '=', '=']
  | [] => []

def meant (part : String) : Option (List Char) :=
  Url.Host.wellFormed? (Text.Rune.ofOctets (Url.unescape part.toList))

def basicCredential (url : Url) : Option String :=
  if url.user.isEmpty ∧ url.password.isNone then none
  else do
    let user ← meant url.user
    let password := (url.password.bind meant).getD []
    pure ("Basic " ++ String.ofList (base64 ((user ++ ':' :: password).flatMap Text.octets)))

end StorageControl.Http
