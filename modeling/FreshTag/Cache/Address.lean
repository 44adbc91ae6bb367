/-
FreshTag/Cache/Address.lean

The address of a Redis server, `scheme://authority/path`.  A password that is
set apart goes in front of the authority, unless the authority holds
credentials of its own; they win (`withPassword_of_credentials`).  A text that
names no scheme stays as it is, and so does an address for the empty password.

The password goes in as it is written: what it means in an address, its
percent signs for instance, is up to whoever reads the address.
-/
import FreshTag.Text.Pieces

namespace FreshTag.Redis

/-- What stands between the scheme of an address and its authority. -/
def schemeEnd : List Char := [':', '/', '/']

/-- Scheme and rest of an address. -/
def schemeAndRest? (address : String) : Option (List Char × List Char) :=
  Text.cutAt schemeEnd address.toList

/-- The rest of an address names credentials: there is an `@` in front of the path. -/
def namesCredentials (rest : List Char) : Bool :=
  (rest.takeWhile (· ≠ '/')).contains '@'

/-- The address with a password in it. -/
def withPassword (password address : String) : String :=
  match schemeAndRest? address with
  | none => address
  | some (scheme, rest) =>
    if password = "" ∨ namesCredentials rest = true then address
    else String.ofList (scheme ++ schemeEnd ++ [':'] ++ password.toList ++ ['@'] ++ rest)

theorem withPassword_of_noScheme {password address : String}
    (h : schemeAndRest? address = none) : withPassword password address = address := by
  simp [withPassword, h]

theorem withPassword_empty (address : String) : withPassword "" address = address := by
  unfold withPassword
  split <;> simp

theorem withPassword_of_credentials {password address : String} {scheme rest : List Char}
    (h : schemeAndRest? address = some (scheme, rest)) (hc : namesCredentials rest = true) :
    withPassword password address = address := by
  simp [withPassword, h, hc]

end FreshTag.Redis
