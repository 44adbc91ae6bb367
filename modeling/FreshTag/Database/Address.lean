/-
FreshTag/Database/Address.lean

The address of a database, `scheme://authority/path?parameters#fragment`.
Parameters are pairs of a name and a value with `&` between them, in which `+`
stands for a space and `%` with two digits of base 16 for a byte.

Host and port stand in the authority, behind credentials if there are any; a
parameter of that name replaces them.  A parameter may be given more than once.
The last one counts, but an address with any value that makes no sense is of no
use.  Parameters with other names do not say how the database is reached.
-/
import FreshTag.Number.Integer
import FreshTag.Text.Hexadecimal
import FreshTag.Text.Lowercase
import FreshTag.Text.Pieces

namespace FreshTag.Database

/-- Whether a connection is encrypted, and how far the server has to show who it is. -/
inductive Security where
  | disable
  | allow
  | prefer
  | require
  | verifyCa
  | verifyFull
  deriving DecidableEq, Repr, Inhabited

/-- The security that a word asks for, in any case. -/
def Security.ofText? (s : String) : Option Security :=
  [("disable", .disable), ("allow", .allow), ("prefer", .prefer), ("require", .require),
    ("verify-ca", .verifyCa), ("verify-full", .verifyFull)].lookup (Text.lower s)

/-- The connection has to be encrypted. -/
def Security.isDemanded : Security → Bool
  | .require | .verifyCa | .verifyFull => true
  | .disable | .allow | .prefer => false

/-- How a database is reached. -/
structure Address where
  host : String
  port : Nat := 5432
  security : Security := .prefer
  deriving DecidableEq, Repr, Inhabited

namespace Address

/-! ### Texts in addresses -/

/-- The characters that encoded ones stand for; a byte counts as the character of its number. -/
def decode : List Char → List Char
  | '+' :: cs => ' ' :: decode cs
  | '%' :: a :: b :: cs =>
    match Text.hexValue? a, Text.hexValue? b with
    | some high, some low => Char.ofNat (16 * high + low) :: decode cs
    | _, _ => '%' :: decode (a :: b :: cs)
  | c :: cs => c :: decode cs
  | [] => []

/-- The text before the first separator, and the text behind it if it is there. -/
def cutOff (sep : Char) (cs : List Char) : List Char × Option (List Char) :=
  match Text.cutFirst sep cs with
  | some (before, behind) => (before, some behind)
  | none => (cs, none)

/-- Names and values of parameters. -/
def parameters (cs : List Char) : List (String × String) :=
  ((Text.pieces '&' cs).filter (· ≠ [])).map fun piece =>
    let (name, value) := cutOff '=' piece
    (String.ofList (decode name), String.ofList (decode (value.getD [])))

/-! ### Parts of addresses -/

/-- A scheme begins with a letter of ASCII. -/
def isScheme : List Char → Bool
  | [] => false
  | c :: cs => c.isAlpha && cs.all fun c => c.isAlphanum || ['+', '-', '.'].contains c

/-- A number of a port. -/
def port? (s : String) : Option Nat := do
  let n ← Number.natural64? s
  if n < 0x10000 then some n else none

/-- Four numbers below 256, without leading zeros, with points between them. -/
def isHostNumber (s : String) : Bool :=
  let parts := Text.splitAt '.' s
  parts.length == 4 && parts.all fun part =>
    match Number.digits? part.toList with
    | some n => n < 256 && toString n == part
    | none => false

/-- Host and port of an authority; a host with colons stands in brackets. -/
def ofAuthority? (cs : List Char) : Option Address := do
  let place := (cs.reverse.takeWhile (· ≠ '@')).reverse
  let (host, behind) := match place with
    | '[' :: cs => (cs.takeWhile (· ≠ ']'), (cs.dropWhile (· ≠ ']')).drop 1)
    | cs => (cs.takeWhile (· ≠ ':'), cs.dropWhile (· ≠ ':'))
  let address : Address := { host := String.ofList host }
  match behind with
  | [] | [':'] => return address
  | ':' :: digits =>
    let port ← Number.digits? digits
    if port < 0x10000 then return { address with port } else none
  | _ => none

/-- The address with a parameter; none if its value makes no sense. -/
def withParameter? (a : Address) : String × String → Option Address
  | (name, value) =>
    if name = "sslmode" ∨ name = "ssl-mode" then
      (Security.ofText? value).map fun security => { a with security }
    else if name = "port" then (port? value).map fun port => { a with port }
    else if name = "host" then some { a with host := value }
    else if name = "hostaddr" then
      if isHostNumber value then some { a with host := value } else none
    else if name = "statement-cache-capacity" then (Number.natural64? value).map fun _ => a
    else some a

/-- The text without control characters and spaces at its ends, and without tabs and ends of lines
anywhere. -/
def cleaned (cs : List Char) : List Char :=
  let isOuter (c : Char) : Bool := c.toNat ≤ 0x20
  (((cs.dropWhile isOuter).reverse.dropWhile isOuter).reverse).filter fun c =>
    c != '\t' && c != '\n' && c != '\r'

/-- The address that a text denotes. -/
def ofText? (s : String) : Option Address := do
  let (cs, _) := cutOff '#' (cleaned s.toList)
  let (cs, query) := cutOff '?' cs
  let (scheme, rest) ← Text.cutAt "://".toList cs
  let address ← ofAuthority? (rest.takeWhile (· ≠ '/'))
  if isScheme scheme then
    (parameters (query.getD [])).foldlM withParameter? address
  else none

end Address

end FreshTag.Database
