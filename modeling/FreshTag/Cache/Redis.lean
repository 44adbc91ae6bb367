/-
FreshTag/Cache/Redis.lean

The part of a Redis server that the shared cache uses: a keyspace of texts and
sets, and the commands on them.  A set never becomes empty: with its last
member the key goes too.  A command on a key that holds the wrong type fails
and changes nothing.

Commands go over a connection that is taken out of a pool first.  That may fail
too, and counts as a command (`Command.connect`): any command may be refused,
again without effect, and `refuses` says which, by its place in the sequence of
commands.  A sequence of commands ends at the first failure and keeps what the
ones before it did.
-/
import FreshTag.Dict

namespace FreshTag.Redis

/-- What a key holds. -/
inductive Entry where
  | text (s : String)
  /-- a set, by its members without repetition -/
  | members (ms : List String)
  deriving DecidableEq, Repr, Inhabited

/-- Keys with what they hold. -/
abbrev Keyspace := Dict Entry

/-- The names of commands. -/
inductive Command where
  /-- to take a connection out of the pool -/
  | connect
  | ping
  | evalSha
  | sAdd
  | set
  | sMembers
  | sRem
  | del
  | exists
  | sRandMember
  | get
  | sCard
  deriving DecidableEq, Repr

/-- The name of a command, on the wire except for `connect`. -/
def Command.name : Command → String
  | .connect => "CONNECT"
  | .ping => "PING"
  | .evalSha => "EVALSHA"
  | .sAdd => "SADD"
  | .set => "SET"
  | .sMembers => "SMEMBERS"
  | .sRem => "SREM"
  | .del => "DEL"
  | .exists => "EXISTS"
  | .sRandMember => "SRANDMEMBER"
  | .get => "GET"
  | .sCard => "SCARD"

/-- Why a command failed. -/
inductive Failure where
  /-- the pool gave no connection -/
  | noConnection
  | refused (command : Command)
  | wrongType (command : Command)
  deriving DecidableEq, Repr

/-- How a command fails that is refused. -/
def Command.refusal : Command → Failure
  | .connect => .noConnection
  | command => .refused command

/-- The wording of a failure. -/
def Failure.message : Failure → String
  | .noConnection => "no connection to the server"
  | .refused command => command.name ++ " was refused"
  | .wrongType _ => "WRONGTYPE Operation against a key holding the wrong kind of value"

/-- A server. -/
structure Server where
  space : Keyspace := {}
  /-- commands received so far -/
  received : Nat := 0
  /-- the command in this place is refused -/
  refuses : Nat → Command → Bool := fun _ _ => false
  deriving Inhabited

/-- Commands to a server: what they answer, and the server afterwards. -/
abbrev Run (α : Type) := ExceptT Failure (StateM Server) α

/-- Sends one command; `act` is what it does to the keyspace, none on a wrong type. -/
def send {α : Type} (command : Command) (act : Keyspace → Option (α × Keyspace)) : Run α :=
  fun (s : Server) =>
    let next := { s with received := s.received + 1 }
    if s.refuses s.received command then (.error command.refusal, next)
    else match act s.space with
      | none => (.error (.wrongType command), next)
      | some (x, space) => (.ok x, { next with space })

/-! ### Sets in the keyspace -/

/-- The members of a key; a key that is not there holds the empty set. -/
def membersOf (space : Keyspace) (key : String) : Option (List String) :=
  match space.get? key with
  | none => some []
  | some (.members ms) => some ms
  | some (.text _) => none

/-- Makes a key hold a set; the empty set takes the key out. -/
def withMembers (space : Keyspace) (key : String) (ms : List String) : Keyspace :=
  if ms = [] then space.erase key else space.set key (.members ms)

/-- Inserts a text into a list in order, unless it is there. -/
def insertSorted (x : String) : List String → List String
  | [] => [x]
  | y :: ys => if x = y then y :: ys else if x < y then x :: y :: ys else y :: insertSorted x ys

/-! ### Commands -/

/-- Takes a connection out of the pool. -/
def connect : Run Unit :=
  send .connect fun space => some ((), space)

/-- The server answers. -/
def ping : Run Unit :=
  send .ping fun space => some ((), space)

/-- Starts a script. -/
def evalSha : Run Unit :=
  send .evalSha fun space => some ((), space)

/-- Adds a member to a set. -/
def sAdd (key member : String) : Run Unit :=
  send .sAdd fun space =>
    (membersOf space key).map fun ms => ((), withMembers space key (insertSorted member ms))

/-- Makes a key hold a text, whatever it held. -/
def set (key text : String) : Run Unit :=
  send .set fun space => some ((), space.set key (.text text))

/-- All members of a set. -/
def sMembers (key : String) : Run (List String) :=
  send .sMembers fun space => (membersOf space key).map fun ms => (ms, space)

/-- Takes a member out of a set. -/
def sRem (key member : String) : Run Unit :=
  send .sRem fun space =>
    (membersOf space key).map fun ms => ((), withMembers space key (ms.filter (· ≠ member)))

/-- Takes keys out. -/
def del (keys : List String) : Run Unit :=
  send .del fun space => some ((), keys.foldl Dict.erase space)

/-- The key holds something. -/
def exists? (key : String) : Run Bool :=
  send .exists fun space => some (space.contains key, space)

/-- A member of a set, the first in order; none if the set is empty. -/
def sRandMember (key : String) : Run (Option String) :=
  send .sRandMember fun space => (membersOf space key).map fun ms => (ms.head?, space)

/-- The text of a key. -/
def get (key : String) : Run (Option String) :=
  send .get fun space =>
    match space.get? key with
    | none => some (none, space)
    | some (.text s) => some (some s, space)
    | some (.members _) => none

/-- How many members a set has. -/
def sCard (key : String) : Run Nat :=
  send .sCard fun space => (membersOf space key).map fun ms => (ms.length, space)

end FreshTag.Redis
