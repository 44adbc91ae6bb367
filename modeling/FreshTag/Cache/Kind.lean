/-
FreshTag/Cache/Kind.lean

The kinds of cache: none, one inside the process, and one on a Redis server
that several instances share.  A kind is read from a setting without regard to
case and surrounding space, under its own name or another common one.
-/
import FreshTag.Text.Lowercase
import FreshTag.Text.Space

namespace FreshTag

/-- Which cache holds the weak etags. -/
inductive CacheKind where
  | disabled
  | naive
  | redis
  deriving DecidableEq, Repr, Inhabited

namespace CacheKind

/-- All kinds. -/
def all : List CacheKind := [.disabled, .naive, .redis]

/-- The name of a kind. -/
def name : CacheKind → String
  | .disabled => "disabled"
  | .naive => "naive"
  | .redis => "redis"

/-- The kind with exactly this name. -/
def ofName? (s : String) : Option CacheKind :=
  all.find? (·.name = s)

/-- The kind that a setting asks for, or the setting in lower case. -/
def ofText (s : String) : Except String CacheKind :=
  match Text.lowerAscii (Text.trim s) with
  | "" => .ok .disabled
  | "disabled" => .ok .disabled
  | "none" => .ok .disabled
  | "naive" => .ok .naive
  | "bounded" => .ok .naive
  | "memory" => .ok .naive
  | "redis" => .ok .redis
  | "external" => .ok .redis
  | unknown => .error unknown

/-- The wording of a kind that is not known. -/
def unknownMessage (unknown : String) : String :=
  "unsupported cache kind `" ++ unknown ++ "` (expected disabled, naive or redis)"

end CacheKind

end FreshTag
