/-
FreshTag/Service/Error.lean

Why the service could not start, go on or answer.  A conditional request that
ends with such an error is answered with a status of HTTP: 400 if the client
sent a malformed etag, 503 if the cache or the database cannot be reached, and
500 otherwise.
-/
import FreshTag.Cache.Basic
import FreshTag.Settings.Basic

namespace FreshTag.Service

/-- An error of the service. -/
inductive Error where
  | settings (cause : Settings.Error)
  | noDatabaseUrl
  | database (cause : String)
  | logging (cause : String)
  | cache (cause : Cache.Error)
  | catalog (cause : Catalog.QueryError)
  | listener (cause : Listener.Error)
  deriving DecidableEq, Repr

namespace Error

/-- The wording of an error. -/
def message : Error → String
  | .settings cause => "failed to load configuration: " ++ cause.message
  | .noDatabaseUrl => "`database.url` is not configured"
  | .database cause => "failed to connect to the database: " ++ cause
  | .logging cause => "telemetry initialization failed: " ++ cause
  | .cache cause => cause.message
  | .catalog cause => cause.message
  | .listener cause => cause.message

/-- The status that a request is answered with. -/
def status : Error → Nat
  | .cache cause => if cause.isClientError then 400 else 503
  | .database _ => 503
  | _ => 500

end Error

end FreshTag.Service
