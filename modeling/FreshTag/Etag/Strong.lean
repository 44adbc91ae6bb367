/-
FreshTag/Etag/Strong.lean

A strong etag is the validator handed to clients: base64 of the collection,
the reference system, the format and the row version with `-` between them.
As a header value it stands between double quotes.

Reading tolerates quotes: white space around the token and every quote in it
are dropped, and so are those around and in the text it decodes to.  Nothing
else is forgiven: the base64 must be canonical, the text UTF-8, and there must
be exactly four segments, none of them empty.
-/
import FreshTag.Etag.Weak
import FreshTag.Text.Base64
import FreshTag.Text.Pieces
import FreshTag.Text.Space

namespace FreshTag

/-- The segments of a strong etag. -/
structure StrongEtag where
  collection : String
  srid : String
  format : String
  version : String
  deriving DecidableEq, Repr, Inhabited

/-- Why a candidate is no strong etag; each cause carries the candidate as it was given. -/
inductive EtagError where
  | invalidBase64 (candidate : String)
  | segmentCount (candidate : String) (found : Nat)
  deriving DecidableEq, Repr

/-- The wording of a cause. -/
def EtagError.message : EtagError → String
  | .invalidBase64 candidate => "malformed etag `" ++ candidate ++ "`: not valid base64"
  | .segmentCount candidate found =>
    "malformed etag `" ++ candidate ++ s!"`: expected 4 non-empty segments, found {found}"

namespace StrongEtag

/-- The segments with `-` between them. -/
def joined (e : StrongEtag) : String :=
  e.collection ++ "-" ++ e.srid ++ "-" ++ e.format ++ "-" ++ e.version

/-- The token of a strong etag. -/
def token (e : StrongEtag) : String :=
  String.ofList (Text.Base64.encode (Text.Base64.utf8 e.joined))

/-- The token as a header value. -/
def headerValue (e : StrongEtag) : String :=
  "\"" ++ e.token ++ "\""

/-- The text without space around it and without any quote. -/
def stripQuotes (s : String) : String :=
  String.ofList ((Text.trimChars s.toList).filter (· ≠ '"'))

/-- The segments of a token, which may be quoted. -/
def decode (candidate : String) : Except EtagError StrongEtag :=
  match Text.Base64.decode (stripQuotes candidate).toList with
  | none => .error (.invalidBase64 candidate)
  | some bytes =>
    match Text.Base64.ofUtf8? bytes with
    | none => .error (.invalidBase64 candidate)
    | some text =>
      let segments := Text.splitAt '-' (stripQuotes text)
      match segments with
      | [collection, srid, format, version] =>
        if "" ∈ segments then .error (.segmentCount candidate 4)
        else .ok { collection, srid, format, version }
      | _ => .error (.segmentCount candidate segments.length)

end StrongEtag

/-- The strong etag of one representation of the row. -/
def WeakEtag.strong (e : WeakEtag) (srid format : String) : StrongEtag :=
  { collection := e.collection, srid, format, version := e.version }

end FreshTag
