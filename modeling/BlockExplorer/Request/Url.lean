import BlockExplorer.Request.Params
import BlockExplorer.Request.Percent
import BlockExplorer.Text.Class

/-!
# BlockExplorer — request addresses and their queries

A query is cut at `&`. A piece with exactly one `=` is a pair of a key and a
raw value; other pieces are passed over. A key on the list of secrets gets the
mask as its value, and its raw value is never looked at.

The query of an address is what follows the first question mark. Polling appends
`&random=` and a number to the address of a request so that no answer comes from
a cache. The number is removed before the address is shown.
-/

namespace BlockExplorer

/-- Shown in place of a secret. -/
def mask : Text := "***".toList

/-- The keys that are masked when no list is given. -/
def defaultRedactedKeys : List Text := ["secretPhrase".toList]

namespace Query

/-- Key and raw value of a piece with exactly one `=`. -/
def pair? (piece : Text) : Option (Text × Text) :=
  match Text.split (· = '=') piece with
  | [key, raw] => some (key, raw)
  | _ => none

/-- The pairs of a query in order. -/
def pairs (query : Text) : List (Text × Text) :=
  (Text.split (· = '&') query).filterMap pair?

/-- The value that is shown for a pair. -/
def shownValue (redacted : List Text) (key raw : Text) :
    Logged CodecEvent (Except QueryError Text) :=
  if key ∈ redacted then pure (.ok mask) else Percent.decodeValue key raw

/-- Inserts the pairs one after the other; the first that cannot be decoded ends it. -/
def collect (redacted : List Text) : List (Text × Text) → Params →
    Logged CodecEvent (Except QueryError Params)
  | [], params => pure (.ok params)
  | (key, raw) :: rest, params => do
    match ← shownValue redacted key raw with
    | .ok value => collect redacted rest (params.insert key value)
    | .error e => pure (.error e)

/-- The parameters of a query, with the keys on the list masked. -/
def parse (redacted : List Text) (query : Text) : Logged CodecEvent (Except QueryError Params) :=
  collect redacted (pairs query) Params.empty

end Query

namespace Url

/-- What follows the first `?`, or all of the text when there is none. -/
def queryPart (url : Text) : Text :=
  match url.dropWhile (· ≠ '?') with
  | [] => url
  | _ :: query => query

/-- The text before the number of a cache-buster. -/
def busterMark : Text := "&random=".toList

/-- A dot, or a decimal digit of any script. -/
def isBusterDigit (c : Char) : Bool :=
  c = '.' || Text.isDigit c

/-- The length of the cache-buster at the start of a text; zero if there is none. -/
def busterLength (t : Text) : Nat :=
  match Text.dropMark? busterMark t with
  | none => 0
  | some rest =>
    match (rest.takeWhile isBusterDigit).length with
    | 0 => 0
    | n => busterMark.length + n

/-- Removes every cache-buster, from left to right. -/
def stripCacheBusters : Text → Text
  | [] => []
  | c :: rest =>
    match busterLength (c :: rest) with
    | 0 => c :: stripCacheBusters rest
    | n + 1 => stripCacheBusters (rest.drop n)
termination_by url => url.length

/-- The parameters that a request address carries. -/
def parameters (redacted : List Text) (url : Text) : Logged CodecEvent (Except QueryError Params) :=
  Query.parse redacted (queryPart (stripCacheBusters url))

end Url

end BlockExplorer
