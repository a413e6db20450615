import TableQuery.Fingerprint.Sha256
import TableQuery.Json.Record
import TableQuery.Wire.Query

/-!
# Fingerprints

A fingerprint tells the states of a query apart: it holds the revision and the
digest of the stored form.
-/

namespace TableQuery

structure Fingerprint where
  revision : Nat
  digest : String
deriving DecidableEq, Repr

namespace Fingerprint

def bytesPrefix? : (bytes : Nat) → List Char → Option (List Char)
  | 0, _ => some []
  | _ + 1, [] => none
  | bytes, c :: rest =>
    if c.utf8Size ≤ bytes then
      (bytesPrefix? (bytes - c.utf8Size) rest).map (c :: ·)
    else none

def shownBytes : Nat := 12

/-- The first bytes of the digest; all of it if it is shorter or a character
would be cut. -/
def shortDigest (f : Fingerprint) : String :=
  match bytesPrefix? shownBytes f.digest.toList with
  | some cs => String.ofList cs
  | none => f.digest

def toText (f : Fingerprint) : String :=
  "r" ++ toString f.revision ++ ":" ++ f.shortDigest

/-! ## Stored form -/

def toJson (f : Fingerprint) : Json :=
  .object [("revision", .ofNat f.revision), ("digest", .string f.digest)]

def ofJson? (j : Json) : Option Fingerprint := do
  match ← Json.fields? ["revision", "digest"] j with
  | [revision, digest] =>
    return {
      revision := ← Json.required? Json.nat64? revision
      digest := ← Json.required? Json.string? digest }
  | _ => none

def ofText? (text : String) : Option Fingerprint :=
  (Json.parseRaw? Json.depthLimit text).bind ofJson?

end Fingerprint

def Json.digest (j : Json) : String := Sha256.ofText j.compact

def Draft.fingerprint (d : Draft) : Except WireError Fingerprint := do
  return ⟨d.revision, (← Wire.queryToJson d.query).digest⟩

end TableQuery
