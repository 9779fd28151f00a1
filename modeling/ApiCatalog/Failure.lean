/-
# ApiCatalog.Failure -- why discovery did not give an answer

A failure is a cause; its wording is `Failure.message`.  Some causes come from
outside and bring their own text.  The others are found here: a group-version
that cannot be read, a listing or some resource requests that failed, a record
without a field it must have, a value that is no list or text where one is
needed, and being cancelled.

`Failure.isCancelled` sets the last apart: a cancellation is passed on where any
other failure is handled.
-/
import ApiCatalog.GroupVersion.Parser

namespace ApiCatalog

set_option autoImplicit false

/-- The sorts of failure that come from outside with a text of their own. -/
inductive Failure.Sort where
  | connection
  | operatingSystem
  | timeout
  | runtime
  | value
  | key
  | permission
  | discovery
deriving DecidableEq, Repr

/-- Why discovery did not give an answer. -/
inductive Failure where
  /-- A failure from outside, with its text. -/
  | raised (sort : Failure.Sort) (text : String)
  /-- A source says that it could not fetch, and which group-versions failed. -/
  | unfetched (text : String) (failed : List (String × Failure))
  /-- A source says that its data break the contract. -/
  | breach (text : String)
  /-- A strict reader met a group-version that cannot be read. -/
  | malformed (cause : Malformed)
  /-- The group-versions could not be listed. -/
  | unlisted (cause : Failure)
  /-- Some group-versions were listed, but the requests for their resources failed. -/
  | incomplete (failed : List (String × Failure))
  /-- A value lacks a field that it must have. -/
  | missingField
  /-- A value has not the shape that is needed, such as nothing in place of a list. -/
  | wrongShape
  /-- The work was cancelled. -/
  | cancelled

namespace Failure

/-- The wording of a failure; the last three causes have none. -/
def message : Failure → String
  | .raised .key text => Text.quote text
  | .raised _ text => text
  | .unfetched text _ => text
  | .breach text => text
  | .malformed cause => "discovery returned an invalid group/version: " ++ cause.message
  | .unlisted cause => "unable to retrieve the server API groups: " ++ cause.message
  | .incomplete failed =>
    "unable to retrieve the complete list of server APIs: " ++ toString failed.length ++
      " group-version(s) failed"
  | .missingField | .wrongShape | .cancelled => ""

/-- Whether the work was cancelled rather than failed. -/
def isCancelled : Failure → Bool
  | .cancelled => true
  | _ => false

/-- Whether the data broke the contract between a source and its readers. -/
def isBreach : Failure → Bool
  | .breach _ | .malformed _ => true
  | _ => false

@[simp] theorem isCancelled_iff (f : Failure) : f.isCancelled = true ↔ f = .cancelled := by
  cases f <;> simp [isCancelled]

end Failure

end ApiCatalog
