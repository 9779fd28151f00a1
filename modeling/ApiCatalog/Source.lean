/-
# ApiCatalog.Source -- where enumerations come from

A `Source` answers each fetch with an `Outcome`: an enumeration or a failure.  A
fetch may take its time: it then asks to be called again, by a turn in line or
after a delay, and is given back its own token.  On its way it may note the
requests it makes and what it has to say.

Sources here are of two sorts: a script of outcomes (`Source.scripted`) and a
survey of a cluster.
-/
import ApiCatalog.Failure
import ApiCatalog.Record
import ApiCatalog.TextSet
import ApiCatalog.Timeline

namespace ApiCatalog

set_option autoImplicit false

/-- What a fetch ends with; the enumeration itself may be null. -/
abbrev Outcome := Except Failure (Option (List Listing))

/-- What is asked of a cluster. -/
inductive Request where
  | coreVersions
  | groups
  | coreResources
  | groupResources (group version : String)
deriving DecidableEq, Repr

/-- What a source notes on its way. -/
inductive SourceNote (τ : Type) where
  /-- A request goes out, to be given up after the timeout. -/
  | asked (request : Request) (timeout : τ)
  /-- The reply to a request has come. -/
  | replied
  /-- The requests for some of the listed group-versions failed. -/
  | groupsFailed (failed : TextSet) (listed : Nat)
  /-- A version of the core group has no resources to ask for. -/
  | coreVersionIgnored (version : String)

/-- What a fetch has done when it stops for the moment, or for good with an outcome. -/
structure Progress (τ σ κ : Type) where
  work : σ
  /-- The turns it asks for, each with its relays. -/
  turns : List (κ × Nat) := []
  /-- The delays after which it asks to be called. -/
  delays : List (τ × κ) := []
  notes : List (SourceNote τ) := []
  outcome : Option Outcome := none

/-- A source of enumerations, with work of type `σ` in progress and tokens of type `κ`. -/
structure Source (τ σ κ : Type) where
  /-- Start a fetch, given how many were started before. -/
  start : Nat → Progress τ σ κ
  /-- Go on with a fetch that asked to be called with this token. -/
  resume : σ → κ → Progress τ σ κ

/-- Give a fetch the turns and the delays it asks for. -/
def Timeline.follow {τ α σ ω κ : Type} [Clock τ] (lift : κ → α) (p : Progress τ ω κ)
    (t : Timeline τ α σ) : Timeline τ α σ :=
  let t := p.turns.foldl (fun t turn => t.wake (lift turn.1) turn.2) t
  p.delays.foldl (fun t delay => t.arm delay.1 (lift delay.2)) t

/-- Things in a row of which the last repeats for ever. -/
structure Script (α : Type) where
  first : α
  rest : List α

/-- The thing at a place of a script. -/
def Script.at {α : Type} (s : Script α) (i : Nat) : α :=
  ((s.first :: s.rest)[min i s.rest.length]?).getD s.first

/-- An answer that comes after a delay, or at once. -/
structure Reply (τ α : Type) where
  delay : Option τ
  answer : Except Failure α

/-- The source that answers fetch after fetch as a script says. -/
def Source.scripted {τ : Type} (script : Script (Reply τ (Option (List Listing)))) :
    Source τ Outcome Unit where
  start i :=
    let reply := script.at i
    match reply.delay with
    | none => { work := reply.answer, outcome := some reply.answer }
    | some delay => { work := reply.answer, delays := [(delay, ())] }
  resume answer _ := { work := answer, outcome := some answer }

/-! ## One fetch by itself -/

/-- A fetch in progress. -/
structure Fetch (τ σ : Type) where
  work : σ
  notes : List (SourceNote τ)
  outcome : Option Outcome

namespace Fetch

variable {τ σ κ : Type} [Clock τ]

/-- Take over what a fetch has done. -/
def absorb (p : Progress τ σ κ) (t : Timeline τ κ (Fetch τ σ)) : Timeline τ κ (Fetch τ σ) :=
  (t.modify fun fetch =>
    { work := p.work, notes := fetch.notes ++ p.notes, outcome := p.outcome }).follow id p

/-- A turn of a fetch. -/
def act (source : Source τ σ κ) (token : κ) (t : Timeline τ κ (Fetch τ σ)) :
    Timeline τ κ (Fetch τ σ) :=
  absorb (source.resume t.state.work token) t

/-- The first fetch from a source, at time zero. -/
def start (source : Source τ σ κ) : Timeline τ κ (Fetch τ σ) :=
  let p := source.start 0
  absorb p { now := 0, state := { work := p.work, notes := [], outcome := none } }

/-- Run the first fetch from a source to its end. -/
def run (source : Source τ σ κ) (fuel : Nat) : Timeline τ κ (Fetch τ σ) :=
  Timeline.await (act source) (·.outcome.isSome) fuel fuel (start source)

end Fetch

end ApiCatalog
