import Stylebook.Loading.Basic
import Stylebook.Sheet.Block
import Stylebook.Sheet.Import

/-! Chains of imports and what is found at their ends. An import chain leads from the root by one import after
    the other; no place occurs in it twice. The chains are explored by length: shorter ones first, and those
    of one length in the order of their imports. -/

namespace Stylebook
namespace Sheet

open Loading (Failure LoadError)

/-- A loaded sheet and the place of the sheet that imports it. -/
structure Source where
  url : Text
  parent : Option Text
  content : Text
  imports : List Import
  comments : List Comment
  deriving DecidableEq, Repr

/-- The last place of a chain, and those in front of it, the nearest first. -/
structure Chain where
  url : Text
  above : List Text
  deriving DecidableEq, Repr

def Chain.places (c : Chain) : List Text := c.url :: c.above

/-- The chain that goes on to one more place. -/
def Chain.extend (c : Chain) (url : Text) : Chain := ⟨url, c.places⟩

/-- What is found at the end of a chain. -/
structure Visit where
  chain : Chain
  outcome : Except Failure Source

/-- Loads places and reads what they hold. -/
structure Reader where
  load : Text → Except Failure Text
  tags : Doc.TagTable

/-- The sheet at the end of a chain. -/
def Reader.source (r : Reader) (url : Text) (parent : Option Text) : Except Failure Source :=
  match r.load url with
  | .error f => .error f
  | .ok content =>
    match imports content (some url) with
    | .error e => .error (.address e)
    | .ok is => .ok ⟨url, parent, content, is, comments r.tags content⟩

def Reader.visit (r : Reader) (c : Chain) : Visit := ⟨c, r.source c.url c.above.head?⟩

namespace Visit

def found (v : Visit) : List Import :=
  match v.outcome with
  | .ok s => s.imports
  | .error _ => []

/-- The chains that go on from here. -/
def next (v : Visit) : List Chain :=
  (v.found.filter fun i => !v.chain.places.contains i.url).map fun i => v.chain.extend i.url

/-- The imports that lead back, each with the place where it stands. -/
def skipped (v : Visit) : List (Text × Text) :=
  (v.found.filter fun i => v.chain.places.contains i.url).map fun i => (i.url, v.chain.url)

def failure? (v : Visit) : Option Failure :=
  match v.outcome with
  | .ok _ => none
  | .error f => some f

end Visit

/-- Visits the given chains of one length, then the longer ones that go on from them, for at most `depth`
    lengths. -/
def Reader.explore (r : Reader) : Nat → List Chain → List Visit
  | 0, _ => []
  | depth + 1, chains =>
    if chains.isEmpty then []
    else
      let visits := chains.map r.visit
      visits ++ r.explore depth (visits.flatMap Visit.next)

end Sheet
end Stylebook
