import Stylebook.Sheet.Schedule

/-! A style-sheet with everything it imports. The sheets are visited chain by chain in the order in which the
    chains are explored, which is also that of the first turns of their branches; imports that lead back are
    skipped with a warning. Where a sheet cannot be loaded, there is no graph. -/

namespace Stylebook
namespace Sheet

/-! ### Resolving -/

/-- The sheets of a graph in visiting order, and the imports that were skipped. -/
structure Graph where
  sources : List Source
  skipped : List (Text × Text)
  deriving Repr

/-- The fault of a graph with the given visits. Where one of them fails, the branches settle which failure it
    is; five turns and endings for each of them are enough. -/
def Reader.fault? (r : Reader) (root : Text) (visits : List Visit) : Option GraphError :=
  if visits.all (·.failure?.isNone) then none else (Schedule.run r (5 * visits.length) (.start root)).fault?

def sourceOf? (v : Visit) : Option Source :=
  match v.outcome with
  | .ok s => some s
  | .error _ => none

/-- The sheet at `root` with everything it imports over chains of at most `depth` places. -/
def Reader.resolve (r : Reader) (depth : Nat) (root : Text) : Except GraphError Graph :=
  let visits := r.explore depth [⟨root, []⟩]
  match r.fault? root visits with
  | some e => .error e
  | none => .ok ⟨visits.filterMap sourceOf?, visits.flatMap Visit.skipped⟩

/-- The comments of a graph in visiting order. -/
def Graph.comments (g : Graph) : List Comment := g.sources.flatMap (·.comments)

def skipWarning (skipped : Text × Text) : Text :=
  "Skipping cyclic import of ".text ++ skipped.1 ++ " from ".text ++ skipped.2

/-! ### Sheets in memory -/

/-- What a place in memory gives: a text, or one of the ways to fail. -/
inductive Entry
  | text (t : Text)
  | fail (reason : Text)
  | crash (message : Text)
  | group (reasons : List Text)
  deriving DecidableEq, Repr

open Loading (Failure) in
/-- Loads from memory; a place that is not listed is not found. -/
def loadEntry (entries : List (Text × Entry)) (url : Text) : Except Failure Text :=
  match entries.lookup url with
  | none => .error (.load ⟨url, .note "not found".text⟩)
  | some (.text t) => .ok t
  | some (.fail reason) => .error (.load ⟨url, .note reason⟩)
  | some (.crash message) => .error (.crash message)
  | some (.group reasons) => .error (.group (reasons.map fun r => ⟨url, .note r⟩))

/-- The graph of sheets in memory. A chain has at most one place more than there are entries, because no
    place occurs twice in it and all but its last are listed. -/
def resolveEntries (tags : Doc.TagTable) (entries : List (Text × Entry)) (root : Text) :
    Except GraphError Graph :=
  Reader.resolve ⟨loadEntry entries, tags⟩ (entries.length + 1) root

end Sheet
end Stylebook
