import Stylebook.Yaml.Node
import Stylebook.Yaml.Object

/-! The value of a YAML document. A collection is made empty first and filled later, in the order in which
    the collections are found; only keys are made as a whole at once. No mapping may have the same key twice,
    unless something is merged into it. -/

namespace Stylebook
namespace Yaml

/-- The kinds of collections. -/
inductive Kind
  | list
  | map
  | set
  | orderedMap
  | pairs
  deriving DecidableEq, Repr

def Kind.empty : Kind → Object
  | .list => .list []
  | .map => .map []
  | .set => .set []
  | .orderedMap => .orderedMap []
  | .pairs => .list []

/-- A collection that is still to be filled from a node. -/
structure Task where
  kind : Kind
  node : NodeId
  ref : Ref
  deriving DecidableEq, Repr

/-- How far the value of a document has been made. -/
structure Making where
  nodes : Array Node
  version : Version
  heap : Heap := Heap.start
  /-- The objects of the nodes that have one. -/
  made : List (NodeId × Ref) := []
  /-- The nodes whose objects are being made. -/
  around : List NodeId := []
  /-- The collections that are to be filled, the latest first. -/
  tasks : List Task := []
  /-- Collections are filled at once. -/
  atOnce : Bool := false
  deriving Repr

abbrev Make := StateT Making (Except Error)

namespace Make

def node (id : NodeId) : Make Node := return (← get).nodes[id]?.getD ⟨.other, .sequence [], none⟩

def setNode (id : NodeId) (change : Node → Node) : Make Unit :=
  modify fun s => { s with nodes := s.nodes.modify id change }

def add (o : Object) : Make Ref := do
  let (r, heap) := (← get).heap.add o
  modify fun s => { s with heap := heap }
  return r

def setObject (r : Ref) (o : Object) : Make Unit := modify fun s => { s with heap := s.heap.set r o }

def leaf (v : Value) : Make Ref := add (.leaf v)

/-! ### Scalars -/

/-- The text of a scalar. A mapping that has a value for itself stands for that. -/
def text (fuel : Nat) (id : NodeId) : Make Units :=
  match fuel with
  | 0 => throw .wrongKind
  | fuel + 1 => do
    match (← node id).content with
    | .scalar t => return t
    | .sequence _ => throw .wrongKind
    | .mapping entries =>
      match ← entries.findM? fun (k, _) => return (← node k).tag == .value with
      | some (_, v) => text fuel v
      | none => throw .wrongKind

/-- The object of a scalar whose tag is not that of a collection. -/
def scalar (id : NodeId) (tag : Tag) : Make Ref := do
  let s ← get
  let read : Make Units := text s.nodes.size id
  match tag with
  | .null =>
    discard read
    return Heap.nothing
  | .bool => leaf (.bool (← truth (← read)))
  | .int => leaf (.int (← taggedInteger s.version (← read)))
  | .float =>
    match ← taggedFloat s.version (← read) with
    | some x => leaf (.float x)
    | none => return Heap.notNumber
  | .binary => leaf (.bytes (← taggedBinary (← read)))
  | .timestamp =>
    match (← node id).content with
    | .scalar t => leaf (← taggedTimestamp t)
    | _ => throw .wrongKind
  | .str => leaf (.str (← read))
  | _ => throw .tag

/-! ### Merging -/

/-- The entries of a node, which has to be a mapping. -/
def entriesOf (id : NodeId) : Make (List (NodeId × NodeId)) := do
  match (← node id).content with
  | .mapping entries => return entries
  | _ => throw .wrongKind

def setEntries (id : NodeId) (entries : List (NodeId × NodeId)) : Make Unit :=
  setNode id fun n => { n with content := .mapping entries }

/-- Takes the merged values out of the entries of a mapping, from the entry `i` on, and puts their own
    entries in front; `merge` holds those found before. Only one of the merged values may have entries. Of
    several mappings in a sequence the first count most. -/
def flattenFrom (fuel : Nat) (id : NodeId) (i : Nat) (merge : List (NodeId × NodeId)) : Make Unit :=
  match fuel with
  | 0 => throw .unexpected
  | fuel + 1 => do
    let entries ← entriesOf id
    match entries[i]? with
    | none =>
      if !merge.isEmpty then
        setNode id fun n => { n with content := .mapping (merge ++ entries), merged := some merge }
    | some (k, v) =>
      match (← node k).tag with
      | .merge =>
        if !merge.isEmpty then throw .duplicateKey
        setEntries id (entries.eraseIdx i)
        let mergedOf (n : NodeId) : Make (List (NodeId × NodeId)) := do
          discard (entriesOf n)
          flattenFrom fuel n 0 []
          entriesOf n
        let more ← match (← node v).content with
          | .mapping _ => mergedOf v
          | .sequence items => do pure (← items.mapM mergedOf).reverse.flatten
          | .scalar _ => throw .wrongKind
        flattenFrom fuel id i more
      | .value =>
        setNode k fun n => { n with tag := .str }
        flattenFrom fuel id (i + 1) merge
      | _ => flattenFrom fuel id (i + 1) merge

/-- The entries of a mapping after merging, and whether a key may stand among them twice. -/
def flattened (id : NodeId) : Make (List (NodeId × NodeId) × Bool) := do
  discard (entriesOf id)
  flattenFrom (Nat.pow 2 ((← get).nodes.size + 4)) id 0 []
  let entries ← entriesOf id
  match (← node id).merged with
  | some merged => return (merged ++ entries, true)
  | none => return (entries, false)

/-! ### Keys -/

/-- An object as a key: a list becomes a tuple, and other collections cannot be keys. -/
def keyOf (r : Ref) : Make Ref := do
  match (← get).heap.get r with
  | .list items => add (.tuple items)
  | .leaf _ => return r
  | .tuple _ => return r
  | _ => throw .unusableKey

def checkKey (r : Ref) : Make Unit := do
  match (← get).heap.changeable? r with
  | some word => throw (.changeableKey word)
  | none => return

/-- A repeated key is shown together with its values. -/
def duplicate (shown : List Ref) : Make Unit := do
  let heap := (← get).heap
  for r in shown do
    discard ((heap.value r).display.mapError Error.number)
  throw .duplicateKey

/-! ### Collections -/

/-- The single entries of the mappings in a sequence. -/
def singleEntry (id : NodeId) : Make (NodeId × NodeId) := do
  match (← node id).content with
  | .mapping [entry] => return entry
  | _ => throw .wrongKind

def itemsOf (id : NodeId) : Make (List NodeId) := do
  match (← node id).content with
  | .sequence items => return items
  | _ => throw .wrongKind

mutual

/-- The object of a node; `whole` asks for it with all of its parts. A node inside of itself is nothing as
    long as its object is being made. -/
def object (fuel : Nat) (whole : Bool) (id : NodeId) : Make Ref :=
  match fuel with
  | 0 => throw .unexpected
  | fuel + 1 => do
    match (← get).made.lookup id with
    | some r => return r
    | none =>
      let before := (← get).atOnce
      if whole then modify fun s => { s with atOnce := true }
      if (← get).around.contains id then return Heap.nothing
      modify fun s => { s with around := id :: s.around }
      let r ← begin_ fuel id
      modify fun s => { s with made := (id, r) :: s.made, around := s.around.erase id }
      if whole then modify fun s => { s with atOnce := before }
      return r

/-- Makes the object of a node, or begins with a collection. -/
def begin_ (fuel : Nat) (id : NodeId) : Make Ref :=
  match fuel with
  | 0 => throw .unexpected
  | fuel + 1 => do
    let collection (kind : Kind) : Make Ref := do
      let r ← add kind.empty
      let task : Task := ⟨kind, id, r⟩
      if (← get).atOnce then fill fuel task else modify fun s => { s with tasks := task :: s.tasks }
      return r
    match (← node id).tag with
    | .seq => collection .list
    | .map => collection .map
    | .set => collection .set
    | .omap => collection .orderedMap
    | .pairs => collection .pairs
    | tag => scalar id tag

/-- Fills a collection. -/
def fill (fuel : Nat) (task : Task) : Make Unit :=
  match fuel with
  | 0 => throw .unexpected
  | fuel + 1 => do
    match task.kind with
    | .list =>
      let items ← itemsOf task.node
      setObject task.ref (.list (← items.mapM (object fuel false)))
    | .map => setObject task.ref (.map (← entries fuel task.node))
    | .set => setObject task.ref (.set ((← entries fuel task.node).map (·.1)))
    | .orderedMap =>
      for item in ← itemsOf task.node do
        let (k, v) ← singleEntry item
        let key ← object fuel false k
        checkKey key
        if let .orderedMap done := (← get).heap.get task.ref then
          if ((← get).heap.lookup? key done).isSome then throw .repeatedKey
        let value ← object fuel false v
        if let .orderedMap done := (← get).heap.get task.ref then
          setObject task.ref (.orderedMap (done ++ [(key, value)]))
    | .pairs =>
      for item in ← itemsOf task.node do
        let (k, v) ← singleEntry item
        let key ← object fuel false k
        let pair ← add (.tuple [key, ← object fuel false v])
        if let .list done := (← get).heap.get task.ref then setObject task.ref (.list (done ++ [pair]))

/-- The entries of a mapping. -/
def entries (fuel : Nat) (id : NodeId) : Make (List (Ref × Ref)) :=
  match fuel with
  | 0 => throw .unexpected
  | fuel + 1 => do
    let (es, mayRepeat) ← flattened id
    es.foldlM (fun done (k, v) => do
      let key ← keyOf (← object fuel true k)
      let value ← object fuel false v
      checkKey key
      let heap := (← get).heap
      if !mayRepeat then
        if let some old := heap.lookup? key done then duplicate [key, value, old]
      return heap.put key value done) []

end

/-- Fills what is to be filled, and then what that has brought up. -/
def finish (fuel rounds : Nat) : Make Unit :=
  match rounds with
  | 0 => return
  | rounds + 1 => do
    match (← get).tasks with
    | [] => return
    | tasks =>
      modify fun s => { s with tasks := [] }
      tasks.reverse.forM (fill fuel)
      finish fuel rounds

end Make

/-- The value of a document. -/
def Document.value (d : Document) : Except Error Value := do
  let fuel := 4 * d.nodes.size + 8
  let making : Make Ref := do
    let r ← Make.object fuel false d.top
    Make.finish fuel (d.nodes.size + 1)
    return r
  let (r, s) ← making.run { nodes := d.nodes, version := d.version }
  return s.heap.value r

/-- The value of a text; that of an empty text is nothing. -/
def parse (t : Text) : Except Error Value := do
  match ← Document.ofText t with
  | some d => d.value
  | none => return .null

end Yaml
end Stylebook
