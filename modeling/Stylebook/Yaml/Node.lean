import Stylebook.Yaml.Schema
import Stylebook.Yaml.Token

/-! The nodes of a YAML document: scalars, sequences and mappings with their tags. Nodes name one another by
    number, since an alias stands for the very node of its anchor, also inside of that node. -/

namespace Stylebook
namespace Yaml

/-- The number of a node. -/
abbrev NodeId := Nat

inductive Content
  | scalar (t : Units)
  | sequence (items : List NodeId)
  | mapping (entries : List (NodeId × NodeId))
  deriving DecidableEq, Repr

structure Node where
  tag : Tag
  content : Content
  /-- The entries that have been merged into a mapping, which stand among its entries too. -/
  merged : Option (List (NodeId × NodeId)) := none
  deriving DecidableEq, Repr

/-- A document: its nodes, which of them is the top one, and the version of the format. -/
structure Document where
  nodes : Array Node
  top : NodeId
  version : Version
  deriving Repr

namespace Node

/-- The text as far as it has been read, the nodes and anchors found so far, and the tag handles. -/
structure Input where
  layout : Layout
  nodes : Array Node := #[]
  anchors : List (Text × NodeId) := []
  handles : List (Text × Text) := []

abbrev Read := StateT Input (Except Error)

/-- The next token. -/
def peek : Read (Option Token) := do
  let layout ← (← get).layout.settle
  modify fun i => { i with layout := layout }
  return layout.queue.head?

def skip : Read Unit := modify fun i => { i with layout := i.layout.advance }

/-- Whether one of the given tokens comes next. -/
def sees (ts : List Token) : Read Bool := do
  match ← peek with
  | some t => return ts.contains t
  | none => return false

/-- Takes the token, if it comes next. -/
def takes (t : Token) : Read Bool := do
  if ← sees [t] then
    skip
    return true
  return false

def version : Read Version := return (← get).layout.version

/-! ### Nodes -/

/-- Adds a node. -/
def add (tag : Tag) (content : Content) : Read NodeId := do
  let id := (← get).nodes.size
  modify fun i => { i with nodes := i.nodes.push { tag := tag, content := content } }
  return id

def fill (id : NodeId) (content : Content) : Read Unit :=
  modify fun i => { i with nodes := i.nodes.modify id fun n => { n with content := content } }

def setAnchor (anchor : Option Text) (id : NodeId) : Read Unit :=
  match anchor with
  | none => return
  | some name => modify fun i => { i with anchors := (name, id) :: i.anchors }

def aliased (name : Text) : Read NodeId := do
  match (← get).anchors.lookup name with
  | some id => return id
  | none => throw (.undefinedAlias name)

/-- What is written in front of a node. -/
structure Properties where
  anchor : Option Text := none
  /-- The name of the tag; a lone exclamation mark leaves it to the node. -/
  tag : Option Text := none
  deriving DecidableEq, Repr

def Properties.isEmpty (p : Properties) : Bool := p.anchor.isNone && p.tag.isNone

/-- Whether the tag is left to the form of a scalar. -/
def Properties.asksForm (p : Properties) (plain : Bool) : Bool := (plain && p.tag.isNone) || p.tag == some ['!']

/-- The tag that is written, or the given one. -/
def Properties.tagOr (p : Properties) (default : Tag) : Tag :=
  match p.tag with
  | none => default
  | some name => if name = ['!'] then default else .ofName name

/-- The node of a scalar. -/
def addScalar (p : Properties) (plain : Bool) (t : Units) : Read NodeId := do
  let form := tagOf (← version) t
  let id ← add (p.tagOr (if p.asksForm plain then form else .str)) (.scalar t)
  setAnchor p.anchor id
  return id

/-- What stands where nothing is written. -/
def addEmpty : Read NodeId := addScalar {} true []

/-- The node of a collection, whose content is read behind its anchor. -/
def addCollection (p : Properties) (tag : Tag) (read : Read Content) : Read NodeId := do
  let id ← add (p.tagOr tag) (.sequence [])
  setAnchor p.anchor id
  fill id (← read)
  return id

def anchor? : Read (Option Text) := do
  match ← peek with
  | some (.anchor name) =>
    skip
    return some name
  | _ => return none

/-- The handle and the name of a tag. -/
def tag? : Read (Option (Option Text × Text)) := do
  match ← peek with
  | some (.tag handle suffix) =>
    skip
    return some (handle, suffix)
  | _ => return none

/-- Escapes in the name of a tag are bytes, each of which is the character of its number. -/
def decodeEscapes : Text → Text
  | '%' :: a :: b :: r => Text.charOf (Text.ofHex [a, b]) :: decodeEscapes r
  | c :: r => c :: decodeEscapes r
  | [] => []

/-- The name of a tag with its handle written out. -/
def tagName (handle : Option Text) (suffix : Text) : Read Text := do
  match handle with
  | none => return decodeEscapes suffix
  | some h =>
    match (← get).handles.lookup h with
    | some start => return start ++ decodeEscapes suffix
    | none => throw .tag

/-- An anchor and a tag in either order. -/
def properties : Read Properties := do
  let (anchor, tag) ← match ← anchor? with
    | some a => pure (some a, ← tag?)
    | none =>
      match ← tag? with
      | some t => pure (← anchor?, some t)
      | none => pure (none, none)
  let name ← tag.mapM fun (handle, suffix) => tagName handle suffix
  return ⟨anchor, name⟩

/-! ### Contents -/

/-- The kinds of content that can stand at a place: in a block also blocks, and behind a key also sequences
    that are not indented further. -/
inductive Place
  | flow
  | block
  | mappingBlock
  deriving DecidableEq, Repr

mutual

/-- Reads a node. Every call takes a token or makes a smaller one, for which `fuel` allows. -/
def read (fuel : Nat) (place : Place) : Read NodeId :=
  match fuel with
  | 0 => throw .unexpected
  | fuel + 1 => do
    match ← peek with
    | some (.alias name) =>
      skip
      aliased name
    | _ =>
      let p ← properties
      match ← peek with
      | some (.scalar plain t) =>
        skip
        addScalar p plain t
      | some .flowSequenceStart =>
        skip
        addCollection p .seq (.sequence <$> flowItems fuel true)
      | some .flowMappingStart =>
        skip
        addCollection p .map (.mapping <$> flowEntries fuel true)
      | t =>
        if t = some .blockSequenceStart ∧ place ≠ .flow then
          skip
          addCollection p .seq (.sequence <$> blockItems fuel)
        else if t = some .blockMappingStart ∧ place ≠ .flow then
          skip
          addCollection p .map (.mapping <$> blockEntries fuel)
        else if t = some .blockEntry ∧ place = .mappingBlock then
          addCollection p .seq (.sequence <$> looseItems fuel)
        else if p.isEmpty then throw .unexpected
        else addScalar p true []

/-- A node, or nothing where one of the given tokens stands. -/
def readUnless (fuel : Nat) (ends : List Token) (place : Place) : Read NodeId :=
  match fuel with
  | 0 => throw .unexpected
  | fuel + 1 => do
    if ← sees ends then addEmpty else read fuel place

/-- The value behind a colon, or nothing without one. -/
def readValue (fuel : Nat) (ends : List Token) (place : Place) : Read NodeId :=
  match fuel with
  | 0 => throw .unexpected
  | fuel + 1 => do
    if ← takes .value then readUnless fuel ends place else addEmpty

def blockItems (fuel : Nat) : Read (List NodeId) :=
  match fuel with
  | 0 => throw .unexpected
  | fuel + 1 => do
    if ← takes .blockEntry then
      let n ← readUnless fuel [.blockEntry, .blockEnd] .block
      return n :: (← blockItems fuel)
    else if ← takes .blockEnd then return []
    else throw .unexpected

/-- The items of a sequence that is not indented further than the mapping around it. -/
def looseItems (fuel : Nat) : Read (List NodeId) :=
  match fuel with
  | 0 => throw .unexpected
  | fuel + 1 => do
    if ← takes .blockEntry then
      let n ← readUnless fuel [.blockEntry, .key, .value, .blockEnd] .block
      return n :: (← looseItems fuel)
    else return []

/-- The entries of a block; a value without a key is for the newer version only. -/
def blockEntries (fuel : Nat) : Read (List (NodeId × NodeId)) :=
  match fuel with
  | 0 => throw .unexpected
  | fuel + 1 => do
    let ends := [.key, .value, .blockEnd]
    if ← takes .key then
      let k ← readUnless fuel ends .mappingBlock
      let v ← readValue fuel ends .mappingBlock
      return (k, v) :: (← blockEntries fuel)
    else if (← version) == .v12 && (← sees [.value]) then
      let k ← addEmpty
      let v ← readValue fuel ends .mappingBlock
      return (k, v) :: (← blockEntries fuel)
    else if ← takes .blockEnd then return []
    else throw .unexpected

/-- The items of a sequence in brackets; a pair of key and value is a mapping of its own. -/
def flowItems (fuel : Nat) (first : Bool) : Read (List NodeId) :=
  match fuel with
  | 0 => throw .unexpected
  | fuel + 1 => do
    let ends := [.flowEntry, .flowSequenceEnd]
    if ← takes .flowSequenceEnd then return []
    if !first then
      if !(← takes .flowEntry) then throw .unexpected
    if ← takes .key then
      let pair ← addCollection {} .map do
        let k ← readUnless fuel (.value :: ends) .flow
        let v ← readValue fuel ends .flow
        return .mapping [(k, v)]
      return pair :: (← flowItems fuel false)
    else if ← takes .flowSequenceEnd then return []
    else
      let n ← read fuel .flow
      return n :: (← flowItems fuel false)

/-- The entries of a mapping in braces; a key may stand without a value. -/
def flowEntries (fuel : Nat) (first : Bool) : Read (List (NodeId × NodeId)) :=
  match fuel with
  | 0 => throw .unexpected
  | fuel + 1 => do
    let ends := [.flowEntry, .flowMappingEnd]
    if ← takes .flowMappingEnd then return []
    if !first then
      if !(← takes .flowEntry) then throw .unexpected
    if ← takes .key then
      let k ← readUnless fuel (.value :: ends) .flow
      let v ← readValue fuel ends .flow
      return (k, v) :: (← flowEntries fuel false)
    else if (← version) == .v12 && (← sees [.value]) then
      let k ← addEmpty
      let v ← readValue fuel ends .flow
      return (k, v) :: (← flowEntries fuel false)
    else if ← takes .flowMappingEnd then return []
    else
      let k ← read fuel .flow
      let v ← addEmpty
      return (k, v) :: (← flowEntries fuel false)

end

/-! ### Directives -/

/-- The handles that need no directive. -/
def defaultHandles : List (Text × Text) := [(['!'], ['!']), ("!!".text, standardTag)]

/-- What the directives of a document say. -/
structure Directives where
  version : Option (Nat × Nat) := none
  handles : List (Text × Text) := []
  deriving DecidableEq, Repr

def Directives.add (d : Directives) : Directive → Except Error Directives
  | .version major minor =>
    if d.version.isSome || major ≠ 1 then .error .directive else .ok { d with version := some (major, minor) }
  | .handle name start =>
    if (d.handles.lookup name).isSome then .error .directive
    else .ok { d with handles := (name, start) :: d.handles }
  | .other => .ok d

/-- Without a directive the newer version is meant. -/
def Directives.versionOf (d : Directives) : Except Error Version :=
  match d.version with
  | none => .ok .v12
  | some (major, minor) =>
    if minor = 2 then .ok .v12 else if minor = 1 then .ok .v11 else .error (.version major minor)

/-- Collects the directives in front of a document. -/
def directives (fuel : Nat) (d : Directives) : Read Directives :=
  match fuel with
  | 0 => throw .unexpected
  | fuel + 1 => do
    match ← peek with
    | some (.directive directive) =>
      skip
      directives fuel (← d.add directive)
    | _ => return d

/-! ### Documents -/

/-- How a document begins. -/
inductive Start
  | marked
  | unmarked
  deriving DecidableEq, Repr

def skipDocumentEnds (fuel : Nat) : Read Unit :=
  match fuel with
  | 0 => throw .unexpected
  | fuel + 1 => do
    if ← takes .documentEnd then skipDocumentEnds fuel

/-- The beginning of a document that has a marker, unless the text ends here. -/
def markedStart? (fuel : Nat) : Read (Option Start) := do
  skipDocumentEnds fuel
  if ← sees [.finish] then return none
  let d ← directives fuel {}
  let version ← d.versionOf
  modify fun i => { i with layout.version := version, handles := d.handles ++ defaultHandles }
  if ← takes .documentStart then return some .marked else throw .unexpected

/-- Whether a directive, a marker or the end of the text comes next. -/
def atBoundary (markers : List Token) : Read Bool := do
  match ← peek with
  | some (.directive _) => return true
  | _ => sees (.finish :: markers)

/-- The beginning of a document with or without a marker. -/
def start? (fuel : Nat) : Read (Option Start) := do
  if ← atBoundary [.documentStart] then markedStart? fuel
  else
    modify fun i => { i with handles := defaultHandles }
    return some .unmarked

/-- The only document of a text; a text without any token has none. Behind a document that ends with a
    marker another one could begin without one, in the newer version. -/
def document (fuel : Nat) : Read (Option NodeId) := do
  match ← start? fuel with
  | none => return none
  | some start =>
    let isEmpty ← if start = .marked then atBoundary [.documentStart, .documentEnd] else pure false
    let n ← if isEmpty then addEmpty else read fuel .block
    let ended ← takes .documentEnd
    let next ← if ended && (← version) == .v12 then start? fuel else markedStart? fuel
    if next.isSome then throw .unexpected
    return some n

end Node

/-- The document of a text, unless the text is empty. -/
def Document.ofText (t : Text) : Except Error (Option Document) := do
  let layout ← Layout.ofText t
  let (top, i) ← (Node.document (8 * t.length + 32)).run { layout := layout }
  return top.map fun id => ⟨i.nodes, id, i.layout.version⟩

end Yaml
end Stylebook
