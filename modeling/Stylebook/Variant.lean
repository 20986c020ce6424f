import Stylebook.Config.Basic
import Stylebook.Identifier
import Stylebook.Markup.Tree
import Stylebook.Markup.Writer
import Stylebook.Selector.Matching

/-! Variants of example markup. The elements that the base selector means take on the parts of a modifier:
    `#id` sets the id, `.name` adds a class, `[name=value]` sets an attribute, and `:name` sets the attribute
    of that name to its name. States are further variants of the result, appended as blocks. -/

namespace Stylebook
namespace Variant

open Markup (Attributes Element Node Rejected)
open Selector (Part Lineage)

/-! ### Parts on elements -/

/-- Puts one part on an element. A class is added only if it is new, unless `again` is set. -/
def applyPart (again : Bool) (e : Element) : Part → Element
  | .id name => e.set "id".text (.plain name)
  | .className name =>
    let classes := e.classes
    e.set "class".text (.tokens (if again || !classes.contains name then classes ++ [name] else classes))
  | .attribute name value => e.set name (.plain (value.getD []))
  | .pseudo name _ => e.set name (.plain name)
  | _ => e

def applyParts (again : Bool) (parts : List Part) (e : Element) : Element := parts.foldl (applyPart again) e

def isTag : Part → Bool
  | .tag _ => true
  | _ => false

/-! ### Attributes that have to stay unique -/

def appendTo (suffix : Text) (e : Element) (name : Text) : Element :=
  match e.attributeText? name with
  | some t => e.set name (.plain (t ++ suffix))
  | none => e

/-- Appends a text to the values of `id` and `for`. -/
def suffixUnique (suffix : Text) (e : Element) : Element :=
  appendTo suffix (appendTo suffix e "id".text) "for".text

/-! ### Fragments -/

/-- The element that is put around markup while it is worked on. -/
def wrapperName : Text := "styledoc-wrapper".text

def wrap (markup : Text) : Text :=
  ['<'] ++ wrapperName ++ ['>'] ++ markup ++ "</".text ++ wrapperName ++ ['>']

/-- The first element of a document as a lineage of its own, and the nodes in it. -/
def inside (document : List Node) : Lineage × List Node :=
  match document with
  | .element e children :: rest => ([⟨e, true, !rest.any Node.isElement⟩], children)
  | _ => ([], [])

/-- Markup between the tags of the wrapper. -/
def fragment (markup : Text) : Except Rejected (Lineage × List Node) :=
  (Markup.parse (wrap markup)).map inside

/-! ### Modifiers -/

/-- Which elements a base selector means; none, if it cannot be read. -/
def chosen (base : Option Text) (lineage : Lineage) : Bool :=
  match Selector.parse (base.getD []) with
  | .ok groups => Selector.anyHolds groups lineage
  | .error _ => false

/-- The parts of the last group of a modifier; none, if it cannot be read. -/
def modifierParts (modifier : Text) : List Part :=
  match Selector.parse modifier with
  | .ok groups => groups.getLast?.getD []
  | .error _ => []

/-- What the hook is told besides the markup: how the variant came about, the nodes of the fragment as they are
    now, and those of its elements that were chosen. -/
structure Context where
  base : Option Text
  modifier : Text
  isPresentation : Bool
  nodes : List Node
  elements : List Element

/-- A hook gets the markup of a variant and may answer with another. -/
abbrev Hook := Text → Context → Option Text

structure Settings where
  config : Config := {}
  hook : Option Hook := none

/-- What a modifier does to one element of a fragment. -/
def change (parts : List Part) (suffix : Option Text) (isChosen : Bool) (e : Element) : Element :=
  let e := if isChosen then applyParts (parts.any isTag) parts e else e
  match suffix with
  | some s => suffixUnique s e
  | none => e

/-- The variant of markup by a modifier, without states. Markup that nothing is done to stays as it was
    written. -/
def modified (s : Settings) (isPresentation unique : Bool) (markup : Text) (base : Option Text)
    (modifier : Text) : Except Rejected Text := do
  let (above, nodes) ← fragment markup
  let elements := (Selector.lineages above false nodes).filter (chosen base)
  let parts := if elements.isEmpty then [] else modifierParts modifier
  let suffix := if unique then some ('_' :: Identifier.ofSelector s.config.collapseIds modifier) else none
  let changed :=
    Selector.mapLineages (fun lineage e => change parts suffix (chosen base lineage) e) above false nodes
  let result := if parts.isEmpty && !unique then markup else Markup.write changed
  match s.hook with
  | none => return result
  | some hook =>
    let chosenElements := elements.filterMap fun lineage => lineage.head?.map (change parts suffix true ·.element)
    let context := ⟨base, modifier, isPresentation, changed, chosenElements⟩
    return (hook result context).getD result

/-! ### States -/

/-- A state of an item: its selector and its description. -/
structure State where
  state : Option Text
  description : Option Text
  deriving DecidableEq, Repr

/-- What one state adds: the glue and its block, or nothing where the block is empty. -/
def stateBlock (s : Settings) (isPresentation : Bool) (markup : Text) (base : Option Text) (state : State) :
    Except Rejected Text := do
  let block ← modified s isPresentation s.config.statesModifyUnique markup base (state.state.getD [])
  return if block.isEmpty then [] else s.config.statesGlue ++ block

/-- What states add, one after the other, all made from the same markup. -/
def stateBlocks (s : Settings) (isPresentation : Bool) (markup : Text) (base : Option Text) :
    List State → Except Rejected Text
  | [] => return []
  | state :: rest => do
    let block ← stateBlock s isPresentation markup base state
    return block ++ (← stateBlocks s isPresentation markup base rest)

/-- The markup followed by its state blocks. -/
def withStates (s : Settings) (isPresentation : Bool) (markup : Text) (base : Option Text)
    (states : List State) : Except Rejected Text := do
  return markup ++ (← stateBlocks s isPresentation markup base states)

/-- The variant of markup by a modifier with its state blocks. Unless told otherwise, the configuration
    decides about unique attributes. -/
def apply (s : Settings) (isPresentation : Bool) (unique : Option Bool) (markup : Text) (base : Option Text)
    (modifier : Text) (states : List State) : Except Rejected Text := do
  let result ← modified s isPresentation (unique.getD s.config.modifyUnique) markup base modifier
  withStates s isPresentation result base states

end Variant
end Stylebook
