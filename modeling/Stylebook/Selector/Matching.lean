import Stylebook.Markup.Node
import Stylebook.Selector.Reader

/-! Which elements a selector means. An element is looked at together with its place, that is whether it is
    the first or the last element among its siblings, and with the places of its ancestors. A group holds
    for an element when its last compound does and the other compounds hold, in order, for ancestors; these
    are sought from the nearest on. -/

namespace Stylebook
namespace Selector

open Markup (Element Node)

/-! ### Places -/

/-- An element and whether it is the first and the last element among its siblings. -/
structure Place where
  element : Element
  isFirst : Bool
  isLast : Bool
  deriving DecidableEq, Repr

/-- The place of an element followed by those of its ancestors, nearest first. -/
abbrev Lineage := List Place

/-- The lineages of all elements in `nodes` in document order. `above` is the lineage of the parent, and `seen`
    tells of an element in front of the nodes. -/
def lineages (above : Lineage) (seen : Bool) : List Node → List Lineage
  | [] => []
  | .element e children :: rest =>
    let lineage := ⟨e, !seen, !rest.any Node.isElement⟩ :: above
    lineage :: (lineages lineage false children ++ lineages above true rest)
  | _ :: rest => lineages above seen rest

/-- Changes every element in `nodes` by what `f` makes of its lineage. -/
def mapLineages (f : Lineage → Element → Element) (above : Lineage) (seen : Bool) : List Node → List Node
  | [] => []
  | .element e children :: rest =>
    let lineage := ⟨e, !seen, !rest.any Node.isElement⟩ :: above
    .element (f lineage e) (mapLineages f lineage false children) :: mapLineages f above true rest
  | n :: rest => n :: mapLineages f above seen rest

/-! ### Matching -/

/-- Whether a part holds at a place. A pseudo part other than the two about siblings asks for an attribute
    of its name. -/
def Part.holds (p : Place) : Part → Bool
  | .tag name => p.element.name == name
  | .universal => true
  | .id name => p.element.attributeText? "id".text == some name
  | .className name =>
    match p.element.get? "class".text with
    | some v => v.members.contains name
    | none => false
  | .attribute name none => p.element.has name
  | .attribute name (some v) => p.element.attributeText? name == some v
  | .pseudo name _ =>
    if name = "first-child".text then p.isFirst
    else if name = "last-child".text then p.isLast
    else p.element.has name
  | .descendant => false

def Compound.holds (p : Place) (c : Compound) : Bool := c.all (Part.holds p)

/-- Whether the compounds, the innermost first, hold for ancestors out of `above`: each for the nearest one
    that is left. -/
def holdAbove : List Compound → Lineage → Bool
  | [], _ => true
  | _ :: _, [] => false
  | c :: cs, p :: above => if Compound.holds p c then holdAbove cs above else holdAbove (c :: cs) above

/-- Whether the compounds of a group, the innermost first, hold for the element at the front of a lineage. -/
def holdAt : List Compound → Lineage → Bool
  | c :: cs, p :: above => Compound.holds p c && holdAbove cs above
  | _, _ => false

def Group.holds (lineage : Lineage) (g : Group) : Bool := holdAt (compounds g).reverse lineage

/-- Whether one of the groups holds for the element at the front of a lineage. -/
def anyHolds (groups : List Group) (lineage : Lineage) : Bool := groups.any (Group.holds lineage)

/-- The lineages of the elements below `above` that a selector means, in document order. -/
def select (selector : Text) (above : Lineage) (nodes : List Node) : Except Error (List Lineage) :=
  (parse selector).map fun groups => (lineages above false nodes).filter (anyHolds groups)

end Selector
end Stylebook
