import Stylebook.Showcase.Item

/-! Building the showcase from the tags of documentation comments. Every comment becomes one item, numbered in
    order; anchors and the ids of variants are kept apart over the whole run; and the items are sorted by
    section, those of one section staying in order. -/

namespace Stylebook
namespace Showcase

open Doc (Tag)
open Identifier (Registry)
open Markup (Rejected)
open Variant (Settings State)

/-! ### Selectors with descriptions -/

/-- What follows a selector: nothing, or blanks and a description. -/
def description? (t : Text) : Option (Option Text) :=
  match t with
  | [] => some none
  | c :: _ =>
    if Text.isBlank c then
      match Text.skipBlanks t with
      | [] => none
      | d => some (some d)
    else none

def isBrace (c : Char) : Bool := c == '\x7b' || c == '\x7d'

/-- A selector in braces, which may have blanks but no braces, and its description. -/
def braced? (t : Text) : Option (Text × Option Text) :=
  match t with
  | '\x7b' :: r =>
    match r.takeWhile (!isBrace ·), r.dropWhile (!isBrace ·) with
    | [], _ => none
    | s, '\x7d' :: rest => (description? rest).map fun d => (s, d)
    | _, _ => none
  | _ => none

/-- A selector without blanks and its description. -/
def bare? (t : Text) : Option (Text × Option Text) :=
  match t.takeWhile (!Text.isBlank ·) with
  | [] => none
  | s => (description? (t.dropWhile (!Text.isBlank ·))).map fun d => (s, d)

/-- The selector of a tag and its description: in braces where that is possible, else up to the first
    blank. -/
def selectorAndDescription? (t : Text) : Option (Text × Option Text) :=
  match braced? t with
  | some answer => some answer
  | none => bare? t

/-! ### Facts of a comment -/

/-- The contents of the tags with one of the names, in order. -/
def contents (tags : List Tag) (names : List String) : List Text :=
  (tags.filter fun t => (names.map String.text).contains t.name).map (·.content)

def stateOf (content : Text) : State :=
  match selectorAndDescription? content with
  | some (s, d) => ⟨some s, d⟩
  | none => ⟨none, none⟩

/-- The first of two texts, unless it is absent or empty. -/
def orElseIfEmpty (a b : Option Text) : Option Text :=
  match a with
  | some (c :: t) => some (c :: t)
  | _ => b

/-- An item of which nothing is known but its number. -/
def Item.blank (number : Nat) : Item where
  id := number
  section_ := none
  anchor := []
  title := none
  description := none
  base := none
  baseDescription := none
  example_ := none
  presentation := none
  version := none
  author := []
  since := none
  isDeprecated := false
  deprecatedInfo := none
  see := []
  todo := []
  fixme := []
  states := []
  subitems := []

/-- What the tags of a comment have said so far. The label of the section and the markup for presentation only count
    in the end. -/
structure Reading where
  item : Item
  sectionLabel : Option Text := none
  presented : Option Text := none
  deriving DecidableEq, Repr

/-- The tags that may show the example; the first of them does. -/
def exampleNames : List Text := ["example", "markup", "presentation", "preview"].map String.text

/-- Those of them whose markup is also the one for presentation. -/
def presentationNames : List Text := ["presentation", "preview"].map String.text

/-- Takes in one more tag. Of most kinds the last tag counts, of examples the first; authors and notes are gathered. -/
def Reading.take (r : Reading) (t : Tag) : Reading :=
  if t.name = "$title".text then { r with item.title := some t.content }
  else if t.name = "$description".text then { r with item.description := some t.content }
  else if t.name = "section".text then
    let read := selectorAndDescription? t.content
    { r with item.section_ := read.map (·.1), sectionLabel := read.bind (·.2) }
  else if t.name = "base".text then
    let read := selectorAndDescription? t.content
    { r with item.base := read.map (·.1), item.baseDescription := read.bind (·.2) }
  else if exampleNames.contains t.name then
    { r with
      item.example_ := r.item.example_.or (some t.content)
      presented := if presentationNames.contains t.name then r.presented.or (some t.content) else r.presented }
  else if t.name = "version".text then { r with item.version := some t.content }
  else if t.name = "since".text then { r with item.since := some t.content }
  else if t.name = "deprecated".text then { r with item.isDeprecated := true, item.deprecatedInfo := some t.content }
  else if t.name = "author".text then { r with item.author := r.item.author ++ [t.content] }
  else if t.name = "see".text then { r with item.see := r.item.see ++ [t.content] }
  else if t.name = "todo".text then { r with item.todo := r.item.todo ++ [t.content] }
  else if t.name = "fixme".text then { r with item.fixme := r.item.fixme ++ [t.content] }
  else r

/-- The tags of a comment read one after the other. -/
def Reading.ofTags (number : Nat) (tags : List Tag) : Reading := tags.foldl take { item := .blank number }

/-- An item as its tags describe it, without anchor and subitems. -/
def describe (number : Nat) (tags : List Tag) : Item :=
  let read := Reading.ofTags number tags
  { read.item with
    title := orElseIfEmpty read.item.title (orElseIfEmpty read.sectionLabel read.item.baseDescription)
    presentation := read.presented.or read.item.example_
    states := (contents tags ["state", "pseudo"]).map stateOf }

/-! ### Variants -/

/-- The identifiers handed out in a run. -/
structure Registries where
  anchors : Registry := {}
  subitems : Registry := {}
  deriving Repr, DecidableEq

/-- A variant to be built: its modifier, its description, and its number in the item. -/
structure Plan where
  modifier : Option Text
  description : Option Text
  index : Nat
  deriving Repr, DecidableEq

/-- The variants that modifier tags ask for; they are numbered by the places of their tags, and a tag without
    a selector asks for none. -/
def modifierPlans (index : Nat) : List Tag → List Plan
  | [] => []
  | t :: rest =>
    let more := modifierPlans (index + 1) rest
    if t.name = "modifier".text then
      match selectorAndDescription? t.content with
      | some (s, d) => ⟨some s, d, index⟩ :: more
      | none => more
    else more

/-- The variants of an item with a base: the base itself and those of its modifiers. -/
def plans (item : Item) (tags : List Tag) : List Plan :=
  ⟨none, some (item.baseDescription.getD []), 0⟩ :: modifierPlans 1 tags

/-- The name under which a variant asks for its id. -/
def subitemKey (config : Config) (number : Nat) (selector : Text) (index : Nat) : Text :=
  if config.selectorIds then Identifier.ofSelector config.collapseIds selector
  else Text.decimal number ++ '_' :: Text.decimal index

def buildSubitem (s : Settings) (item : Item) (base : Text) (ids : Registry) (plan : Plan) :
    Except Rejected (Subitem × Registry) := do
  let selector := base ++ plan.modifier.getD []
  let (id, ids) := ids.claim (subitemKey s.config item.id selector plan.index)
  let variant (isPresentation : Bool) (markup : Option Text) : Except Rejected Text :=
    Variant.apply s isPresentation none (markup.getD []) (some base) (plan.modifier.getD []) item.states
  let shown ← variant false item.example_
  let presented ← variant true item.presentation
  return ({
    id := id
    anchor := id
    base := base
    modifier := plan.modifier
    selector := selector
    description := plan.description
    example_ := shown
    presentation := presented }, ids)

def buildSubitems (s : Settings) (item : Item) (base : Text) (ids : Registry) :
    List Plan → Except Rejected (List Subitem × Registry)
  | [] => return ([], ids)
  | plan :: rest => do
    let (subitem, ids) ← buildSubitem s item base ids plan
    let (subitems, ids) ← buildSubitems s item base ids rest
    return (subitem :: subitems, ids)

/-! ### Items -/

def anchorKey (config : Config) (item : Item) : Text :=
  "section_".text ++ Identifier.ofSelector config.collapseIds (item.section_.getD (Text.decimal item.id))

def buildItem (s : Settings) (ids : Registries) (number : Nat) (tags : List Tag) :
    Except Rejected (Item × Registries) := do
  let item := describe number tags
  let (anchor, anchors) := ids.anchors.claim (anchorKey s.config item)
  let (subitems, subitemIds) ← match item.base with
    | some base => buildSubitems s item base ids.subitems (plans item tags)
    | none => pure ([], ids.subitems)
  return ({ item with anchor := anchor, subitems := subitems }, ⟨anchors, subitemIds⟩)

/-- The items of comments in order, numbered from `number` on. -/
def buildItems (s : Settings) (ids : Registries) (number : Nat) :
    List (List Tag) → Except Rejected (List Item × Registries)
  | [] => return ([], ids)
  | tags :: rest => do
    let (item, ids) ← buildItem s ids number tags
    let (items, ids) ← buildItems s ids (number + 1) rest
    return (item :: items, ids)

/-- The key by which items are sorted; an item without a section comes first. -/
def sectionKey (item : Item) : Text := item.section_.getD []

/-- Sorts by section and keeps the order within a section. -/
def sortItems (items : List Item) : List Item :=
  items.mergeSort fun a b => !Text.isBefore (sectionKey b) (sectionKey a)

/-- Builds the showcase of comments. The identifiers handed out before stay reserved. -/
def build (s : Settings) (ids : Registries) (comments : List (List Tag)) :
    Except Rejected (List Item × Registries) := do
  let (items, ids) ← buildItems s ids 1 comments
  return (sortItems items, ids)

end Showcase
end Stylebook
