import Stylebook.Json.Writer
import Stylebook.Showcase.Item

/-! The showcase as plain data and as JSON text. -/

namespace Stylebook
namespace Showcase

open Variant (State)

def optional : Option Text → Data
  | some t => .str t
  | none => .null

def texts (ts : List Text) : Data := .list (ts.map .str)

/-- A mapping with text keys. -/
def record (fields : List (String × Data)) : Data := .map (fields.map fun (k, v) => (k.text, v))

def State.toData (s : State) : Data :=
  record [("state", optional s.state), ("description", optional s.description)]

def Subitem.toData (s : Subitem) : Data :=
  record [
    ("id", .str s.id),
    ("anchor", .str s.anchor),
    ("base", .str s.base),
    ("modifier", optional s.modifier),
    ("selector", .str s.selector),
    ("description", optional s.description),
    ("example", .str s.example_),
    ("presentation", .str s.presentation)]

def Item.toData (i : Item) : Data :=
  record [
    ("id", .int i.id),
    ("section", optional i.section_),
    ("anchor", .str i.anchor),
    ("title", optional i.title),
    ("description", optional i.description),
    ("base", optional i.base),
    ("base_description", optional i.baseDescription),
    ("example", optional i.example_),
    ("presentation", optional i.presentation),
    ("version", optional i.version),
    ("author", texts i.author),
    ("since", optional i.since),
    ("is_deprecated", .bool i.isDeprecated),
    ("deprecated_info", optional i.deprecatedInfo),
    ("see", texts i.see),
    ("todo", texts i.todo),
    ("fixme", texts i.fixme),
    ("states", .list (i.states.map State.toData)),
    ("subitems", .list (i.subitems.map Subitem.toData))]

/-- Items as plain data. -/
def toData (items : List Item) : Data := .list (items.map Item.toData)

/-- Items as JSON text; an indentation of zero or below asks for no blanks at all. -/
def toJson (indent : Int) (items : List Item) : Text := Json.render (Json.Layout.ofIndent indent) (toData items)

end Showcase
end Stylebook
