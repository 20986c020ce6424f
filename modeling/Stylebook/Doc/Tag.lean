import Stylebook.Text.Basic

/-! The tags of documentation comments, and the table of the names that count as tags. -/

namespace Stylebook
namespace Doc

/-- A tag as it was declared: its name and its content. -/
structure Tag where
  name : Text
  content : Text
  deriving DecidableEq, Repr

/-- The implicit tag of the first line of a comment. -/
def titleName : Text := "$title".text

/-- The implicit tag of the lines after the title. -/
def descriptionName : Text := "$description".text

/-- The known tag names in table order, each with whether its content may go on over several lines. -/
structure TagTable where
  entries : List (Text × Bool)
  deriving DecidableEq, Repr

namespace TagTable

/-- The tags known without any configuration. -/
def default : TagTable where
  entries := [
    (titleName, false),
    (descriptionName, true),
    ("section".text, false),
    ("base".text, false),
    ("modifier".text, false),
    ("state".text, false),
    ("pseudo".text, false),
    ("example".text, true),
    ("markup".text, true),
    ("presentation".text, true),
    ("preview".text, true),
    ("author".text, false),
    ("version".text, false),
    ("since".text, false),
    ("deprecated".text, false),
    ("see".text, false),
    ("todo".text, false),
    ("fixme".text, false)]

def isKnown (table : TagTable) (name : Text) : Bool := table.entries.any (·.1 == name)

def isMultiline (table : TagTable) (name : Text) : Bool := (table.entries.lookup name).getD false

/-- Sets one entry: a known name keeps its place, a new one goes to the end. -/
def put (name : Text) (multiline : Bool) : List (Text × Bool) → List (Text × Bool)
  | [] => [(name, multiline)]
  | (n, m) :: rest => if n = name then (n, multiline) :: rest else (n, m) :: put name multiline rest

/-- The table with further entries set one after the other. -/
def override (table : TagTable) (changes : List (Text × Bool)) : TagTable where
  entries := changes.foldl (fun entries (name, multiline) => put name multiline entries) table.entries

end TagTable
end Doc
end Stylebook
