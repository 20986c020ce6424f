import Stylebook.Text.Quoted

/-! Selectors as lists of parts. A comma separates groups; the parts of a group are written one after the
    other, with a descendant mark between two compounds. -/

namespace Stylebook
namespace Selector

inductive Part
  | tag (name : Text)
  | universal
  | id (name : Text)
  | className (name : Text)
  | attribute (name : Text) (value : Option Text)
  | pseudo (name : Text) (argument : Option Text)
  | descendant
  deriving DecidableEq, Repr

/-- A group of parts, as it stands between commas. -/
abbrev Group := List Part

/-- Parts that all speak about one element. -/
abbrev Compound := List Part

/-- Splits a group at its descendant marks. -/
def compounds : Group → List Compound
  | [] => [[]]
  | .descendant :: r => [] :: compounds r
  | p :: r =>
    match compounds r with
    | [] => [[p]]
    | c :: cs => (p :: c) :: cs

/-- Why a text is no selector. -/
inductive Error
  | unsupported (offset : Nat) (selector : Text)
  | emptyGroup (selector : Text)
  | trailingComma (selector : Text)
  deriving DecidableEq, Repr

def Error.message : Error → Text
  | .unsupported offset selector =>
    "Unsupported selector syntax at offset ".text ++ Text.decimal offset ++ " in ".text ++
      Text.quoted selector
  | .emptyGroup selector => "Empty selector group in ".text ++ Text.quoted selector
  | .trailingComma selector => "Trailing comma in selector ".text ++ Text.quoted selector

end Selector
end Stylebook
