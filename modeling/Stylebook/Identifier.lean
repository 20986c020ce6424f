import Stylebook.Text.Basic

/-! Identifiers made from selectors, and a registry that keeps them apart: the first request for a name
    gets the name itself, later ones get it with the least number that is still free. -/

namespace Stylebook
namespace Identifier

/-! ### From a selector -/

def isIdChar (c : Char) : Bool := Text.isLetter c || Text.isDigit c || c == '_' || c == '-'

/-- Every character that an identifier cannot have becomes an underscore. -/
def mask (t : Text) : Text := t.map fun c => if isIdChar c then c else '_'

/-- Each run of underscores becomes one. -/
def squeeze : Text → Text
  | [] => []
  | [c] => [c]
  | c :: d :: r => if c = '_' ∧ d = '_' then squeeze (d :: r) else c :: squeeze (d :: r)

/-- One underscore for a run of them, and none at the ends. -/
def collapse (t : Text) : Text := Text.trimBy (· == '_') (squeeze t)

/-- The identifier of a selector. -/
def ofSelector (collapsed : Bool) (selector : Text) : Text :=
  if collapsed then collapse (mask selector) else mask selector

/-! ### Keeping them apart -/

/-- The identifiers handed out so far, the latest first. -/
structure Registry where
  used : List Text := []
  deriving Repr, DecidableEq

namespace Registry

def has (r : Registry) (name : Text) : Bool := r.used.contains name

/-- A name with its number; zero stands for the name alone. -/
def numbered (base : Text) (k : Nat) : Text := if k = 0 then base else base ++ '_' :: Text.decimal k

/-- The name with the least number that is free. One of the first `n + 1` names is free when `n` are in
    use. -/
def free (r : Registry) (base : Text) : Text :=
  (((List.range (r.used.length + 1)).map (numbered base)).find? (!r.has ·)).getD base

/-- Hands out an identifier for `base` and keeps it from being handed out again. -/
def claim (r : Registry) (base : Text) : Text × Registry :=
  let name := r.free base
  (name, ⟨name :: r.used⟩)

end Registry
end Identifier
end Stylebook
