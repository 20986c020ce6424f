import Stylebook.Variant

/-! The showcase: what is handed to a renderer. An item is what one documentation comment says; a subitem is
    one variant of its example. -/

namespace Stylebook
namespace Showcase

open Variant (State)

/-- One variant: the base itself, or the base with a modifier. -/
structure Subitem where
  id : Text
  anchor : Text
  base : Text
  modifier : Option Text
  selector : Text
  description : Option Text
  example_ : Text
  presentation : Text
  deriving DecidableEq, Repr

structure Item where
  id : Nat
  section_ : Option Text
  anchor : Text
  title : Option Text
  description : Option Text
  base : Option Text
  baseDescription : Option Text
  example_ : Option Text
  presentation : Option Text
  version : Option Text
  author : List Text
  since : Option Text
  isDeprecated : Bool
  deprecatedInfo : Option Text
  see : List Text
  todo : List Text
  fixme : List Text
  states : List State
  subitems : List Subitem
  deriving DecidableEq, Repr

end Showcase
end Stylebook
