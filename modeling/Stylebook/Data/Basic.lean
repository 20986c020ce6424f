import Stylebook.Number.Binary64

/-! Plain data: what interchange documents hold. A mapping keeps its entries in order. -/

namespace Stylebook

inductive Data
  | null
  | bool (b : Bool)
  | int (n : Int)
  | float (x : Binary64)
  | str (t : Text)
  | list (items : List Data)
  | map (entries : List (Text × Data))
  deriving Repr

namespace Data

/-- Puts a value under a key: an entry of that key keeps its place, a new one goes to the end. -/
def put (key : Text) (value : Data) : List (Text × Data) → List (Text × Data)
  | [] => [(key, value)]
  | (k, v) :: rest => if k = key then (k, value) :: rest else (k, v) :: put key value rest

end Data
end Stylebook
