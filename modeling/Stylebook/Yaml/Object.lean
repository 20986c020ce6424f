import Stylebook.Data.Value
import Stylebook.Yaml.Error

/-! Values while they are being made. Collections name their parts by number, so that a collection can be used
    before it is filled, and can be a part of itself. Once all are filled, the numbers are replaced by the
    values they stand for. -/

namespace Stylebook
namespace Yaml

/-- The number of an object. -/
abbrev Ref := Nat

inductive Object
  | leaf (v : Value)
  | list (items : List Ref)
  | tuple (items : List Ref)
  | set (items : List Ref)
  | map (entries : List (Ref × Ref))
  | orderedMap (entries : List (Ref × Ref))
  deriving Repr

namespace Object

def parts : Object → List Ref
  | .leaf _ => []
  | .list items => items
  | .tuple items => items
  | .set items => items
  | .map entries => entries.flatMap fun (k, v) => [k, v]
  | .orderedMap entries => entries.flatMap fun (k, v) => [k, v]

/-- The value of an object, given those of its parts. -/
def value (part : Ref → Value) : Object → Value
  | .leaf v => v
  | .list items => .list (items.map part)
  | .tuple items => .tuple (items.map part)
  | .set items => .set (items.map part)
  | .map entries => .map (entries.map fun (k, v) => (part k, part v))
  | .orderedMap entries => .orderedMap (entries.map fun (k, v) => (part k, part v))

def shape : Object → Shape
  | .map _ => .map
  | .orderedMap _ => .orderedMap
  | _ => .list

end Object

/-! ### Keys -/

/-- The integer that a truth value or a number stands for when it is a key: true is one. -/
def keyInt? : Value → Option Int
  | .bool b => some (if b then 1 else 0)
  | .int n => some n
  | _ => none

/-- Whether two values that have no parts are the same key: an integer equals the floating-point number of
    the same value, and what is not a number equals nothing. -/
def sameLeaf (a b : Value) : Bool :=
  match keyInt? a, keyInt? b with
  | some m, some n => m == n
  | some m, none => match b with
    | .float x => x.isInt m
    | _ => false
  | none, some n => match a with
    | .float x => x.isInt n
    | _ => false
  | none, none => match a, b with
    | .null, .null => true
    | .str s, .str t => s == t
    | .bytes s, .bytes t => s == t
    | .date d, .date e => d == e
    | .moment m, .moment n => m.same n
    | .float x, .float y =>
      match x, y with
      | .nan, _ => false
      | .finite _ 0 _, .finite _ 0 _ => true
      | _, _ => x == y
    | _, _ => false

/-- The objects there are, by their numbers. -/
structure Heap where
  objects : Array Object
  deriving Repr

namespace Heap

/-- Two objects that every heap has: nothing, and what is not a number. -/
def start : Heap := ⟨#[.leaf .null, .leaf (.float .nan)]⟩

def nothing : Ref := 0

def notNumber : Ref := 1

def get (h : Heap) (r : Ref) : Object := h.objects[r]?.getD (.leaf .null)

def add (h : Heap) (o : Object) : Ref × Heap := (h.objects.size, ⟨h.objects.push o⟩)

def set (h : Heap) (r : Ref) (o : Object) : Heap := ⟨h.objects.setIfInBounds r o⟩

/-- Whether two objects are the same key. Tuples are compared part by part, as deep as `fuel` allows. -/
def sameWithin (h : Heap) : Nat → Ref → Ref → Bool
  | 0, a, b => a == b
  | fuel + 1, a, b =>
    a == b ||
      match h.get a, h.get b with
      | .leaf v, .leaf w => sameLeaf v w
      | .tuple xs, .tuple ys => xs.length == ys.length && (xs.zip ys).all fun (x, y) => h.sameWithin fuel x y
      | _, _ => false

def same (h : Heap) (a b : Ref) : Bool := h.sameWithin h.objects.size a b

/-- What makes an object unfit to be a key: a part of it that can change, or the object itself. -/
def changeableWithin? (h : Heap) : Nat → Ref → Option String
  | 0, _ => none
  | fuel + 1, r =>
    match h.get r with
    | .leaf _ => none
    | .tuple items => items.findSome? (h.changeableWithin? fuel)
    | .list _ => some "list"
    | .set _ => some "set"
    | .map _ => some "dict"
    | .orderedMap _ => some "ordereddict"

def changeable? (h : Heap) (r : Ref) : Option String := h.changeableWithin? h.objects.size r

/-- The value under a key. -/
def lookup? (h : Heap) (key : Ref) (entries : List (Ref × Ref)) : Option Ref :=
  (entries.find? fun (k, _) => h.same k key).map (·.2)

/-- Puts a value under a key: an entry of that key keeps its place, a new one goes to the end. -/
def put (h : Heap) (key value : Ref) : List (Ref × Ref) → List (Ref × Ref)
  | [] => [(key, value)]
  | (k, v) :: rest => if h.same k key then (k, value) :: rest else (k, v) :: h.put key value rest

/-! ### Values -/

/-- The values of the objects whose parts all have one, added to those that are known. Parts mostly come
    behind what they are parts of. -/
def settleOnce (h : Heap) (known : Array (Option Value)) : Array (Option Value) :=
  (List.range h.objects.size).foldr (fun r known =>
    let partOf (p : Ref) : Option Value := known[p]?.join
    let o := h.get r
    if (partOf r).isNone && o.parts.all fun p => (partOf p).isSome then
      known.setIfInBounds r (some (o.value fun p => (partOf p).getD .null))
    else known) known

def settle (h : Heap) : Nat → Array (Option Value) → Array (Option Value)
  | 0, known => known
  | rounds + 1, known =>
    let next := h.settleOnce known
    if next.countP Option.isSome = known.countP Option.isSome then known else h.settle rounds next

/-- The values of all objects that do not lead back to themselves. -/
def settled (h : Heap) : Array (Option Value) :=
  h.settle h.objects.size (Array.replicate h.objects.size none)

/-- The value of an object inside of others. What is not settled gets a name, by which it stands inside of
    itself. -/
def valueWithin (h : Heap) (known : Array (Option Value)) : Nat → List Ref → Ref → Value
  | 0, _, _ => .null
  | fuel + 1, around, r =>
    match known[r]?.join with
    | some v => v
    | none =>
      let o := h.get r
      if around.contains r then .again r o.shape
      else .named r (o.value (h.valueWithin known fuel (r :: around)))

def value (h : Heap) (r : Ref) : Value := h.valueWithin h.settled (h.objects.size + 1) [] r

end Heap
end Yaml
end Stylebook
