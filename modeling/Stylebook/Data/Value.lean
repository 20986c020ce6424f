import Stylebook.Calendar
import Stylebook.Data.Basic
import Stylebook.Number.Numeral

/-! Values: what configuration files hold. Beside the kinds of plain data there are bytes, dates and times,
    tuples, sets and ordered mappings; a mapping may have any of them as a key. A value can contain itself:
    then it has a name, and stands inside of itself as that name. -/

namespace Stylebook

/-- The kinds of values that can contain themselves. -/
inductive Shape
  | list
  | map
  | orderedMap
  deriving DecidableEq, Repr

/-- What is shown in place of a value inside of itself. -/
def Shape.ellipsis : Shape → Text
  | .list => "[...]".text
  | .map => "\x7b...\x7d".text
  | .orderedMap => "...".text

inductive Value
  | null
  | bool (b : Bool)
  | int (n : Int)
  | float (x : Binary64)
  | str (t : Units)
  | bytes (bs : List UInt8)
  | date (d : Calendar.Date)
  | moment (m : Calendar.Moment)
  | list (items : List Value)
  | tuple (items : List Value)
  | set (items : List Value)
  | map (entries : List (Value × Value))
  | orderedMap (entries : List (Value × Value))
  /-- A value in which `again` with the same name stands for the whole. -/
  | named (name : Nat) (v : Value)
  | again (name : Nat) (shape : Shape)
  deriving Repr

namespace Value

abbrev Entries := List (Value × Value)

/-! ### Plain data -/

mutual

/-- Plain data as a value. -/
def ofData : Data → Value
  | .null => .null
  | .bool b => .bool b
  | .int n => .int n
  | .float x => .float x
  | .str t => .str (Text.toUnits t)
  | .list items => .list (ofItems items)
  | .map entries => .map (ofEntries entries)

def ofItems : List Data → List Value
  | [] => []
  | d :: ds => ofData d :: ofItems ds

def ofEntries : List (Text × Data) → Entries
  | [] => []
  | (k, d) :: rest => (.str (Text.toUnits k), ofData d) :: ofEntries rest

end

/-! ### Display -/

def shape : Value → Shape
  | .map _ => .map
  | .orderedMap _ => .orderedMap
  | _ => .list

def inBrackets (opening : Text) (parts : List Text) (closing : Text) : Text :=
  opening ++ Text.join ", ".text parts ++ closing

/-- A tuple of one item has a comma behind it. -/
def tupleText (parts : List Text) : Text :=
  match parts with
  | [part] => ['('] ++ part ++ ",)".text
  | _ => inBrackets ['('] parts [')']

mutual

/-- A value as messages show it: quoted text, brackets and braces, `None`, `True` and `False`. Inside of a
    value whose name is in `around`, that value is cut short. -/
def displayIn (around : List Nat) : Value → Except Numeral.Error Text
  | .null => .ok "None".text
  | .bool b => .ok (if b then "True" else "False").text
  | .int n => Numeral.write n
  | .float x => .ok x.toText
  | .str t => .ok (Text.quotedUnits t)
  | .bytes bs => .ok (Text.quotedBytes bs)
  | .date d => .ok d.display
  | .moment m => .ok m.display
  | .list items => do return inBrackets ['['] (← displayItems around items) [']']
  | .tuple items => do return tupleText (← displayItems around items)
  | .set [] => .ok "set()".text
  | .set items => do return inBrackets ['\x7b'] (← displayItems around items) ['\x7d']
  | .map entries => do return inBrackets ['\x7b'] (← displayEntries around entries) ['\x7d']
  | .orderedMap [] => .ok "ordereddict()".text
  | .orderedMap entries => do return inBrackets "ordereddict([".text (← displayPairs around entries) "])".text
  | .named name v => if around.contains name then .ok v.shape.ellipsis else displayIn (name :: around) v
  | .again _ shape => .ok shape.ellipsis

def displayItems (around : List Nat) : List Value → Except Numeral.Error (List Text)
  | [] => .ok []
  | v :: vs => do return (← displayIn around v) :: (← displayItems around vs)

def displayEntries (around : List Nat) : Entries → Except Numeral.Error (List Text)
  | [] => .ok []
  | (k, v) :: rest => do
    return ((← displayIn around k) ++ ": ".text ++ (← displayIn around v)) :: (← displayEntries around rest)

def displayPairs (around : List Nat) : Entries → Except Numeral.Error (List Text)
  | [] => .ok []
  | (k, v) :: rest => do
    return tupleText [← displayIn around k, ← displayIn around v] :: (← displayPairs around rest)

end

def display (v : Value) : Except Numeral.Error Text := displayIn [] v

/-- A value as plain text: text, dates and times stand for themselves, all else is shown as in messages. -/
def plainText : Value → Except Numeral.Error Text
  | .str t => .ok (Text.ofUnits t)
  | .date d => .ok d.toText
  | .moment m => .ok m.toText
  | v => v.display

/-! ### Looking inside -/

mutual

/-- Puts the value `whole` where its name stands. -/
def expand (name : Nat) (whole : Value) : Value → Value
  | .again other shape => if other = name then whole else .again other shape
  | .named other v => if other = name then .named other v else .named other (expand name whole v)
  | .list items => .list (expandItems name whole items)
  | .tuple items => .tuple (expandItems name whole items)
  | .set items => .set (expandItems name whole items)
  | .map entries => .map (expandEntries name whole entries)
  | .orderedMap entries => .orderedMap (expandEntries name whole entries)
  | .null => .null
  | .bool b => .bool b
  | .int n => .int n
  | .float x => .float x
  | .str t => .str t
  | .bytes bs => .bytes bs
  | .date d => .date d
  | .moment m => .moment m

def expandItems (name : Nat) (whole : Value) : List Value → List Value
  | [] => []
  | v :: vs => expand name whole v :: expandItems name whole vs

def expandEntries (name : Nat) (whole : Value) : Entries → Entries
  | [] => []
  | (k, v) :: rest => (expand name whole k, expand name whole v) :: expandEntries name whole rest

end

/-- The entries of a mapping of either kind. -/
def entries? : Value → Option Entries
  | .map entries => some entries
  | .orderedMap entries => some entries
  | .named name (.map entries) => some (expandEntries name (.named name (.map entries)) entries)
  | .named name (.orderedMap entries) => some (expandEntries name (.named name (.orderedMap entries)) entries)
  | _ => none

/-- The value under a text key. -/
def field? (key : Text) (entries : Entries) : Option Value :=
  entries.findSome? fun (k, v) => match k with
    | .str t => if t == Text.toUnits key then some v else none
    | _ => none

/-- Empty values: nothing, false, zero, and whatever has no parts. -/
def isEmpty : Value → Bool
  | .null => true
  | .bool b => !b
  | .int n => n == 0
  | .float x => x.isInt 0
  | .str t => t.isEmpty
  | .bytes bs => bs.isEmpty
  | .list items => items.isEmpty
  | .tuple items => items.isEmpty
  | .set items => items.isEmpty
  | .map entries => entries.isEmpty
  | .orderedMap entries => entries.isEmpty
  | .date _ => false
  | .moment _ => false
  | .named _ _ => false
  | .again _ _ => false

end Value
end Stylebook
