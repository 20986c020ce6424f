import Stylebook.Data.Value
import Stylebook.Doc.Tag

/-! The configuration of a run, and reading it from the entries of a mapping. The sections are looked at
    first, then the tags, then the options one after the other; the first fault found is the answer. -/

namespace Stylebook

structure Config where
  /-- The recognized comment tags. -/
  tags : Doc.TagTable := Doc.TagTable.default
  /-- Variants are named by their selectors; else by numbers. -/
  selectorIds : Bool := true
  /-- Runs of underscores in identifiers become one, and none stand at the ends. -/
  collapseIds : Bool := false
  /-- A modifier is appended to all `id` and `for` values. -/
  modifyUnique : Bool := false
  /-- A state is appended to all `id` and `for` values of its block. -/
  statesModifyUnique : Bool := true
  /-- What stands between a variant and each of its state blocks. -/
  statesGlue : Text := ['\n']
  /-- How many loads may run at a time. -/
  maxLoads : Int := 8
  /-- Seconds until a request is given up. -/
  httpTimeout : Binary64 := .finite false (15 * Nat.pow 2 49) (-48)
  deriving Repr

namespace Config

/-! ### Faults -/

/-- Options are named by their section and their key, and values are given as messages show them. -/
inductive Error
  | section_ (name : Text)
  | tag (name : Text)
  | notBoolean (option value : Text)
  | notNumber (option value : Text)
  | notPositive (option value : Text)
  | infiniteCount
  | undefinedCount
  /-- A number that cannot be shown, or that is too large. -/
  | number (e : Numeral.Error)
  deriving DecidableEq, Repr

def Error.message : Error → Text
  | .section_ name => "Configuration section '".text ++ name ++ "' must be a mapping.".text
  | .tag name => "Tag '".text ++ name ++ "' must map to true (multi-line) or false.".text
  | .notBoolean option value =>
    "Option '".text ++ option ++ "' must be a boolean, got ".text ++ value ++ ['.']
  | .notNumber option value =>
    "Option '".text ++ option ++ "' must be a number, got ".text ++ value ++ ['.']
  | .notPositive option value =>
    "Option '".text ++ option ++ "' must be positive, got ".text ++ value ++ ['.']
  | .infiniteCount => "cannot convert float infinity to integer".text
  | .undefinedCount => "cannot convert float NaN to integer".text
  | .number e => e.message

/-- The fault of a value, unless the value cannot be shown. -/
def faultOf (fault : Text → Error) (v : Value) : Error :=
  match v.display with
  | .ok shown => fault shown
  | .error e => .number e

/-! ### Reading -/

abbrev Entries := Value.Entries

/-- The entries of a section; an absent or empty one has none. -/
def sectionOf (raw : Entries) (name : String) : Except Error Entries :=
  match Value.field? name.text raw with
  | none => .ok []
  | some .null => .ok []
  | some v =>
    match v.entries? with
    | some entries => .ok entries
    | none => .error (.section_ name.text)

def optionName (place key : String) : Text := place.text ++ ['.'] ++ key.text

def boolean (entries : Entries) (place key : String) (default : Bool) : Except Error Bool :=
  match Value.field? key.text entries with
  | none => .ok default
  | some (.bool b) => .ok b
  | some v => .error (faultOf (.notBoolean (optionName place key)) v)

/-- A number that an option can have. -/
inductive Amount
  | whole (n : Int)
  | float (x : Binary64)
  deriving DecidableEq, Repr

/-- A number above zero. What is not a number passes this test. -/
def positive (entries : Entries) (place key : String) (default : Amount) : Except Error Amount :=
  let notPositive := faultOf (.notPositive (optionName place key))
  match Value.field? key.text entries with
  | none => .ok default
  | some (.int n) => if n ≤ 0 then .error (notPositive (.int n)) else .ok (.whole n)
  | some (.float x) => if x.isNotPositive then .error (notPositive (.float x)) else .ok (.float x)
  | some v => .error (faultOf (.notNumber (optionName place key)) v)

/-- The whole part of a number. -/
def Amount.toInt : Amount → Except Error Int
  | .whole n => .ok n
  | .float x =>
    match x.truncate? with
    | some n => .ok n
    | none => .error (if x = .nan then .undefinedCount else .infiniteCount)

/-- The floating-point number nearest to a number. -/
def Amount.toFloat : Amount → Except Error Binary64
  | .float x => .ok x
  | .whole n =>
    match Binary64.ofInt? n with
    | some x => .ok x
    | none => .error (.number .tooLarge)

/-- The changes to the tag table: names without the blanks around them, each with a truth value. -/
def tagChanges : Entries → Except Error (List (Text × Bool))
  | [] => .ok []
  | (k, v) :: rest => do
    let name := Text.trim (← k.plainText.mapError .number)
    if name.isEmpty then tagChanges rest
    else match v with
      | .bool b => return (name, b) :: (← tagChanges rest)
      | _ => throw (.tag name)

/-- Reads a configuration. What is absent keeps its default. -/
def ofEntries (raw : Entries) : Except Error Config := do
  let default : Config := {}
  let ids ← sectionOf raw "ids"
  let states ← sectionOf raw "states"
  let loading ← sectionOf raw "loading"
  let tags ← tagChanges (← sectionOf raw "tags")
  let selectorIds ← boolean ids "ids" "selector_based" default.selectorIds
  let collapseIds ← boolean ids "ids" "collapse_underscores" default.collapseIds
  let modifyUnique ← boolean raw "root" "modify_unique_attrs" default.modifyUnique
  let statesModifyUnique ← boolean states "states" "modify_unique_attrs" default.statesModifyUnique
  let glue ← match Value.field? "html_glue".text states with
    | some v => v.plainText.mapError .number
    | none => pure default.statesGlue
  let maxLoads ← (← positive loading "loading" "max_concurrent" (.whole default.maxLoads)).toInt
  let httpTimeout ← (← positive loading "loading" "http_timeout" (.float default.httpTimeout)).toFloat
  return {
    tags := default.tags.override tags
    selectorIds := selectorIds
    collapseIds := collapseIds
    modifyUnique := modifyUnique
    statesModifyUnique := statesModifyUnique
    statesGlue := glue
    maxLoads := maxLoads
    httpTimeout := httpTimeout }

end Config
end Stylebook
