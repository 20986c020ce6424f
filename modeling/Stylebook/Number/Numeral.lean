import Stylebook.Number.Binary64
import Stylebook.Number.DigitData
import Stylebook.Text.Quoted

/-! Numbers in text: integers in a radix, floating-point numbers, and sums of a real and an imaginary part.
    Blanks around a number do not count, the digits of all scripts do, and a single underscore may stand
    between two digits. Integers are read and written up to a limit of decimal digits only. -/

namespace Stylebook
namespace Numeral

/-- How many decimal digits an integer may have. -/
def maxDigits : Nat := 4300

/-- Why a text is no number, or a number cannot be used. -/
inductive Error
  | integer (radix : Nat) (t : Units)
  | float (t : Units)
  /-- The text of an integer has too many digits. -/
  | tooLong (digits : Nat)
  /-- An integer has too many digits to be written. -/
  | unwritable
  /-- An integer lies beyond the largest floating-point number. -/
  | tooLarge
  deriving DecidableEq, Repr

def Error.message : Error → Text
  | .integer radix t =>
    "invalid literal for int() with base ".text ++ Text.decimal radix ++ ": ".text ++ (Text.quotedUnits t).take 200
  | .float t => "could not convert string to float: ".text ++ Text.quotedUnits t
  | .tooLong digits =>
    "Exceeds the limit (4300 digits) for integer string conversion: value has ".text ++ Text.decimal digits ++
      " digits; use sys.set_int_max_str_digits() to increase the limit".text
  | .unwritable =>
    "Exceeds the limit (4300 digits) for integer string conversion; ".text ++
      "use sys.set_int_max_str_digits() to increase the limit".text
  | .tooLarge => "int too large to convert to float".text

/-! ### Digits -/

/-- The information separators are not blank to a number. -/
def isBlank (c : Char) : Bool := Text.isBlank c && !(28 ≤ c.toNat && c.toNat ≤ 31)

/-- The plain digit that a digit of any script means; all else stays. -/
def plainChar (c : Char) : Char :=
  match zeros.find? fun first => first ≤ c.toNat && c.toNat < first + 10 with
  | some first => Text.charOf ('0'.toNat + (c.toNat - first))
  | none => c

/-- A text as numbers are read from it. -/
def plain (t : Text) : Text := (Text.trimBy isBlank t).map plainChar

/-- The value of a digit, with letters from ten on. -/
def digit? (radix : Nat) (c : Char) : Option Nat :=
  match Text.hexValue? c with
  | some n => if n < radix then some n else none
  | none => none

/-- The digits in front and what follows them. There has to be one at least, and an underscore has to stand
    between two of them; `open_` tells whether a digit stands right before. -/
def digits? (radix : Nat) (open_ : Bool) : Text → Option (List Nat × Text)
  | [] => if open_ then some ([], []) else none
  | c :: r =>
    if c = '_' then if open_ then digits? radix false r else none
    else
      match digit? radix c with
      | some d => (digits? radix true r).map fun (ds, rest) => (d :: ds, rest)
      | none => if open_ then some ([], c :: r) else none

def ofDigits (radix : Nat) (ds : List Nat) : Nat := ds.foldl (fun n d => radix * n + d) 0

/-- Whether a sign is negative, and what stands behind it. -/
def sign : Text → Bool × Text
  | '-' :: r => (true, r)
  | '+' :: r => (false, r)
  | t => (false, t)

def withSign (negative : Bool) (n : Nat) : Int := if negative then -Int.ofNat n else Int.ofNat n

/-! ### Integers -/

/-- The letters that name a radix behind a zero. -/
def radixLetters : List (Char × Nat) := [('x', 16), ('o', 8), ('b', 2)]

/-- The radix that the front of a text names, and what stands behind it; an underscore may follow. -/
def namedRadix? (t : Text) : Option (Nat × Text) :=
  match t with
  | '0' :: c :: r => (radixLetters.lookup c.toLower).map fun radix => (radix, Text.dropStart ['_'] r)
  | _ => none

/-- The digits of an integer in a radix, which the text may name itself. -/
def unsigned? (radix : Nat) (t : Text) : Option (List Nat × Text) :=
  match namedRadix? t with
  | some (named, r) => if named = radix then digits? radix false r else digits? radix false t
  | none => digits? radix false t

/-- Reads an integer. Only decimal digits are limited in number, whatever stands behind them. -/
def integer (radix : Nat) (t : Units) : Except Error Int :=
  let (negative, r) := sign (plain (Text.ofUnitsApart t))
  match unsigned? radix r with
  | none => .error (.integer radix t)
  | some (ds, rest) =>
    if radix = 10 ∧ maxDigits < ds.length then .error (.tooLong ds.length)
    else if rest.isEmpty then .ok (withSign negative (ofDigits radix ds))
    else .error (.integer radix t)

/-- Whether a text is an integer that names its radix. -/
def isNamedInteger (t : Text) : Bool :=
  match namedRadix? (sign (plain t)).2 with
  | none => false
  | some (radix, r) =>
    match digits? radix false r with
    | some (_, rest) => rest.isEmpty
    | none => false

/-- The decimal text of an integer. -/
def write (n : Int) : Except Error Text :=
  let digits := Text.decimal n.natAbs
  if maxDigits < digits.length then .error .unwritable else .ok ((if n < 0 then ['-'] else []) ++ digits)

/-! ### Floating-point numbers -/

/-- Takes the underscores between digits out; any other one is a fault. -/
def joinDigits? (t : Text) : Option Text :=
  let pairs := t.zip (t.drop 1)
  let stands (c d : Char) : Bool := if c = '_' then Text.isDigit d else d != '_' || Text.isDigit c
  if t.head? ≠ some '_' ∧ t.getLast? ≠ some '_' ∧ pairs.all fun (c, d) => stands c d then
    some (t.filter (· != '_'))
  else none

/-- The exponent in front, if there is one, and what follows. -/
def exponent (t : Text) : Int × Text :=
  match t with
  | c :: r =>
    if c = 'e' ∨ c = 'E' then
      let (negative, ds) := sign r
      match ds.takeWhile Text.isDigit with
      | [] => (0, t)
      | digits => (withSign negative (Text.ofDecimal digits), ds.dropWhile Text.isDigit)
    else (0, t)
  | [] => (0, [])

/-- The words for what is no finite number; the longer word comes first. -/
def words : List (Text × (Bool → Binary64)) :=
  [("infinity".text, .infinite), ("inf".text, .infinite), ("nan".text, fun _ => .nan)]

/-- The number at the front of a text, and what follows it. -/
def leading? (t : Text) : Option (Binary64 × Text) :=
  let (negative, r) := sign t
  let lower := r.map Char.toLower
  match words.findSome? fun (w, x) => (Text.after? w lower).map fun _ => (x negative, r.drop w.length) with
  | some answer => some answer
  | none =>
    let whole := r.takeWhile Text.isDigit
    let r := r.dropWhile Text.isDigit
    let (fraction, r) :=
      match r with
      | '.' :: f => if whole.isEmpty && (f.takeWhile Text.isDigit).isEmpty then ([], r)
        else (f.takeWhile Text.isDigit, f.dropWhile Text.isDigit)
      | _ => ([], r)
    if whole.isEmpty && fraction.isEmpty then none
    else
      let (e, rest) := exponent r
      some (.ofDecimal negative (Text.ofDecimal (whole ++ fraction)) (e - Int.ofNat fraction.length), rest)

def float? (t : Text) : Option Binary64 :=
  match (joinDigits? (plain t)).bind leading? with
  | some (x, []) => some x
  | _ => none

/-- Reads a floating-point number. -/
def float (t : Units) : Except Error Binary64 :=
  match float? (Text.ofUnitsApart t) with
  | some x => .ok x
  | none => .error (.float t)

/-! ### Sums of a real and an imaginary part -/

def isImaginaryUnit (t : Text) : Bool := t == ['j'] || t == ['J']

/-- What may follow a real part: an imaginary one behind a sign. -/
def isImaginary (t : Text) : Bool :=
  match t with
  | c :: r =>
    (c == '+' || c == '-') &&
      match leading? t with
      | some (_, rest) => isImaginaryUnit rest
      | none => isImaginaryUnit r
  | [] => false

/-- Whether a text is a number with or without an imaginary part, the latter with or without a factor. -/
def isSum (t : Text) : Bool :=
  match joinDigits? (plain t) with
  | none => false
  | some t =>
    match leading? t with
    | some (_, rest) => rest.isEmpty || isImaginaryUnit rest || isImaginary rest
    | none => isImaginaryUnit (sign t).2

end Numeral
end Stylebook
