import Stylebook.Data.Basic
import Stylebook.Number.Numeral
import Stylebook.Text.Surrogate

/-! Reading a JSON document into plain data. A reader takes a value off the front of the text and gives
    back what follows; a failure names its cause and the text from the faulty place on, from which the
    line and the column are found. Of entries with one key the last value counts, at the place of the
    first. The digits of an integer are limited in number, by default to those that other numerals may have. -/

namespace Stylebook
namespace Json

/-- What a document nests. -/
inductive Nest
  | object
  | array
  deriving DecidableEq, Repr

def Nest.message : Nest → Text
  | .object => "maximum recursion depth exceeded while decoding a JSON object from a unicode string".text
  | .array => "maximum recursion depth exceeded while decoding a JSON array from a unicode string".text

/-- How deep objects and arrays may stand in each other. -/
def maxDepth : Nat := 980

inductive Cause
  | byteOrderMark
  | value
  | propertyName
  | colon
  | comma
  | unterminated
  | control
  | badEscape
  | badCode
  | extra
  /-- An integer that cannot be read. -/
  | number (e : Numeral.Error)
  /-- An object or an array that stands too deep. -/
  | depth (nest : Nest)
  deriving DecidableEq, Repr

def Cause.message : Cause → Text
  | .byteOrderMark => "Unexpected UTF-8 BOM (decode using utf-8-sig)".text
  | .value => "Expecting value".text
  | .propertyName => "Expecting property name enclosed in double quotes".text
  | .colon => "Expecting ':' delimiter".text
  | .comma => "Expecting ',' delimiter".text
  | .unterminated => "Unterminated string starting at".text
  | .control => "Invalid control character at".text
  | .badEscape => "Invalid \\escape".text
  | .badCode => "Invalid \\uXXXX escape".text
  | .extra => "Extra data".text
  | .number e => e.message
  | .depth nest => nest.message

/-- A cause and the text that stands before the faulty place. -/
structure Error where
  cause : Cause
  before : Text
  deriving DecidableEq, Repr

/-- Where the text breaks off: lines and columns are counted from one and characters from zero. -/
def placeAfter (before : Text) : Text :=
  let line := before.count '\n' + 1
  let column := (before.reverse.takeWhile (· != '\n')).length + 1
  "line ".text ++ Text.decimal line ++ " column ".text ++ Text.decimal column ++ " (char ".text ++
    Text.decimal before.length ++ [')']

/-- The message says where the fault lies, unless it lies in a number or in the depth. -/
def Error.message (e : Error) : Text :=
  match e.cause with
  | .number fault => fault.message
  | .depth nest => nest.message
  | cause => cause.message ++ ": ".text ++ placeAfter e.before

/-- A cause and the text from the faulty place on. -/
abbrev Failure := Cause × Text

abbrev Step (α : Type) := Except Failure (α × Text)

/-! ### Leaves -/

def isSpace (c : Char) : Bool := c == ' ' || c == '\t' || c == '\n' || c == '\r'

def skipSpace (t : Text) : Text := t.dropWhile isSpace

/-- The number of four hexadecimal digits. -/
def hex4? (a b c d : Char) : Option Nat :=
  if [a, b, c, d].all Text.isHexDigit then some (Text.ofHex [a, b, c, d]) else none

def simpleEscape? : Char → Option Char
  | '"' => some '"'
  | '\\' => some '\\'
  | '/' => some '/'
  | 'b' => some '\x08'
  | 'f' => some '\x0c'
  | 'n' => some '\n'
  | 'r' => some '\r'
  | 't' => some '\t'
  | _ => none

/-- The characters after an opening quote up to the closing one, as code units: a code escape gives the
    unit it writes. `start` is the text from the opening quote on. A code escape has to have something
    behind it. -/
def units (start : Text) : Text → Step Units
  | [] => .error (.unterminated, start)
  | '"' :: r => .ok ([], r)
  | '\\' :: 'u' :: a :: b :: c :: d :: e :: r =>
    match hex4? a b c d with
    | none => .error (.badCode, 'u' :: a :: b :: c :: d :: e :: r)
    | some n => (units start (e :: r)).map fun (us, rest) => (n :: us, rest)
  | '\\' :: 'u' :: r => .error (.badCode, 'u' :: r)
  | '\\' :: e :: r =>
    match simpleEscape? e with
    | some c => (units start r).map fun (us, rest) => (c.toNat :: us, rest)
    | none => .error (.badEscape, '\\' :: e :: r)
  | '\\' :: [] => .error (.unterminated, start)
  | c :: r =>
    if c.toNat < 32 then .error (.control, c :: r)
    else (units start r).map fun (us, rest) => (c.toNat :: us, rest)

/-- The text after an opening quote up to the closing one. -/
def string (start t : Text) : Step Text :=
  (units start t).map fun (us, rest) => (Text.ofUnits us, rest)

/-- The digits at the front and what follows them. -/
def digits (t : Text) : Text × Text := (t.takeWhile Text.isDigit, t.dropWhile Text.isDigit)

/-- The whole part of a number: a zero stands alone. -/
def whole? : Text → Option (Text × Text)
  | '0' :: r => some (['0'], r)
  | c :: r => if Text.isDigit c then some (digits (c :: r)) else none
  | [] => none

/-- A point and at least one digit, or nothing. -/
def fraction (t : Text) : Text × Text :=
  match t with
  | '.' :: r =>
    match digits r with
    | ([], _) => ([], t)
    | (ds, rest) => (ds, rest)
  | _ => ([], t)

/-- An exponent with at least one digit, or nothing. -/
def exponent? (t : Text) : Option (Int × Text) :=
  match t with
  | c :: r =>
    if c == 'e' || c == 'E' then
      match digits (Numeral.sign r).2 with
      | ([], _) => none
      | (ds, rest) => some (Numeral.withSign (Numeral.sign r).1 (Text.ofDecimal ds), rest)
    else none
  | [] => none

/-- An integer of at most `limit` digits. -/
def integer (limit : Nat) (negative : Bool) (ds : Text) : Except Numeral.Error Data :=
  if limit < ds.length then .error (.tooLong ds.length)
  else .ok (.int (Numeral.withSign negative (Text.ofDecimal ds)))

/-- A number without its sign: an integer unless it has a fraction or an exponent. -/
def unsigned? (limit : Nat) (negative : Bool) (t : Text) : Option (Except Numeral.Error Data × Text) :=
  match whole? t with
  | none => none
  | some (ws, r) =>
    let (fs, r) := fraction r
    match exponent? r with
    | some (e, r) =>
      some (.ok (.float (Binary64.ofDecimal negative (Text.ofDecimal (ws ++ fs)) (e - fs.length))), r)
    | none =>
      if fs.isEmpty then some (integer limit negative ws, r)
      else some (.ok (.float (Binary64.ofDecimal negative (Text.ofDecimal (ws ++ fs)) (-Int.ofNat fs.length))), r)

/-- A number, which may be negative. -/
def number? (limit : Nat) (t : Text) : Option (Except Numeral.Error Data × Text) :=
  match t with
  | '-' :: r => unsigned? limit true r
  | _ => unsigned? limit false t

/-- The words that stand for a value. -/
def literals : List (Text × Data) :=
  [("null".text, .null), ("true".text, .bool true), ("false".text, .bool false),
    ("NaN".text, .float .nan), ("Infinity".text, .float (.infinite false)),
    ("-Infinity".text, .float (.infinite true))]

def literal? (t : Text) : Option (Data × Text) :=
  literals.findSome? fun (w, d) => (Text.after? w t).map fun rest => (d, rest)

/-! ### Values -/

mutual

/-- A value at the very front of the text; objects and arrays may stand `room` deep in it. Each call either
    ends or reads on from a later place or with less fuel, so that twice the length of the text is
    enough. -/
def value (limit : Nat) : Nat → Nat → Text → Step Data
  | 0, _, t => .error (.value, t)
  | fuel + 1, room, t =>
    match t with
    | '"' :: r => (string t r).map fun (s, rest) => (.str s, rest)
    | '\x7b' :: r =>
      match room with
      | 0 => .error (.depth .object, t)
      | room + 1 =>
        match skipSpace r with
        | '\x7d' :: rest => .ok (.map [], rest)
        | r => (members limit fuel room [] r).map fun (entries, rest) => (.map entries, rest)
    | '[' :: r =>
      match room with
      | 0 => .error (.depth .array, t)
      | room + 1 =>
        match skipSpace r with
        | ']' :: rest => .ok (.list [], rest)
        | r => (elements limit fuel room r).map fun (items, rest) => (.list items, rest)
    | _ =>
      match literal? t with
      | some answer => .ok answer
      | none =>
        match number? limit t with
        | some (.ok d, rest) => .ok (d, rest)
        | some (.error e, _) => .error (.number e, t)
        | none => .error (.value, t)

/-- The entries of an object from a property name on; `done` holds the entries read before. -/
def members (limit : Nat) : Nat → Nat → List (Text × Data) → Text → Step (List (Text × Data))
  | 0, _, _, t => .error (.value, t)
  | fuel + 1, room, done, t =>
    match t with
    | '"' :: r =>
      match string t r with
      | .error e => .error e
      | .ok (name, r) =>
        match skipSpace r with
        | ':' :: r =>
          match value limit fuel room (skipSpace r) with
          | .error e => .error e
          | .ok (v, r) =>
            let done := Data.put name v done
            match skipSpace r with
            | '\x7d' :: rest => .ok (done, rest)
            | ',' :: rest => members limit fuel room done (skipSpace rest)
            | rest => .error (.comma, rest)
        | r => .error (.colon, r)
    | _ => .error (.propertyName, t)

/-- The items of an array from a value on. -/
def elements (limit : Nat) : Nat → Nat → Text → Step (List Data)
  | 0, _, t => .error (.value, t)
  | fuel + 1, room, t =>
    match value limit fuel room t with
    | .error e => .error e
    | .ok (v, r) =>
      match skipSpace r with
      | ']' :: rest => .ok ([v], rest)
      | ',' :: rest =>
        (elements limit fuel room (skipSpace rest)).map fun (items, rest) => (v :: items, rest)
      | rest => .error (.comma, rest)

end

/-- A whole document: one value with nothing but space around it. -/
def document (limit : Nat) (t : Text) : Except Failure Data :=
  match t with
  | '\ufeff' :: _ => .error (.byteOrderMark, t)
  | _ =>
    match value limit (2 * t.length + 2) maxDepth (skipSpace t) with
    | .error e => .error e
    | .ok (d, r) =>
      match skipSpace r with
      | [] => .ok d
      | rest => .error (.extra, rest)

/-- Reads a document whose integers have at most `limit` digits. -/
def parseWithin (limit : Nat) (t : Text) : Except Error Data :=
  match document limit t with
  | .ok d => .ok d
  | .error (cause, rest) => .error ⟨cause, t.take (t.length - rest.length)⟩

def parse (t : Text) : Except Error Data := parseWithin Numeral.maxDigits t

end Json
end Stylebook
