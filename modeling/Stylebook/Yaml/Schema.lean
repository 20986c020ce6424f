import Stylebook.Data.Value
import Stylebook.Text.Base64
import Stylebook.Text.Case
import Stylebook.Yaml.Scalar

/-! What the scalars of a YAML document mean. A plain scalar has the tag whose form it is written in; all
    other scalars are text, unless a tag says otherwise. How a tagged scalar is read is less strict than the
    form that gives the tag. The two versions differ in the words for truth values and in numbers: in the
    older one a zero in front makes an octal number, and colons part the digits of a number to the base of
    sixty. -/

namespace Stylebook
namespace Yaml

/-! ### Tags -/

/-- The tags that have a meaning. -/
inductive Tag
  | null
  | bool
  | int
  | float
  | binary
  | timestamp
  | str
  | seq
  | map
  | set
  | omap
  | pairs
  /-- That of a key whose value is merged into the mapping around it. -/
  | merge
  /-- That of a key whose value stands for the mapping. -/
  | value
  | other
  deriving DecidableEq, Repr

/-- What the names of the standard tags begin with. -/
def standardTag : Text := "tag:yaml.org,2002:".text

def Tag.ofName (name : Text) : Tag :=
  match Text.after? standardTag name with
  | none => .other
  | some kind =>
    ([("null", Tag.null), ("bool", .bool), ("int", .int), ("float", .float), ("binary", .binary),
      ("timestamp", .timestamp), ("str", .str), ("seq", .seq), ("map", .map), ("set", .set), ("omap", .omap),
      ("pairs", .pairs), ("merge", .merge), ("value", .value)].find? (·.1.text = kind)).elim .other (·.2)

/-! ### The forms of numbers -/

def isNumberDigit (radix : Nat) (c : Char) : Bool := c == '_' || (Numeral.digit? radix c).isSome

/-- Whether a text has characters, all of one kind. -/
def isRun (p : Char → Bool) (t : Text) : Bool := !t.isEmpty && t.all p

def withoutSign (t : Text) : Text := (Numeral.sign t).2

/-- Whether a text is made of parts behind colons, each a number below sixty. -/
def isSixties (parts : List Text) : Bool :=
  parts.all fun p => match p with
    | [a] => Text.isDigit a
    | [a, b] => '0' ≤ a && a ≤ '5' && Text.isDigit b
    | _ => false

/-- Decimal digits and underscores, the first a digit. -/
def isDecimal (t : Text) : Bool := (t.head?.map Text.isDigit).getD false && t.all (isNumberDigit 10)

def hasIntForm (version : Version) (t : Text) : Bool :=
  let r := withoutSign t
  let radix := match r with
    | '0' :: 'b' :: ds => isRun (isNumberDigit 2) ds
    | '0' :: 'x' :: ds => isRun (isNumberDigit 16) ds
    | '0' :: 'o' :: ds => version == .v12 && isRun (isNumberDigit 8) ds
    | _ => false
  let parts := Text.split (· == ':') r
  radix ||
    match version with
    | .v12 => isRun (isNumberDigit 10) r
    | .v11 =>
      isRun (isNumberDigit 8) r || (isDecimal r && r.head? != some '0') ||
        (1 < parts.length && isDecimal (parts.head?.getD []) && r.head? != some '0' && isSixties (parts.drop 1))

/-- Whether an exponent stands here and ends the text; some need a sign. -/
def isExponent (needsSign : Bool) (t : Text) : Bool :=
  match t with
  | [] => false
  | c :: r =>
    (c == 'e' || c == 'E') && isRun Text.isDigit (withoutSign r) && (!needsSign || withoutSign r != r)

def hasFloatForm (version : Version) (t : Text) : Bool :=
  let r := withoutSign t
  let whole := r.takeWhile (isNumberDigit 10)
  let behind := r.dropWhile (isNumberDigit 10)
  let parts := Text.split (· == ':') r
  let last := parts.getLast?.getD []
  [".inf", ".Inf", ".INF"].any (·.text = r) || [".nan", ".NaN", ".NAN"].any (·.text = t) ||
    match behind with
    | '.' :: f =>
      let exponent := f.dropWhile (isNumberDigit 10)
      if whole.isEmpty then
        (version == .v12 || r == t) && exponent.length < f.length && (exponent.isEmpty || isExponent true exponent)
      else isDecimal whole && (exponent.isEmpty || isExponent false exponent)
    | ':' :: _ =>
      version == .v11 && isDecimal whole &&
        isSixties ((parts.drop 1).dropLast ++ [last.takeWhile (· != '.')]) &&
        match last.dropWhile (· != '.') with
        | '.' :: f => f.all (isNumberDigit 10)
        | _ => false
    | _ => isDecimal whole && isExponent false behind

/-! ### The forms of dates and times -/

/-- A zone behind a time: its text, and the sign and the digits of its offset, if it has one. -/
structure ZoneText where
  text : Text
  offset : Option (Bool × Text × Text)
  deriving DecidableEq, Repr

/-- The digits of a time of day, and its zone. -/
structure TimeText where
  hour : Text
  minute : Text
  second : Text
  fraction : Text
  zone : Option ZoneText
  deriving DecidableEq, Repr

structure Timestamp where
  year : Text
  month : Text
  day : Text
  time : Option TimeText
  deriving DecidableEq, Repr

/-- Digits at the front, at least `least` and at most `most` of them, and what follows. -/
def someDigits? (least most : Nat) (t : Text) : Option (Text × Text) :=
  let digits := t.takeWhile Text.isDigit
  if least ≤ digits.length ∧ digits.length ≤ most then some (digits, t.dropWhile Text.isDigit) else none

/-- A zone that ends the text. -/
def zoneText? (t : Text) : Option ZoneText :=
  match t with
  | ['Z'] => some ⟨['Z'], none⟩
  | c :: r =>
    if c = '+' ∨ c = '-' then do
      let (hour, rest) ← someDigits? 1 2 r
      match rest with
      | [] => some ⟨t, some (c == '-', hour, [])⟩
      | ':' :: r =>
        match someDigits? 2 2 r with
        | some (minute, []) => some ⟨t, some (c == '-', hour, minute)⟩
        | _ => none
      | _ => none
    else none
  | [] => none

/-- A time of day that ends the text. -/
def timeText? (t : Text) : Option TimeText := do
  let (hour, t) ← someDigits? 1 2 t
  let (minute, t) ← someDigits? 2 2 (← Text.after? [':'] t)
  let (second, t) ← someDigits? 2 2 (← Text.after? [':'] t)
  let (fraction, t) := match t with
    | '.' :: r => (r.takeWhile Text.isDigit, r.dropWhile Text.isDigit)
    | _ => ([], t)
  if t.isEmpty then some ⟨hour, minute, second, fraction, none⟩
  else do
    let zone ← zoneText? (t.dropWhile isSpace)
    some ⟨hour, minute, second, fraction, some zone⟩

/-- A date, behind which a time can follow after a letter or some space. -/
def timestamp? (t : Text) : Option Timestamp := do
  let (year, t) ← someDigits? 4 4 t
  let (month, t) ← someDigits? 1 2 (← Text.after? ['-'] t)
  let (day, t) ← someDigits? 1 2 (← Text.after? ['-'] t)
  match t with
  | [] => some ⟨year, month, day, none⟩
  | c :: r =>
    let time := if c = 'T' ∨ c = 't' then some r else if isSpace c then some (r.dropWhile isSpace) else none
    some ⟨year, month, day, some (← timeText? (← time))⟩

/-- A date without a time has two digits for the month and for the day. -/
def hasTimestampForm (t : Text) : Bool :=
  match timestamp? t with
  | some s => s.time.isSome || (s.month.length == 2 && s.day.length == 2)
  | none => false

/-! ### Tags by form -/

def truthWords : Version → List String
  | .v12 => ["true", "True", "TRUE", "false", "False", "FALSE"]
  | .v11 => ["y", "Y", "yes", "Yes", "YES", "n", "N", "no", "No", "NO", "true", "True", "TRUE", "false", "False",
      "FALSE", "on", "On", "ON", "off", "Off", "OFF"]

/-- A form allows for a line feed at the end. -/
def withoutLineFeed (t : Text) : Text := Text.dropEnd ['\n'] t

/-- The tag of a scalar by its form. No number begins with an underscore. -/
def tagOf (version : Version) (us : Units) : Tag :=
  let t := withoutLineFeed (Text.ofUnitsApart us)
  let numeric := t.head? != some '_'
  if us.isEmpty then .null
  else if (truthWords version).any (·.text = t) then .bool
  else if numeric && hasFloatForm version t then .float
  else if numeric && hasIntForm version t then .int
  else if t = "<<".text then .merge
  else if ["~", "null", "Null", "NULL"].any (·.text = t) then .null
  else if hasTimestampForm t then .timestamp
  else if t = ['='] then .value
  else .str

/-! ### Values -/

/-- The truth value of a word in any case. -/
def truth (us : Units) : Except Error Bool :=
  let word := Text.lowerUnits us
  match [("yes", true), ("no", false), ("y", true), ("n", false), ("true", true), ("false", false), ("on", true),
      ("off", false)].find? fun (w, _) => Text.toUnits w.text = word with
  | some (_, b) => .ok b
  | none => .error (.truth word)

/-- Whether a number is negative, and the units behind its sign. -/
def signOf (us : Units) : Bool × Units :=
  match us with
  | c :: r => if c = '-'.toNat then (true, r) else if c = '+'.toNat then (false, r) else (false, us)
  | [] => (false, [])

def withoutUnderscores (us : Units) : Units := us.filter (· != '_'.toNat)

/-- The parts between colons. -/
def partsOf (us : Units) : List Units :=
  us.foldr (fun n acc => if n = ':'.toNat then [] :: acc
    else match acc with
      | part :: rest => (n :: part) :: rest
      | [] => [[n]]) [[]]

def integer (radix : Nat) (us : Units) : Except Error Int := (Numeral.integer radix us).mapError .number

/-- An integer without its sign, to the base that its front names. -/
def unsignedInteger (version : Version) (us : Units) : Except Error Int :=
  let after? (mark : String) : Option Units :=
    if us.take mark.text.length = Text.toUnits mark.text then some (us.drop mark.text.length) else none
  match after? "0b", after? "0x", after? "0o" with
  | some r, _, _ => integer 2 r
  | none, some r, _ => integer 16 r
  | none, none, some r => integer 8 r
  | none, none, none =>
    match version with
    | .v12 => integer 10 us
    | .v11 =>
      match us with
      | [] => .error .emptyNumber
      | c :: _ =>
        if us = ['0'.toNat] then .ok 0
        else if c = '0'.toNat then integer 8 us
        else do
          let parts ← (partsOf us).mapM (integer 10)
          return parts.foldl (fun n part => 60 * n + part) 0

def taggedInteger (version : Version) (us : Units) : Except Error Int := do
  let us := withoutUnderscores us
  if us.isEmpty then throw .emptyNumber
  let (negative, r) := signOf us
  let n ← unsignedInteger version r
  return if negative then -n else n

/-- Adds up the parts of a number to the base of sixty, the last first; `unit` is what the next part
    counts. -/
def addSixties (unit : Nat) (sum : Binary64) : List Binary64 → Except Error Binary64
  | [] => .ok sum
  | part :: rest =>
    match Binary64.ofInt? (Int.ofNat unit) with
    | some u => addSixties (60 * unit) (sum.add (part.mul u)) rest
    | none => .error (.number .tooLarge)

def float (us : Units) : Except Error Binary64 := (Numeral.float us).mapError .number

/-- A floating-point number in small letters without its sign. -/
def unsignedFloat (version : Version) (us : Units) : Except Error Binary64 :=
  match version with
  | .v12 => float us
  | .v11 =>
    if us.contains ':'.toNat then do
      let parts ← (partsOf us).mapM float
      addSixties 1 (.finite false 0 0) parts.reverse
    else if 1 < us.count 'e'.toNat then .error .exponents
    else float us

/-- A floating-point number; nothing is the answer for what is not a number, of which there is only one. -/
def taggedFloat (version : Version) (us : Units) : Except Error (Option Binary64) := do
  let us := Text.lowerUnits (withoutUnderscores us)
  if us.isEmpty then throw .emptyNumber
  let (negative, r) := signOf us
  if r = Text.toUnits ".nan".text then return none
  let x ← if r = Text.toUnits ".inf".text then pure (.infinite false) else unsignedFloat version r
  return some (if negative then x.negate else x)

/-- Bytes in Base64, which is written in ASCII. -/
def taggedBinary (us : Units) : Except Error Utf8.Bytes :=
  if us.any (128 ≤ ·) then .error .wrongKind
  else
    match Base64.decode (Text.ofUnitsApart us) with
    | some bs => .ok bs
    | none => .error .wrongKind

/-- The zone of a time. -/
def zoneOf (z : ZoneText) : Except Calendar.Error Calendar.Zone :=
  match z.offset with
  | none => Calendar.zone 0 z.text
  | some (negative, hour, minute) =>
    Calendar.zone (Numeral.withSign negative (Text.ofDecimal hour * 60 + Text.ofDecimal minute)) z.text

/-- Microseconds from the digits of a fraction, rounded by the seventh: a million of them is a second. -/
def microseconds (fraction : Text) : Nat :=
  let six := fraction.take 6
  let n := Text.ofDecimal (six ++ List.replicate (6 - six.length) '0')
  match fraction.drop 6 with
  | c :: _ => if 4 < Text.digitValue c then n + 1 else n
  | [] => n

/-- The date or the time that a timestamp writes. -/
def Timestamp.value (s : Timestamp) : Except Calendar.Error Value := do
  let year := Text.ofDecimal s.year
  let month := Text.ofDecimal s.month
  let day := Text.ofDecimal s.day
  match s.time with
  | none => return .date (← Calendar.date year month day)
  | some time =>
    let micro := microseconds time.fraction
    let zone ← time.zone.mapM zoneOf
    let m ← Calendar.moment year month day (Text.ofDecimal time.hour) (Text.ofDecimal time.minute)
      (Text.ofDecimal time.second) (micro % 1000000) zone
    if micro < 1000000 then return .moment m else return .moment (← m.nextSecond)

def taggedTimestamp (us : Units) : Except Error Value :=
  match timestamp? (withoutLineFeed (Text.ofUnitsApart us)) with
  | none => .error .wrongKind
  | some s => s.value.mapError .calendar

end Yaml
end Stylebook
