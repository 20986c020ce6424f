import Stylebook.Text.Quoted

/-! Dates and times of day, with or without the offset of a time zone. The calendar has the years 1 to 9999. -/

namespace Stylebook
namespace Calendar

structure Date where
  year : Nat
  month : Nat
  day : Nat
  deriving DecidableEq, Repr

/-- A named distance from universal time, in minutes. -/
structure Zone where
  offset : Int
  name : Text
  deriving DecidableEq, Repr

/-- A date with a time of day, to the microsecond. -/
structure Moment where
  date : Date
  hour : Nat
  minute : Nat
  second : Nat
  micro : Nat
  zone : Option Zone
  deriving DecidableEq, Repr

inductive Error
  | year (n : Nat)
  | month
  | day
  | hour
  | minute
  | second
  /-- An offset of a day or more. -/
  | offset (minutes : Int)
  /-- A time behind the last one. -/
  | end_
  deriving DecidableEq, Repr

/-! ### Text -/

/-- A number with zeros in front up to `width` digits. -/
def padded (width n : Nat) : Text :=
  let digits := Text.decimal n
  List.replicate (width - digits.length) '0' ++ digits

/-- A span of minutes in whole days and the seconds that are left, as messages show it. -/
def displaySpan (minutes : Int) : Text :=
  let days := minutes.fdiv 1440
  let seconds := (minutes.fmod 1440).toNat * 60
  let dayText := "days=".text ++ (if days < 0 then ['-'] else []) ++ Text.decimal days.natAbs
  let secondText := "seconds=".text ++ Text.decimal seconds
  let parts := (if days = 0 then [] else [dayText]) ++ (if seconds = 0 then [] else [secondText])
  "datetime.timedelta(".text ++ (if parts.isEmpty then ['0'] else Text.join ", ".text parts) ++ [')']

def Error.message : Error → Text
  | .year n => "year ".text ++ Text.decimal n ++ " is out of range".text
  | .month => "month must be in 1..12".text
  | .day => "day is out of range for month".text
  | .hour => "hour must be in 0..23".text
  | .minute => "minute must be in 0..59".text
  | .second => "second must be in 0..59".text
  | .offset minutes =>
    "offset must be a timedelta strictly between -timedelta(hours=24) and timedelta(hours=24), not ".text ++
      displaySpan minutes ++ ['.']
  | .end_ => "date value out of range".text

/-- A date in digits. -/
def Date.toText (d : Date) : Text := padded 4 d.year ++ ['-'] ++ padded 2 d.month ++ ['-'] ++ padded 2 d.day

/-- An offset in hours and minutes. -/
def offsetText (minutes : Int) : Text :=
  (if minutes < 0 then ['-'] else ['+']) ++ padded 2 (minutes.natAbs / 60) ++ [':'] ++
    padded 2 (minutes.natAbs % 60)

/-- A moment in digits; microseconds are left out where there are none. -/
def Moment.toText (m : Moment) : Text :=
  m.date.toText ++ [' '] ++ padded 2 m.hour ++ [':'] ++ padded 2 m.minute ++ [':'] ++ padded 2 m.second ++
    (if m.micro = 0 then [] else '.' :: padded 6 m.micro) ++
    match m.zone with
    | some z => offsetText z.offset
    | none => []

def listed (ns : List Nat) : Text := Text.join ", ".text (ns.map Text.decimal)

/-- A date as messages show it. -/
def Date.display (d : Date) : Text := "datetime.date(".text ++ listed [d.year, d.month, d.day] ++ [')']

def Zone.display (z : Zone) : Text :=
  "datetime.timezone(".text ++ displaySpan z.offset ++ ", ".text ++ Text.quoted z.name ++ [')']

/-- A moment as messages show it; of seconds and microseconds the zeros at the end are left out. -/
def Moment.display (m : Moment) : Text :=
  let front := [m.date.year, m.date.month, m.date.day, m.hour, m.minute]
  let tail := if m.micro = 0 then if m.second = 0 then [] else [m.second] else [m.second, m.micro]
  let zone := match m.zone with
    | some z => ", tzinfo=".text ++ z.display
    | none => []
  "datetime.datetime(".text ++ listed (front ++ tail) ++ zone ++ [')']

/-! ### The calendar -/

def isLeap (year : Nat) : Bool := year % 4 == 0 && (year % 100 != 0 || year % 400 == 0)

def monthLength (year month : Nat) : Nat :=
  if month = 2 then if isLeap year then 29 else 28
  else if month = 4 ∨ month = 6 ∨ month = 9 ∨ month = 11 then 30
  else 31

/-- A date, if the calendar has it. -/
def date (year month day : Nat) : Except Error Date :=
  if year = 0 ∨ 9999 < year then .error (.year year)
  else if month = 0 ∨ 12 < month then .error .month
  else if day = 0 ∨ monthLength year month < day then .error .day
  else .ok ⟨year, month, day⟩

/-- A zone; its offset is less than a day either way. -/
def zone (offset : Int) (name : Text) : Except Error Zone :=
  if 1440 ≤ offset.natAbs then .error (.offset offset) else .ok ⟨offset, name⟩

/-- A moment; the date is looked at first. -/
def moment (year month day hour minute second micro : Nat) (zone : Option Zone) : Except Error Moment := do
  let d ← date year month day
  if 23 < hour then throw .hour
  if 59 < minute then throw .minute
  if 59 < second then throw .second
  return ⟨d, hour, minute, second, micro, zone⟩

/-- The day after a date, if the calendar has it. -/
def Date.next (d : Date) : Except Error Date :=
  if d.day < monthLength d.year d.month then .ok { d with day := d.day + 1 }
  else if d.month < 12 then .ok ⟨d.year, d.month + 1, 1⟩
  else if d.year < 9999 then .ok ⟨d.year + 1, 1, 1⟩
  else .error .end_

/-- The moment a second later. -/
def Moment.nextSecond (m : Moment) : Except Error Moment :=
  if m.second < 59 then .ok { m with second := m.second + 1 }
  else if m.minute < 59 then .ok { m with minute := m.minute + 1, second := 0 }
  else if m.hour < 23 then .ok { m with hour := m.hour + 1, minute := 0, second := 0 }
  else do
    let d ← m.date.next
    return { m with date := d, hour := 0, minute := 0, second := 0 }

/-- The number of days in front of a date. -/
def Date.dayNumber (d : Date) : Nat :=
  let before := d.year - 1
  before * 365 + before / 4 - before / 100 + before / 400 +
    ((List.range (d.month - 1)).map fun m => monthLength d.year (m + 1)).foldl (· + ·) 0 + (d.day - 1)

/-- Microseconds of universal time, for a moment with a zone. -/
def Moment.instant (m : Moment) : Int :=
  let minutes := Int.ofNat ((m.date.dayNumber * 24 + m.hour) * 60 + m.minute)
  let offset := match m.zone with
    | some z => z.offset
    | none => 0
  ((minutes - offset) * 60 + Int.ofNat m.second) * 1000000 + Int.ofNat m.micro

/-- Whether two moments are the same: both have a zone or none of them, and they lie at one instant. -/
def Moment.same (a b : Moment) : Bool := a.zone.isSome == b.zone.isSome && a.instant == b.instant

end Calendar
end Stylebook
