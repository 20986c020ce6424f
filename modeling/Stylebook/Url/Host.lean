import Stylebook.Text.Quoted

/-! Hosts in brackets: numeric addresses of the sixth version, or of one to come. -/

namespace Stylebook
namespace Url

/-- Why a text is no address. -/
inductive Error
  /-- Brackets that do not belong together in the host, or that do not hold all of its name. -/
  | brackets
  /-- A character of the host stands for one of the signs that divide an address. -/
  | host (host : Text)
  /-- An address of a version to come that is not written like one. -/
  | future
  /-- An address of the fourth version in brackets. -/
  | fourth
  | notNumeric (host : Text)
  deriving DecidableEq, Repr

def Error.message : Error → Text
  | .brackets => "Invalid IPv6 URL".text
  | .host h =>
    "netloc '".text ++ h ++ "' contains invalid characters under NFKC normalization".text
  | .future => "IPvFuture address is invalid".text
  | .fourth => "An IPv4 address cannot be in brackets".text
  | .notNumeric h => Text.quoted h ++ " does not appear to be an IPv4 or IPv6 address".text

/-! ### Numeric addresses -/

/-- A decimal number up to 255 without zeros in front. -/
def isOctet (t : Text) : Bool :=
  !t.isEmpty && t.length ≤ 3 && t.all Text.isDigit && (t.head? != some '0' || t.length == 1) &&
    Text.ofDecimal t ≤ 255

/-- Four octets with points between them. -/
def isFourth (t : Text) : Bool :=
  let octets := Text.split (· == '.') t
  octets.length == 4 && octets.all isOctet

/-- One to four hexadecimal digits. -/
def isHextet (t : Text) : Bool := !t.isEmpty && t.length ≤ 4 && t.all Text.isHexDigit

/-- The hextets of an address between its colons; an address of the fourth version at the end stands for
    two. -/
def hextets? (t : Text) : Option (List Text) :=
  let parts := Text.split (· == ':') t
  let last := parts.getLast?.getD []
  if last.contains '.' then
    if 3 ≤ parts.length && isFourth last then some (parts.dropLast ++ [['0'], ['0']]) else none
  else some parts

/-- Eight hextets, of which one run may be left out between two colons. -/
def isSixth (t : Text) : Bool :=
  match hextets? t with
  | none => false
  | some parts =>
    let inner := (parts.drop 1).dropLast
    let outer (ts : List Text) : List Text := if ts == [[]] then [] else ts
    match (inner.filter List.isEmpty).length with
    | 0 => parts.length == 8 && parts.all isHextet
    | 1 =>
      let front := outer (parts.take 1 ++ inner.takeWhile (!·.isEmpty))
      let back := outer ((inner.dropWhile (!·.isEmpty)).drop 1 ++ parts.getLast?.toList)
      front.length + back.length ≤ 7 && (front ++ back).all isHextet
    | _ => false

/-- An address of the sixth version, behind which a percent sign can name its scope. -/
def isScopedSixth (t : Text) : Bool :=
  match Text.cut? ['%'] t with
  | none => isSixth t
  | some (t, scope) => !scope.isEmpty && !scope.contains '%' && isSixth t

/-- The letter `v`, hexadecimal digits, a point and something behind it. -/
def isFuture (t : Text) : Bool :=
  match t with
  | 'v' :: r =>
    !(r.takeWhile Text.isHexDigit).isEmpty &&
      match r.dropWhile Text.isHexDigit with
      | '.' :: _ :: _ => true
      | _ => false
  | _ => false

/-! ### Brackets -/

def checkNumeric (h : Text) : Except Error Unit :=
  if h.head? = some 'v' then if isFuture h then .ok () else .error .future
  else if isFourth h then .error .fourth
  else if isScopedSixth h then .ok ()
  else .error (.notNumeric h)

/-- Checks a host that has brackets. Its name stands behind the last at sign: inside of the brackets, with
    nothing before them and at most a colon and its number behind, or without brackets up to a colon. -/
def checkBrackets (h : Text) : Except Error Unit :=
  let named := (Text.cutAfterLast '@' h).2
  match Text.cut? ['['] named with
  | none => checkNumeric (named.takeWhile (· != ':'))
  | some (before, inside) =>
    let behind := (inside.dropWhile (· != ']')).drop 1
    if !before.isEmpty || (!behind.isEmpty && behind.head? != some ':') then .error .brackets
    else checkNumeric (inside.takeWhile (· != ']'))

end Url
end Stylebook
