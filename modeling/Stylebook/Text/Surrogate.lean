import Stylebook.Text.Basic

/-! Code points beyond four hexadecimal digits can be written as two code units, a high surrogate followed by
    a low one. Each of them carries ten bits. Text made by escapes may hold halves of such pairs. -/

namespace Stylebook

/-- Text as the numbers of its code points, among which halves of surrogate pairs may stand. -/
abbrev Units := List Nat

namespace Text

def isHighSurrogate (n : Nat) : Bool := 0xd800 ≤ n && n ≤ 0xdbff

def isLowSurrogate (n : Nat) : Bool := 0xdc00 ≤ n && n ≤ 0xdfff

def isSurrogate (n : Nat) : Bool := isHighSurrogate n || isLowSurrogate n

/-- The code point that a high and a low surrogate make. -/
def joinSurrogates (high low : Nat) : Nat := high % 0x400 * 0x400 + low % 0x400 + 0x10000

/-- The characters of code units: two surrogates in a row are one character. -/
def ofUnits : Units → Text
  | [] => []
  | [n] => [charOf n]
  | n :: m :: r =>
    if isHighSurrogate n && isLowSurrogate m then charOf (joinSurrogates n m) :: ofUnits r
    else charOf n :: ofUnits (m :: r)

def toUnits (t : Text) : Units := t.map Char.toNat

/-- The characters of code units, each by itself: a half of a pair becomes the replacement character. -/
def ofUnitsApart (us : Units) : Text := us.map charOf

end Text
end Stylebook
