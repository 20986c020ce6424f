import Stylebook.Text.Utf8

/-! Bytes written in Base64: four characters for three bytes. Characters outside of the alphabet are passed
    over. -/

namespace Stylebook
namespace Base64

/-- The six bits that a character stands for. -/
def sextet? (c : Char) : Option Nat :=
  if 'A' ≤ c && c ≤ 'Z' then some (c.toNat - 'A'.toNat)
  else if 'a' ≤ c && c ≤ 'z' then some (c.toNat - 'a'.toNat + 26)
  else if Text.isDigit c then some (Text.digitValue c + 52)
  else if c = '+' then some 62
  else if c = '/' then some 63
  else none

/-- How far a group of four has been read: the characters of it, the bits that are left of them, and the
    padding behind them. -/
structure Group where
  count : Nat := 0
  bits : Nat := 0
  padding : Nat := 0
  deriving DecidableEq, Repr

/-- The group after one more character, and the byte that has become complete. -/
def Group.push (g : Group) (n : Nat) : Group × Option UInt8 :=
  let bits := g.bits * 64 + n
  match g.count with
  | 0 => ({ count := 1, bits := bits }, none)
  | 1 => ({ count := 2, bits := bits % 16 }, some (UInt8.ofNat (bits / 16)))
  | 2 => ({ count := 3, bits := bits % 4 }, some (UInt8.ofNat (bits / 4)))
  | _ => ({}, some (UInt8.ofNat bits))

/-- The bytes of a text. Padding that completes a group ends it; without that the last group has to be
    whole. -/
def decodeFrom (g : Group) : Text → Option Utf8.Bytes
  | [] => if g.count = 0 then some [] else none
  | c :: r =>
    if c = '=' then
      let g' := { g with padding := g.padding + 1 }
      if 2 ≤ g.count then if 4 ≤ g.count + g'.padding then some [] else decodeFrom g' r
      else decodeFrom g r
    else
      match sextet? c with
      | none => decodeFrom g r
      | some n =>
        let (g, byte) := g.push n
        (decodeFrom g r).map (byte.toList ++ ·)

def decode (t : Text) : Option Utf8.Bytes := decodeFrom {} t

end Base64
end Stylebook
