import Stylebook.Text.PrintableData
import Stylebook.Text.Surrogate
import Stylebook.Text.Word

/-! Text in quotes, as messages show it: single quotes unless only a single quote occurs inside, and an
    escape for every character that would not be seen. Bytes are shown the same way. -/

namespace Stylebook
namespace Text

/-- Whether quoted text shows `c` as itself. -/
def isVisible (c : Char) : Bool :=
  if c.toNat < 128 then 32 ≤ c.toNat && c.toNat < 127 else !inRanges hiddenRanges c

/-- The escape of a code point in two, four or eight hexadecimal digits. -/
def codeEscape (n : Nat) : Text :=
  if n < 0x100 then "\\x".text ++ hex 2 n
  else if n < 0x10000 then "\\u".text ++ hex 4 n
  else "\\U".text ++ hex 8 n

def quotedChar (quote c : Char) : Text :=
  if c == quote || c == '\\' then ['\\', c]
  else if c == '\n' then "\\n".text
  else if c == '\r' then "\\r".text
  else if c == '\t' then "\\t".text
  else if isVisible c then [c]
  else codeEscape c.toNat

/-- The quote to put around text: the double one only where it saves escapes. -/
def quoteFor (t : Text) : Char := if t.contains '\'' && !t.contains '"' then '"' else '\''

def quoted (t : Text) : Text := [quoteFor t] ++ t.flatMap (quotedChar (quoteFor t)) ++ [quoteFor t]

/-- Code units in quotes: a half of a surrogate pair is always escaped. -/
def quotedUnits (us : Units) : Text :=
  let quote := quoteFor (ofUnitsApart us)
  let shown (n : Nat) : Text := if isSurrogate n then codeEscape n else quotedChar quote (charOf n)
  [quote] ++ us.flatMap shown ++ [quote]

/-- Bytes in quotes: those of ASCII as characters, all others escaped. -/
def quotedBytes (bs : List UInt8) : Text :=
  let quote := quoteFor (bs.map fun b => charOf b.toNat)
  let shown (b : UInt8) : Text :=
    if b < 0x80 then quotedChar quote (charOf b.toNat) else codeEscape b.toNat
  ['b', quote] ++ bs.flatMap shown ++ [quote]

end Text
end Stylebook
