import Stylebook.Calendar
import Stylebook.Number.Numeral

/-! What can be wrong with a YAML document: with its text, or with a value that it writes. -/

namespace Stylebook
namespace Yaml

inductive Error
  /-- A character that no document may hold, or that begins nothing. -/
  | character (c : Char)
  /-- A quote that is never closed. -/
  | unclosed
  /-- A document marker inside of a quoted scalar. -/
  | marker
  | escape
  | blockHeader
  | blockIndent
  | directive
  | anchorName
  | tag
  /-- A key that no value follows. -/
  | danglingKey
  /-- A sequence entry, a key or a value where none may begin. -/
  | misplaced
  /-- Content that does not fit where it stands. -/
  | unexpected
  | undefinedAlias (name : Text)
  | duplicateKey
  | unusableKey
  /-- A node that is not of the kind its tag asks for. -/
  | wrongKind
  /-- A version of the format that is not known. -/
  | version (major minor : Nat)
  /-- An escape that is beyond the last code point. -/
  | codePoint (n : Nat)
  /-- A word that is no truth value. -/
  | truth (word : Units)
  | emptyNumber
  /-- A floating-point number with more than one exponent. -/
  | exponents
  | number (e : Numeral.Error)
  | calendar (e : Calendar.Error)
  /-- A key that stands twice in an ordered mapping. -/
  | repeatedKey
  /-- A key that holds a value that can change, of the kind that a word names. -/
  | changeableKey (word : String)
  deriving DecidableEq, Repr

/-- Whether an escape has a number that is not even looked at. -/
def isHugeCode (n : Nat) : Bool := Nat.pow 2 31 ≤ n

def Error.message : Error → Text
  | .version major minor =>
    "version minor part can only be 2 or 1, got (".text ++ Text.decimal major ++ ", ".text ++ Text.decimal minor ++
      [')']
  | .codePoint n =>
    if isHugeCode n then "Python int too large to convert to C int".text
    else "chr() arg not in range(0x110000)".text
  | .truth word => Text.quotedUnits word
  | .emptyNumber => "string index out of range".text
  | .exponents => "too many values to unpack (expected 2)".text
  | .number e => e.message
  | .calendar e => e.message
  | .repeatedKey => []
  | .changeableKey word => "unhashable type: '".text ++ word.text ++ ['\'']
  | _ => "The document is not valid YAML.".text

end Yaml
end Stylebook
