import Stylebook.Data.Basic

/-! Writing plain data as JSON text, compact or indented. -/

namespace Stylebook
namespace Json

/-- Only the quote, the backslash and the controls are escaped. -/
def escapeChar (c : Char) : Text :=
  if c == '"' then "\\\"".text
  else if c == '\\' then "\\\\".text
  else if c == '\x08' then "\\b".text
  else if c == '\x0c' then "\\f".text
  else if c == '\n' then "\\n".text
  else if c == '\r' then "\\r".text
  else if c == '\t' then "\\t".text
  else if c.toNat < 32 then "\\u".text ++ Text.hex 4 c.toNat
  else [c]

def writeString (t : Text) : Text := ['"'] ++ t.flatMap escapeChar ++ ['"']

/-- How the parts of a list or mapping are set apart: by nothing, or each on a line of its own that is
    indented by `width` spaces a level. -/
inductive Layout
  | compact
  | indented (width : Nat)
  deriving DecidableEq, Repr

/-- An indentation of zero or below asks for the compact layout. -/
def Layout.ofIndent (n : Int) : Layout := if n ≤ 0 then .compact else .indented n.toNat

/-- What stands before a part at depth `level`, and before the closing bracket of the level above. -/
def Layout.newline : Layout → Nat → Text
  | .compact, _ => []
  | .indented width, level => '\n' :: List.replicate (width * level) ' '

def Layout.colon : Layout → Text
  | .compact => [':']
  | .indented _ => [':', ' ']

/-- Brackets around parts; no parts at all leave nothing between the brackets. -/
def Layout.enclose (layout : Layout) (level : Nat) (opening closing : Char) (parts : List Text) : Text :=
  match parts with
  | [] => [opening, closing]
  | _ =>
    [opening] ++ layout.newline (level + 1) ++
      Text.join ([','] ++ layout.newline (level + 1)) parts ++ layout.newline level ++ [closing]

/-- A number text; the numbers that decimals cannot write keep their names. -/
def writeFloat : Binary64 → Text
  | .nan => "NaN".text
  | .infinite negative => (if negative then "-Infinity" else "Infinity").text
  | x => x.toText

mutual

def write (layout : Layout) (level : Nat) : Data → Text
  | .null => "null".text
  | .bool b => (if b then "true" else "false").text
  | .int n => (if n < 0 then ['-'] else []) ++ Text.decimal n.natAbs
  | .float x => writeFloat x
  | .str t => writeString t
  | .list items => layout.enclose level '[' ']' (writeItems layout (level + 1) items)
  | .map entries => layout.enclose level '\x7b' '\x7d' (writeEntries layout (level + 1) entries)

def writeItems (layout : Layout) (level : Nat) : List Data → List Text
  | [] => []
  | d :: ds => write layout level d :: writeItems layout level ds

def writeEntries (layout : Layout) (level : Nat) : List (Text × Data) → List Text
  | [] => []
  | (k, v) :: rest =>
    (writeString k ++ layout.colon ++ write layout level v) :: writeEntries layout level rest

end

/-- The JSON text of data. -/
def render (layout : Layout) (d : Data) : Text := write layout 0 d

end Json
end Stylebook
