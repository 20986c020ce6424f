import Stylebook.Markup.Node

/-! Writing the tree of markup. Attributes stand in their order and every value in quotes; a void element
    without children has no closing tag. -/

namespace Stylebook
namespace Markup

/-- Text with the characters that mean something in markup written as references. -/
def escapeChar (c : Char) : Text :=
  if c = '&' then "&amp;".text
  else if c = '<' then "&lt;".text
  else if c = '>' then "&gt;".text
  else if c = '\u00a0' then "&nbsp;".text
  else [c]

def escape (t : Text) : Text := t.flatMap escapeChar

/-- The name of the encoding that declarations are written with. -/
def encodingName : Text := "utf-8".text

def startsCharset (t : Text) : Bool := (Text.after? "charset=".text t).isSome

/-- Puts the encoding in place of every declared one: behind each `charset=` that begins a line or follows
    a blank or a semicolon, up to the next semicolon. -/
def declareEncoding (skipping lineStart : Bool) : Text → Text
  | [] => []
  | c :: r =>
    if skipping && c != ';' then declareEncoding true false r
    else if lineStart && startsCharset (c :: r) then
      "charset=".text ++ encodingName ++ declareEncoding true false r
    else if (Text.isBlank c || c == ';') && startsCharset r then
      [c] ++ "charset=".text ++ encodingName ++ declareEncoding true false r
    else c :: declareEncoding false (c == '\n') r

/-- The text of a value as it is written. -/
def Value.written : Value → Text
  | .charset _ => encodingName
  | .contentType t => declareEncoding false true t
  | v => v.text

/-- A value in double quotes, or in single ones where only double quotes occur in it. -/
def writeValue (t : Text) : Text :=
  if t.contains '"' then
    if t.contains '\'' then ['"'] ++ Text.replaceChar '"' "&quot;".text t ++ ['"']
    else ['\''] ++ t ++ ['\'']
  else ['"'] ++ t ++ ['"']

def writeAttribute (a : Text × Value) : Text := [' '] ++ a.1 ++ ['='] ++ writeValue (escape a.2.written)

def writeOpening (e : Element) : Text := ['<'] ++ e.name ++ e.attributes.flatMap writeAttribute ++ ['>']

def writeClosing (e : Element) : Text := "</".text ++ e.name ++ ['>']

mutual

/-- A node; `raw` tells that it stands directly in an element whose text is written as it is. -/
def writeNode (raw : Bool) : Node → Text
  | .element e children =>
    if isVoid e.name && children.isEmpty then writeOpening e
    else writeOpening e ++ writeNodes (isRaw e.name) children ++ writeClosing e
  | .text t => if raw then t else escape t
  | .comment t => "<!--".text ++ t ++ "-->".text
  | .doctype t => "<!DOCTYPE ".text ++ t ++ ">\n".text
  | .cdata t => "<![CDATA[".text ++ t ++ "]]>".text
  | .markedSection t => "<?".text ++ t ++ "?>".text
  | .instruction t => "<?".text ++ t ++ ">".text

def writeNodes (raw : Bool) : List Node → Text
  | [] => []
  | n :: ns => writeNode raw n ++ writeNodes raw ns

end

/-- The markup of nodes. -/
def write (ns : List Node) : Text := writeNodes false ns

end Markup
end Stylebook
