import Stylebook.Text.Case

/-! Markup as a tree. An element has a name and attributes in the order of their first mention; the value
    of an attribute is one text or, for the attributes that hold several tokens, a list of them. -/

namespace Stylebook
namespace Markup

/-! ### Attribute values -/

/-- The last two kinds occur on elements that declare a character encoding; they are written with the
    encoding that is used for writing. -/
inductive Value
  | plain (t : Text)
  | tokens (ts : List Text)
  | charset (t : Text)
  | contentType (t : Text)
  deriving DecidableEq, Repr

namespace Value

/-- The value as one text. -/
def text : Value → Text
  | .plain t => t
  | .tokens ts => Text.join [' '] ts
  | .charset t => t
  | .contentType t => t

/-- The value as a list: a single text is one member, blanks and all. -/
def members : Value → List Text
  | .tokens ts => ts
  | v => [v.text]

end Value

/-! ### Attributes -/

abbrev Attributes := List (Text × Value)

namespace Attributes

def get? (attrs : Attributes) (name : Text) : Option Value := attrs.lookup name

/-- Sets an attribute: a present one keeps its place, a new one goes to the end. -/
def set (name : Text) (value : Value) : Attributes → Attributes
  | [] => [(name, value)]
  | (n, v) :: rest => if n = name then (n, value) :: rest else (n, v) :: set name value rest

end Attributes

/-! ### Elements -/

/-- What an element is apart from its place and its children. -/
structure Element where
  name : Text
  attributes : Attributes
  deriving DecidableEq, Repr

namespace Element

def get? (e : Element) (name : Text) : Option Value := Attributes.get? e.attributes name

/-- The text of an attribute. -/
def attributeText? (e : Element) (name : Text) : Option Text := (e.get? name).map Value.text

def has (e : Element) (name : Text) : Bool := (e.get? name).isSome

def set (e : Element) (name : Text) (value : Value) : Element :=
  { e with attributes := Attributes.set name value e.attributes }

/-- The class tokens: those of a list, or the words of a single text. -/
def classes (e : Element) : List Text :=
  match e.get? "class".text with
  | none => []
  | some (.tokens ts) => ts
  | some v => Text.words v.text

end Element

/-- Elements that have no content and no closing tag. -/
def voidNames : List Text :=
  ["area", "base", "br", "col", "embed", "hr", "img", "input", "keygen", "link", "menuitem", "meta", "param",
    "source", "track", "wbr", "basefont", "bgsound", "command", "frame", "image", "isindex", "nextid",
    "spacer"].map String.text

def isVoid (name : Text) : Bool := voidNames.contains name

/-- Elements whose content is text as it stands, without tags or references. -/
def isRaw (name : Text) : Bool := name == "script".text || name == "style".text

/-- Elements in which blank text stays as it is. -/
def keepsBlanks (name : Text) : Bool := name == "pre".text || name == "textarea".text

/-- The attributes that hold several tokens: the first three on any element, others on some. -/
def isTokenList (element name : Text) : Bool :=
  (["class", "accesskey", "dropzone"].map String.text).contains name ||
    ([("a", "rel"), ("a", "rev"), ("link", "rel"), ("link", "rev"), ("td", "headers"), ("th", "headers"),
      ("form", "accept-charset"), ("object", "archive"), ("area", "rel"), ("icon", "sizes"),
      ("iframe", "sandbox"), ("output", "for")].map fun (e, a) => (e.text, a.text)).contains
        (element, name)

/-! ### Nodes -/

/-- A doctype, a marked section or a processing instruction is kept by its text alone. -/
inductive Node
  | element (e : Element) (children : List Node)
  | text (t : Text)
  | comment (t : Text)
  | doctype (t : Text)
  | cdata (t : Text)
  | markedSection (t : Text)
  | instruction (t : Text)
  deriving Repr

/-- The element at the root of a node, if it is one. -/
def Node.element? : Node → Option Element
  | .element e _ => some e
  | _ => none

def Node.isElement (n : Node) : Bool := n.element?.isSome

end Markup
end Stylebook
