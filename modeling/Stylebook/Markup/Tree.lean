import Stylebook.Markup.Node
import Stylebook.Markup.Token

/-! Building the tree of markup from its tokens. An opening tag opens an element; a closing tag closes the
    innermost open element of its name with all that is open inside it, and does nothing where there is
    none. A void element is closed at once, and one later closing tag of its name is then passed over. -/

namespace Stylebook
namespace Markup

/-! ### Elements from tags -/

/-- An attribute value in the form its attribute asks for. -/
def Value.ofText (element name value : Text) : Value :=
  if isTokenList element name then .tokens (Text.words value) else .plain value

/-- Marks the attribute by which a `meta` element declares the character encoding. -/
def Element.markEncoding (e : Element) : Element :=
  if e.name = "meta".text then
    match e.attributeText? "charset".text with
    | some t => e.set "charset".text (.charset t)
    | none =>
      match e.attributeText? "content".text, e.attributeText? "http-equiv".text with
      | some t, some kind =>
        if Text.lower kind = "content-type".text then e.set "content".text (.contentType t) else e
      | _, _ => e
  else e

/-- The element of an opening tag. Of attributes with one name the last value counts, at the place of the
    first. -/
def Element.ofTag (name : Text) (attributes : List (Text × Text)) : Element :=
  let set (attrs : Attributes) (a : Text × Text) : Attributes := Attributes.set a.1 (Value.ofText name a.1 a.2) attrs
  Element.markEncoding ⟨name, attributes.foldl set []⟩

/-! ### Building -/

/-- An open element with its children so far, the latest first. -/
structure Frame where
  element : Element
  children : List Node
  deriving Repr

def Frame.node (f : Frame) : Node := .element f.element f.children.reverse

/-- The open elements, innermost first; the finished nodes outside of them, the latest first; the text read
    since the last tag; and the void elements whose closing tag is still to be passed over. -/
structure Builder where
  opened : List Frame := []
  roots : List Node := []
  pending : Text := []
  settled : List Text := []
  deriving Repr

namespace Builder

def isAsciiBlank (c : Char) : Bool := c == ' ' || c == '\n' || c == '\t' || c == '\x0c' || c == '\r'

/-- Whether blanks stay as they are at this place. -/
def keeps (b : Builder) : Bool := b.opened.any fun f => keepsBlanks f.element.name

/-- A text of blanks only becomes a line feed, if it has one, or else a space. -/
def settle (b : Builder) (t : Text) : Text :=
  if !b.keeps && t.all isAsciiBlank then (if t.contains '\n' then ['\n'] else [' ']) else t

/-- Adds a finished node at the current place. -/
def add (b : Builder) (n : Node) : Builder :=
  match b.opened with
  | [] => { b with roots := n :: b.roots }
  | f :: rest => { b with opened := { f with children := n :: f.children } :: rest }

/-- Adds the text read so far. -/
def flush (b : Builder) : Builder :=
  if b.pending.isEmpty then b else { b.add (.text (b.settle b.pending)) with pending := [] }

/-- Closes the innermost element. -/
def pop (b : Builder) : Builder :=
  match b.opened with
  | [] => b
  | f :: rest => { b with opened := rest }.add f.node

/-- Closes as many elements as the frames given. -/
def popAll : List Frame → Builder → Builder
  | [], b => b
  | _ :: rest, b => popAll rest b.pop

/-- The frames from the innermost one down to the nearest of the given name, if there is one. -/
def framesTo? (name : Text) : List Frame → Option (List Frame)
  | [] => none
  | f :: rest => if f.element.name = name then some [f] else (framesTo? name rest).map (f :: ·)

def popTo (b : Builder) (name : Text) : Builder :=
  match framesTo? name b.opened with
  | some frames => popAll frames b
  | none => b

def push (b : Builder) (e : Element) : Builder := { b with opened := ⟨e, []⟩ :: b.opened }

/-- A closing tag. -/
def close (b : Builder) (name : Text) : Builder :=
  if b.settled.contains name then { b with settled := b.settled.erase name } else b.flush.popTo name

/-- An opening tag. An element with a self-closing tag is closed at once. -/
def enter (b : Builder) (name : Text) (attributes : List (Text × Text)) (selfClosing : Bool) : Builder :=
  let b := b.flush.push (Element.ofTag name attributes)
  if selfClosing then b.pop
  else if isVoid name then { b.pop with settled := name :: b.settled }
  else b

/-- A comment or another construct that stands beside the text. -/
def aside (b : Builder) (node : Text → Node) (t : Text) : Builder :=
  let b := b.flush
  b.add (node (b.settle t))

def step (b : Builder) : Token → Builder
  | .text t => { b with pending := b.pending ++ t }
  | .opening name attributes selfClosing => b.enter name attributes selfClosing
  | .closing name => b.close name
  | .comment t => b.aside .comment t
  | .doctype t => b.aside .doctype t
  | .cdata t => b.aside .cdata t
  | .markedSection t => b.aside .markedSection t
  | .instruction t => b.aside .instruction t

/-- The nodes when everything still open has been closed. -/
def finish (b : Builder) : List Node :=
  let b := b.flush
  (popAll b.opened b).roots.reverse

end Builder

/-- The nodes of markup. -/
def parse (t : Text) : Except Rejected (List Node) :=
  (tokens t).map fun ts => (ts.foldl Builder.step {}).finish

end Markup
end Stylebook
