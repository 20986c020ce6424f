import Stylebook.Doc.Tag
import Stylebook.Text.Case

/-! Reading documentation comments. `normalize` unifies the line ends and the margins of a comment, and
    `parse` splits it into tags: the first line with content is the title, the lines behind it are the
    description, and a line that starts with `@name` begins a tag. A tag that may go on over several lines
    takes the lines behind it, without the margin of the first of them; any other tag ends with its
    line. -/

namespace Stylebook
namespace Doc

/-! ### Normal form -/

/-- Where in a line the next character stands. -/
inductive Place
  | start
  | margin
  | body
  deriving DecidableEq, Repr

/-- A run of blank characters at the start of a line, the ends of blank lines included, becomes one
    space. -/
def unifyMargins : Place → Text → Text
  | _, [] => []
  | .start, c :: r => if Text.isBlank c then ' ' :: unifyMargins .margin r else c :: unifyMargins .body r
  | .margin, c :: r => if Text.isBlank c then unifyMargins .margin r else c :: unifyMargins .body r
  | .body, c :: r => c :: unifyMargins (if c = '\n' then .start else .body) r

/-- Unifies line ends and margins; the very first line has no margin. -/
def normalize (t : Text) : Text := Text.dropStart [' '] (unifyMargins .start (Text.unifyLineEnds t))

/-! ### Lines -/

/-- Drops the blanks at the end of a line together with the mark that closes a comment. -/
def dropLineEnd (line : Text) : Text := Text.trimRight (Text.dropEnd "*/".text (Text.trimRight line))

/-- Drops `mark` and one blank behind it from the start of a line. -/
def dropMark (mark line : Text) : Text :=
  match Text.after? mark line with
  | some (c :: r) => if Text.isBlank c then r else c :: r
  | some [] => []
  | none => line

/-- The content of the line that opens a comment. -/
def firstLine (line : Text) : Text := dropMark "/**".text (dropLineEnd line)

/-- The content of any later line. -/
def laterLine (line : Text) : Text := dropMark " *".text (dropLineEnd line)

def isNameChar (c : Char) : Bool := Text.isAnyCaseLetter c || Text.isDigit c || c == '_' || c == '-'

/-- The name and the content of a line that begins a tag. -/
def tagLine? (line : Text) : Option (Text × Text) :=
  match Text.skipBlanks line with
  | '@' :: r =>
    match r.takeWhile isNameChar with
    | [] => none
    | name =>
      let rest := r.dropWhile isNameChar
      some (name, if rest.head?.any Text.isBlank then Text.skipBlanks rest else [])
  | _ => none

/-- The blanks at the start of a line. -/
def marginOf (line : Text) : Text := line.takeWhile Text.isBlank

/-! ### Tags -/

/-- A tag that is being read. The margin is fixed by the first line with content. -/
structure Open where
  name : Text
  content : Text
  multiline : Bool
  margin : Option Text
  deriving DecidableEq, Repr

namespace Open

/-- Takes one more line, less the margin. -/
def append (o : Open) (line : Text) : Open :=
  let margin := if o.margin.isNone && !line.isEmpty then some (marginOf line) else o.margin
  let line := match margin with
    | some m => Text.dropStart m line
    | none => line
  { o with margin := margin, content := o.content ++ '\n' :: line }

/-- The finished tag, without line feeds around its content. An implicit tag without content is none. -/
def close (o : Open) : List Tag :=
  let content := Text.trimBy (· == '\n') o.content
  if o.name.head? = some '$' ∧ content = [] then [] else [⟨o.name, content⟩]

end Open

/-- Begins a tag, unless the name is unknown: then all lines up to the next tag are passed over. -/
def begin? (table : TagTable) (name content : Text) : Option Open :=
  if table.isKnown name then
    let multiline := table.isMultiline name
    if multiline && !content.isEmpty then
      let margin := marginOf content
      some ⟨name, content.drop margin.length, multiline, some margin⟩
    else some ⟨name, content, multiline, none⟩
  else none

/-- The tag that is ended, if one is open. -/
def closed : Option Open → List Tag
  | some o => o.close
  | none => []

/-- One line: the tags it finishes and the tag that is open behind it. -/
def step (table : TagTable) (current : Option Open) (line : Text) : List Tag × Option Open :=
  match tagLine? line with
  | some (name, content) => (closed current, begin? table name content)
  | none =>
    match current with
    | none => ([], none)
    | some o =>
      if o.name = titleName then
        if line.isEmpty then ([], some o)
        else (Open.close { o with content := line }, begin? table descriptionName [])
      else if o.multiline then ([], some (o.append line))
      else (o.close, none)

/-- The tags that the lines of a comment finish, the one left open at the end included. -/
def parseLines (table : TagTable) (current : Option Open) : List Text → List Tag
  | [] => closed current
  | line :: rest =>
    let (tags, next) := step table current line
    tags ++ parseLines table next rest

/-- The contents of the lines of a comment. -/
def contentLines (t : Text) : List Text :=
  match Text.lines t with
  | [] => []
  | line :: rest => firstLine line :: rest.map laterLine

/-- The tags of a comment in the order of their declaration. -/
def parse (table : TagTable) (t : Text) : List Tag :=
  parseLines table (begin? table titleName []) (contentLines t)

end Doc
end Stylebook
