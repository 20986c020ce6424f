import Stylebook.Text.Utf8
import Stylebook.Yaml.Scalar

/-! The tokens of a YAML document. The indentation of lines becomes tokens that open and close blocks. A
    mapping key shows only by the colon behind it, so the place where a key may begin is remembered, for each
    open bracket one, and the tokens of the key and of the mapping it begins go there once the colon is
    found. Tokens are found one after the other as they are asked for, since a directive can change how the
    text behind it is read. -/

namespace Stylebook
namespace Yaml

inductive Directive
  | version (major minor : Nat)
  | handle (name start : Text)
  | other
  deriving DecidableEq, Repr

inductive Token
  | directive (d : Directive)
  | documentStart
  | documentEnd
  | blockSequenceStart
  | blockMappingStart
  | blockEnd
  | flowSequenceStart
  | flowSequenceEnd
  | flowMappingStart
  | flowMappingEnd
  | blockEntry
  | flowEntry
  | key
  | value
  | alias (name : Text)
  | anchor (name : Text)
  /-- A tag: the handle it begins with, if it is not written out, and what follows. -/
  | tag (handle : Option Text) (suffix : Text)
  | scalar (plain : Bool) (text : Units)
  /-- The end of the text. -/
  | finish
  deriving DecidableEq, Repr

/-! ### Places -/

structure Position where
  line : Nat := 0
  column : Nat := 0
  index : Nat := 0
  deriving DecidableEq, Repr

/-- The position behind a piece of text. -/
def Position.after (p : Position) (t : Text) : Position :=
  t.foldl (fun p c => ⟨if c = '\n' then p.line + 1 else p.line, columnAfter p.column c, p.index + 1⟩) p

/-- A place where a key may begin. -/
structure Candidate where
  /-- The number of tokens in front of it, counted from the start of the text. -/
  tokens : Nat
  position : Position
  /-- Nothing but a key may stand there. -/
  required : Bool
  deriving DecidableEq, Repr

/-- What is open around a place: the document itself, or a bracket. -/
inductive Enclosure
  | document
  | sequence
  | mapping
  deriving DecidableEq, Repr

structure Level where
  enclosure : Enclosure := .document
  candidate : Option Candidate := none
  deriving DecidableEq, Repr

/-- A key has to end in the line where it begins, and within 1024 characters. -/
def isStale (p : Position) (c : Candidate) : Bool := c.position.line != p.line || 1024 < p.index - c.position.index

/-- Forgets the candidate of a level, unless a key has to stand there. -/
def Level.forget (l : Level) : Except Error Level :=
  match l.candidate with
  | some c => if c.required then .error .danglingKey else .ok { l with candidate := none }
  | none => .ok l

def Level.dropStale (l : Level) (p : Position) : Except Error Level :=
  match l.candidate with
  | some c => if isStale p c then l.forget else .ok l
  | none => .ok l

/-- How far a text has been read. Indentation is that of the innermost block, and none outside of all
    blocks. -/
structure Layout where
  rest : Text
  version : Version := .v12
  position : Position := {}
  indent : Option Nat := none
  outer : List (Option Nat) := []
  level : Level := {}
  around : List Level := []
  /-- A key may begin at the next token. -/
  keyAllowed : Bool := true
  /-- The tokens that have been found and not been taken yet. -/
  queue : List Token := []
  /-- How many tokens have been taken. -/
  taken : Nat := 0
  /-- The end of the text has been found. -/
  done : Bool := false
  deriving Repr

namespace Layout

def inFlow (s : Layout) : Bool := s.level.enclosure != .document

def column (s : Layout) : Nat := s.position.column

/-- Goes on to `rest`, which is an end of the text that is left. -/
def goTo (s : Layout) (rest : Text) : Layout :=
  { s with rest := rest, position := s.position.after (s.rest.take (s.rest.length - rest.length)) }

def emit (s : Layout) (t : Token) : Layout := { s with queue := s.queue ++ [t] }

def allowKey (s : Layout) (b : Bool) : Layout := { s with keyAllowed := b }

/-- The number of tokens found so far. -/
def found (s : Layout) : Nat := s.taken + s.queue.length

/-- Puts a token behind the first `n` tokens. -/
def insertAt (s : Layout) (n : Nat) (t : Token) : Layout := { s with queue := s.queue.insertIdx (n - s.taken) t }

/-! ### Candidates -/

def dropStale (s : Layout) : Except Error Layout := do
  return { s with
    level := ← s.level.dropStale s.position
    around := ← s.around.mapM fun l => l.dropStale s.position }

def forgetKey (s : Layout) : Except Error Layout := do
  return { s with level := ← s.level.forget }

/-- Remembers that a key may begin here. -/
def noteKey (s : Layout) : Except Error Layout := do
  if s.keyAllowed then
    let s ← s.forgetKey
    let required := !s.inFlow && s.indent == some s.column
    return { s with level.candidate := some ⟨s.found, s.position, required⟩ }
  else return s

/-- Whether the next token to be taken may turn out to be a key. -/
def awaitsKey (s : Layout) : Bool :=
  (s.level :: s.around).any fun l => l.candidate.map Candidate.tokens == some s.taken

/-! ### Indentation -/

/-- Whether the first column lies to the right of the second; no column lies left of all. -/
def isDeeper : Option Nat → Option Nat → Bool
  | some m, some n => n < m
  | some _, none => true
  | none, _ => false

/-- Closes the blocks that are indented deeper than a column: the block that is left, those around it, and
    how many have been closed. -/
def closeBlocks (column indent : Option Nat) (outer : List (Option Nat)) : Option Nat × List (Option Nat) × Nat :=
  if isDeeper indent column then
    match outer with
    | o :: os =>
      let (left, around, n) := closeBlocks column o os
      (left, around, n + 1)
    | [] => (none, [], 1)
  else (indent, outer, 0)

/-- Inside of brackets indentation does not count. -/
def unwind (s : Layout) (column : Option Nat) : Layout :=
  if s.inFlow then s
  else
    let (indent, outer, n) := closeBlocks column s.indent s.outer
    { s with indent := indent, outer := outer, queue := s.queue ++ List.replicate n .blockEnd }

/-- Opens a block at a column, if it is deeper than the innermost one; its token goes behind the first `n`
    tokens. -/
def openBlock (s : Layout) (column n : Nat) (t : Token) : Layout :=
  if isDeeper (some column) s.indent then
    { s.insertAt n t with indent := some column, outer := s.indent :: s.outer }
  else s

/-! ### Collections -/

def openFlow (s : Layout) (e : Enclosure) (t : Token) (rest : Text) : Except Error Layout := do
  let s ← s.noteKey
  return { (s.goTo rest).emit t with level := { enclosure := e }, around := s.level :: s.around, keyAllowed := true }

/-- A closing bracket. One that was never opened is for the reader of tokens to refuse. -/
def closeFlow (s : Layout) (t : Token) (rest : Text) : Except Error Layout := do
  let s ← s.forgetKey
  let s := ((s.goTo rest).emit t).allowKey false
  return match s.around with
    | [] => s
    | l :: ls => { s with level := l, around := ls }

def flowEntry (s : Layout) (rest : Text) : Except Error Layout := do
  let s ← s.forgetKey
  return ((s.goTo rest).emit .flowEntry).allowKey true

/-- The mark of a sequence entry or of a key that is not told by a colon. -/
def blockMark (s : Layout) (opening mark : Token) (keyNext : Bool) (rest : Text) : Except Error Layout := do
  if !s.inFlow && !s.keyAllowed then throw .misplaced
  let s := if s.inFlow then s else s.openBlock s.column s.found opening
  let s ← s.forgetKey
  return ((s.goTo rest).emit mark).allowKey keyNext

/-- The colon of a value. -/
def valueMark (s : Layout) (rest : Text) : Except Error Layout := do
  match s.level.candidate with
  | some c =>
    let s := s.insertAt c.tokens .key
    let s := if s.inFlow then s else s.openBlock c.position.column c.tokens .blockMappingStart
    let s := { s with level.candidate := none }
    return ((s.goTo rest).emit .value).allowKey false
  | none => s.blockMark .blockMappingStart .value (!s.inFlow) rest

/-- A token that may be a key by itself. -/
def atom (s : Layout) (read : Except Error (Token × Text)) : Except Error Layout := do
  let s ← s.noteKey
  let (t, rest) ← read
  return ((s.goTo rest).emit t).allowKey false

/-! ### Directives and documents -/

def isDirectiveChar (c : Char) : Bool := Text.isDigit c || Text.isLetter c || "-_:.".text.contains c

def readNumber (t : Text) : Except Error (Nat × Text) :=
  let digits := t.takeWhile Text.isDigit
  if digits.isEmpty then .error .directive
  else if Numeral.maxDigits < digits.length then .error (.number (.tooLong digits.length))
  else .ok (Text.ofDecimal digits, t.dropWhile Text.isDigit)

def skipSpaces (t : Text) : Text := t.dropWhile (· == ' ')

def isHandleChar (c : Char) : Bool := Text.isDigit c || Text.isLetter c || c == '-' || c == '_'

/-- A tag handle: an exclamation mark, which may be followed by a name and a second one. -/
def readHandle (t : Text) : Except Error (Text × Text) :=
  match t with
  | '!' :: r =>
    if r.head? = some ' ' then .ok (['!'], r)
    else
      let name := r.takeWhile isHandleChar
      match r.dropWhile isHandleChar with
      | '!' :: rest => .ok ('!' :: name ++ ['!'], rest)
      | _ => .error .tag
  | _ => .error .tag

/-- The characters of tags; the older version has no number sign among them. -/
def isTagChar (version : Version) (c : Char) : Bool :=
  Text.isDigit c || Text.isLetter c || "-;/?:@&=+$,_.!~*'()[]%".text.contains c || (c == '#' && version == .v12)

def isUtf8 (bs : Utf8.Bytes) : Bool :=
  match Utf8.decode bs with
  | .ok _ => true
  | .error _ => false

/-- Whether every percent sign has two hexadecimal digits behind it, and escapes in a row are the bytes of
    characters. `run` holds the bytes of the escapes right before, the latest first. -/
def hasGoodEscapes (run : Utf8.Bytes) : Text → Bool
  | '%' :: a :: b :: r =>
    Text.isHexDigit a && Text.isHexDigit b && hasGoodEscapes (UInt8.ofNat (Text.ofHex [a, b]) :: run) r
  | '%' :: _ => false
  | _ :: r => isUtf8 run.reverse && hasGoodEscapes [] r
  | [] => isUtf8 run.reverse

/-- The name of a tag, in which escapes stay as they are. -/
def readTagName (version : Version) (t : Text) : Except Error (Text × Text) :=
  let name := t.takeWhile (isTagChar version)
  if name.isEmpty || !hasGoodEscapes [] name then .error .tag else .ok (name, t.dropWhile (isTagChar version))

def readVersion (t : Text) : Except Error (Directive × Text) := do
  let (major, t) ← readNumber (skipSpaces t)
  match t with
  | '.' :: t =>
    let (minor, t) ← readNumber t
    return (.version major minor, t)
  | _ => throw .directive

def readHandleDirective (version : Version) (t : Text) : Except Error (Directive × Text) := do
  let (name, t) ← readHandle (skipSpaces t)
  if t.head? ≠ some ' ' then throw .directive
  let (start, t) ← readTagName version (skipSpaces t)
  return (.handle name start, t)

/-- A directive, from behind its percent sign to the end of its line. -/
def readDirective (version : Version) (t : Text) : Except Error (Directive × Text) := do
  let name := t.takeWhile isDirectiveChar
  let t := t.dropWhile isDirectiveChar
  if name.isEmpty || !atLineGap t then throw .directive
  let (d, t) ←
    if name = "YAML".text then readVersion t
    else if name = "TAG".text then readHandleDirective version t
    else pure (.other, t.dropWhile (!isBreak ·))
  if !atLineGap t then throw .directive
  return (d, (← lineEnd .directive t).drop 1)

def readDirectiveToken (s : Layout) (t : Text) : Except Error Layout := do
  let s ← (s.unwind none).forgetKey
  let (d, rest) ← readDirective s.version t
  return ((s.goTo rest).emit (.directive d)).allowKey false

def documentMark (s : Layout) (t : Token) (rest : Text) : Except Error Layout := do
  let s ← (s.unwind none).forgetKey
  return ((s.goTo rest).emit t).allowKey false

/-! ### Names and tags -/

/-- The characters of anchors: all that can be seen, other than the marks of flow collections. -/
def isAnchorChar (c : Char) : Bool :=
  !isFlowMark c &&
    (('!' ≤ c && c ≤ '~') || ('\u00a0' ≤ c && c ≤ '\ufffd' && c != '\ufeff') || 0x10000 ≤ c.toNat)

def readName (make : Text → Token) (t : Text) : Except Error (Token × Text) :=
  let name := t.takeWhile isAnchorChar
  let rest := t.dropWhile isAnchorChar
  if name.isEmpty then .error .anchorName
  else if atEndOr (fun c => isGap c || isFlowMark c) rest then .ok (make name, rest)
  else .error .anchorName

/-- A tag, from behind its exclamation mark on: alone, written out between angle brackets, or with a handle.
    A second exclamation mark right behind the first belongs to it. -/
def readTag (version : Version) (t : Text) : Except Error (Token × Text) := do
  let (short, body) := match t with
    | '!' :: r => ("!!".text, r)
    | _ => (['!'], t)
  let (tag, rest) ←
    if atGap body then pure (Token.tag none short, body)
    else
      match body with
      | '<' :: r =>
        let (name, r) ← readTagName version r
        match r with
        | '>' :: r => pure (Token.tag none name, r)
        | _ => throw .tag
      | _ =>
        let word := body.takeWhile fun c => c != ' ' && !isBreak c
        let (handle, r) ← if word.contains '!' then readHandle ('!' :: body) else pure (short, body)
        let (suffix, r) ← readTagName version r
        pure (Token.tag (some handle) suffix, r)
  if !atLineGap rest then throw .tag
  return (tag, rest)

/-! ### Reading on -/

/-- Skips spaces, comments and line ends; the answer also says whether there was a line end. Tabs are
    skipped inside of brackets only. -/
def skipGap (inFlow inComment crossed : Bool) : Text → Bool × Text
  | [] => (crossed, [])
  | c :: r =>
    if isBreak c then skipGap inFlow false true r
    else if inComment || c == ' ' || (inFlow && c == '\t') then skipGap inFlow inComment crossed r
    else if c = '#' then skipGap inFlow true crossed r
    else (crossed, c :: r)

/-- Goes on to the next token: keys that have become impossible are dropped, and blocks that end here are
    closed. -/
def toNextToken (s : Layout) : Except Error Layout := do
  let (crossed, rest) := skipGap s.inFlow false false s.rest
  let s := s.goTo rest
  let s := if crossed && !s.inFlow then s.allowKey true else s
  let s ← s.dropStale
  return s.unwind (some s.column)

/-- Whether a colon is that of a value. Outside of brackets and in those of a sequence a gap has to follow,
    and in those of a mapping only right behind another colon; in the older version every colon in brackets
    is one. -/
def isValueMark (s : Layout) (r : Text) : Bool :=
  atGap r ||
    match s.level.enclosure with
    | .document => false
    | .sequence => s.version == .v11
    | .mapping => s.version == .v11 || s.queue.getLast? != some .value

/-- Whether a plain scalar can begin with these characters. -/
def canBePlain (s : Layout) (c : Char) (r : Text) : Bool :=
  if "-?:".text.contains c then !atGap r && (c == '-' || c == ':' || !s.inFlow)
  else !(isGap c || isFlowMark c || "#&*!|>'\"%@\x60".text.contains c)

def plainToken (s : Layout) (t : Text) : Except Error Layout := do
  let s ← s.noteKey
  let least := match s.indent with
    | some n => n + 1
    | none => 0
  let read := plain s.version s.inFlow least t
  return ((s.goTo read.rest).emit (.scalar true (Text.toUnits read.value))).allowKey read.crossed

def blockToken (s : Layout) (folded : Bool) (t : Text) : Except Error Layout := do
  let s ← s.forgetKey
  let (value, rest) ← block folded s.indent ⟨s.column + 1, t⟩
  return ((s.goTo rest).emit (.scalar false (Text.toUnits value))).allowKey true

def quotedToken (s : Layout) (quote : Char) (t : Text) : Except Error Layout :=
  s.atom ((quoted quote t).map fun (value, rest) => (.scalar false value, rest))

/-- Reads one token that begins with `c`. -/
def token (s : Layout) (c : Char) (r : Text) : Except Error Layout :=
  if c = '%' && s.column = 0 then s.readDirectiveToken r
  else if s.column = 0 && atMarker (c :: r) then
    s.documentMark (if c = '-' then .documentStart else .documentEnd) (r.drop 2)
  else if c = '[' then s.openFlow .sequence .flowSequenceStart r
  else if c = '\x7b' then s.openFlow .mapping .flowMappingStart r
  else if c = ']' then s.closeFlow .flowSequenceEnd r
  else if c = '\x7d' then s.closeFlow .flowMappingEnd r
  else if c = ',' then s.flowEntry r
  else if c = '-' && atGap r then s.blockMark .blockSequenceStart .blockEntry true r
  else if c = '?' && (s.inFlow || atGap r) then s.blockMark .blockMappingStart .key (!s.inFlow) r
  else if c = ':' && s.isValueMark r then s.valueMark r
  else if c = '*' then s.atom (readName .alias r)
  else if c = '&' then s.atom (readName .anchor r)
  else if c = '!' then s.atom (readTag s.version r)
  else if c = '|' && !s.inFlow then s.blockToken false r
  else if c = '>' && !s.inFlow then s.blockToken true r
  else if c = '\'' || c = '"' then s.quotedToken c r
  else if s.canBePlain c r then s.plainToken (c :: r)
  else .error (.character c)

/-- Closes the blocks that are open at the end of the text. -/
def finish (s : Layout) : Except Error Layout := do
  let s ← (s.unwind none).forgetKey
  let drop (l : Level) : Level := { l with candidate := none }
  return { s.emit .finish with level := drop s.level, around := s.around.map drop, keyAllowed := false, done := true }

/-- Finds the next token, and those that go in front of it. -/
def fetch (s : Layout) : Except Error Layout := do
  let s ← s.toNextToken
  match s.rest with
  | [] => s.finish
  | c :: r => s.token c r

/-- Finds tokens until it is settled which one is the next to be taken. Every token takes some of the
    text. -/
def settle (s : Layout) : Except Error Layout :=
  if s.done then .ok s
  else
    match if s.queue.isEmpty then .ok s else s.dropStale with
    | .error e => .error e
    | .ok kept =>
      if !kept.queue.isEmpty && !kept.awaitsKey then .ok kept
      else
        match kept.fetch with
        | .error e => .error e
        | .ok next =>
          if next.done then .ok next
          else if next.rest.length < s.rest.length then settle next
          else .error .unexpected
termination_by s.rest.length

/-- What is left when the next token has been taken. -/
def advance (s : Layout) : Layout := { s with queue := s.queue.tail, taken := s.taken + 1 }

end Layout

/-! ### Texts -/

/-- The characters that a document may hold. -/
def isPrintable (c : Char) : Bool :=
  let n := c.toNat
  n == 9 || n == 10 || n == 13 || (0x20 ≤ n && n ≤ 0x7e) || n == 0x85 || (0xa0 ≤ n && n ≤ 0xd7ff) ||
    (0xe000 ≤ n && n ≤ 0xfffd) || 0x10000 ≤ n

/-- Where reading a text begins. It may have a byte order mark in front; its line ends are one character
    each. -/
def Layout.ofText (t : Text) : Except Error Layout :=
  match t.find? (!isPrintable ·) with
  | some c => .error (.character c)
  | none => .ok { rest := Text.dropStart ['\ufeff'] (Text.unifyLineEnds t) }

end Yaml
end Stylebook
