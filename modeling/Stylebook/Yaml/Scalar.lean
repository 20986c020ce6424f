import Stylebook.Yaml.Error

/-! The scalars of YAML documents: quoted, plain and block scalars. Each reader takes the text from where the
    scalar begins and answers its value and the text behind it. Line ends inside of scalars are folded: a
    single line feed becomes a space, and of several the first is dropped. The separators of lines and of
    paragraphs end a line too, but they are kept as they are. -/

namespace Stylebook
namespace Yaml

/-- The two versions of the format. -/
inductive Version
  | v11
  | v12
  deriving DecidableEq, Repr

/-! ### Gaps -/

def isSpace (c : Char) : Bool := c == ' ' || c == '\t'

/-- The characters that end a line: the line feed, the next line, and the two separators. -/
def isBreak (c : Char) : Bool := c == '\n' || c == '\u0085' || c == '\u2028' || c == '\u2029'

def isGap (c : Char) : Bool := isSpace c || isBreak c

/-- Whether the text is at its end or goes on with a character of a kind. -/
def atEndOr (p : Char → Bool) : Text → Bool
  | [] => true
  | c :: _ => p c

def atGap (t : Text) : Bool := atEndOr isGap t

/-- Whether the text is at its end or goes on with a space or a line end, not a tab. -/
def atLineGap (t : Text) : Bool := atEndOr (fun c => c == ' ' || isBreak c) t

/-- Whether three dashes or three dots stand here by themselves: at the front of a line they bound a
    document. -/
def atMarker (t : Text) : Bool :=
  let stands (m : Text) : Bool :=
    match Text.after? m t with
    | some r => atGap r
    | none => false
  stands "---".text || stands "...".text

/-- The line ends in a text as a scalar has them: the next line is a line feed. -/
def breaksOf (run : Text) : Text := (run.filter isBreak).map fun c => if c = '\u0085' then '\n' else c

/-- Line ends after folding. -/
def foldBreaks : Text → Text
  | ['\n'] => [' ']
  | '\n' :: more => more
  | breaks => breaks

/-- A gap inside of a scalar. Without line ends it stays as it is, else only line ends count. -/
def fold (run : Text) : Text := if run.any isBreak then foldBreaks (breaksOf run) else run

/-- Whether a gap ends at the front of a line where a marker stands. -/
def leadsToMarker (run rest : Text) : Bool := (run.getLast?.map isBreak).getD false && atMarker rest

/-! ### Quoted scalars -/

/-- The character that a letter behind a backslash means. -/
def namedEscape? (c : Char) : Option Char :=
  [('0', '\x00'), ('a', '\x07'), ('b', '\x08'), ('t', '\t'), ('\t', '\t'), ('n', '\n'), ('v', '\x0b'),
    ('f', '\x0c'), ('r', '\r'), ('e', '\x1b'), (' ', ' '), ('"', '"'), ('/', '/'), ('\\', '\\'),
    ('N', '\u0085'), ('_', '\u00a0'), ('L', '\u2028'), ('P', '\u2029')].lookup c

/-- How many hexadecimal digits follow a letter that begins a code point. -/
def codeLength? (c : Char) : Option Nat := [('x', 2), ('u', 4), ('U', 8)].lookup c

/-- The number of exactly `n` hexadecimal digits at the start of a text. -/
def codeNumber? (n : Nat) (t : Text) : Option Nat :=
  let digits := t.take n
  if digits.length = n && digits.all Text.isHexDigit then some (Text.ofHex digits) else none

/-- The code units that an escape means, and how many characters behind the backslash it takes. An escaped
    line end joins two lines. -/
def escaped (t : Text) : Except Error (Units × Nat) :=
  match t with
  | [] => .error .escape
  | c :: r =>
    match namedEscape? c, codeLength? c with
    | some d, _ => .ok ([d.toNat], 1)
    | none, some n =>
      match codeNumber? n r with
      | none => .error .escape
      | some code => if code ≤ 0x10ffff then .ok ([code], n + 1) else .error (.codePoint code)
    | none, none =>
      if isBreak c then
        let run := c :: r.takeWhile isGap
        if leadsToMarker run (r.dropWhile isGap) then .error .marker
        else .ok (Text.toUnits ((breaksOf run).drop 1), run.length)
      else .error .escape

/-- The value of a quoted scalar and what follows it; the text begins behind the opening quote. Inside of
    single quotes two of them stand for one. -/
def quoted (quote : Char) (t : Text) : Except Error (Units × Text) :=
  match t with
  | [] => .error .unclosed
  | c :: r =>
    if isGap c then
      let run := c :: r.takeWhile isGap
      if leadsToMarker run (r.dropWhile isGap) then .error .marker
      else (quoted quote (r.dropWhile isGap)).map fun (v, rest) => (Text.toUnits (fold run) ++ v, rest)
    else if c = quote then
      if quote = '\'' && r.head? = some '\'' then
        (quoted quote (r.drop 1)).map fun (v, rest) => (quote.toNat :: v, rest)
      else .ok ([], r)
    else if c = '\\' && quote = '"' then
      match escaped r with
      | .error e => .error e
      | .ok (piece, n) => (quoted quote (r.drop n)).map fun (v, rest) => (piece ++ v, rest)
    else (quoted quote r).map fun (v, rest) => (c.toNat :: v, rest)
termination_by t.length
decreasing_by
  all_goals
    have := Text.length_dropWhile_le isGap r
    simp only [List.length_cons, List.length_drop]
    omega

/-! ### Plain scalars -/

def isFlowMark (c : Char) : Bool := c == ',' || c == '[' || c == ']' || c == '\x7b' || c == '\x7d'

/-- How many characters of a plain scalar stand here without a gap. A colon ends it only in front of a gap,
    and a question mark only inside of brackets of the older version. -/
def plainLength (version : Version) (inFlow : Bool) : Text → Nat
  | [] => 0
  | c :: r =>
    if isGap c then 0
    else if c = ':' && atGap r then 0
    else if inFlow && (isFlowMark c || (c == '?' && version == .v11)) then 0
    else plainLength version inFlow r + 1

/-- Gaps of a plain scalar are made of spaces and line ends only. -/
def isPlainGap (c : Char) : Bool := c == ' ' || isBreak c

/-- A plain scalar that has been read. -/
structure Plain where
  value : Text
  rest : Text
  /-- The gap behind the value holds a line end. -/
  crossed : Bool
  deriving DecidableEq, Repr

/-- The number of characters behind the last line feed. -/
def lastColumn (run : Text) : Nat := (run.reverse.takeWhile (· != '\n')).length

/-- Reads a plain scalar. It goes on over line ends as long as its lines have at least `indent` characters
    in front, which does not matter inside of brackets. -/
def plain (version : Version) (inFlow : Bool) (indent : Nat) (t : Text) : Plain :=
  let n := plainLength version inFlow t
  if n = 0 ∨ t = [] then ⟨[], t, false⟩
  else
    let piece := t.take n
    let behind := t.drop n
    let run := behind.takeWhile isPlainGap
    let rest := behind.dropWhile isPlainGap
    let crossed := run.any isBreak
    if run.isEmpty || leadsToMarker run rest || rest.head? == some '#' ||
        (!inFlow && run.contains '\n' && lastColumn run < indent) then ⟨piece, rest, crossed⟩
    else
      let more := plain version inFlow indent rest
      if more.value.isEmpty then ⟨piece, rest, crossed⟩
      else { more with value := piece ++ fold run ++ more.value }
termination_by t.length
decreasing_by
  have := Text.length_dropWhile_le isPlainGap (t.drop (plainLength version inFlow t))
  have : t.length ≠ 0 := by simp_all
  simp only [List.length_drop] at *
  omega

/-! ### Block scalars -/

/-- What becomes of the line ends behind the last line: one is kept, none or all. -/
inductive Chomping
  | clip
  | strip
  | keep
  deriving DecidableEq, Repr

structure BlockHeader where
  chomping : Chomping
  /-- The spaces in front of the lines, counted from those of the surrounding block. -/
  indent : Option Nat
  deriving DecidableEq, Repr

def chompingOf? (c : Char) : Option Chomping := [('+', .keep), ('-', .strip)].lookup c

/-- The digit of an indentation: none, one of `1` to `9`, or a fault. -/
def indentDigit (t : Text) : Except Error (Option Nat × Text) :=
  match t with
  | [] => .ok (none, [])
  | c :: r =>
    if c = '0' then .error .blockHeader
    else if Text.isDigit c then .ok (some (Text.digitValue c), r)
    else .ok (none, c :: r)

def chompingMark (t : Text) : Option Chomping × Text :=
  match t with
  | [] => (none, [])
  | c :: r =>
    match chompingOf? c with
    | some m => (some m, r)
    | none => (none, c :: r)

/-- The text from the end of a line on that holds nothing but spaces and a comment. -/
def lineEnd (e : Error) (t : Text) : Except Error Text :=
  match t.dropWhile (· == ' ') with
  | [] => .ok []
  | c :: r =>
    if c = '#' then .ok (r.dropWhile (!isBreak ·)) else if isBreak c then .ok (c :: r) else .error e

/-- Reads the header of a block scalar, in which the two marks come in either order, up to the end of its
    line. -/
def blockHeader (t : Text) : Except Error (BlockHeader × Text) := do
  let (first, t) := chompingMark t
  let (indent, t) ← indentDigit t
  let (second, t) := if first.isSome then (none, t) else if indent.isSome then chompingMark t else (none, t)
  if !atLineGap t then throw .blockHeader
  let rest ← lineEnd .blockHeader t
  return (⟨(first.or second).getD .clip, indent⟩, rest)

/-- The column behind a character. Only a line feed leads back to the first column, and byte order marks have
    no width. -/
def columnAfter (column : Nat) (c : Char) : Nat :=
  if c = '\n' then 0 else if c = '\ufeff' then column else column + 1

/-- A place in a text: a column and what follows. -/
structure Spot where
  column : Nat
  rest : Text
  deriving DecidableEq, Repr

def Spot.take (s : Spot) (n : Nat) : Spot := ⟨(s.rest.take n).foldl columnAfter s.column, s.rest.drop n⟩

/-- The place behind a line end, if one stands here, and that line end. -/
def Spot.takeBreak (s : Spot) : Text × Spot :=
  match s.rest with
  | [] => ([], s)
  | c :: r => if isBreak c then (breaksOf [c], ⟨columnAfter s.column c, r⟩) else ([], s)

/-- Skips line ends, and spaces in front of the column `indent`. The answer is the line ends and the place
    behind them. -/
def emptyLines (indent column : Nat) : Text → Text × Spot
  | [] => ([], ⟨column, []⟩)
  | c :: r =>
    if isBreak c then
      let (breaks, spot) := emptyLines indent (columnAfter column c) r
      (breaksOf [c] ++ breaks, spot)
    else if c = ' ' && column < indent then emptyLines indent (column + 1) r
    else ([], ⟨column, c :: r⟩)

/-- The columns that spaces and line ends in front of the content reach: that of the first line end, if there
    is one, and the one farthest to the right that a space leads to. -/
def gapColumns (column : Nat) (first : Option Nat) (widest : Nat) : Text → Option Nat × Nat
  | [] => (first, widest)
  | c :: r =>
    if isBreak c then gapColumns (columnAfter column c) (first.or (some column)) widest r
    else if c = ' ' then gapColumns (column + 1) first (max widest (column + 1)) r
    else (first, widest)

/-- The indentation of a block scalar that does not say it: that of its first line with content. An empty
    line in front must not be longer than the first of them. -/
def foundIndent (least : Nat) (s : Spot) : Except Error Nat :=
  match gapColumns s.column none 0 s.rest with
  | (some first, widest) => if 0 < first && first < widest then .error .blockIndent else .ok (max least widest)
  | (none, widest) => .ok (max least widest)

/-- What two lines are joined by: in a folded scalar a space in the place of a line feed, unless empty lines
    lie between them or one of them has spaces in front. -/
def lineJoin (folded : Bool) (line next lineEnd breaks : Text) : Text :=
  let indented (t : Text) : Bool := (t.head?.map isSpace).getD false
  if folded && lineEnd == ['\n'] && !indented line && !indented next then
    if breaks.isEmpty then [' '] else []
  else lineEnd

/-- The lines of a block scalar, joined; the line end behind the last of them; those behind that; and what
    follows. -/
structure BlockLines where
  body : Text
  lineEnd : Text
  trailing : Text
  rest : Text
  deriving DecidableEq, Repr

/-- Reads the lines of a block scalar from the content of one of them on. -/
def blockLines (folded : Bool) (indent : Nat) (atTop : Bool) (s : Spot) : BlockLines :=
  if s.rest = [] then ⟨[], [], [], []⟩
  else
    let line := s.rest.takeWhile (!isBreak ·)
    let next := (s.take line.length).takeBreak
    let gap := emptyLines indent next.2.column next.2.rest
    let goesOn := gap.2.column = indent && !gap.2.rest.isEmpty && !(atTop && indent = 0 && atMarker gap.2.rest)
    if goesOn && gap.2.rest.length < s.rest.length then
      let more := blockLines folded indent atTop gap.2
      let join := lineJoin folded s.rest gap.2.rest next.1 gap.1
      { more with body := line ++ join ++ gap.1 ++ more.body }
    else ⟨line, next.1, gap.1, gap.2.rest⟩
termination_by s.rest.length
decreasing_by
  next h =>
    simp only [Bool.and_eq_true, decide_eq_true_eq] at h
    exact h.2

/-- Reads a block scalar whose text begins behind its mark, in a block with `outer` spaces in front, or at
    the top of the document. -/
def block (folded : Bool) (outer : Option Nat) (s : Spot) : Except Error (Text × Text) := do
  let (header, rest) ← blockHeader s.rest
  let s := (s.take (s.rest.length - rest.length)).takeBreak.2
  let least := match outer with
    | some n => n + 1
    | none => 0
  let indent ← match header.indent with
    | some n => pure (max least 1 + n - 1)
    | none => foundIndent least s
  let (breaks, s) := emptyLines indent s.column s.rest
  let atTop := outer.isNone && header.indent.isNone
  let lines :=
    if s.column = indent && !s.rest.isEmpty then
      let lines := blockLines folded indent atTop s
      { lines with body := breaks ++ lines.body }
    else ⟨[], [], breaks, s.rest⟩
  return match header.chomping with
    | .strip => (lines.body, lines.rest)
    | .clip => (lines.body ++ lines.lineEnd, lines.rest)
    | .keep => (lines.body ++ lines.lineEnd ++ lines.trailing, lines.rest)

end Yaml
end Stylebook
