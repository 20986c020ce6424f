import Stylebook.Markup.CharacterReference
import Stylebook.Text.Case

/-! Cutting markup into tokens. `step` takes the tokens of one construct off the front. A construct that is
    not complete ends the first pass; the second pass starts there and takes such a construct as text. -/

namespace Stylebook
namespace Markup

/-- The attributes of an opening tag stand as they were read, with references replaced. -/
inductive Token
  | text (t : Text)
  | opening (name : Text) (attributes : List (Text × Text)) (selfClosing : Bool)
  | closing (name : Text)
  | comment (t : Text)
  | doctype (t : Text)
  | cdata (t : Text)
  | markedSection (t : Text)
  | instruction (t : Text)
  deriving DecidableEq, Repr

/-- Why markup is refused. -/
inductive Rejected
  /-- A marked section of unknown kind. -/
  | sectionKind
  /-- A character reference with too many decimal digits. -/
  | longNumber (digits : Nat)
  deriving DecidableEq, Repr

def Rejected.message : Rejected → Text
  | .sectionKind => "The markup has a section of unknown kind.".text
  | .longNumber digits => (Numeral.Error.tooLong digits).message

/-! ### Tags -/

/-- Characters that end the name of a tag. -/
def endsTagName (c : Char) : Bool :=
  c == '\t' || c == '\n' || c == '\r' || c == '\x0c' || c == ' ' || c == '/' || c == '>' || c == '\x00'

def isTagNameChar (c : Char) : Bool := !endsTagName c

def isQuote (c : Char) : Bool := c == '"' || c == '\''

/-- An attribute begins only right behind one of these. -/
def allowsAttribute (c : Char) : Bool := isQuote c || Text.isBlank c || c == '/'

def startsAttribute (c : Char) : Bool := !Text.isBlank c && c != '/' && c != '>'

def isAttributeChar (c : Char) : Bool := startsAttribute c && c != '='

def isBareValueChar (c : Char) : Bool := !Text.isBlank c && c != '>'

/-- Passes over blanks and slashes, but not over the slash of a self-closing end. `last` is the character
    in front, and the answer has the last character that was passed over. -/
def skipGap (last : Char) : Text → Char × Text
  | [] => (last, [])
  | c :: r =>
    if Text.isBlank c then skipGap c r
    else if c = '/' ∧ r.head? ≠ some '>' then skipGap c r
    else (last, c :: r)

/-- The value behind an attribute name, without its quotes; the last character read; and what follows. A
    quote that is never closed is no value, unless a blank or a second equals sign stands before it: then
    the value is empty, or goes on from that sign. -/
def attributeValue? (t : Text) : Option (Text × Char × Text) :=
  match Text.skipBlanks t with
  | '=' :: r =>
    let signs := r.takeWhile (· == '=')
    let r := r.dropWhile (· == '=')
    match Text.skipBlanks r with
    | q :: v =>
      if isQuote q then
        match v.dropWhile (· != q) with
        | _ :: rest => some (v.takeWhile (· != q), q, rest)
        | [] =>
          if r.head?.any Text.isBlank then some ([], ' ', q :: v)
          else if signs.isEmpty then none
          else some ('=' :: r.takeWhile isBareValueChar, '=', r.dropWhile isBareValueChar)
      else some ((q :: v).takeWhile isBareValueChar, '=', (q :: v).dropWhile isBareValueChar)
    | [] => some ([], '=', [])
  | _ => none

theorem length_skipGap_le (last : Char) (t : Text) : (skipGap last t).2.length ≤ t.length := by
  induction t generalizing last with
  | nil => simp [skipGap]
  | cons c r ih =>
    unfold skipGap
    repeat' split
    all_goals first
      | exact Nat.le_succ_of_le (ih c)
      | simp

theorem length_attributeValue? {t v r : Text} {c : Char} (h : attributeValue? t = some (v, c, r)) :
    r.length ≤ t.length := by
  have h0 := Text.length_dropWhile_le Text.isBlank t
  unfold attributeValue? at h
  split at h
  · next s hs =>
    have h1 := Text.length_dropWhile_le (· == '=') s
    have h2 := Text.length_dropWhile_le Text.isBlank (s.dropWhile (· == '='))
    simp only [Text.skipBlanks, Text.trimLeftBy] at hs
    simp only [hs, List.length_cons] at h0
    dsimp only at h
    split at h
    · next q w hq =>
      simp only [Text.skipBlanks, Text.trimLeftBy] at hq
      simp only [hq, List.length_cons] at h2
      have h3 := Text.length_dropWhile_le (· != q) w
      have h4 := Text.length_dropWhile_le isBareValueChar (s.dropWhile (· == '='))
      have h5 := Text.length_dropWhile_le isBareValueChar (q :: w)
      simp only [List.length_cons] at h5
      split at h
      · split at h
        · next heq =>
          simp only [Option.some.injEq, Prod.mk.injEq] at h
          obtain ⟨-, -, rfl⟩ := h
          simp only [heq, List.length_cons] at h3
          omega
        · split at h
          · simp only [Option.some.injEq, Prod.mk.injEq] at h
            obtain ⟨-, -, rfl⟩ := h
            simp only [List.length_cons]
            omega
          · split at h
            · simp at h
            · simp only [Option.some.injEq, Prod.mk.injEq] at h
              obtain ⟨-, -, rfl⟩ := h
              omega
      · simp only [Option.some.injEq, Prod.mk.injEq] at h
        obtain ⟨-, -, rfl⟩ := h
        omega
    · simp only [Option.some.injEq, Prod.mk.injEq] at h
      obtain ⟨-, -, rfl⟩ := h
      simp
  · simp at h

/-- The value of an attribute whose name ends in `last` as it is written, an attribute without one having
    the empty value; then the gap behind it. -/
def valueAndGap (last : Char) (t : Text) : Text × Char × Text :=
  match attributeValue? t with
  | some (v, last, r) => (v, skipGap last r)
  | none => ([], skipGap last t)

theorem length_valueAndGap_le (last : Char) (t : Text) : (valueAndGap last t).2.2.length ≤ t.length := by
  unfold valueAndGap
  split
  · next v last r h => exact Nat.le_trans (length_skipGap_le last r) (length_attributeValue? h)
  · exact length_skipGap_le last t

/-- The attributes of a tag, with their values as they are written, and what follows them; `last` is the
    character in front. -/
def attributes (last : Char) (t : Text) : List (Text × Text) × Text :=
  match t with
  | [] => ([], [])
  | c :: r =>
    if allowsAttribute last && startsAttribute c then
      let name := c :: r.takeWhile isAttributeChar
      let gap := valueAndGap (name.getLast?.getD c) (r.dropWhile isAttributeChar)
      let more := attributes gap.2.1 gap.2.2
      ((Text.lower name, gap.1) :: more.1, more.2)
    else ([], c :: r)
termination_by t.length
decreasing_by
  have h1 := length_valueAndGap_le ((c :: r.takeWhile isAttributeChar).getLast?.getD c)
    (r.dropWhile isAttributeChar)
  have h2 := Text.length_dropWhile_le isAttributeChar r
  simp only [List.length_cons]
  omega

theorem length_attributes_le (last : Char) (t : Text) : (attributes last t).2.length ≤ t.length := by
  fun_induction attributes last t with
  | case1 => simp
  | case2 last c r _ name gap more ih =>
    have h1 : gap.2.2.length ≤ _ := length_valueAndGap_le _ _
    have h2 := Text.length_dropWhile_le isAttributeChar r
    simp only [List.length_cons]
    exact Nat.le_succ_of_le (Nat.le_trans ih (Nat.le_trans h1 h2))
  | case3 => simp

/-- The name, the attributes and the rest of an opening tag behind its angle bracket. -/
def tagParts (t : Text) : Text × List (Text × Text) × Text :=
  let name := t.takeWhile isTagNameChar
  let (last, r) := skipGap (name.getLast?.getD '<') (t.dropWhile isTagNameChar)
  (Text.lower name, attributes last r)

theorem length_tagParts_le (t : Text) : (tagParts t).2.2.length ≤ t.length := by
  simp only [tagParts]
  exact Nat.le_trans (length_attributes_le _ _)
    (Nat.le_trans (length_skipGap_le _ _) (Text.length_dropWhile_le _ t))

/-! ### Ends of constructs -/

/-- The text before the first `>` and what follows it. -/
def untilAngle? (t : Text) : Option (Text × Text) := Text.cut? ['>'] t

/-- The text before the first place where `close?` answers, and the answer. -/
def until? (close? : Text → Option Text) : Text → Option (Text × Text)
  | [] => (close? []).map fun rest => ([], rest)
  | c :: r =>
    match close? (c :: r) with
    | some rest => some ([], rest)
    | none => (until? close? r).map fun (before, rest) => (c :: before, rest)

/-- Two hyphens, blanks and `>`. -/
def commentClose? : Text → Option Text
  | '-' :: '-' :: r => Text.after? ['>'] (Text.skipBlanks r)
  | _ => none

/-- A bracket, blanks and `>`. -/
def bracketClose? : Text → Option Text
  | ']' :: r => Text.after? ['>'] (Text.skipBlanks r)
  | _ => none

/-- A bracket, blanks and another closing bracket with its `>`. -/
def doubleBracketClose? : Text → Option Text
  | ']' :: r => bracketClose? (Text.skipBlanks r)
  | _ => none

theorem length_until? {close? : Text → Option Text} (hc : ∀ {t r}, close? t = some r → r.length < t.length)
    {t a r : Text} (h : until? close? t = some (a, r)) : r.length < t.length := by
  induction t generalizing a with
  | nil =>
    simp only [until?, Option.map_eq_some_iff, Prod.mk.injEq] at h
    obtain ⟨r', hr, -, rfl⟩ := h
    exact hc hr
  | cons c t ih =>
    rw [until?] at h
    split at h
    · next rest hrest =>
      simp only [Option.some.injEq, Prod.mk.injEq] at h
      obtain ⟨-, rfl⟩ := h
      exact hc hrest
    · simp only [Option.map_eq_some_iff, Prod.mk.injEq, Prod.exists] at h
      obtain ⟨b, r', hb, -, rfl⟩ := h
      exact Nat.lt_succ_of_lt (ih hb)

theorem length_commentClose? {t r : Text} (h : commentClose? t = some r) : r.length < t.length := by
  unfold commentClose? at h
  split at h
  · next s =>
    have h1 := Text.length_of_after? h
    have h2 := Text.length_dropWhile_le Text.isBlank s
    simp only [Text.skipBlanks, Text.trimLeftBy] at h1
    simp only [List.length_cons]
    omega
  · simp at h

theorem length_bracketClose? {t r : Text} (h : bracketClose? t = some r) : r.length < t.length := by
  unfold bracketClose? at h
  split at h
  · next s =>
    have h1 := Text.length_of_after? h
    have h2 := Text.length_dropWhile_le Text.isBlank s
    simp only [Text.skipBlanks, Text.trimLeftBy] at h1
    simp only [List.length_cons]
    omega
  · simp at h

theorem length_doubleBracketClose? {t r : Text} (h : doubleBracketClose? t = some r) :
    r.length < t.length := by
  unfold doubleBracketClose? at h
  split at h
  · next s =>
    have h1 := length_bracketClose? h
    have h2 := Text.length_dropWhile_le Text.isBlank s
    simp only [Text.skipBlanks, Text.trimLeftBy] at h1
    simp only [List.length_cons]
    omega
  · simp at h

theorem length_untilAngle? {t a r : Text} (h : untilAngle? t = some (a, r)) : r.length < t.length := by
  have := Text.length_cut? h
  simp only [List.length_cons] at this
  omega

/-! ### Steps -/

/-- What a step does: it reads tokens and goes on with a shorter text, it ends the pass and leaves a text
    to the next one, or it refuses the markup. -/
inductive Step
  | read (tokens : List Token) (rest : Text)
  | stop (tokens : List Token) (rest : Text)
  | reject (why : Rejected)
  deriving DecidableEq, Repr

/-- A construct that is not complete ends the first pass. In the second it is text: up to the next `>`,
    else up to the next `<`, else its first character alone. -/
def incomplete (final : Bool) (c : Char) (r : Text) : Step :=
  if final then
    match untilAngle? r with
    | some (a, rest) => .read [.text (c :: a ++ ['>'])] rest
    | none =>
      if r.contains '<' then .read [.text (c :: r.takeWhile (· != '<'))] (r.dropWhile (· != '<'))
      else .read [.text [c]] r
  else .stop [] (c :: r)

/-- Whether the text begins with the closing tag of the element `name`; `strict` asks for ASCII letters. -/
def closesRaw (strict : Bool) (name t : Text) : Bool :=
  match t with
  | '<' :: '/' :: r =>
    let r := Text.skipBlanks r
    let word := r.take name.length
    (Text.afterAnyCase? name r).isSome && (!strict || word.all Text.isLetter) &&
      (Text.skipBlanks (r.drop name.length)).head? == some '>'
  | _ => false

/-- The text of a raw element up to its closing tag, with the text from that tag on. Without a closing tag
    nothing follows, and the text is kept as far as the last place that looks like one. -/
def rawText (name : Text) : Text → Text × Option Text
  | [] => ([], none)
  | c :: r =>
    if closesRaw true name (c :: r) then ([], some (c :: r))
    else
      match rawText name r with
      | (raw, some rest) => (c :: raw, some rest)
      | ([], none) =>
        if closesRaw false name (c :: r) then (c :: r.takeWhile (· != '>') ++ ['>'], none) else ([], none)
      | (raw, none) => (c :: raw, none)

/-- A text token, unless it is empty. -/
def textToken (t : Text) : List Token := if t.isEmpty then [] else [.text t]

def isRawName (name : Text) : Bool := name == "script".text || name == "style".text

/-- Attributes with the references in their values replaced. -/
def unescapeValues (attributes : List (Text × Text)) : List (Text × Text) :=
  attributes.map fun (name, v) => (name, unescape v)

/-- Refuses a tag of which a value has a reference with too many digits. -/
def unlessLong (attributes : List (Text × Text)) (s : Step) : Step :=
  match attributes.findSome? fun (_, v) => longReference? v with
  | some digits => .reject (.longNumber digits)
  | none => s

/-- An opening tag; `t` is the text behind its angle bracket. -/
def openingStep (final : Bool) (t : Text) : Step :=
  let parts := tagParts t
  let name := parts.1
  let attributes := unescapeValues parts.2.1
  match parts.2.2 with
  | '>' :: rest =>
    unlessLong parts.2.1 <|
      if isRawName name then
        match rawText name rest with
        | (raw, some rest) => .read (.opening name attributes false :: textToken raw) rest
        | (raw, none) => .stop (.opening name attributes false :: textToken raw) []
      else .read [.opening name attributes false] rest
  | '/' :: '>' :: rest => unlessLong parts.2.1 (.read [.opening name attributes true] rest)
  | [] => incomplete final '<' t
  | c :: _ =>
    if Text.isLetter c || c == '=' || c == '/' then incomplete final '<' t
    else unlessLong parts.2.1 (.read [.text ('<' :: t.take (t.length - parts.2.2.length))] parts.2.2)

def isClosingNameChar (c : Char) : Bool :=
  Text.isLetter c || Text.isDigit c || c == '-' || c == '.' || c == ':' || c == '_'

/-- Blanks, a plain name, blanks and `>`. -/
def plainClosing? (t : Text) : Option (Text × Text) :=
  match Text.skipBlanks t with
  | c :: r =>
    if Text.isLetter c then
      (Text.after? ['>'] (Text.skipBlanks (r.dropWhile isClosingNameChar))).map fun rest =>
        (c :: r.takeWhile isClosingNameChar, rest)
    else none
  | [] => none

/-- A closing tag; `t` is the text behind `</`. What is no name is a comment. -/
def closingStep (final : Bool) (t : Text) : Step :=
  match untilAngle? t with
  | none => incomplete final '<' ('/' :: t)
  | some (inside, rest) =>
    match plainClosing? t with
    | some (name, rest) => .read [.closing (Text.lower name)] rest
    | none =>
      match t with
      | '>' :: rest => .read [] rest
      | c :: _ =>
        if Text.isLetter c then .read [.closing (Text.lower (t.takeWhile isTagNameChar))] rest
        else .read [.comment inside] rest
      | [] => .read [] rest

def isSectionNameChar (c : Char) : Bool :=
  Text.isLetter c || Text.isDigit c || c == '-' || c == '_' || c == '.'

/-- The end that a marked section of the given kind has. -/
def sectionClose? (kind : Text) : Option (Text → Option Text) :=
  if (["temp", "cdata", "ignore", "include", "rcdata"].map String.text).contains kind then
    some doubleBracketClose?
  else if (["if", "else", "endif"].map String.text).contains kind then some bracketClose?
  else none

/-- A marked section; `t` is the text behind its first bracket. -/
def sectionStep (final : Bool) (t : Text) : Step :=
  match t with
  | [] => incomplete final '<' "![".text
  | c :: _ =>
    if Text.isLetter c then
      if (Text.skipBlanks (t.dropWhile isSectionNameChar)).isEmpty then incomplete final '<' ("![".text ++ t)
      else
        match sectionClose? (Text.lower (t.takeWhile isSectionNameChar)) with
        | none => .reject .sectionKind
        | some close? =>
          match until? close? t with
          | none => incomplete final '<' ("![".text ++ t)
          | some (inside, rest) =>
            match Text.afterAnyCase? "cdata[".text inside with
            | some content => .read [.cdata content] rest
            | none => .read [.markedSection inside] rest
    else .reject .sectionKind

/-- A construct behind `<!`. A doctype keeps what stands behind its keyword and one more character. -/
def declarationStep (final : Bool) (t : Text) : Step :=
  match t with
  | '-' :: '-' :: r =>
    match until? commentClose? r with
    | some (inside, rest) => .read [.comment inside] rest
    | none => incomplete final '<' ('!' :: t)
  | '[' :: r => sectionStep final r
  | _ =>
    match untilAngle? t with
    | none => incomplete final '<' ('!' :: t)
    | some (inside, rest) =>
      if (t.take 7).map Char.toLower = "doctype".text then .read [.doctype (inside.drop 8)] rest
      else .read [.comment inside] rest

/-- Everything that begins with `<`. -/
def angleStep (final : Bool) (t : Text) : Step :=
  match t with
  | [] => .stop [] ['<']
  | '/' :: r => closingStep final r
  | '!' :: r => declarationStep final r
  | '?' :: r =>
    match untilAngle? r with
    | some (inside, rest) => .read [.instruction inside] rest
    | none => incomplete final '<' t
  | c :: _ => if Text.isLetter c then openingStep final t else .read [.text ['<']] t

/-- Digits read to a number; a character that is no hexadecimal digit has to follow. -/
def digitsReference? (isDigit : Char → Bool) (value : Text → Nat) (t : Text) : Option (Nat × Text) :=
  match t.takeWhile isDigit, t.dropWhile isDigit with
  | [], _ => none
  | _, [] => none
  | ds, c :: r => if Text.isHexDigit c then none else some (value ds, (dropSemicolon (c :: r)).2)

/-- A numeric reference behind `&#`. -/
def numericReference? (t : Text) : Option (Nat × Text) :=
  match t with
  | 'x' :: r => digitsReference? Text.isHexDigit Text.ofHex r
  | 'X' :: r => digitsReference? Text.isHexDigit Text.ofHex r
  | _ => digitsReference? Text.isDigit Text.ofDecimal t

def isEntityChar (c : Char) : Bool := Text.isLetter c || Text.isDigit c || c == '-' || c == '.'

/-- Everything that begins with `&`. An unknown name is text, less its semicolon. A numeric reference that
    cannot be read ends the pass. -/
def ampersandStep (t : Text) : Step :=
  match t with
  | [] => .stop [] ['&']
  | '#' :: r =>
    match numericReference? r with
    | some (n, rest) =>
      match excess? r with
      | some digits => .reject (.longNumber digits)
      | none => .read [.text [numbered n]] rest
    | none => if r.contains ';' then .stop [.text "&#".text] r else .stop [] ('&' :: t)
  | c :: _ =>
    if Text.isLetter c then
      let name := t.takeWhile isEntityChar
      match t.dropWhile isEntityChar with
      | [] => .stop [] ('&' :: t)
      | rest => .read [.text ((named? name).getD ('&' :: name))] (dropSemicolon rest).2
    else .read [.text ['&']] t

def isTextChar (c : Char) : Bool := c != '<' && c != '&'

/-- The tokens of the construct at the front of a text that is not empty. -/
def step (final : Bool) (c : Char) (r : Text) : Step :=
  if c = '<' then angleStep final r
  else if c = '&' then ampersandStep r
  else .read [.text (c :: r.takeWhile isTextChar)] (r.dropWhile isTextChar)

/-! ### Every step takes something -/

theorem length_incomplete {final : Bool} {c : Char} {r : Text} {ts : List Token} {rest : Text}
    (h : incomplete final c r = .read ts rest) : rest.length ≤ r.length := by
  unfold incomplete at h
  split at h
  · split at h
    · next hu =>
      cases h
      exact Nat.le_of_lt (length_untilAngle? hu)
    · split at h
      · cases h
        exact Text.length_dropWhile_le _ r
      · cases h
        exact Nat.le_refl _
  · cases h

theorem length_rawText {name t raw rest : Text} (h : rawText name t = (raw, some rest)) :
    rest.length ≤ t.length := by
  induction t generalizing raw with
  | nil => simp [rawText] at h
  | cons c r ih =>
    rw [rawText] at h
    split at h
    · simp only [Prod.mk.injEq, Option.some.injEq] at h
      obtain ⟨-, rfl⟩ := h
      exact Nat.le_refl _
    · split at h
      · next raw' rest' heq =>
        simp only [Prod.mk.injEq, Option.some.injEq] at h
        obtain ⟨-, rfl⟩ := h
        exact Nat.le_succ_of_le (ih heq)
      · split at h <;> simp at h
      · simp at h

theorem eq_of_unlessLong {attributes : List (Text × Text)} {s : Step} {ts : List Token} {rest : Text}
    (h : unlessLong attributes s = .read ts rest) : s = .read ts rest := by
  unfold unlessLong at h
  split at h
  · cases h
  · exact h

theorem length_openingStep {final : Bool} {t : Text} {ts : List Token} {rest : Text}
    (h : openingStep final t = .read ts rest) : rest.length ≤ t.length := by
  have hp := length_tagParts_le t
  unfold openingStep at h
  dsimp only at h
  split at h
  · next rest' heq =>
    simp only [heq, List.length_cons] at hp
    replace h := eq_of_unlessLong h
    split at h
    · split at h
      · next hraw =>
        cases h
        have := length_rawText hraw
        omega
      · cases h
    · cases h
      omega
  · next heq =>
    simp only [heq, List.length_cons] at hp
    cases eq_of_unlessLong h
    omega
  · exact length_incomplete h
  · split at h
    · exact length_incomplete h
    · cases eq_of_unlessLong h
      exact hp

theorem length_plainClosing? {t name rest : Text} (h : plainClosing? t = some (name, rest)) :
    rest.length ≤ t.length := by
  have h0 := Text.length_dropWhile_le Text.isBlank t
  unfold plainClosing? at h
  split at h
  · next c r heq =>
    simp only [Text.skipBlanks, Text.trimLeftBy] at heq
    simp only [heq, List.length_cons] at h0
    split at h
    · simp only [Option.map_eq_some_iff, Prod.mk.injEq] at h
      obtain ⟨r', hr, -, rfl⟩ := h
      have h1 := Text.length_of_after? hr
      have h2 := Text.length_dropWhile_le Text.isBlank (r.dropWhile isClosingNameChar)
      have h3 := Text.length_dropWhile_le isClosingNameChar r
      simp only [Text.skipBlanks, Text.trimLeftBy] at h1
      omega
    · simp at h
  · simp at h

theorem length_closingStep {final : Bool} {t : Text} {ts : List Token} {rest : Text}
    (h : closingStep final t = .read ts rest) : rest.length ≤ t.length + 1 := by
  unfold closingStep at h
  split at h
  · exact length_incomplete h
  · next hu =>
    have hlt := length_untilAngle? hu
    split at h
    · next hp =>
      cases h
      exact Nat.le_succ_of_le (length_plainClosing? hp)
    · split at h
      · cases h
        simp only [List.length_cons]
        omega
      · split at h
        all_goals
          cases h
          omega
      · cases h
        omega

theorem length_sectionClose? {kind : Text} {close? : Text → Option Text}
    (hk : sectionClose? kind = some close?) {t r : Text} (h : close? t = some r) : r.length < t.length := by
  unfold sectionClose? at hk
  split at hk
  · cases hk
    exact length_doubleBracketClose? h
  · split at hk
    · cases hk
      exact length_bracketClose? h
    · cases hk

theorem length_sectionStep {final : Bool} {t : Text} {ts : List Token} {rest : Text}
    (h : sectionStep final t = .read ts rest) : rest.length ≤ t.length + 2 := by
  have hinc : ∀ {s : Text}, incomplete final '<' ("![".text ++ s) = .read ts rest →
      rest.length ≤ s.length + 2 := by
    intro s hs
    simpa [String.text] using length_incomplete hs
  unfold sectionStep at h
  split at h
  · exact length_incomplete h
  · split at h
    · split at h
      · exact hinc h
      · split at h
        · cases h
        · next hk =>
          split at h
          · exact hinc h
          · next hu =>
            have := length_until? (length_sectionClose? hk) hu
            split at h
            all_goals
              cases h
              omega
    · cases h

theorem length_declarationStep {final : Bool} {t : Text} {ts : List Token} {rest : Text}
    (h : declarationStep final t = .read ts rest) : rest.length ≤ t.length + 1 := by
  unfold declarationStep at h
  split at h
  · split at h
    · next hu =>
      cases h
      have := length_until? length_commentClose? hu
      simp only [List.length_cons]
      omega
    · exact length_incomplete h
  · exact length_sectionStep h
  · split at h
    · exact length_incomplete h
    · next hu =>
      have := length_untilAngle? hu
      split at h
      all_goals
        cases h
        omega

theorem length_angleStep {final : Bool} {t : Text} {ts : List Token} {rest : Text}
    (h : angleStep final t = .read ts rest) : rest.length ≤ t.length := by
  unfold angleStep at h
  split at h
  · cases h
  · exact length_closingStep h
  · exact length_declarationStep h
  · split at h
    · next hu =>
      cases h
      exact Nat.le_succ_of_le (Nat.le_of_lt (length_untilAngle? hu))
    · exact length_incomplete h
  · split at h
    · exact length_openingStep h
    · cases h
      exact Nat.le_refl _

theorem length_digitsReference? {isDigit : Char → Bool} {value : Text → Nat} {t : Text} {n : Nat}
    {rest : Text} (h : digitsReference? isDigit value t = some (n, rest)) : rest.length ≤ t.length := by
  have hd := Text.length_dropWhile_le isDigit t
  unfold digitsReference? at h
  split at h
  · cases h
  · cases h
  · next heq _ =>
    rw [heq] at hd
    split at h
    · cases h
    · cases h
      exact Nat.le_trans (length_dropSemicolon_le _) hd

theorem length_numericReference? {t : Text} {n : Nat} {rest : Text}
    (h : numericReference? t = some (n, rest)) : rest.length ≤ t.length := by
  unfold numericReference? at h
  split at h
  · exact Nat.le_succ_of_le (length_digitsReference? h)
  · exact Nat.le_succ_of_le (length_digitsReference? h)
  · exact length_digitsReference? h

theorem length_ampersandStep {t : Text} {ts : List Token} {rest : Text}
    (h : ampersandStep t = .read ts rest) : rest.length ≤ t.length := by
  unfold ampersandStep at h
  split at h
  · cases h
  · split at h
    · next hn =>
      split at h
      · cases h
      · cases h
        exact Nat.le_succ_of_le (length_numericReference? hn)
    · split at h <;> cases h
  · next c r _ =>
    split at h
    · dsimp only at h
      split at h
      · cases h
      · cases h
        exact Nat.le_trans (length_dropSemicolon_le _) (Text.length_dropWhile_le isEntityChar _)
    · cases h
      exact Nat.le_refl _

theorem length_step {final : Bool} {c : Char} {r : Text} {ts : List Token} {rest : Text}
    (h : step final c r = .read ts rest) : rest.length ≤ r.length := by
  unfold step at h
  split at h
  · exact length_angleStep h
  · split at h
    · exact length_ampersandStep h
    · cases h
      exact Text.length_dropWhile_le isTextChar r

/-! ### Passes -/

/-- The tokens of one pass and the text it leaves. -/
def pass (final : Bool) (t : Text) : Except Rejected (List Token × Text) :=
  match t with
  | [] => .ok ([], [])
  | c :: r =>
    match _h : step final c r with
    | .reject why => .error why
    | .stop ts rest => .ok (ts, rest)
    | .read ts rest =>
      match pass final rest with
      | .error e => .error e
      | .ok (more, left) => .ok (ts ++ more, left)
termination_by t.length
decreasing_by exact Nat.lt_succ_of_le (length_step _h)

/-- The tokens of markup: those of a first pass, those of a second one over what the first left, and as a
    text what is left then. -/
def tokens (t : Text) : Except Rejected (List Token) :=
  match pass false t with
  | .error e => .error e
  | .ok (first, left) =>
    match pass true left with
    | .error e => .error e
    | .ok (second, left) => .ok (first ++ second ++ textToken left)

end Markup
end Stylebook
