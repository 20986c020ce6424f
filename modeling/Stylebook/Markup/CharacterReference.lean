import Stylebook.Markup.CharacterNameData
import Stylebook.Number.Numeral

/-! Character references: the characters that a name or a number stands for, in text and in attribute
    values. A decimal number has a limited number of digits. -/

namespace Stylebook
namespace Markup

/-! ### Names -/

/-- A name, whether it is also read without a semicolon, and its characters. -/
structure CharacterName where
  name : Text
  openEnded : Bool
  characters : Text
  deriving Repr

/-- One entry of the table. -/
def CharacterName.ofEntry (entry : Text) : CharacterName :=
  let isMark (c : Char) : Bool := c == '!' || c == '='
  let codes := (entry.dropWhile (!isMark ·)).drop 1
  { name := entry.takeWhile (!isMark ·)
    openEnded := entry.contains '!'
    characters := (Text.split (· == '+') codes).map fun code => Text.charOf (Text.ofHex code) }

def characterNames : List CharacterName :=
  characterNameLines.flatMap fun line => (Text.words line.text).map CharacterName.ofEntry

/-- The names that written markup uses, which are looked up first; all are also read without a
    semicolon. -/
def writtenNames : List (Text × Text) :=
  [("amp".text, ['&']), ("lt".text, ['<']), ("gt".text, ['>']), ("quot".text, ['"']),
    ("nbsp".text, ['\u00a0'])]

/-- The characters of a name. -/
def named? (name : Text) : Option Text :=
  match writtenNames.lookup name with
  | some cs => some cs
  | none => (characterNames.find? (·.name == name)).map (·.characters)

/-- The characters of a name that is read without a semicolon. -/
def namedOpen? (name : Text) : Option Text :=
  match writtenNames.lookup name with
  | some cs => some cs
  | none => (characterNames.find? fun n => n.openEnded && n.name == name).map (·.characters)

/-! ### Numbers -/

/-- What the numbers 128 to 159 stand for: the characters of the old Western code page. -/
def westernCodes : List Nat :=
  [0x20ac, 0x81, 0x201a, 0x192, 0x201e, 0x2026, 0x2020, 0x2021, 0x2c6, 0x2030, 0x160, 0x2039, 0x152,
    0x8d, 0x17d, 0x8f, 0x90, 0x2018, 0x2019, 0x201c, 0x201d, 0x2022, 0x2013, 0x2014, 0x2dc, 0x2122,
    0x161, 0x203a, 0x153, 0x9d, 0x17e, 0x178]

/-- The character of a number. Zero and numbers that are no code point become the replacement
    character. -/
def numbered (n : Nat) : Char :=
  if n = 0 then '\ufffd'
  else if 0x80 ≤ n ∧ n ≤ 0x9f then Text.charOf ((westernCodes[n - 0x80]?).getD n)
  else Text.charOf n

/-- Controls other than the blank ones, and code points that never stand for a character. -/
def isForbidden (n : Nat) : Bool :=
  (1 ≤ n && n ≤ 8) || n == 0xb || (0xe ≤ n && n ≤ 0x1f) || n == 0x7f || (0xfdd0 ≤ n && n ≤ 0xfdef) ||
    (n % 0x10000 == 0xfffe) || (n % 0x10000 == 0xffff)

/-- In an attribute value a forbidden number stands for nothing. -/
def numberedInValue (n : Nat) : Text :=
  if n ≤ 0x10ffff && isForbidden n then [] else [numbered n]

/-- How many digits stand in front, if they are more than a decimal number may have. -/
def excess? (t : Text) : Option Nat :=
  let n := (t.takeWhile Text.isDigit).length
  if Numeral.maxDigits < n then some n else none

/-! ### Attribute values -/

/-- Characters that may stand in a name in an attribute value. -/
def isReferenceChar (c : Char) : Bool :=
  !(c == '\t' || c == '\n' || c == '\x0c' || c == ' ' || c == '<' || c == '&' || c == '#' || c == ';')

/-- The longest front part of at least two and fewer than `k` characters that is a name without a
    semicolon: its characters and what follows it. -/
def longestName? (run : Text) : Nat → Option (Text × Text)
  | 0 => none
  | k + 1 =>
    if k < 2 then none
    else match namedOpen? (run.take k) with
      | some cs => some (cs, run.drop k)
      | none => longestName? run k

/-- What a run of name characters stands for; `closed` tells of a semicolon behind it. -/
def referenceText (run : Text) (closed : Bool) : Text :=
  let tail : Text := if closed then [';'] else []
  match if closed then named? run else namedOpen? run with
  | some cs => cs
  | none =>
    match longestName? run run.length with
    | some (cs, rest) => cs ++ rest ++ tail
    | none => '&' :: run ++ tail

/-- Drops a semicolon from the front. -/
def dropSemicolon : Text → Bool × Text
  | ';' :: r => (true, r)
  | r => (false, r)

/-- The reference behind an ampersand in an attribute value: the characters it stands for and what follows
    it. A name has at most 32 characters. -/
def reference? (t : Text) : Option (Text × Text) :=
  match t with
  | '#' :: r =>
    match r.takeWhile Text.isDigit with
    | [] =>
      match r with
      | x :: h =>
        if x == 'x' || x == 'X' then
          match h.takeWhile Text.isHexDigit with
          | [] => none
          | ds => some (numberedInValue (Text.ofHex ds), (dropSemicolon (h.dropWhile Text.isHexDigit)).2)
        else none
      | [] => none
    | ds => some (numberedInValue (Text.ofDecimal ds), (dropSemicolon (r.dropWhile Text.isDigit)).2)
  | _ =>
    match (t.take 32).takeWhile isReferenceChar with
    | [] => none
    | run =>
      let (closed, rest) := dropSemicolon (t.drop run.length)
      some (referenceText run closed, rest)

theorem length_dropSemicolon_le (t : Text) : (dropSemicolon t).2.length ≤ t.length := by
  unfold dropSemicolon
  split <;> simp

theorem length_reference? {t cs r : Text} (h : reference? t = some (cs, r)) : r.length ≤ t.length := by
  unfold reference? at h
  split at h
  · next s =>
    split at h
    · split at h
      · next x hs _ =>
        split at h
        · split at h
          · simp at h
          · simp only [Option.some.injEq, Prod.mk.injEq] at h
            obtain ⟨-, rfl⟩ := h
            have h1 := length_dropSemicolon_le (hs.dropWhile Text.isHexDigit)
            have h2 := Text.length_dropWhile_le Text.isHexDigit hs
            simp only [List.length_cons]
            omega
        · simp at h
      · simp at h
    · simp only [Option.some.injEq, Prod.mk.injEq] at h
      obtain ⟨-, rfl⟩ := h
      have h1 := length_dropSemicolon_le (s.dropWhile Text.isDigit)
      have h2 := Text.length_dropWhile_le Text.isDigit s
      simp only [List.length_cons]
      omega
  · split at h
    · simp at h
    · next run _ _ =>
      simp only [Option.some.injEq, Prod.mk.injEq] at h
      obtain ⟨-, rfl⟩ := h
      have h1 := length_dropSemicolon_le (t.drop ((t.take 32).takeWhile isReferenceChar).length)
      simp only [List.length_drop] at h1
      omega

/-- An attribute value with its references replaced. -/
def unescape (t : Text) : Text :=
  match t with
  | [] => []
  | c :: r =>
    if c = '&' then
      match _h : reference? r with
      | some (cs, rest) => cs ++ unescape rest
      | none => c :: unescape r
    else c :: unescape r
termination_by t.length
decreasing_by
  · exact Nat.lt_succ_of_le (length_reference? _h)
  all_goals simp

/-- The number of digits of the first decimal reference in an attribute value that has too many of them. -/
def longReference? (t : Text) : Option Nat :=
  match t with
  | [] => none
  | c :: r =>
    match if c = '&' ∧ r.head? = some '#' then excess? (r.drop 1) else none with
    | some n => some n
    | none => longReference? r

end Markup
end Stylebook
