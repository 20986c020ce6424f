/-! Text as a list of code points, and the small operations every other module reads and writes it with:
    blank characters, trimming, splitting, joining and decimal numbers. -/

namespace Stylebook

/-- Every rule of this library counts, cuts and compares text by code point, so text is the list of its
    code points. -/
abbrev Text := List Char

end Stylebook

/-- The code points of a string. Words and messages are written as strings and used as text. -/
def String.text (s : String) : Stylebook.Text := s.toList

theorem String.text_inj {a b : String} : a.text = b.text ↔ a = b := String.toList_inj

namespace Stylebook
namespace Text

/-- Blank characters: the white space of Unicode together with the four information separators. -/
def isBlank (c : Char) : Bool :=
  let n := c.toNat
  (9 ≤ n && n ≤ 13) || (28 ≤ n && n ≤ 32) || n == 0x85 || n == 0xa0 || n == 0x1680 ||
    (0x2000 ≤ n && n ≤ 0x200a) || n == 0x2028 || n == 0x2029 || n == 0x202f || n == 0x205f || n == 0x3000

/-! ### Trimming -/

def trimLeftBy (p : Char → Bool) (t : Text) : Text := t.dropWhile p

def trimRightBy (p : Char → Bool) (t : Text) : Text := (t.reverse.dropWhile p).reverse

def trimBy (p : Char → Bool) (t : Text) : Text := trimRightBy p (trimLeftBy p t)

def skipBlanks (t : Text) : Text := trimLeftBy isBlank t

def trimRight (t : Text) : Text := trimRightBy isBlank t

def trim (t : Text) : Text := trimBy isBlank t

/-- The rest of the text after `p`, which has to stand at its start. -/
def after? : Text → Text → Option Text
  | [], t => some t
  | _ :: _, [] => none
  | c :: p, d :: t => if c = d then after? p t else none

/-- Drops `p` from the start of the text, if it stands there. -/
def dropStart (p : Text) (t : Text) : Text := (after? p t).getD t

/-- Drops `p` from the end of the text, if it stands there. -/
def dropEnd (p : Text) (t : Text) : Text := (dropStart p.reverse t.reverse).reverse

/-! ### Splitting and joining -/

/-- The pieces between the characters that satisfy `p`; there is one piece more than such characters. -/
def split (p : Char → Bool) : Text → List Text
  | [] => [[]]
  | c :: r =>
    if p c then [] :: split p r
    else match split p r with
      | [] => [[c]]
      | piece :: pieces => (c :: piece) :: pieces

/-- The lines of a text, which end at line feeds only. -/
def lines (t : Text) : List Text := split (· == '\n') t

/-- The non-empty pieces between blank characters. -/
def words (t : Text) : List Text := (split isBlank t).filter (!·.isEmpty)

def join (sep : Text) (ts : List Text) : Text := List.intercalate sep ts

/-- The text before and after the first place where `p` stands, if there is one. -/
def cut? (p : Text) : Text → Option (Text × Text)
  | [] => if p.isEmpty then some ([], []) else none
  | c :: r =>
    match after? p (c :: r) with
    | some rest => some ([], rest)
    | none => (cut? p r).map fun (before, rest) => (c :: before, rest)

/-- Whether `p` stands somewhere in the text. -/
def holds (p : Text) (t : Text) : Bool := (cut? p t).isSome

/-- The part of the text up to and including the last `c`, and the part behind it. -/
def cutAfterLast (c : Char) (t : Text) : Text × Text :=
  let tail := (t.reverse.takeWhile (· != c)).reverse
  (t.take (t.length - tail.length), tail)

/-- Every line end, be it a carriage return, a line feed or both, becomes a line feed. -/
def unifyLineEnds : Text → Text
  | [] => []
  | '\r' :: '\n' :: r => '\n' :: unifyLineEnds r
  | '\r' :: r => '\n' :: unifyLineEnds r
  | c :: r => c :: unifyLineEnds r

def replaceChar (c : Char) (by_ : Text) (t : Text) : Text :=
  t.flatMap fun d => if d == c then by_ else [d]

/-! ### Numbers -/

/-- The decimal digits of a number. -/
def decimal (n : Nat) : Text := Nat.toDigits 10 n

def isDigit (c : Char) : Bool := '0' ≤ c && c ≤ '9'

def isLetter (c : Char) : Bool := ('a' ≤ c && c ≤ 'z') || ('A' ≤ c && c ≤ 'Z')

def digitValue (c : Char) : Nat := c.toNat - '0'.toNat

/-- The number written by decimal digits. -/
def ofDecimal (t : Text) : Nat := t.foldl (fun n c => 10 * n + digitValue c) 0

/-- The value of a hexadecimal digit of either case. -/
def hexValue? (c : Char) : Option Nat :=
  if isDigit c then some (digitValue c)
  else if 'a' ≤ c && c ≤ 'f' then some (c.toNat - 'a'.toNat + 10)
  else if 'A' ≤ c && c ≤ 'F' then some (c.toNat - 'A'.toNat + 10)
  else none

def isHexDigit (c : Char) : Bool := (hexValue? c).isSome

/-- The number written by hexadecimal digits. -/
def ofHex (t : Text) : Nat := t.foldl (fun n c => 16 * n + (hexValue? c).getD 0) 0

/-- The hexadecimal digits of a number in lower case, with zeros in front up to `width` digits. -/
def hex (width n : Nat) : Text :=
  let digits := Nat.toDigits 16 n
  List.replicate (width - digits.length) '0' ++ digits

/-- The character with code point `n`, or the replacement character where there is none. -/
def charOf (n : Nat) : Char := if n.isValidChar then Char.ofNat n else '\ufffd'

/-! ### Order -/

/-- Whether `a` comes before `b`, code point by code point. -/
def isBefore (a b : Text) : Bool := a.lex b fun c d => c.toNat < d.toNat

/-! ### Lengths -/

theorem length_dropWhile_le (p : Char → Bool) (t : Text) : (t.dropWhile p).length ≤ t.length :=
  (List.dropWhile_suffix p).length_le

theorem eq_append_of_after? {p t r : Text} (h : after? p t = some r) : t = p ++ r := by
  induction p generalizing t with
  | nil => simpa [after?] using h
  | cons c p ih =>
    cases t with
    | nil => simp [after?] at h
    | cons d t =>
      rw [after?] at h
      split at h
      · next hcd => simp [hcd, ih h]
      · simp at h

theorem length_of_after? {p t r : Text} (h : after? p t = some r) : t.length = p.length + r.length := by
  simp [eq_append_of_after? h]

theorem length_cut? {p t a r : Text} (h : cut? p t = some (a, r)) : t.length = a.length + p.length + r.length := by
  induction t generalizing a with
  | nil =>
    simp only [cut?, List.isEmpty_iff] at h
    split at h <;> simp_all
  | cons c t ih =>
    rw [cut?] at h
    split at h
    · next rest hrest =>
      have := length_of_after? hrest
      simp only [Option.some.injEq, Prod.mk.injEq] at h
      obtain ⟨rfl, rfl⟩ := h
      simpa using this
    · next =>
      simp only [Option.map_eq_some_iff, Prod.mk.injEq] at h
      obtain ⟨⟨b, r'⟩, hb, rfl, rfl⟩ := h
      have := ih hb
      simp only [List.length_cons] at this ⊢
      omega

end Text
end Stylebook
