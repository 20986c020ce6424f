import Stylebook.Selector.Basic
import Stylebook.Text.Case

/-! Reading selectors. `lexeme?` takes one lexeme off the front of a text, `scan` takes as many as there
    are, and `groups` puts the parts together. Blanks between two parts of a group are a descendant mark;
    next to a comma or an end they mean nothing. -/

namespace Stylebook
namespace Selector

/-! ### Lexemes -/

inductive Lexeme
  | blank
  | comma
  | part (p : Part)
  deriving DecidableEq, Repr

def isNameChar (c : Char) : Bool := Text.isWord c || c == '-'

/-- The name at the front of a text and what follows it. -/
def name? (t : Text) : Option (Text × Text) :=
  match t.takeWhile isNameChar with
  | [] => none
  | name => some (name, t.dropWhile isNameChar)

/-- Blanks and a closing bracket. -/
def closeBracket? (t : Text) : Option Text :=
  match Text.skipBlanks t with
  | ']' :: r => some r
  | _ => none

/-- A value between two quotes `q`, and the closing bracket behind it. -/
def quotedValue? (q : Char) : Text → Option (Text × Text)
  | [] => none
  | c :: r =>
    if c = q then
      match r.dropWhile (· != q) with
      | [] => none
      | _ :: rest => (closeBracket? rest).map fun rest => (r.takeWhile (· != q), rest)
    else none

def isBareChar (c : Char) : Bool := c != ']' && !Text.isBlank c

/-- A value without quotes, which may be empty, and the closing bracket behind it. -/
def bareValue? (t : Text) : Option (Text × Text) :=
  (closeBracket? (t.dropWhile isBareChar)).map fun rest => (t.takeWhile isBareChar, rest)

/-- A value in double quotes, in single quotes or bare: the first way that reaches the bracket. -/
def value? (t : Text) : Option (Text × Text) :=
  match quotedValue? '"' t with
  | some answer => some answer
  | none =>
    match quotedValue? '\'' t with
    | some answer => some answer
    | none => bareValue? t

/-- An attribute part behind its opening bracket. -/
def attribute? (t : Text) : Option (Part × Text) :=
  match name? (Text.skipBlanks t) with
  | none => none
  | some (name, r) =>
    match Text.skipBlanks r with
    | ']' :: rest => some (.attribute name none, rest)
    | '=' :: r => (value? (Text.skipBlanks r)).map fun (v, rest) => (.attribute name (some v), rest)
    | _ => none

def isArgumentChar (c : Char) : Bool := c != '(' && c != ')'

/-- A pseudo part behind its colon; an argument stands in parentheses and has none inside. -/
def pseudo? (t : Text) : Option (Part × Text) :=
  match name? t with
  | none => none
  | some (name, r) =>
    match r with
    | '(' :: a =>
      match a.dropWhile isArgumentChar with
      | ')' :: rest => some (.pseudo name (some (a.takeWhile isArgumentChar)), rest)
      | _ => some (.pseudo name none, r)
    | _ => some (.pseudo name none, r)

/-- The lexeme at the front of a text and what follows it. Tag names are read in lower case. -/
def lexeme? : Text → Option (Lexeme × Text)
  | [] => none
  | c :: r =>
    if Text.isBlank c then some (.blank, Text.skipBlanks r)
    else if c = ',' then some (.comma, r)
    else if c = '#' then (name? r).map fun (n, rest) => (.part (.id n), rest)
    else if c = '.' then (name? r).map fun (n, rest) => (.part (.className n), rest)
    else if c = '[' then (attribute? r).map fun (p, rest) => (.part p, rest)
    else if c = ':' then (pseudo? r).map fun (p, rest) => (.part p, rest)
    else if c = '*' then some (.part .universal, r)
    else (name? (c :: r)).map fun (n, rest) => (.part (.tag (Text.lower n)), rest)

/-! ### Every lexeme takes something -/

theorem length_name? {t n r : Text} (h : name? t = some (n, r)) : r.length < t.length := by
  have hap := congrArg List.length (List.takeWhile_append_dropWhile (p := isNameChar) (l := t))
  rw [List.length_append] at hap
  simp only [name?] at h
  split at h
  · simp at h
  · next hne =>
    simp only [Option.some.injEq, Prod.mk.injEq] at h
    obtain ⟨-, rfl⟩ := h
    have := List.length_pos_iff.mpr hne
    omega

theorem length_skipBlanks_le (t : Text) : (Text.skipBlanks t).length ≤ t.length :=
  Text.length_dropWhile_le _ t

theorem length_closeBracket? {t r : Text} (h : closeBracket? t = some r) : r.length < t.length := by
  have := length_skipBlanks_le t
  simp only [closeBracket?] at h
  split at h
  · next heq =>
    simp only [Option.some.injEq] at h
    subst h
    simp only [heq, List.length_cons] at this
    omega
  · simp at h

theorem length_quotedValue? {q : Char} {t v r : Text} (h : quotedValue? q t = some (v, r)) :
    r.length < t.length := by
  cases t with
  | nil => simp [quotedValue?] at h
  | cons c t =>
    have hle := Text.length_dropWhile_le (· != q) t
    simp only [quotedValue?] at h
    split at h
    · split at h
      · simp at h
      · next heq =>
        simp only [Option.map_eq_some_iff, Prod.mk.injEq] at h
        obtain ⟨r', hr', -, rfl⟩ := h
        have := length_closeBracket? hr'
        simp only [heq, List.length_cons] at hle ⊢
        omega
    · simp at h

theorem length_value? {t v r : Text} (h : value? t = some (v, r)) : r.length < t.length := by
  simp only [value?] at h
  split at h
  · next heq =>
    cases h
    exact length_quotedValue? heq
  · split at h
    · next heq =>
      cases h
      exact length_quotedValue? heq
    · simp only [bareValue?, Option.map_eq_some_iff, Prod.mk.injEq] at h
      obtain ⟨r', hr', -, rfl⟩ := h
      have := length_closeBracket? hr'
      have := Text.length_dropWhile_le isBareChar t
      omega

theorem length_attribute? {t : Text} {p : Part} {r : Text} (h : attribute? t = some (p, r)) :
    r.length < t.length := by
  have h0 := length_skipBlanks_le t
  simp only [attribute?] at h
  split at h
  · simp at h
  · next n r1 hn =>
    have h1 := length_name? hn
    have h2 := length_skipBlanks_le r1
    split at h
    · next heq =>
      simp only [Option.some.injEq, Prod.mk.injEq] at h
      obtain ⟨-, rfl⟩ := h
      simp only [heq, List.length_cons] at h2
      omega
    · next r2 heq =>
      simp only [Option.map_eq_some_iff, Prod.mk.injEq, Prod.exists] at h
      obtain ⟨v, r', hv, -, rfl⟩ := h
      have h3 := length_value? hv
      have h4 := length_skipBlanks_le r2
      simp only [heq, List.length_cons] at h2
      omega
    · simp at h

theorem length_pseudo? {t : Text} {p : Part} {r : Text} (h : pseudo? t = some (p, r)) :
    r.length < t.length := by
  simp only [pseudo?] at h
  split at h
  · simp at h
  · next n r1 hn =>
    have h1 := length_name? hn
    split at h
    · next a =>
      have h2 := Text.length_dropWhile_le isArgumentChar a
      split at h
      · next heq =>
        simp only [Option.some.injEq, Prod.mk.injEq] at h
        obtain ⟨-, rfl⟩ := h
        simp only [heq, List.length_cons] at h1 h2
        omega
      · simp only [Option.some.injEq, Prod.mk.injEq] at h
        obtain ⟨-, rfl⟩ := h
        exact h1
    · simp only [Option.some.injEq, Prod.mk.injEq] at h
      obtain ⟨-, rfl⟩ := h
      exact h1

theorem length_lexeme? {t : Text} {l : Lexeme} {r : Text} (h : lexeme? t = some (l, r)) :
    r.length < t.length := by
  cases t with
  | nil => simp [lexeme?] at h
  | cons c t =>
    simp only [lexeme?] at h
    simp only [List.length_cons]
    repeat' split at h
    · simp only [Option.some.injEq, Prod.mk.injEq] at h
      obtain ⟨-, rfl⟩ := h
      have := length_skipBlanks_le t
      omega
    · simp only [Option.some.injEq, Prod.mk.injEq] at h
      obtain ⟨-, rfl⟩ := h
      omega
    · simp only [Option.map_eq_some_iff, Prod.mk.injEq, Prod.exists] at h
      obtain ⟨n, r', hn, -, rfl⟩ := h
      have := length_name? hn
      omega
    · simp only [Option.map_eq_some_iff, Prod.mk.injEq, Prod.exists] at h
      obtain ⟨n, r', hn, -, rfl⟩ := h
      have := length_name? hn
      omega
    · simp only [Option.map_eq_some_iff, Prod.mk.injEq, Prod.exists] at h
      obtain ⟨n, r', hn, -, rfl⟩ := h
      have := length_attribute? hn
      omega
    · simp only [Option.map_eq_some_iff, Prod.mk.injEq, Prod.exists] at h
      obtain ⟨n, r', hn, -, rfl⟩ := h
      have := length_pseudo? hn
      omega
    · simp only [Option.some.injEq, Prod.mk.injEq] at h
      obtain ⟨-, rfl⟩ := h
      omega
    · simp only [Option.map_eq_some_iff, Prod.mk.injEq, Prod.exists] at h
      obtain ⟨n, r', hn, -, rfl⟩ := h
      simpa using length_name? hn

/-! ### Groups -/

/-- The lexemes of a text, as far as it has them, and the text that is left. -/
def scan (t : Text) : List Lexeme × Text :=
  match _h : lexeme? t with
  | none => ([], t)
  | some (l, r) =>
    let (ls, rest) := scan r
    (l :: ls, rest)
termination_by t.length
decreasing_by exact length_lexeme? _h

/-- Puts lexemes together to groups. `current` is the group begun, `pending` tells of blanks behind its
    last part, and `fault` is the error that stands behind the last lexeme. -/
def groups (selector : Text) (fault : Option Error) (current : Group) (pending : Bool) :
    List Lexeme → Except Error (List Group)
  | [] =>
    match fault with
    | some e => .error e
    | none => if current.isEmpty then .error (.trailingComma selector) else .ok [current]
  | .blank :: r => groups selector fault current (!current.isEmpty) r
  | .comma :: r =>
    if current.isEmpty then .error (.emptyGroup selector)
    else (groups selector fault [] false r).map (current :: ·)
  | .part p :: r =>
    groups selector fault (current ++ (if pending then [.descendant, p] else [p])) false r

/-- The groups of a selector; blank text has none. The offset of a fault counts from the first character
    that is not blank. -/
def parse (selector : Text) : Except Error (List Group) :=
  let t := Text.trim selector
  if t.isEmpty then .ok []
  else
    let (lexemes, rest) := scan t
    let fault := if rest.isEmpty then none else some (.unsupported (t.length - rest.length) selector)
    groups selector fault [] false lexemes

end Selector
end Stylebook
