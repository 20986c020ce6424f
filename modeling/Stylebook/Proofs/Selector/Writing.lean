import Stylebook.Proofs.Text.Lines
import Stylebook.Selector.Reader

/-! Writing selectors. A part can be written in several ways: with either quote around a value and with blanks
    inside of brackets. Parts of a compound stand side by side, blanks part compounds, and a comma parts
    groups. However a selector is written, its parts are read back, with a descendant mark between two
    compounds. -/

namespace Stylebook
namespace Selector

/-! ### What may be written -/

def Blanks (t : Text) : Prop := ∀ c ∈ t, Text.isBlank c = true

def Name (t : Text) : Prop := t ≠ [] ∧ ∀ c ∈ t, isNameChar c = true

instance : DecidablePred Blanks := fun t => List.decidableBAll _ t

instance : DecidablePred Name := fun t =>
  have := List.decidableBAll (fun c => isNameChar c = true) t
  instDecidableAnd

/-- The texts that a part is written with. -/
inductive Part.Writes : Part → Text → Prop
  | tag {n : Text} : Name n → Text.lower n = n → Writes (.tag n) n
  | universal : Writes .universal ['*']
  | id {n : Text} : Name n → Writes (.id n) ('#' :: n)
  | className {n : Text} : Name n → Writes (.className n) ('.' :: n)
  | bare {n a b : Text} : Name n → Blanks a → Blanks b →
      Writes (.attribute n none) ('[' :: (a ++ (n ++ (b ++ [']']))))
  | value {n v a b c d : Text} {q : Char} : Name n → q = '"' ∨ q = '\'' → q ∉ v → Blanks a → Blanks b → Blanks c →
      Blanks d →
      Writes (.attribute n (some v)) ('[' :: (a ++ (n ++ (b ++ '=' :: (c ++ q :: (v ++ q :: (d ++ [']'])))))))
  | pseudo {n : Text} : Name n → Writes (.pseudo n none) (':' :: n)
  | call {n v : Text} : Name n → '(' ∉ v → ')' ∉ v → Writes (.pseudo n (some v)) (':' :: (n ++ '(' :: (v ++ [')'])))

/-- Parts that show where they end, so that a name may stand right behind them. -/
def Part.isClosed : Part → Bool
  | .universal => true
  | .attribute _ _ => true
  | .pseudo _ (some _) => true
  | _ => false

def Part.isTag : Part → Bool
  | .tag _ => true
  | _ => false

/-- The texts of the parts side by side; a tag comes first or behind a part that is closed. -/
inductive Compound.Writes : Compound → Text → Prop
  | one {p : Part} {t : Text} : p.Writes t → Writes [p] t
  | cons {p next : Part} {c : Compound} {t u : Text} : p.Writes t → (next.isTag = true → p.isClosed = true) →
      Writes (next :: c) u → Writes (p :: next :: c) (t ++ u)

/-- The texts of the members of a list, with separators between them. -/
inductive Listed {α : Type} (Writes : α → Text → Prop) (Parts : Text → Prop) : List α → Text → Prop
  | one {x : α} {t : Text} : Writes x t → Listed Writes Parts [x] t
  | cons {x : α} {xs : List α} {t s u : Text} : Writes x t → Parts s → Listed Writes Parts xs u →
      Listed Writes Parts (x :: xs) (t ++ (s ++ u))

def CompoundsWrite : List Compound → Text → Prop := Listed Compound.Writes fun s => s ≠ [] ∧ Blanks s

def GroupsWrite : List (List Compound) → Text → Prop :=
  Listed CompoundsWrite fun s => ∃ a b, Blanks a ∧ Blanks b ∧ s = a ++ ',' :: b

/-- The texts of a selector that is made of the given groups of compounds. -/
def Written (groups : List (List Compound)) (t : Text) : Prop :=
  ∃ front inner back, Blanks front ∧ Blanks back ∧ t = front ++ (inner ++ back) ∧
    (groups = [] ∧ inner = [] ∨ GroupsWrite groups inner)

/-- The group that compounds are read as. -/
def joined (compounds : List Compound) : Group := List.intercalate [.descendant] compounds

/-! ### Characters -/

theorem isNameChar_of_blank {c : Char} (h : Text.isBlank c = true) : isNameChar c = false := by
  have hcodes : ∀ n ∈ List.range' 9 5 ++ List.range' 28 5 ++ List.range' 0x2000 11 ++
      [0x85, 0xa0, 0x1680, 0x2028, 0x2029, 0x202f, 0x205f, 0x3000], isNameChar (Char.ofNat n) = false := by
    decide +kernel
  rw [← Char.ofNat_toNat c]
  apply hcodes
  simp only [Text.isBlank, Bool.or_eq_true, Bool.and_eq_true, decide_eq_true_eq, beq_iff_eq] at h
  simp only [List.mem_append, List.mem_range'_1, List.mem_cons, List.not_mem_nil, or_false]
  omega

theorem Name.not_blank {n : Text} (h : Name n) {c : Char} (hc : c ∈ n) : Text.isBlank c = false := by
  cases hblank : Text.isBlank c with
  | false => rfl
  | true =>
    have hname := h.2 c hc
    rw [isNameChar_of_blank hblank] at hname
    cases hname

theorem Name.head_not_blank {n : Text} (h : Name n) (r : Text) : ∀ c ∈ (n ++ r).head?, Text.isBlank c = false := by
  intro c hc
  rw [List.head?_append_of_ne_nil _ h.1] at hc
  exact h.not_blank (List.mem_of_mem_head? hc)

/-- Nothing that could still belong to a name or open an argument. -/
def Ends (r : Text) : Prop := ∀ c ∈ r.head?, isNameChar c = false ∧ c ≠ '('

theorem Blanks.ends {b r : Text} (h : Blanks b) (hr : Ends r) : Ends (b ++ r) := by
  cases b with
  | nil => exact hr
  | cons c b =>
    have hc := h c List.mem_cons_self
    rintro d ⟨⟩
    exact ⟨isNameChar_of_blank hc, by rintro rfl; cases hc⟩

/-! ### Lexemes -/

theorem skipBlanks_append {b r : Text} (hb : Blanks b) (hr : ∀ c ∈ r.head?, Text.isBlank c = false) :
    Text.skipBlanks (b ++ r) = r := Text.trimLeftBy_append hb hr

theorem name?_append {n r : Text} (hn : Name n) (hr : ∀ c ∈ r.head?, isNameChar c = false) :
    name? (n ++ r) = some (n, r) := by
  have htake : (n ++ r).takeWhile isNameChar = n := Text.takeWhile_append_of_head hn.2 hr
  have hdrop : (n ++ r).dropWhile isNameChar = r := Text.trimLeftBy_append hn.2 hr
  rw [name?, htake, hdrop]
  obtain ⟨c, n, rfl⟩ := List.exists_cons_of_ne_nil hn.1
  rfl

theorem closeBracket?_append {b : Text} (hb : Blanks b) (r : Text) : closeBracket? (b ++ ']' :: r) = some r := by
  simp only [closeBracket?, skipBlanks_append hb (r := ']' :: r) (by rintro _ ⟨⟩; decide)]

theorem quotedValue?_append {q : Char} {v d : Text} (hv : q ∉ v) (hd : Blanks d) (r : Text) :
    quotedValue? q (q :: (v ++ q :: (d ++ ']' :: r))) = some (v, r) := by
  have hinside : ∀ c ∈ v, (c != q) = true := fun c hc => bne_iff_ne.mpr fun heq => hv (heq ▸ hc)
  have hquote : ∀ c ∈ (q :: (d ++ ']' :: r)).head?, (c != q) = false := by
    rintro _ ⟨⟩
    exact bne_self_eq_false q
  have htake := Text.takeWhile_append_of_head hinside hquote
  have hdrop : (v ++ q :: (d ++ ']' :: r)).dropWhile (· != q) = q :: (d ++ ']' :: r) :=
    Text.trimLeftBy_append hinside hquote
  simp only [quotedValue?, if_true, hdrop, htake, closeBracket?_append hd, Option.map_some]

theorem value?_append {q : Char} {v d : Text} (hq : q = '"' ∨ q = '\'') (hv : q ∉ v) (hd : Blanks d) (r : Text) :
    value? (q :: (v ++ q :: (d ++ ']' :: r))) = some (v, r) := by
  rcases hq with rfl | rfl
  · rw [value?, quotedValue?_append hv hd]
  · have hother : quotedValue? '"' ('\'' :: (v ++ '\'' :: (d ++ ']' :: r))) = none := rfl
    rw [value?, hother, quotedValue?_append hv hd]

theorem attribute?_bare {n a b : Text} (hn : Name n) (ha : Blanks a) (hb : Blanks b) (r : Text) :
    attribute? (a ++ (n ++ (b ++ ']' :: r))) = some (.attribute n none, r) := by
  have hbracket : Ends (b ++ ']' :: r) := hb.ends (by rintro _ ⟨⟩; decide)
  rw [attribute?, skipBlanks_append ha (hn.head_not_blank _), name?_append hn fun c hc => (hbracket c hc).1]
  simp only [skipBlanks_append hb (r := ']' :: r) (by rintro _ ⟨⟩; decide)]

theorem attribute?_value {n v a b c d : Text} {q : Char} (hn : Name n) (hq : q = '"' ∨ q = '\'') (hv : q ∉ v)
    (ha : Blanks a) (hb : Blanks b) (hc : Blanks c) (hd : Blanks d) (r : Text) :
    attribute? (a ++ (n ++ (b ++ '=' :: (c ++ q :: (v ++ q :: (d ++ ']' :: r)))))) =
      some (.attribute n (some v), r) := by
  have hsign : Ends (b ++ '=' :: (c ++ q :: (v ++ q :: (d ++ ']' :: r)))) := hb.ends (by rintro _ ⟨⟩; decide)
  have hquote : ∀ x ∈ (q :: (v ++ q :: (d ++ ']' :: r))).head?, Text.isBlank x = false := by
    rintro _ ⟨⟩
    rcases hq with rfl | rfl <;> decide
  rw [attribute?, skipBlanks_append ha (hn.head_not_blank _), name?_append hn fun x hx => (hsign x hx).1]
  simp only [skipBlanks_append hb (r := '=' :: (c ++ q :: (v ++ q :: (d ++ ']' :: r)))) (by rintro _ ⟨⟩; decide),
    skipBlanks_append hc hquote, value?_append hq hv hd, Option.map_some]

theorem pseudo?_plain {n r : Text} (hn : Name n) (hr : Ends r) : pseudo? (n ++ r) = some (.pseudo n none, r) := by
  rw [pseudo?, name?_append hn fun c hc => (hr c hc).1]
  cases r with
  | nil => rfl
  | cons c r =>
    have hc : c ≠ '(' := (hr c rfl).2
    simp only
    split
    · next heq => exact absurd (List.cons.inj heq).1 hc
    · rfl

theorem pseudo?_call {n v : Text} (hn : Name n) (hopen : '(' ∉ v) (hclose : ')' ∉ v) (r : Text) :
    pseudo? (n ++ '(' :: (v ++ ')' :: r)) = some (.pseudo n (some v), r) := by
  have hinside : ∀ c ∈ v, isArgumentChar c = true := by
    intro c hc
    rw [isArgumentChar, Bool.and_eq_true, bne_iff_ne, bne_iff_ne]
    exact ⟨fun heq => hopen (heq ▸ hc), fun heq => hclose (heq ▸ hc)⟩
  have hend : ∀ c ∈ (')' :: r).head?, isArgumentChar c = false := by
    rintro _ ⟨⟩
    rfl
  have htake := Text.takeWhile_append_of_head hinside hend
  have hdrop : (v ++ ')' :: r).dropWhile isArgumentChar = ')' :: r := Text.trimLeftBy_append hinside hend
  rw [pseudo?, name?_append hn (by rintro _ ⟨⟩; decide)]
  simp only [hdrop, htake]

/-- A tag name is none of the marks that lexemes begin with. -/
theorem lexeme?_tag {n r : Text} (hn : Name n) (hr : Ends r) :
    lexeme? (n ++ r) = some (.part (.tag (Text.lower n)), r) := by
  have hname := name?_append hn fun c hc => (hr c hc).1
  obtain ⟨c, n, rfl⟩ := List.exists_cons_of_ne_nil hn.1
  have hc := hn.2 c List.mem_cons_self
  have hmark : ∀ d, isNameChar d = false → c ≠ d := fun d hd heq => by rw [heq, hd] at hc; cases hc
  simp only [List.cons_append] at hname ⊢
  simp only [lexeme?, hn.not_blank List.mem_cons_self, hmark ',' (by decide), hmark '#' (by decide),
    hmark '.' (by decide), hmark '[' (by decide), hmark ':' (by decide), hmark '*' (by decide), hname,
    Bool.false_eq_true, if_false, Option.map_some]

/-- A part that is written in front of a text is read off it, unless its name goes on there. -/
theorem Part.Writes.lexeme? {p : Part} {t r : Text} (h : p.Writes t) (hr : p.isClosed = true ∨ Ends r) :
    lexeme? (t ++ r) = some (.part p, r) := by
  have hname : ∀ {n : Text}, Name n → Ends r → name? (n ++ r) = some (n, r) := fun hn hr =>
    name?_append hn fun c hc => (hr c hc).1
  cases h with
  | tag hn hlower =>
    rw [lexeme?_tag hn (hr.resolve_left Bool.false_ne_true), hlower]
  | universal => rfl
  | id hn =>
    show (name? _).map _ = _
    simp only [List.append_eq, hname hn (hr.resolve_left Bool.false_ne_true), Option.map_some]
  | className hn =>
    show (name? _).map _ = _
    simp only [List.append_eq, hname hn (hr.resolve_left Bool.false_ne_true), Option.map_some]
  | bare hn ha hb =>
    show (attribute? _).map _ = _
    simp only [List.append_eq, List.append_assoc, List.singleton_append, attribute?_bare hn ha hb, Option.map_some]
  | value hn hq hv ha hb hc hd =>
    show (attribute? _).map _ = _
    simp only [List.append_eq, List.append_assoc, List.cons_append, List.nil_append,
      attribute?_value hn hq hv ha hb hc hd, Option.map_some]
  | pseudo hn =>
    show (pseudo? _).map _ = _
    simp only [List.append_eq, pseudo?_plain hn (hr.resolve_left Bool.false_ne_true), Option.map_some]
  | call hn hopen hclose =>
    show (pseudo? _).map _ = _
    simp only [List.append_eq, List.append_assoc, List.cons_append, List.nil_append, pseudo?_call hn hopen hclose,
      Option.map_some]

theorem lexeme?_blanks {s r : Text} (hne : s ≠ []) (hs : Blanks s) (hr : ∀ c ∈ r.head?, Text.isBlank c = false) :
    lexeme? (s ++ r) = some (.blank, r) := by
  obtain ⟨c, s, rfl⟩ := List.exists_cons_of_ne_nil hne
  have hskip := skipBlanks_append (fun d hd => hs d (List.mem_cons_of_mem c hd)) hr
  simp only [List.cons_append, lexeme?, hs c List.mem_cons_self, if_true, hskip]

end Selector
end Stylebook
