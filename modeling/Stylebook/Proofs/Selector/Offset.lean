import Stylebook.Proofs.Selector.Reading
import Stylebook.Proofs.Selector.Texts
import Stylebook.Proofs.Text.Decimal

/-! Where a selector goes wrong. The reader takes lexemes off a text up to the first place where none stands. The offset
    it reports is that place in the text without the blanks at its ends; in the selector itself it lies as much farther
    on as there are blanks in front. Blanks at the end make no difference, since no lexeme needs them. -/

namespace Stylebook
namespace Selector

/-- From the beginning of a text to a position in it, lexemes stand one after the other. -/
inductive ReadTo (t : Text) : Nat → Prop
  | start : ReadTo t 0
  | next {i j : Nat} {l : Lexeme} : ReadTo t i → j ≤ t.length → lexeme? (t.drop i) = some (l, t.drop j) → ReadTo t j

/-- The lexemes of a text end at a position, and no further one stands there. -/
structure FaultAt (t : Text) (k : Nat) : Prop where
  read : ReadTo t k
  stuck : lexeme? (t.drop k) = none

/-- The number of blanks in front of a text. -/
def indent (t : Text) : Nat := (t.takeWhile Text.isBlank).length

/-! ### Blanks at the end -/

/-- The answer of a reader, with more text behind what is left. -/
def followed {α : Type} (b : Text) (answer : Option (α × Text)) : Option (α × Text) :=
  answer.map fun (x, r) => (x, r ++ b)

section
variable {b : Text} (hb : Blanks b)
include hb

theorem Blanks.ne {q : Char} (hq : Text.isBlank q = false) : ∀ c ∈ b, c ≠ q := by
  rintro c hc rfl
  rw [hb c hc] at hq
  cases hq

theorem Blanks.head_not_name : ∀ c ∈ b.head?, isNameChar c = false :=
  fun c hc => isNameChar_of_blank (hb c (List.mem_of_mem_head? hc))

theorem name?_append_blanks (t : Text) : name? (t ++ b) = followed b (name? t) := by
  obtain ⟨htake, hdrop⟩ := Text.run_append_stop hb.head_not_name t
  rw [name?, htake, hdrop, name?]
  split
  · rfl
  · rfl

theorem closeBracket?_append_blanks (t : Text) : closeBracket? (t ++ b) = (closeBracket? t).map (· ++ b) := by
  rcases Text.run_append_all hb t with ⟨hskip, hskip'⟩ | ⟨c, r, hskip, hskip', -⟩
  · simp only [closeBracket?, Text.skipBlanks, Text.trimLeftBy, hskip, hskip', Option.map_none]
  · simp only [closeBracket?, Text.skipBlanks, Text.trimLeftBy, hskip, hskip']
    by_cases hc : c = ']'
    · subst hc
      rfl
    · simp [hc]

theorem quotedValue?_append_blanks {q : Char} (hq : Text.isBlank q = false) (t : Text) :
    quotedValue? q (t ++ b) = followed b (quotedValue? q t) := by
  have hother : ∀ c ∈ b, (c != q) = true := fun c hc => bne_iff_ne.mpr (hb.ne hq c hc)
  cases t with
  | nil =>
    cases b with
    | nil => rfl
    | cons c b =>
      have hc : c ≠ q := by simpa using hother c List.mem_cons_self
      simp [quotedValue?, hc, followed]
  | cons c t =>
    by_cases hc : c = q
    · rw [List.cons_append]
      rcases Text.run_append_all hother t with ⟨hdrop, hdrop'⟩ | ⟨d, r, hdrop, hdrop', htake⟩
      · simp only [quotedValue?, hc, if_true, hdrop, hdrop', followed, Option.map_none]
      · simp only [quotedValue?, hc, if_true, hdrop, hdrop', htake, closeBracket?_append_blanks hb, followed,
          Option.map_map, Function.comp_def]
    · simp [quotedValue?, hc, followed]

theorem bareValue?_append_blanks (t : Text) : bareValue? (t ++ b) = followed b (bareValue? t) := by
  have hhead : ∀ c ∈ b.head?, isBareChar c = false := by
    intro c hc
    simp [isBareChar, hb c (List.mem_of_mem_head? hc)]
  obtain ⟨htake, hdrop⟩ := Text.run_append_stop hhead t
  simp only [bareValue?, htake, hdrop, closeBracket?_append_blanks hb, followed, Option.map_map, Function.comp_def]

theorem value?_append_blanks (t : Text) : value? (t ++ b) = followed b (value? t) := by
  rw [value?, quotedValue?_append_blanks hb rfl, quotedValue?_append_blanks hb rfl, bareValue?_append_blanks hb, value?]
  cases quotedValue? '"' t with
  | some answer => rfl
  | none =>
    cases quotedValue? '\'' t with
    | some answer => rfl
    | none => rfl

/-- A reader that skips blanks first finds nothing if they go on to the end. -/
theorem skipBlanks_append_blanks {α : Type} {f : Text → Option (α × Text)} (hnil : f [] = none)
    (hf : ∀ t, f (t ++ b) = followed b (f t)) (t : Text) :
    f (Text.skipBlanks (t ++ b)) = followed b (f (Text.skipBlanks t)) := by
  rcases Text.run_append_all hb t with ⟨hskip, hskip'⟩ | ⟨c, r, hskip, hskip', -⟩
  · simp only [Text.skipBlanks, Text.trimLeftBy, hskip, hskip', hnil]
    rfl
  · simp only [Text.skipBlanks, Text.trimLeftBy, hskip, hskip']
    exact hf (c :: r)

theorem attribute?_append_blanks (t : Text) : attribute? (t ++ b) = followed b (attribute? t) := by
  rw [attribute?, skipBlanks_append_blanks hb rfl (name?_append_blanks hb), attribute?]
  cases name? (Text.skipBlanks t) with
  | none => rfl
  | some found =>
    obtain ⟨name, rest⟩ := found
    simp only [followed, Option.map_some]
    rcases Text.run_append_all hb rest with ⟨hskip, hskip'⟩ | ⟨c, r, hskip, hskip', -⟩
    · simp only [Text.skipBlanks, Text.trimLeftBy, hskip, hskip', Option.map_none]
    · have hvalue := skipBlanks_append_blanks hb rfl (value?_append_blanks hb) r
      simp only [Text.skipBlanks, Text.trimLeftBy, hskip, hskip'] at hvalue ⊢
      by_cases hclose : c = ']'
      · subst hclose
        rfl
      by_cases hsign : c = '='
      · subst hsign
        simp only [hvalue, followed, Option.map_map, Function.comp_def]
      · simp [hclose, hsign]

theorem pseudo?_append_blanks (t : Text) : pseudo? (t ++ b) = followed b (pseudo? t) := by
  rw [pseudo?, name?_append_blanks hb, pseudo?]
  cases name? t with
  | none => rfl
  | some found =>
    obtain ⟨name, rest⟩ := found
    simp only [followed, Option.map_some]
    cases rest with
    | nil =>
      cases b with
      | nil => rfl
      | cons c b =>
        have hc : c ≠ '(' := hb.ne rfl c List.mem_cons_self
        simp [hc]
    | cons c a =>
      by_cases hopen : c = '('
      · subst hopen
        have hinside : ∀ d ∈ b, isArgumentChar d = true := by
          intro d hd
          rw [isArgumentChar, Bool.and_eq_true, bne_iff_ne, bne_iff_ne]
          exact ⟨hb.ne rfl d hd, hb.ne rfl d hd⟩
        rcases Text.run_append_all hinside a with ⟨hdrop, hdrop'⟩ | ⟨d, r, hdrop, hdrop', htake⟩
        · simp only [List.cons_append, hdrop, hdrop', Option.map_some]
        · simp only [List.cons_append, hdrop, hdrop', htake]
          by_cases hclose : d = ')'
          · subst hclose
            rfl
          · simp [hclose]
      · simp [hopen]

/-- A lexeme is the same if blanks are put to the end of a text that ends with none. -/
theorem lexeme?_append_blanks {t : Text} (hne : t ≠ []) (hlast : ∀ c ∈ t.getLast?, Text.isBlank c = false) :
    lexeme? (t ++ b) = followed b (lexeme? t) := by
  obtain ⟨c, t, rfl⟩ := List.exists_cons_of_ne_nil hne
  have hname := name?_append_blanks hb
  rw [List.cons_append, lexeme?, lexeme?, ← List.cons_append, hname, hname, attribute?_append_blanks hb,
    pseudo?_append_blanks hb]
  split
  · next hc =>
    rcases Text.run_append_all hb t with ⟨hskip, -⟩ | ⟨d, r, hskip, hskip', -⟩
    · -- the text would end with a blank
      have hall : ∀ d ∈ c :: t, Text.isBlank d = true :=
        List.forall_mem_cons.mpr ⟨hc, List.dropWhile_eq_nil_iff.mp hskip⟩
      have hend := List.getLast?_eq_some_getLast hne
      have hblank := hall _ (List.mem_of_mem_getLast? hend)
      rw [hlast _ hend] at hblank
      cases hblank
    · simp only [Text.skipBlanks, Text.trimLeftBy, hskip, hskip']
      rfl
  · simp only [followed, apply_ite (Option.map fun x : Lexeme × Text => (x.1, x.2 ++ b)), Option.map_some,
      Option.map_map, Function.comp_def]

end

/-! ### Positions -/

theorem ReadTo.le_length {t : Text} {k : Nat} (h : ReadTo t k) : k ≤ t.length := by
  cases h with
  | start => exact Nat.zero_le _
  | next _ hj _ => exact hj

/-- What is left of a text is the same for each position that is read to. -/
theorem ReadTo.scan_eq {t : Text} {k : Nat} (h : ReadTo t k) : (scan t).2 = (scan (t.drop k)).2 := by
  induction h with
  | start => rfl
  | next _ _ hread ih => rw [ih, scan_cons hread]

/-- What is left of a text stands behind the fault. -/
theorem FaultAt.scan_eq {t : Text} {k : Nat} (h : FaultAt t k) : (scan t).2 = t.drop k := by
  rw [h.read.scan_eq, scan]
  split
  · rfl
  · next hread => cases h.stuck.symm.trans hread

theorem FaultAt.unique {t : Text} {i j : Nat} (hi : FaultAt t i) (hj : FaultAt t j) : i = j := by
  have hile := hi.read.le_length
  have hjle := hj.read.le_length
  have hlength := congrArg List.length (hi.scan_eq.symm.trans hj.scan_eq)
  simp only [List.length_drop] at hlength
  omega

section
variable {front r : Text} {l : Lexeme} (hread : lexeme? (front ++ r) = some (l, r)) {k : Nat}
include hread

theorem ReadTo.behind (h : ReadTo r k) : ReadTo (front ++ r) (front.length + k) := by
  induction h with
  | start => exact .next .start (by simp) (by simpa using hread)
  | next _ hj hnext ih => exact .next ih (by simpa using hj) (by simpa [List.drop_length_add_append] using hnext)

theorem FaultAt.behind (h : FaultAt r k) : FaultAt (front ++ r) (front.length + k) where
  read := h.read.behind hread
  stuck := by simpa [List.drop_length_add_append] using h.stuck

end

/-- Every text has a fault, if its end counts as one. -/
theorem exists_faultAt (t : Text) : ∃ k, FaultAt t k := by
  fun_induction scan t with
  | case1 t hnone => exact ⟨0, .start, hnone⟩
  | case2 t l r hread ls rest hscan ih =>
    obtain ⟨k, hk⟩ := ih
    obtain ⟨front, rfl⟩ := (pieces_of_lexeme? hread).2
    exact ⟨front.length + k, hk.behind hread⟩

section
variable {t b : Text} (hlast : ∀ c ∈ t.getLast?, Text.isBlank c = false) (hb : Blanks b)
include hlast hb

theorem lexeme?_drop_append {i : Nat} (hi : i < t.length) :
    lexeme? ((t ++ b).drop i) = followed b (lexeme? (t.drop i)) := by
  rw [List.drop_append_of_le_length hi.le]
  refine lexeme?_append_blanks hb (by simpa using hi) fun c hc => hlast c ?_
  rw [List.getLast?_drop, if_neg (by omega)] at hc
  exact hc

theorem ReadTo.append_blanks {k : Nat} (h : ReadTo t k) : ReadTo (t ++ b) k := by
  induction h with
  | start => exact .start
  | @next i j l hi hj hread ih =>
    have hlt : i < t.length := by
      by_contra hge
      rw [List.drop_eq_nil_of_le (by omega)] at hread
      cases hread
    refine .next (l := l) ih (by simp; omega) ?_
    rw [lexeme?_drop_append hlast hb hlt, hread, List.drop_append_of_le_length hj]
    rfl

theorem FaultAt.append_blanks {k : Nat} (h : FaultAt t k) (hk : k < t.length) : FaultAt (t ++ b) k where
  read := h.read.append_blanks hlast hb
  stuck := by
    rw [lexeme?_drop_append hlast hb hk, h.stuck]
    rfl

end

/-! ### Selectors -/

/-- A text is its trimmed form between blanks. -/
theorem exists_trim (t : Text) : ∃ front back, t = front ++ (Text.trim t ++ back) ∧ Blanks front ∧ Blanks back ∧
    (Text.trim t ≠ [] → indent t = front.length) := by
  obtain ⟨front, rest, rfl, hfront, hrest⟩ := Text.exists_run Text.isBlank t
  obtain ⟨run, inner, hrev, hrun, hinner⟩ := Text.exists_run Text.isBlank rest.reverse
  obtain rfl : rest = inner.reverse ++ run.reverse := by rw [← List.reverse_append, ← hrev, List.reverse_reverse]
  have hback : Blanks run.reverse := fun c hc => hrun c (List.mem_reverse.mp hc)
  have hright : Text.trimRightBy Text.isBlank (inner.reverse ++ run.reverse) = inner.reverse := by
    have hnil : Text.trimRightBy Text.isBlank run.reverse = [] := List.rdropWhile_eq_nil_iff.mpr hback
    rw [Text.trimRightBy_append, if_pos hnil]
    exact Text.trimRightBy_of_last (by simpa using hinner)
  have htrim : Text.trim (front ++ (inner.reverse ++ run.reverse)) = inner.reverse := by
    rw [Text.trim, Text.trimBy, Text.trimLeftBy_append hfront hrest, hright]
  refine ⟨front, run.reverse, by rw [htrim], hfront, hback, fun _ => ?_⟩
  rw [indent, Text.takeWhile_append_of_head hfront hrest]

theorem error_of_groups {selector : Text} {fault : Option Error} {current : Group} {pending : Bool}
    {lexemes : List Lexeme} {e : Error} (h : groups selector fault current pending lexemes = .error e) :
    e = .emptyGroup selector ∨ e = .trailingComma selector ∨ fault = some e := by
  fun_induction groups selector fault current pending lexemes with
  | case1 current pending e' hfault =>
    cases h
    exact .inr (.inr hfault)
  | case2 =>
    cases h
    exact .inr (.inl rfl)
  | case3 => cases h
  | case4 current pending r ih => exact ih h
  | case5 =>
    cases h
    exact .inl rfl
  | case6 current pending r hne ih =>
    cases hrest : groups selector fault [] false r with
    | error e' =>
      rw [hrest] at h
      cases h
      exact ih hrest
    | ok more =>
      rw [hrest] at h
      cases h
  | case7 current pending p r ih => exact ih h

/-- An offset that is reported is the place of the fault in the trimmed selector. -/
theorem faultAt_trim {s q : Text} {k : Nat} (h : parse s = .error (.unsupported k q)) :
    q = s ∧ FaultAt (Text.trim s) k ∧ k < (Text.trim s).length := by
  unfold parse at h
  dsimp only at h
  split at h
  · cases h
  obtain ⟨j, hj⟩ := exists_faultAt (Text.trim s)
  have hle := hj.read.le_length
  have hrest := hj.scan_eq
  rcases error_of_groups h with heq | heq | hfault
  · cases heq
  · cases heq
  · split at hfault
    · cases hfault
    · next hne =>
      cases hfault
      rw [hrest, List.isEmpty_iff, List.drop_eq_nil_iff] at hne
      have hk : (Text.trim s).length - (scan (Text.trim s)).2.length = j := by
        rw [hrest, List.length_drop]
        omega
      rw [hk]
      exact ⟨rfl, hj, by omega⟩

/-- Blanks in front are one lexeme, so that they move a fault by their number. -/
theorem FaultAt.indented {front t : Text} {k : Nat} (hfront : Blanks front)
    (hhead : ∀ c ∈ t.head?, Text.isBlank c = false) (h : FaultAt t k) : FaultAt (front ++ t) (front.length + k) := by
  rcases eq_or_ne front [] with rfl | hne
  · simpa using h
  · exact h.behind (lexeme?_blanks hne hfront hhead)

theorem eq_unsupported_of_message {s : Text} {k : Nat} {e : Error} (h : parse s = .error e)
    (hmessage : e.message =
      "Unsupported selector syntax at offset ".text ++ Text.decimal k ++ " in ".text ++ Text.quoted s) :
    e = .unsupported k s := by
  cases e with
  | unsupported k' q =>
    obtain ⟨rfl, -⟩ := faultAt_trim h
    rw [Error.message, List.append_left_inj, List.append_left_inj, List.append_right_inj] at hmessage
    rw [Text.decimal_injective hmessage]
  | emptyGroup q => cases hmessage
  | trailingComma q => cases hmessage

/-- Where a selector is refused at an offset, its lexemes end as far behind the blanks in front of it, and no lexeme
    stands there. So the offset is a place in the selector itself exactly if no blanks stand in front. -/
theorem parse_unsupported {s : Text} {k : Nat} {e : Error} (h : parse s = .error e)
    (hmessage : e.message =
      "Unsupported selector syntax at offset ".text ++ Text.decimal k ++ " in ".text ++ Text.quoted s) :
    e = .unsupported k s ∧ FaultAt s (indent s + k) ∧ indent s + k < s.length ∧ (FaultAt s k ↔ indent s = 0) := by
  have heq := eq_unsupported_of_message h hmessage
  rw [heq] at h
  obtain ⟨-, hfault, hlt⟩ := faultAt_trim h
  obtain ⟨front, back, hs, hfront, hback, hindent⟩ := exists_trim s
  have hne : Text.trim s ≠ [] := List.ne_nil_of_length_pos (by omega)
  have hhead : ∀ c ∈ (Text.trim s ++ back).head?, Text.isBlank c = false := by
    rw [List.head?_append_of_ne_nil _ hne]
    exact Text.head?_trimBy _ s
  have hplace : FaultAt s (indent s + k) := by
    rw [hindent hne, hs]
    exact (hfault.append_blanks (Text.getLast?_trimBy _ s) hback hlt).indented hfront hhead
  have hlength := congrArg List.length hs
  simp only [List.length_append] at hlength
  refine ⟨heq, hplace, by rw [hindent hne]; omega, fun hk => ?_, fun hzero => ?_⟩
  · have hsame := hk.unique hplace
    omega
  · rw [hzero, Nat.zero_add] at hplace
    exact hplace

theorem parse_unsupported_child : parse "\t nav a > b ".text = .error (.unsupported 6 "\t nav a > b ".text) ∧
    FaultAt "\t nav a > b ".text 8 ∧ ¬FaultAt "\t nav a > b ".text 6 := by
  have hparse : parse "\t nav a > b ".text = .error (.unsupported 6 "\t nav a > b ".text) := by decide +kernel
  obtain ⟨-, hfault, -, hsame⟩ := parse_unsupported hparse rfl
  exact ⟨hparse, hfault, fun h => absurd (hsame.mp h) (by decide)⟩

/-- The fault of ` a>b` is the sign, and the offset that is reported is that of the letter in front of it. -/
theorem parse_indented_offset : ∃ e, parse " a>b".text = .error e ∧
    e.message = "Unsupported selector syntax at offset 1 in ' a>b'".text ∧ ¬FaultAt " a>b".text 1 := by
  refine ⟨.unsupported 1 " a>b".text, by decide +kernel, by decide +kernel, fun h => ?_⟩
  cases h.stuck

end Selector
end Stylebook
