import Stylebook.Doc.Comment
import Stylebook.Proofs.Text.Lines

/-! The normal form of a comment. A text in normal form stays as it is, and it differs from the comment it was made of
    in its blanks only. Behind its first line, which has no margin, every line has content behind a margin of one space
    or of none; only at the end of the text a line without content may be left. How wide the margins of the comment
    were is lost, and so is what separates its lines with content. -/

namespace Stylebook
namespace Doc

open Text

/-! ### What the margins keep -/

theorem not_mem_unifyMargins {c : Char} (hc : c ≠ ' ') {t : Text} (h : c ∉ t) (place : Place) :
    c ∉ unifyMargins place t := by
  fun_induction unifyMargins place t <;> simp_all

theorem filter_unifyMargins (place : Place) (t : Text) :
    (unifyMargins place t).filter (!isBlank ·) = t.filter (!isBlank ·) := by
  have hspace : isBlank ' ' = true := rfl
  fun_induction unifyMargins place t with
  | case1 => rfl
  | case2 c r hc ih => simpa [hspace, hc] using ih
  | case3 c r hc ih => simpa [hc] using ih
  | case4 c r hc ih => simpa [hc] using ih
  | case5 c r hc ih => simpa [hc] using ih
  | case6 c r ih => simp only [List.filter_cons, ih]

/-- Margins that are in order stay as they are. -/
theorem unifyMargins_unifyMargins (place : Place) (t : Text) :
    unifyMargins place (unifyMargins place t) = unifyMargins place t := by
  fun_induction unifyMargins place t with
  | case1 place => cases place <;> rfl
  | case2 c r hc ih => exact congrArg (' ' :: ·) ih
  | case3 c r hc ih => rw [unifyMargins, if_neg hc, ih]
  | case4 c r hc ih => exact ih
  | case5 c r hc ih => rw [unifyMargins, if_neg hc, ih]
  | case6 c r ih => rw [unifyMargins, ih]

/-! ### Past the margin -/

/-- A text that begins with content, unless it is empty. -/
def Flush (t : Text) : Prop := ∀ c ∈ t.head?, isBlank c = false

theorem flush_unifyMargins (t : Text) : Flush (unifyMargins .margin t) := by
  unfold Flush
  induction t with
  | nil => simp [unifyMargins]
  | cons c t ih =>
    rw [unifyMargins]
    split
    · exact ih
    · next hc => simpa using hc

theorem unifyMargins_of_flush {t : Text} (h : Flush t) : unifyMargins .start t = unifyMargins .margin t := by
  cases t with
  | nil => rfl
  | cons c t =>
    have hc : isBlank c = false := h c rfl
    simp [unifyMargins, hc]

theorem flush_head_lines {t : Text} (h : Flush t) : ∀ line ∈ (lines t).head?, Flush line := by
  rintro line hline
  cases t with
  | nil =>
    cases hline
    exact h
  | cons c t =>
    obtain ⟨rest, line', hlines, hcons⟩ := lines_cons (ne_lineFeed (h c rfl)) t
    rw [hcons] at hline
    cases hline
    exact h

theorem dropSpace_of_flush {t : Text} (h : Flush t) : dropStart [' '] t = t := by
  refine dropStart_of_not_prefix ?_
  rintro ⟨rest, rfl⟩
  cases h ' ' rfl

/-- The first line has no margin, hence a comment is read as if it stood behind one. -/
theorem normalize_eq (t : Text) : normalize t = unifyMargins .margin (unifyLineEnds t) := by
  unfold normalize
  cases unifyLineEnds t with
  | nil => rfl
  | cons c r =>
    by_cases hc : isBlank c = true
    · rw [unifyMargins, if_pos hc, unifyMargins, if_pos hc]
      exact dropStart_append [' '] _
    · have hflush : Flush (c :: r) := by simpa [Flush] using hc
      rw [unifyMargins_of_flush hflush, dropSpace_of_flush (flush_unifyMargins _)]

/-! ### Lines -/

/-- A line with content behind a margin of one space or of none. -/
def Indented (line : Text) : Prop := ∃ c r, isBlank c = false ∧ (line = c :: r ∨ line = ' ' :: c :: r)

/-- Lines with content, the last of which may be without. -/
structure Margined (later : List Text) : Prop where
  indented : ∀ line ∈ later.dropLast, Indented line
  last : ∀ line ∈ later.getLast?, Indented line ∨ line = [] ∨ line = [' ']

theorem margined_nil : Margined [] := ⟨by simp, by simp⟩

theorem Margined.cons {line : Text} {later : List Text} (hline : Indented line) (h : Margined later) :
    Margined (line :: later) := by
  cases later with
  | nil => exact ⟨by simp, by simpa using Or.inl hline⟩
  | cons next later =>
    refine ⟨?_, by simpa using h.last⟩
    rw [List.dropLast_cons_cons, List.forall_mem_cons]
    exact ⟨hline, h.indented⟩

theorem margined_singleton {line : Text} (h : line = [] ∨ line = [' ']) : Margined [line] :=
  ⟨by simp, by simpa using Or.inr h⟩

theorem Margined.tail {later : List Text} (h : Margined later) : Margined later.tail := by
  cases later with
  | nil => exact h
  | cons line later =>
    cases later with
    | nil => exact margined_nil
    | cons next later =>
      refine ⟨fun l hl => h.indented l ?_, by simpa using h.last⟩
      rw [List.dropLast_cons_cons]
      exact List.mem_cons_of_mem line hl

theorem tail_lines_cons {c : Char} (hc : c ≠ '\n') (t : Text) : (lines (c :: t)).tail = (lines t).tail := by
  obtain ⟨line, rest, hlines, hcons⟩ := lines_cons hc t
  rw [hlines, hcons]
  rfl

/-- The lines of a text whose first character stands at a place. At the start of a line the first line is one like
    the others, and behind a margin it is one with that margin; the rest of a line may be anything. -/
def MarginedAt : Place → Text → Prop
  | .start, t => Margined (lines t)
  | .margin, t => Margined (lines (' ' :: t))
  | .body, t => Margined (lines t).tail

theorem marginedAt_cons {c : Char} (hc : isBlank c = false) {t : Text} (h : MarginedAt .body t) :
    MarginedAt .start (c :: t) ∧ MarginedAt .margin (c :: t) := by
  obtain ⟨line, rest, hlines, hcons⟩ := lines_cons (ne_lineFeed hc) t
  obtain ⟨line', rest', hlines', hcons'⟩ := lines_cons (c := ' ') (by decide) (c :: t)
  rw [hcons] at hlines'
  cases hlines'
  have hrest : Margined rest := by simpa [MarginedAt, hlines] using h
  simp only [MarginedAt, hcons, hcons']
  exact ⟨hrest.cons ⟨c, line, hc, .inl rfl⟩, hrest.cons ⟨c, line, hc, .inr rfl⟩⟩

theorem marginedAt_unifyMargins (place : Place) (t : Text) : MarginedAt place (unifyMargins place t) := by
  -- A blank at the start of a line leaves its space behind, which is the one that `MarginedAt .margin` puts in front.
  fun_induction unifyMargins place t with
  | case1 place =>
    cases place with
    | start => exact margined_singleton (.inl rfl)
    | margin => exact margined_singleton (.inr rfl)
    | body => exact margined_nil
  | case2 c r hc ih => exact ih
  | case3 c r hc ih => exact (marginedAt_cons (by simpa using hc) ih).1
  | case4 c r hc ih => exact ih
  | case5 c r hc ih => exact (marginedAt_cons (by simpa using hc) ih).2
  | case6 c r ih =>
    by_cases hc : c = '\n'
    · subst hc
      exact ih
    · rw [if_neg hc] at ih ⊢
      simp only [MarginedAt, tail_lines_cons hc] at ih ⊢
      exact ih

/-! ### Normal form -/

/-- What the normal form `u` of a comment `t` is like. -/
structure NormalForm (t u : Text) : Prop where
  stable : normalize u = u
  noReturn : '\r' ∉ u
  content : u.filter (!isBlank ·) = t.filter (!isBlank ·)
  flush : ∀ line ∈ (lines u).head?, Flush line
  margined : Margined (lines u).tail

theorem normalForm_normalize (t : Text) : NormalForm t (normalize t) := by
  have hreturn : '\r' ∉ normalize t := by
    rw [normalize_eq]
    exact not_mem_unifyMargins (by decide) (not_mem_unifyLineEnds t) .margin
  refine ⟨?_, hreturn, ?_, ?_, ?_⟩
  · rw [normalize_eq (normalize t), unifyLineEnds_of_not_mem hreturn, normalize_eq, unifyMargins_unifyMargins]
  · rw [normalize_eq, filter_unifyMargins, filter_unifyLineEnds]
  · exact flush_head_lines (normalize_eq t ▸ flush_unifyMargins _)
  · have hlater : Margined (lines (' ' :: normalize t)) := by
      rw [normalize_eq]
      exact marginedAt_unifyMargins .margin (unifyLineEnds t)
    rw [← tail_lines_cons (c := ' ') (by decide)]
    exact hlater.tail

/-! ### Other margins -/

/-- A line with content, behind some blanks. -/
structure Row where
  margin : Text
  content : Text
  margin_ne_nil : margin ≠ []
  blank : ∀ c ∈ margin, isBlank c = true
  begun : ∃ c ∈ content.head?, isBlank c = false
  unbroken : '\n' ∉ content ∧ '\r' ∉ content

/-- The line itself. The margin may hold line ends. -/
def Row.line (row : Row) : Text := row.margin ++ row.content

/-- A comment that goes on behind its first lines. -/
def withRows (front : Text) (rows : List Row) : Text := join ['\n'] (front :: rows.map Row.line)

theorem unifyMargins_append_congr {b b' : Text} (h : ∀ place, unifyMargins place b = unifyMargins place b') (a : Text)
    (place : Place) : unifyMargins place (a ++ b) = unifyMargins place (a ++ b') := by
  induction a generalizing place with
  | nil => exact h place
  | cons c a ih => cases place <;> simp only [List.cons_append, unifyMargins, ih]

theorem unifyMargins_blank {w : Text} (hw : ∀ c ∈ w, isBlank c = true) (t : Text) :
    unifyMargins .margin (w ++ t) = unifyMargins .margin t := by
  induction w with
  | nil => rfl
  | cons c w ih =>
    rw [List.forall_mem_cons] at hw
    rw [List.cons_append, unifyMargins, if_pos hw.1, ih hw.2]

/-- Behind a line feed all margins are alike. -/
theorem unifyMargins_lineFeed {w : Text} (hne : w ≠ []) (hw : ∀ c ∈ w, isBlank c = true) (t : Text) (place : Place) :
    unifyMargins place ('\n' :: (w ++ t)) = unifyMargins place ('\n' :: ' ' :: t) := by
  have hmargin : unifyMargins .margin (w ++ t) = unifyMargins .margin (' ' :: t) := unifyMargins_blank hw t
  cases place with
  | start => exact congrArg (' ' :: ·) hmargin
  | margin => exact hmargin
  | body =>
    obtain ⟨c, w, rfl⟩ := List.exists_cons_of_ne_nil hne
    rw [List.forall_mem_cons] at hw
    have hstart : unifyMargins .start (c :: (w ++ t)) = ' ' :: unifyMargins .margin t := by
      rw [unifyMargins, if_pos hw.1, unifyMargins_blank hw.2]
    exact congrArg ('\n' :: ·) hstart

/-- One line in front of others. -/
theorem unifyMargins_row (row : Row) (rest : Text) (place : Place) :
    unifyMargins place (unifyLineEnds ('\n' :: row.line ++ rest)) =
      unifyMargins place ('\n' :: ' ' :: row.content ++ unifyLineEnds rest) := by
  obtain ⟨margin, content, hne, hblank, ⟨c, hc, hcontent⟩, hunbroken⟩ := row
  have hstart : (content ++ rest).head? ≠ some '\n' := by
    rw [List.head?_append, Option.mem_def.mp hc]
    simpa using ne_lineFeed hcontent
  have hend : content.getLast? ≠ some '\r' := fun hlast => hunbroken.2 (List.mem_of_getLast? hlast)
  have hunified : unifyLineEnds ('\n' :: (margin ++ content) ++ rest) =
      '\n' :: (unifyLineEnds margin ++ (content ++ unifyLineEnds rest)) := by
    rw [List.cons_append, unifyLineEnds_cons (by decide), List.append_assoc, unifyLineEnds_append (.inr hstart),
      unifyLineEnds_append (.inl hend), unifyLineEnds_of_not_mem hunbroken.2]
  have hmargin : ∀ d ∈ unifyLineEnds margin, isBlank d = true := by
    have hnone : margin.filter (!isBlank ·) = [] := by simpa using hblank
    rw [← filter_unifyLineEnds] at hnone
    simpa using hnone
  exact (congrArg (unifyMargins place) hunified).trans
    (unifyMargins_lineFeed (unifyLineEnds_ne_nil hne) hmargin _ place)

/-- Of the lines behind the first ones, only the contents matter. -/
theorem unifyMargins_rows {rows rows' : List Row} (h : rows.map Row.content = rows'.map Row.content) (place : Place) :
    unifyMargins place (unifyLineEnds ((rows.map Row.line).flatMap ('\n' :: ·))) =
      unifyMargins place (unifyLineEnds ((rows'.map Row.line).flatMap ('\n' :: ·))) := by
  induction rows generalizing rows' place with
  | nil =>
    obtain rfl : rows' = [] := List.map_eq_nil_iff.mp h.symm
    rfl
  | cons row rows ih =>
    obtain ⟨row', rows', rfl, hcontent, hrest⟩ := List.map_eq_cons_iff.mp h.symm
    simp only [List.map_cons, List.flatMap_cons]
    rw [unifyMargins_row, unifyMargins_row, hcontent]
    exact unifyMargins_append_congr (fun place => ih hrest.symm place) _ place

theorem normalize_withRows {rows rows' : List Row} (h : rows.map Row.content = rows'.map Row.content) (front : Text) :
    normalize (withRows front rows) = normalize (withRows front rows') := by
  have hrows := unifyMargins_rows h
  simp only [normalize_eq, withRows, join_lineFeed]
  cases rows with
  | nil =>
    obtain rfl : rows' = [] := List.map_eq_nil_iff.mp h.symm
    rfl
  | cons row rows =>
    -- The line feed in front of the rows keeps the line ends of `front` from reaching into them.
    obtain ⟨row', rows', rfl, -, -⟩ := List.map_eq_cons_iff.mp h.symm
    obtain ⟨unified, hunified⟩ := unifyLineEnds_lineFeed front
    simp only [List.map_cons, List.flatMap_cons, List.cons_append, hunified] at hrows ⊢
    exact unifyMargins_append_congr hrows unified .margin

/-- Every comment has a normal form, which does not depend on how wide its margins are. -/
theorem normalize_canonical : (∀ t, NormalForm t (normalize t)) ∧
    ∀ front rows rows', rows.map Row.content = rows'.map Row.content →
      normalize (withRows front rows) = normalize (withRows front rows') :=
  ⟨normalForm_normalize, fun front _ _ h => normalize_withRows h front⟩

/-- The lines of a comment about buttons, behind the given margins. -/
def buttonRows (first second : Text) (hfirst : first ≠ [] ∧ ∀ c ∈ first, isBlank c = true)
    (hsecond : second ≠ [] ∧ ∀ c ∈ second, isBlank c = true) : List Row :=
  [{ margin := first
     content := "* Buttons".text
     margin_ne_nil := hfirst.1
     blank := hfirst.2
     begun := ⟨'*', rfl, rfl⟩
     unbroken := by decide },
    { margin := second
      content := "* @base .b */".text
      margin_ne_nil := hsecond.1
      blank := hsecond.2
      begun := ⟨'*', rfl, rfl⟩
      unbroken := by decide }]

/-- Margins of different widths; the first one holds the end of a blank line. -/
def wideRows : List Row :=
  buttonRows " \r\n\t".text "   ".text ⟨by decide, List.all_eq_true.mp (by decide)⟩
    ⟨by decide, List.all_eq_true.mp (by decide)⟩

def narrowRows : List Row :=
  buttonRows " ".text "\t".text ⟨by decide, List.all_eq_true.mp (by decide)⟩
    ⟨by decide, List.all_eq_true.mp (by decide)⟩

theorem normalize_canonical_buttons :
    normalize (withRows "/**".text wideRows) = normalize (withRows "/**".text narrowRows) ∧
      normalize (withRows "/**".text narrowRows) = "/**\n * Buttons\n * @base .b */".text :=
  ⟨normalize_canonical.2 "/**".text wideRows narrowRows rfl, by decide +kernel⟩

end Doc
end Stylebook
