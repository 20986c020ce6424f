import Mathlib.Data.List.Infix
import Mathlib.Tactic.MkIffOfInductiveProp
import Stylebook.Doc.Comment
import Stylebook.Proofs.Text.Lines

/-! Writing tags as a comment. Every tag has its lines: a title is one line, a tag on one line stands behind
    its name, and content over several lines is put under the name, all of it moved in by the same margin.
    A comment is made of these lines, each behind its mark; it is in normal form, and its lines are read
    back as they were written. -/

namespace Stylebook
namespace Doc

/-! ### Lines that can be read back -/

/-- A line that holds neither the end of a line nor that of a comment. -/
@[mk_iff]
structure Unbroken (line : Text) : Prop where
  onLine : ∀ c ∈ line, c ≠ '\n' ∧ c ≠ '\r'
  unclosed : ¬"*/".text <:+: line

@[mk_iff]
structure Tidy (line : Text) : Prop extends Unbroken line where
  trimmed : ∀ c ∈ line.getLast?, Text.isBlank c = false

/-- A line of content, which begins no tag. -/
@[mk_iff]
structure Plain (line : Text) : Prop extends Tidy line where
  noTag : tagLine? line = none

/-- Content on the line of its tag. -/
@[mk_iff]
structure Inline (content : Text) : Prop extends Tidy content where
  flush : ∀ c ∈ content.head?, Text.isBlank c = false

/-- Content on lines of its own. -/
@[mk_iff]
structure Body (content : Text) : Prop where
  plain : ∀ line ∈ Text.lines content, Plain line
  first : ∃ line ∈ (Text.lines content).head?, ∃ c ∈ line.head?, Text.isBlank c = false
  last : (Text.lines content).getLast? ≠ some []

def isSmallNameChar (c : Char) : Bool := ('a' ≤ c && c ≤ 'z') || Text.isDigit c || c == '_' || c == '-'

/-- A tag with a name of its own, as the table has it. -/
@[mk_iff]
structure Explicit (table : TagTable) (t : Tag) : Prop where
  known : table.isKnown t.name = true
  named : t.name ≠ [] ∧ ∀ c ∈ t.name, isSmallNameChar c = true
  content : if table.isMultiline t.name then t.content = [] ∨ Body t.content else Inline t.content

instance : DecidablePred Unbroken := fun line =>
  have := List.decidableBAll (fun c => c ≠ '\n' ∧ c ≠ '\r') line
  decidable_of_iff' _ (unbroken_iff line)

instance : DecidablePred Tidy := fun line =>
  have := Option.decidableForallMem (p := fun c => Text.isBlank c = false) line.getLast?
  decidable_of_iff' _ (tidy_iff line)

instance : DecidablePred Plain := fun line => decidable_of_iff' _ (plain_iff line)

instance : DecidablePred Inline := fun content =>
  have := Option.decidableForallMem (p := fun c => Text.isBlank c = false) content.head?
  decidable_of_iff' _ (inline_iff content)

instance : DecidablePred Body := fun content =>
  have := fun line : Text => Option.decidableExistsMem (p := fun c => Text.isBlank c = false) line.head?
  decidable_of_iff' _ (body_iff content)

instance (table : TagTable) : DecidablePred (Explicit table) := fun t =>
  have := List.decidableBAll (fun c => isSmallNameChar c = true) t.name
  decidable_of_iff' _ (explicit_iff table t)

/-- The implicit tags in front of the others. -/
inductive Front : List Tag → Prop
  | absent : Front []
  | title {title : Text} : title ≠ [] → Plain title → Front [⟨titleName, title⟩]
  | description {title description : Text} : title ≠ [] → Plain title → Body description →
      Front [⟨titleName, title⟩, ⟨descriptionName, description⟩]

/-- Tags that a comment can be written with. -/
def WellFormed (table : TagTable) (tags : List Tag) : Prop :=
  tags ≠ [] ∧ ∃ front rest, tags = front ++ rest ∧ Front front ∧ ∀ t ∈ rest, Explicit table t

/-! ### Writing -/

/-- Blanks that content is moved in by. -/
def Margin (margin : Text) : Prop := ∀ c ∈ margin, Text.isBlank c = true ∧ c ≠ '\n' ∧ c ≠ '\r'

instance : DecidablePred Margin := fun margin => List.decidableBAll _ margin

def movedIn (margin line : Text) : Text := if line.isEmpty then [] else margin ++ line

def bodyLines (margin content : Text) : List Text := (Text.lines content).map (movedIn margin)

/-- The lines of a tag, without the marks of the comment. -/
def tagLines (table : TagTable) (margin : Text) (t : Tag) : List Text :=
  if t.name = titleName then [t.content]
  else if t.name = descriptionName then bodyLines margin t.content
  else if table.isMultiline t.name then
    ('@' :: t.name) :: (if t.content.isEmpty then [] else bodyLines margin t.content)
  else ['@' :: t.name ++ ' ' :: t.content]

def marked (line : Text) : Text := if line.isEmpty then " *".text else " * ".text ++ line

/-- The lines of tags, each of which comes with the margin of its content. -/
def commentLines (table : TagTable) (written : List (Tag × Text)) : List Text :=
  written.flatMap fun w => tagLines table w.2 w.1

def render (table : TagTable) (written : List (Tag × Text)) : Text :=
  Text.join ['\n'] ("/**".text :: (commentLines table written).map marked ++ [" */".text])

/-! ### Closing marks -/

theorem unclosed_of_not_mem {a : Text} (ha : '*' ∉ a) : ¬"*/".text <:+: a := fun h => ha (h.subset (by decide))

theorem unclosed_separated {a b : Text} {z : Char} (hz : z ∉ "*/".text) (ha : ¬"*/".text <:+: a)
    (hb : ¬"*/".text <:+: b) : ¬"*/".text <:+: a ++ z :: b := fun h =>
  (Text.infix_of_infix_separated hz h).elim ha hb

theorem unclosed_marked {line : Text} (h : ¬"*/".text <:+: line) : ¬"*/".text <:+: marked line := by
  unfold marked
  split
  · decide
  · exact unclosed_separated (a := [' ', '*']) (z := ' ') (by decide) (by decide) h

theorem blank_not_mem_mark {c : Char} (h : Text.isBlank c = true) : c ∉ "*/".text := by
  intro hmem
  have hmark : c = '*' ∨ c = '/' := by simpa [String.text] using hmem
  rcases hmark with rfl | rfl <;> exact absurd h (by decide)

theorem unclosed_moved {margin line : Text} (hm : Margin margin) (h : ¬"*/".text <:+: line) :
    ¬"*/".text <:+: margin ++ line := by
  induction margin with
  | nil => exact h
  | cons c margin ih =>
    have hc := blank_not_mem_mark (hm c List.mem_cons_self).1
    have hrest := ih fun d hd => hm d (List.mem_cons_of_mem c hd)
    exact unclosed_separated (a := []) hc (by decide) hrest

theorem unclosed_join {ts : List Text} (h : ∀ t ∈ ts, ¬"*/".text <:+: t) : ¬"*/".text <:+: Text.join ['\n'] ts := by
  induction ts with
  | nil => decide
  | cons t ts ih =>
    have ht := h t List.mem_cons_self
    cases ts with
    | nil => rwa [Text.join_singleton]
    | cons u us =>
      rw [Text.join_cons _ _ (List.cons_ne_nil u us), List.append_assoc]
      exact unclosed_separated (by decide) ht (ih fun v hv => h v (List.mem_cons_of_mem t hv))

/-! ### Reading a line back -/

theorem trimRight_marked (line : Text) : Text.trimRight (marked line) = marked (Text.trimRight line) := by
  by_cases hline : line = []
  · subst hline
    decide
  · have hmarked : marked line = " * ".text ++ line := by simp [marked, hline]
    rw [hmarked]
    unfold Text.trimRight
    rw [Text.trimRightBy_append]
    split
    · next hnil => rw [hnil]; decide
    · next hne => simp [marked, hne]

theorem dropMark_marked (line : Text) : dropMark " *".text (marked line) = line := by
  cases line with
  | nil => decide
  | cons c line => rfl

theorem laterLine_marked {line : Text} (h : ¬"*/".text <:+: line) : laterLine (marked line) = Text.trimRight line := by
  have hkept : ¬"*/".text <:+: Text.trimRight line := fun hin =>
    h (hin.trans (Text.trimRightBy_prefix _ line).isInfix)
  have hend : ¬"*/".text <:+ marked (Text.trimRight line) := fun hsuffix => unclosed_marked hkept hsuffix.isInfix
  have htwice : Text.trimRight (Text.trimRight line) = Text.trimRight line := Text.trimRightBy_idempotent _ line
  rw [laterLine, dropLineEnd, trimRight_marked, Text.dropEnd_of_not_suffix hend, trimRight_marked, htwice,
    dropMark_marked]

/-! ### Every line is unbroken -/

theorem Unbroken.marked {line : Text} (h : Unbroken line) : Unbroken (marked line) where
  onLine c hc := by
    have hmark : ∀ d ∈ " * ".text, d ≠ '\n' ∧ d ≠ '\r' := by simp [String.text]
    unfold Doc.marked at hc
    split at hc
    · exact hmark c (List.mem_append_left [' '] hc)
    · rcases List.mem_append.mp hc with hc | hc
      · exact hmark c hc
      · exact h.onLine c hc
  unclosed := unclosed_marked h.unclosed

theorem Unbroken.movedIn {margin line : Text} (hm : Margin margin) (h : Unbroken line) :
    Unbroken (movedIn margin line) := by
  unfold Doc.movedIn
  split
  · exact ⟨by simp, by decide⟩
  · refine ⟨fun c hc => ?_, unclosed_moved hm h.unclosed⟩
    rcases List.mem_append.mp hc with hc | hc
    · exact (hm c hc).2
    · exact h.onLine c hc

theorem isSmallNameChar_bounds {c : Char} (h : isSmallNameChar c = true) : 45 ≤ c.toNat ∧ c.toNat ≤ 122 := by
  simp only [isSmallNameChar, Text.isDigit, Bool.or_eq_true, Bool.and_eq_true, decide_eq_true_eq, beq_iff_eq] at h
  rcases h with ((⟨h₁, h₂⟩ | ⟨h₁, h₂⟩) | rfl) | rfl
  · exact ⟨le_trans (by decide) (show 97 ≤ c.toNat from h₁), h₂⟩
  · exact ⟨le_trans (by decide) (show 48 ≤ c.toNat from h₁), le_trans (show c.toNat ≤ 57 from h₂) (by decide)⟩
  · decide
  · decide

theorem Explicit.name_bounds {table : TagTable} {t : Tag} (h : Explicit table t) {c : Char} (hc : c ∈ t.name) :
    45 ≤ c.toNat ∧ c.toNat ≤ 122 := isSmallNameChar_bounds (h.named.2 c hc)

theorem Explicit.not_implicit {table : TagTable} {t : Tag} (h : Explicit table t) : t.name.head? ≠ some '$' := by
  intro heq
  have hc := h.name_bounds (List.mem_of_mem_head? heq)
  exact absurd hc.1 (by decide)

theorem Explicit.name_ne {table : TagTable} {t : Tag} (h : Explicit table t) :
    t.name ≠ titleName ∧ t.name ≠ descriptionName := by
  constructor <;> intro heq <;> exact h.not_implicit (by rw [heq]; rfl)

theorem tagLines_title (table : TagTable) (margin title : Text) :
    tagLines table margin ⟨titleName, title⟩ = [title] := rfl

theorem tagLines_description (table : TagTable) (margin description : Text) :
    tagLines table margin ⟨descriptionName, description⟩ = bodyLines margin description := rfl

theorem tagLines_explicit {table : TagTable} {t : Tag} (h : Explicit table t) (margin : Text) :
    tagLines table margin t =
      if table.isMultiline t.name then
        ('@' :: t.name) :: (if t.content.isEmpty then [] else bodyLines margin t.content)
      else ['@' :: t.name ++ ' ' :: t.content] := by
  rw [tagLines, if_neg h.name_ne.1, if_neg h.name_ne.2]

theorem Explicit.unbroken_name {table : TagTable} {t : Tag} (h : Explicit table t) : Unbroken ('@' :: t.name) where
  onLine c hc := by
    rcases List.mem_cons.mp hc with rfl | hc
    · decide
    · constructor <;> rintro rfl <;> exact absurd (h.name_bounds hc).1 (by decide)
  unclosed := by
    apply unclosed_of_not_mem
    intro hstar
    rcases List.mem_cons.mp hstar with heq | hstar
    · exact absurd heq (by decide)
    · exact absurd (h.name_bounds hstar).1 (by decide)

theorem Unbroken.behind {a b : Text} (ha : Unbroken a) (hb : Unbroken b) : Unbroken (a ++ ' ' :: b) where
  onLine c hc := by
    rcases List.mem_append.mp hc with hc | hc
    · exact ha.onLine c hc
    · rcases List.mem_cons.mp hc with rfl | hc
      · decide
      · exact hb.onLine c hc
  unclosed := unclosed_separated (by decide) ha.unclosed hb.unclosed

theorem Body.unbroken {margin content : Text} (hm : Margin margin) (h : Body content) :
    ∀ line ∈ bodyLines margin content, Unbroken line := by
  intro line hline
  obtain ⟨plain, hplain, rfl⟩ := List.mem_map.mp hline
  exact (h.plain plain hplain).toUnbroken.movedIn hm

theorem Explicit.unbroken {table : TagTable} {t : Tag} {margin : Text} (h : Explicit table t) (hm : Margin margin) :
    ∀ line ∈ tagLines table margin t, Unbroken line := by
  have hcontent := h.content
  rw [tagLines_explicit h]
  intro line hline
  split at hline
  · next hmulti =>
    rw [if_pos hmulti] at hcontent
    rcases List.mem_cons.mp hline with rfl | hline
    · exact h.unbroken_name
    · split at hline
      · simp at hline
      · next hne =>
        have hbody := hcontent.resolve_left fun heq => hne (by simp [heq])
        exact hbody.unbroken hm line hline
  · next hsingle =>
    rw [if_neg hsingle] at hcontent
    rw [List.mem_singleton.mp hline]
    exact h.unbroken_name.behind hcontent.toUnbroken

theorem Front.unbroken {table : TagTable} {front : List Tag} (h : Front front) :
    ∀ t ∈ front, ∀ margin, Margin margin → ∀ line ∈ tagLines table margin t, Unbroken line := by
  have htitle : ∀ {title : Text}, Plain title → ∀ margin, ∀ line ∈ tagLines table margin ⟨titleName, title⟩,
      Unbroken line := by
    intro title hplain margin line hline
    rw [tagLines_title] at hline
    rw [List.mem_singleton.mp hline]
    exact hplain.toUnbroken
  intro t ht margin hm line hline
  cases h with
  | absent => simp at ht
  | title _ hplain =>
    rw [List.mem_singleton.mp ht] at hline
    exact htitle hplain margin line hline
  | description _ hplain hbody =>
    rcases List.mem_pair.mp ht with rfl | rfl
    · exact htitle hplain margin line hline
    · rw [tagLines_description] at hline
      exact hbody.unbroken hm line hline

theorem WellFormed.unbroken {table : TagTable} {written : List (Tag × Text)}
    (h : WellFormed table (written.map (·.1))) (hm : ∀ w ∈ written, Margin w.2) :
    ∀ line ∈ commentLines table written, Unbroken line := by
  obtain ⟨-, front, rest, heq, hfront, hrest⟩ := h
  intro line hline
  obtain ⟨w, hw, hline⟩ := List.mem_flatMap.mp hline
  have hmem : w.1 ∈ front ++ rest := heq ▸ List.mem_map_of_mem hw
  rcases List.mem_append.mp hmem with hmem | hmem
  · exact hfront.unbroken w.1 hmem w.2 (hm w hw) line hline
  · exact (hrest w.1 hmem).unbroken (hm w hw) line hline

theorem tagLines_ne_nil (table : TagTable) (margin : Text) (t : Tag) : tagLines table margin t ≠ [] := by
  unfold tagLines
  split
  · simp
  · split
    · simp [bodyLines, Text.lines_ne_nil]
    · split <;> simp

theorem WellFormed.commentLines_ne_nil {table : TagTable} {written : List (Tag × Text)}
    (h : WellFormed table (written.map (·.1))) : commentLines table written ≠ [] := by
  obtain ⟨hne, -⟩ := h
  cases written with
  | nil => exact absurd rfl hne
  | cons w written => simp [commentLines, tagLines_ne_nil]

/-! ### Normal form -/

theorem unifyMargins_append {line : Text} (h : '\n' ∉ line) (rest : Text) :
    unifyMargins .body (line ++ rest) = line ++ unifyMargins .body rest := by
  induction line with
  | nil => rfl
  | cons c line ih =>
    have hc : c ≠ '\n' := fun heq => h (heq ▸ List.mem_cons_self)
    rw [List.cons_append, unifyMargins, if_neg hc, ih fun hmem => h (List.mem_cons_of_mem c hmem)]
    rfl

theorem unifyMargins_last {line : Text} (h : '\n' ∉ line) : unifyMargins .body line = line := by
  simpa [unifyMargins] using unifyMargins_append h []

theorem unifyMargins_line {line : Text} (h : '\n' ∉ line) (rest : Text) :
    unifyMargins .body (line ++ '\n' :: rest) = line ++ '\n' :: unifyMargins .start rest :=
  unifyMargins_append h ('\n' :: rest)

/-- A line that begins with one space and a star has the margin it should have. -/
theorem unifyMargins_join {ts : List Text} (h : ∀ t ∈ ts, " *".text <+: t ∧ '\n' ∉ t) :
    unifyMargins .start (Text.join ['\n'] ts) = Text.join ['\n'] ts := by
  induction ts with
  | nil => rfl
  | cons t ts ih =>
    obtain ⟨⟨line, rfl⟩, hline⟩ := h t List.mem_cons_self
    have hrest := ih fun u hu => h u (List.mem_cons_of_mem _ hu)
    have hend : '\n' ∉ line := fun hmem => hline (List.mem_append_right _ hmem)
    have hstar : ∀ r, unifyMargins .start (" *".text ++ r) = " *".text ++ unifyMargins .body r := fun _ => rfl
    cases ts with
    | nil => rw [Text.join_singleton, hstar, unifyMargins_last hend]
    | cons u us =>
      rw [Text.join_cons _ _ (List.cons_ne_nil u us), List.append_assoc, List.append_assoc, List.singleton_append,
        hstar, unifyMargins_line hend, hrest]

section Comment
variable {table : TagTable} {written : List (Tag × Text)}

theorem star_prefix_marked (line : Text) : " *".text <+: marked line := by
  unfold marked
  split
  · exact List.prefix_refl _
  · exact ⟨' ' :: line, rfl⟩

theorem render_eq (table : TagTable) (written : List (Tag × Text)) :
    render table written =
      "/**".text ++ '\n' :: Text.join ['\n'] ((commentLines table written).map marked ++ [" */".text]) := by
  rw [render, List.cons_append, Text.join_cons _ _ (by simp), List.append_assoc]
  rfl

theorem laterLines_render (h : ∀ line ∈ commentLines table written, Unbroken line) :
    ∀ t ∈ (commentLines table written).map marked ++ [" */".text], " *".text <+: t ∧ '\n' ∉ t ∧ '\r' ∉ t := by
  intro t ht
  rcases List.mem_append.mp ht with ht | ht
  · obtain ⟨line, hline, rfl⟩ := List.mem_map.mp ht
    have hmarked := (h line hline).marked
    exact ⟨star_prefix_marked line, fun hmem => (hmarked.onLine _ hmem).1 rfl,
      fun hmem => (hmarked.onLine _ hmem).2 rfl⟩
  · rw [List.mem_singleton.mp ht]
    decide

theorem normalize_render (h : ∀ line ∈ commentLines table written, Unbroken line) :
    normalize (render table written) = render table written := by
  have hlater := laterLines_render h
  have hreturn : '\r' ∉ render table written := by
    apply Text.not_mem_join (by decide)
    intro t ht
    rcases List.mem_cons.mp ht with rfl | ht
    · decide
    · exact (hlater t ht).2.2
  have hunified := unifyMargins_join fun t ht => ⟨(hlater t ht).1, (hlater t ht).2.1⟩
  rw [normalize, Text.unifyLineEnds_of_not_mem hreturn, render_eq]
  have hfirst : ∀ r, unifyMargins .start ("/**".text ++ '\n' :: r) = "/**".text ++ '\n' :: unifyMargins .start r :=
    fun _ => rfl
  rw [hfirst, hunified, Text.dropStart_of_not_prefix]
  rintro ⟨r, hr⟩
  exact absurd (List.cons.inj hr).1 (by decide)

/-- The lines of a comment are read as they were written, less the blanks at their ends. -/
theorem contentLines_render (h : ∀ line ∈ commentLines table written, Unbroken line) :
    contentLines (render table written) =
      [] :: ((commentLines table written).map Text.trimRight ++ [[]]) := by
  have hlines : Text.lines (render table written) =
      "/**".text :: ((commentLines table written).map marked ++ [" */".text]) := by
    apply Text.lines_join (by simp)
    intro t ht
    rcases List.mem_cons.mp ht with rfl | ht
    · decide
    · exact (laterLines_render h t ht).2.1
  have hlater : ∀ line ∈ commentLines table written, (laterLine ∘ marked) line = Text.trimRight line :=
    fun line hline => laterLine_marked (h line hline).unclosed
  rw [contentLines, hlines]
  show firstLine "/**".text :: List.map laterLine (List.map marked (commentLines table written) ++ [" */".text]) = _
  rw [List.map_append, List.map_map, List.map_congr_left hlater]
  rfl

end Comment
end Doc
end Stylebook
