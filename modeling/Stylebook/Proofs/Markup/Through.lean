import Stylebook.Proofs.Markup.Front

/-! Reading through. A step in front of an angle bracket takes all of the text or leaves the bracket, and then it does
    not look beyond it (`stepLocal_step`). So markup that the first pass reads up to a bracket at its end is read in the
    same way in front of any tag without quotes (`ReadsThrough.pass`), and the tags it has bear names that stand in it. -/

namespace Stylebook
namespace Markup

/-! ### Steps -/

/-- What a step in front of a bracket comes to: it takes all the text, or it leaves the bracket and does not look beyond
    it; and where it stops, it leaves more than a bracket. -/
structure StepLocal (f : Text → Step) (a : Text) : Prop where
  read : ∀ {ts rest}, f (a ++ ['<']) = .read ts rest → rest = [] ∨
    ∃ b, b <:+ a ∧ rest = b ++ ['<'] ∧ ∀ y, Unquoted y → f (a ++ '<' :: y) = .read ts (b ++ '<' :: y)
  stop : ∀ {ts left}, f (a ++ ['<']) = .stop ts left → left ≠ ['<']

theorem stepLocal_of_stop {f : Text → Step} {a left : Text} {ts : List Token} (h : f (a ++ ['<']) = .stop ts left)
    (hleft : left ≠ ['<']) : StepLocal f a where
  read hread := by rw [h] at hread; cases hread
  stop hstop := by
    rw [h] at hstop
    cases hstop
    exact hleft

theorem stepLocal_of_reject {f : Text → Step} {a : Text} {why : Rejected} (h : f (a ++ ['<']) = .reject why) :
    StepLocal f a where
  read hread := by rw [h] at hread; cases hread
  stop hstop := by rw [h] at hstop; cases hstop

theorem stepLocal_of_read {f : Text → Step} {a b : Text} {ts : List Token} (hb : b <:+ a)
    (h : ∀ y, Unquoted y → f (a ++ '<' :: y) = .read ts (b ++ '<' :: y)) : StepLocal f a where
  read hread := by
    rw [h [] unquoted_nil] at hread
    cases hread
    exact .inr ⟨b, hb, rfl, h⟩
  stop hstop := by rw [h [] unquoted_nil] at hstop; cases hstop

theorem unlessLong_cases (read : List (Text × Text)) :
    (∀ s, unlessLong read s = s) ∨ ∃ digits, ∀ s, unlessLong read s = .reject (.longNumber digits) := by
  unfold unlessLong
  generalize read.findSome? _ = found
  cases found with
  | none => exact .inl fun _ => rfl
  | some digits => exact .inr ⟨digits, fun _ => rfl⟩

theorem stepLocal_unlessLong {f g : Text → Step} {a : Text} {read : List (Text × Text)}
    (hg : (∀ y, Unquoted y → f (a ++ '<' :: y) = g y) → StepLocal f a)
    (h : ∀ y, Unquoted y → f (a ++ '<' :: y) = unlessLong read (g y)) : StepLocal f a := by
  rcases unlessLong_cases read with hshort | ⟨digits, hlong⟩
  · exact hg fun y hy => by rw [h y hy, hshort]
  · exact @stepLocal_of_reject _ _ (.longNumber digits) (by rw [h [] unquoted_nil, hlong])

theorem stepLocal_incomplete {f : Text → Step} {a r : Text} {c : Char} (h : f (a ++ ['<']) = incomplete false c r)
    (hr : r ≠ []) : StepLocal f a :=
  @stepLocal_of_stop _ _ (c :: r) [] h (by simp [hr])

theorem isRawName_letters {name : Text} (h : isRawName name = true) :
    ∀ l ∈ name, Text.isLetterAnyCase l '<' = false := by
  have hall : (name.all fun l => !Text.isLetterAnyCase l '<') = true := by
    rw [isRawName, Bool.or_eq_true, beq_iff_eq, beq_iff_eq] at h
    rcases h with rfl | rfl
    · rfl
    · rfl
  intro l hl
  simpa using List.all_eq_true.mp hall l hl

/-- What follows an opening tag that is read up to its angle bracket. -/
def openedStep (name : Text) (attributes : List (Text × Text)) (rest : Text) : Step :=
  if isRawName name then
    match rawText name rest with
    | (raw, some rest) => .read (.opening name attributes false :: textToken raw) rest
    | (raw, none) => .stop (.opening name attributes false :: textToken raw) []
  else .read [.opening name attributes false] rest

theorem openingStep_opened {t rest : Text} (h : (tagParts t).2.2 = '>' :: rest) : openingStep false t =
    unlessLong (tagParts t).2.1 (openedStep (tagParts t).1 (unescapeValues (tagParts t).2.1) rest) := by
  unfold openingStep
  dsimp only
  rw [h]
  split
  · next heq =>
    cases heq
    rfl
  · next heq => cases heq
  · next heq => cases heq
  · next hend _ heq => exact absurd (List.cons.inj heq).1.symm hend

theorem stepLocal_opened {f : Text → Step} {a b name : Text} (hb : b <:+ a) {attributes : List (Text × Text)}
    (h : ∀ y, Unquoted y → f (a ++ '<' :: y) = openedStep name attributes (b ++ '<' :: y)) : StepLocal f a := by
  unfold openedStep at h
  by_cases hraw : isRawName name = true
  case neg =>
    simp only [hraw, Bool.false_eq_true, if_false] at h
    exact stepLocal_of_read hb h
  simp only [hraw, if_true] at h
  rcases hread : rawText name (b ++ ['<']) with ⟨raw, _ | rest⟩
  · refine @stepLocal_of_stop _ _ [] (.opening name attributes false :: textToken raw) ?_ (by simp)
    rw [h [] unquoted_nil, hread]
  · obtain ⟨b', hb', -, hall⟩ := rawText_angle (isRawName_letters hraw) hread
    refine @stepLocal_of_read _ _ b' (.opening name attributes false :: textToken raw) (hb'.trans hb) fun y hy => ?_
    rw [h y hy, hall y]

/-- Behind the attributes of a tag stands something other than its end. -/
theorem openingStep_other {t rest : Text} {c : Char} (h : (tagParts t).2.2 = c :: rest) (hend : c ≠ '>')
    (hclosed : ∀ r, c :: rest ≠ '/' :: '>' :: r) : openingStep false t =
      if Text.isLetter c || c == '=' || c == '/' then incomplete false '<' t
      else unlessLong (tagParts t).2.1 (.read [.text ('<' :: t.take (t.length - (c :: rest).length))] (c :: rest)) := by
  unfold openingStep
  dsimp only
  rw [h]
  split
  · next heq => exact absurd (List.cons.inj heq).1 hend
  · next r heq => exact absurd heq (hclosed r)
  · next heq => cases heq
  · next heq =>
    obtain ⟨rfl, rfl⟩ := List.cons.inj heq
    rfl

theorem stepLocal_opening (a : Text) : StepLocal (openingStep false) a := by
  rcases tagParts_angle a with hall | ⟨name, read, b, hb, hparts⟩
  · exact stepLocal_incomplete (c := '<') (r := a ++ ['<']) (by simp only [openingStep, hall]) (by simp)
  by_cases hend : ∃ b', b = '>' :: b'
  · obtain ⟨b, rfl⟩ := hend
    have hopen : ∀ y, Unquoted y → openingStep false (a ++ '<' :: y) =
        unlessLong read (openedStep name (unescapeValues read) (b ++ '<' :: y)) := by
      intro y hy
      have hrest : (tagParts (a ++ '<' :: y)).2.2 = '>' :: (b ++ '<' :: y) := by rw [hparts y hy]; rfl
      rw [openingStep_opened hrest, hparts y hy]
    exact stepLocal_unlessLong (stepLocal_opened ((List.suffix_cons '>' b).trans hb)) hopen
  by_cases hclosed : ∃ b', b = '/' :: '>' :: b'
  · obtain ⟨b, rfl⟩ := hclosed
    have hopen : ∀ y, Unquoted y → openingStep false (a ++ '<' :: y) =
        unlessLong read (.read [.opening name (unescapeValues read) true] (b ++ '<' :: y)) := by
      intro y hy
      simp only [openingStep, hparts y hy, List.cons_append]
    exact stepLocal_unlessLong (stepLocal_of_read ((List.suffix_append ['/', '>'] b).trans hb)) hopen
  obtain ⟨c, rest, hrest, hnotEnd, hnotClosed⟩ : ∃ c, ∃ rest : Text → Text, (∀ y, b ++ '<' :: y = c :: rest y) ∧
      c ≠ '>' ∧ ∀ y r, c :: rest y ≠ '/' :: '>' :: r := by
    cases b with
    | nil => exact ⟨'<', id, fun _ => rfl, by decide, by simp⟩
    | cons c b =>
      refine ⟨c, fun y => b ++ '<' :: y, fun _ => rfl, fun hc => hend ⟨b, by rw [hc]⟩, fun y r heq => ?_⟩
      obtain ⟨rfl, hb'⟩ := List.cons.inj heq
      cases b with
      | nil => simp at hb'
      | cons d b =>
        obtain ⟨rfl, -⟩ := List.cons.inj hb'
        exact hclosed ⟨b, rfl⟩
  have hother : ∀ y, Unquoted y → openingStep false (a ++ '<' :: y) =
      if Text.isLetter c || c == '=' || c == '/' then incomplete false '<' (a ++ '<' :: y)
      else unlessLong read (.read [.text ('<' :: a.take (a.length - b.length))] (b ++ '<' :: y)) := by
    intro y hy
    have hlength : (a ++ '<' :: y).length - (b ++ '<' :: y).length = a.length - b.length := by
      simp only [List.length_append]
      omega
    rw [openingStep_other (by rw [hparts y hy, hrest y]) hnotEnd (hnotClosed y), hparts y hy, ← hrest, hlength,
      List.take_append_of_le_length (Nat.sub_le _ _)]
  by_cases hplain : (Text.isLetter c || c == '=' || c == '/') = true
  · exact stepLocal_incomplete (c := '<') (r := a ++ ['<']) (by rw [hother [] unquoted_nil, if_pos hplain]) (by simp)
  · exact stepLocal_unlessLong (stepLocal_of_read hb) fun y hy => by rw [hother y hy, if_neg hplain]

theorem plainClosing?_angle (a : Text) : (∀ y, plainClosing? (a ++ '<' :: y) = none) ∨
    ∃ name b, b <:+ a ∧ ∀ y, plainClosing? (a ++ '<' :: y) = some (name, b ++ '<' :: y) := by
  have hletter : Text.isLetter '<' = false := rfl
  have hangle : isClosingNameChar '<' = false := rfl
  cases ha : Text.skipBlanks a with
  | nil => exact .inl fun y => by simp [plainClosing?, skipBlanks_angle, ha, hletter]
  | cons c r =>
    have hr : r.dropWhile isClosingNameChar <:+ a :=
      (List.dropWhile_suffix _).trans ((List.suffix_cons c r).trans (ha ▸ Text.skipBlanks_suffix a))
    by_cases hc : Text.isLetter c = true
    case neg => exact .inl fun y => by simp [plainClosing?, skipBlanks_angle, ha, hc]
    have hopen : ∀ y, plainClosing? (a ++ '<' :: y) =
        (Text.after? ['>'] (Text.skipBlanks (r.dropWhile isClosingNameChar ++ '<' :: y))).map fun rest =>
          (c :: r.takeWhile isClosingNameChar, rest) := by
      intro y
      simp only [plainClosing?, skipBlanks_angle, ha, List.cons_append, hc, if_true, takeWhile_angle hangle,
        dropWhile_angle hangle]
    rcases CloseLocal.after.skipBlanks.angle (r.dropWhile isClosingNameChar) with hnone | ⟨b, hb, hsome⟩
    · exact .inl fun y => by rw [hopen, hnone y]; rfl
    · exact .inr ⟨_, b, hb.trans hr, fun y => by rw [hopen, hsome y]; rfl⟩

theorem eq_append_of_untilAngle? {t inside rest : Text} (h : untilAngle? t = some (inside, rest)) :
    t = inside ++ '>' :: rest := by
  induction t generalizing inside with
  | nil => cases h
  | cons c t ih =>
    rw [untilAngle?, Text.cut?] at h
    split at h
    · next heq =>
      cases h
      exact @Text.eq_append_of_after? ['>'] _ _ heq
    · rw [Option.map_eq_some_iff] at h
      obtain ⟨⟨before, rest'⟩, hread, heq⟩ := h
      cases heq
      rw [ih hread]
      rfl

theorem stepLocal_closing (a : Text) : StepLocal (closingStep false) a := by
  cases hinside : untilAngle? (a ++ ['<']) with
  | none => exact stepLocal_incomplete (c := '<') (r := '/' :: (a ++ ['<'])) (by simp only [closingStep, hinside]) (by simp)
  | some answer =>
    obtain ⟨inside, rest⟩ := answer
    obtain ⟨b, hb, hrest, hall⟩ := untilAngle?_angle hinside
    have ha : a = inside ++ '>' :: b := by
      have happend := eq_append_of_untilAngle? hinside
      rw [hrest, ← List.cons_append, ← List.append_assoc] at happend
      exact List.append_cancel_right happend
    rcases plainClosing?_angle a with hnone | ⟨name, b', hb', hsome⟩
    case inr =>
      refine @stepLocal_of_read _ _ b' [.closing (Text.lower name)] hb' fun y _ => ?_
      simp only [closingStep, hall y, hsome y]
    cases a with
    | nil => simp at ha
    | cons c a =>
      simp only [List.cons_append] at hall hnone
      by_cases hend : c = '>'
      · subst hend
        refine @stepLocal_of_read _ _ a [] (List.suffix_cons _ a) fun y _ => ?_
        simp only [List.cons_append, closingStep, hall y, hnone y]
      by_cases hc : Text.isLetter c = true
      · have hname : (c :: a).dropWhile isTagNameChar ≠ [] := by
          intro hnil
          have hall := List.dropWhile_eq_nil_iff.mp hnil '>' (by rw [ha]; simp)
          cases hall
        refine @stepLocal_of_read _ _ b [.closing (Text.lower ((c :: a).takeWhile isTagNameChar))] hb fun y _ => ?_
        rw [← takeWhile_within hname ('<' :: y)]
        simp [closingStep, hall y, hnone y, hc]
      · refine @stepLocal_of_read _ _ b [.comment inside] hb fun y _ => ?_
        simp [closingStep, hall y, hnone y, hc]

theorem stepLocal_section (a : Text) : StepLocal (sectionStep false) a := by
  cases a with
  | nil => exact @stepLocal_of_reject _ _ .sectionKind rfl
  | cons c a =>
    by_cases hc : Text.isLetter c = true
    case neg => exact @stepLocal_of_reject _ _ .sectionKind (by simp [sectionStep, hc])
    have hangle : isSectionNameChar '<' = false := rfl
    have hkind : ∀ y, (c :: (a ++ '<' :: y)).takeWhile isSectionNameChar = (c :: a).takeWhile isSectionNameChar :=
      takeWhile_angle hangle (c :: a)
    have hmore : ∀ y, (Text.skipBlanks ((c :: (a ++ '<' :: y)).dropWhile isSectionNameChar)).isEmpty = false := by
      intro y
      have hdrop := dropWhile_angle hangle (c :: a) y
      rw [List.cons_append] at hdrop
      rw [hdrop, skipBlanks_angle]
      simp
    cases hclose : sectionClose? (Text.lower ((c :: a).takeWhile isSectionNameChar)) with
    | none =>
      refine @stepLocal_of_reject _ _ .sectionKind ?_
      simp only [List.cons_append, sectionStep, hc, hmore, hkind, hclose, if_true, Bool.false_eq_true, if_false]
    | some close? =>
      cases hinside : until? close? (c :: a ++ ['<']) with
      | none =>
        refine stepLocal_incomplete (c := '<') (r := "![".text ++ (c :: a ++ ['<'])) ?_ (by simp)
        simp only [List.cons_append] at hinside ⊢
        simp only [sectionStep, hc, hmore, hkind, hclose, hinside, if_true, Bool.false_eq_true, if_false]
      | some answer =>
        obtain ⟨inside, rest⟩ := answer
        obtain ⟨b, hb, -, hall⟩ := until?_angle (closeLocal_section hclose) hinside
        simp only [List.cons_append] at hall
        cases hcdata : Text.afterAnyCase? "cdata[".text inside with
        | none =>
          refine @stepLocal_of_read _ _ b [.markedSection inside] hb fun y _ => ?_
          simp only [List.cons_append, sectionStep, hc, hmore, hkind, hclose, hall, hcdata, if_true,
            Bool.false_eq_true, if_false]
        | some content =>
          refine @stepLocal_of_read _ _ b [.cdata content] hb fun y _ => ?_
          simp only [List.cons_append, sectionStep, hc, hmore, hkind, hclose, hall, hcdata, if_true,
            Bool.false_eq_true, if_false]

/-- A step that comes to another step on a later part of the text. -/
theorem StepLocal.of_suffix {f g : Text → Step} {a b : Text} (h : StepLocal g b) (hb : b <:+ a)
    (hf : ∀ y, f (a ++ '<' :: y) = g (b ++ '<' :: y)) : StepLocal f a where
  read hread := by
    rcases h.read ((hf []).symm.trans hread) with hnil | ⟨r, hr, hrest, hall⟩
    · exact .inl hnil
    · exact .inr ⟨r, hr.trans hb, hrest, fun y hy => (hf y).trans (hall y hy)⟩
  stop hstop := h.stop ((hf []).symm.trans hstop)

theorem take_doctype (a y : Text) : ((a ++ '<' :: y).take 7).map Char.toLower = "doctype".text ↔
    (a.take 7).map Char.toLower = "doctype".text := by
  by_cases hlength : 7 ≤ a.length
  · rw [List.take_append_of_le_length hlength]
  · have hangle : '<' ∈ (a ++ '<' :: y).take 7 := by
      obtain ⟨n, hn⟩ : ∃ n, 7 - a.length = n + 1 := ⟨6 - a.length, by omega⟩
      rw [List.take_append, hn]
      simp
    refine ⟨fun h => ?_, fun h => ?_⟩
    · have hmem : '<' ∈ "doctype".text := h ▸ List.mem_map_of_mem hangle
      exact absurd hmem (by decide)
    · have hshort := congrArg List.length h
      rw [List.length_map, List.length_take] at hshort
      have hseven : "doctype".text.length = 7 := rfl
      omega

theorem declarationStep_other {t : Text} (hcomment : ∀ r, t ≠ '-' :: '-' :: r) (hsection : ∀ r, t ≠ '[' :: r) :
    declarationStep false t = match untilAngle? t with
      | none => incomplete false '<' ('!' :: t)
      | some (inside, rest) =>
        if (t.take 7).map Char.toLower = "doctype".text then .read [.doctype (inside.drop 8)] rest
        else .read [.comment inside] rest := by
  unfold declarationStep
  split
  · next r => exact absurd rfl (hcomment r)
  · next r => exact absurd rfl (hsection r)
  · rfl

theorem stepLocal_declaration (a : Text) : StepLocal (declarationStep false) a := by
  by_cases hcomment : ∃ r, a = '-' :: '-' :: r
  · obtain ⟨a, rfl⟩ := hcomment
    cases hinside : until? commentClose? (a ++ ['<']) with
    | none =>
      refine stepLocal_incomplete (c := '<') (r := '!' :: ('-' :: '-' :: a ++ ['<'])) ?_ (by simp)
      simp only [List.cons_append, declarationStep, hinside]
    | some answer =>
      obtain ⟨b, hb, -, hall⟩ := until?_angle closeLocal_comment hinside
      refine @stepLocal_of_read _ _ b [.comment answer.1] (hb.trans (List.suffix_append ['-', '-'] a)) fun y _ => ?_
      simp only [List.cons_append, declarationStep, hall]
  by_cases hsection : ∃ r, a = '[' :: r
  · obtain ⟨a, rfl⟩ := hsection
    exact (stepLocal_section a).of_suffix (List.suffix_cons _ a) fun y => by simp [declarationStep]
  have hopen : ∀ y, declarationStep false (a ++ '<' :: y) = _ := fun y => declarationStep_other
    (fun r hr => hcomment (@front_angle ['-', '-'] a r y (by decide) hr))
    (fun r hr => hsection (@front_angle ['['] a r y (by decide) hr))
  cases hinside : untilAngle? (a ++ ['<']) with
  | none => exact stepLocal_incomplete (c := '<') (r := '!' :: (a ++ ['<'])) (by rw [hopen, hinside]) (by simp)
  | some answer =>
    obtain ⟨b, hb, -, hall⟩ := untilAngle?_angle hinside
    simp only [hall, take_doctype] at hopen
    by_cases hdoctype : (a.take 7).map Char.toLower = "doctype".text
    · exact stepLocal_of_read hb fun y _ => by rw [hopen, if_pos hdoctype]
    · exact stepLocal_of_read hb fun y _ => by rw [hopen, if_neg hdoctype]

theorem stepLocal_angle (a : Text) : StepLocal (angleStep false) a := by
  cases a with
  | nil => exact @stepLocal_of_read _ _ [] [.text ['<']] List.suffix_rfl fun y _ => rfl
  | cons c a =>
    by_cases hclosing : c = '/'
    · exact (stepLocal_closing a).of_suffix (List.suffix_cons c a) fun y => by simp [angleStep, hclosing]
    by_cases hdeclaration : c = '!'
    · exact (stepLocal_declaration a).of_suffix (List.suffix_cons c a) fun y => by simp [angleStep, hdeclaration]
    by_cases hinstruction : c = '?'
    · subst hinstruction
      cases hinside : untilAngle? (a ++ ['<']) with
      | none =>
        refine stepLocal_incomplete (c := '<') (r := '?' :: a ++ ['<']) ?_ (by simp)
        simp [angleStep, hinside]
      | some answer =>
        obtain ⟨b, hb, -, hall⟩ := untilAngle?_angle hinside
        refine @stepLocal_of_read _ _ b [.instruction answer.1] (hb.trans (List.suffix_cons _ a)) fun y _ => ?_
        simp [angleStep, hall]
    by_cases hletter : Text.isLetter c = true
    · exact (stepLocal_opening (c :: a)).of_suffix List.suffix_rfl fun y => by simp [angleStep, hletter]
    · refine @stepLocal_of_read _ _ (c :: a) [.text ['<']] List.suffix_rfl fun y _ => ?_
      simp [angleStep, hletter]

/-! ### References and text -/

theorem dropSemicolon_angle (a : Text) : ∃ b, b <:+ a ∧ ∀ y, (dropSemicolon (a ++ '<' :: y)).2 = b ++ '<' :: y := by
  cases a with
  | nil => exact ⟨[], List.suffix_rfl, fun y => rfl⟩
  | cons c a =>
    by_cases hc : c = ';'
    · subst hc
      exact ⟨a, List.suffix_cons _ a, fun y => rfl⟩
    · exact ⟨c :: a, List.suffix_rfl, fun y => by simp [dropSemicolon, hc]⟩

theorem digitsReference?_angle {isDigit : Char → Bool} (hangle : isDigit '<' = false) (value : Text → Nat) (a : Text) :
    (∀ y, digitsReference? isDigit value (a ++ '<' :: y) = none) ∨
      ∃ n b, b <:+ a ∧ ∀ y, digitsReference? isDigit value (a ++ '<' :: y) = some (n, b ++ '<' :: y) := by
  have hhex : Text.isHexDigit '<' = false := rfl
  obtain ⟨b, hb, hsemicolon⟩ := dropSemicolon_angle (a.dropWhile isDigit)
  cases hds : a.takeWhile isDigit with
  | nil => exact .inl fun y => by simp [digitsReference?, takeWhile_angle hangle, hds]
  | cons d ds =>
    cases hrest : a.dropWhile isDigit with
    | nil =>
      rw [hrest] at hsemicolon
      refine .inr ⟨value (d :: ds), b, hb.trans (List.dropWhile_suffix _), fun y => ?_⟩
      have hback := hsemicolon y
      simp only [List.nil_append] at hback
      simp [digitsReference?, takeWhile_angle hangle, dropWhile_angle hangle, hds, hrest, hhex, hback]
    | cons c r =>
      rw [hrest] at hsemicolon
      by_cases hc : Text.isHexDigit c = true
      · exact .inl fun y => by simp [digitsReference?, takeWhile_angle hangle, dropWhile_angle hangle, hds, hrest, hc]
      · refine .inr ⟨value (d :: ds), b, hb.trans (List.dropWhile_suffix _), fun y => ?_⟩
        have hback := hsemicolon y
        simp only [List.cons_append] at hback
        simp [digitsReference?, takeWhile_angle hangle, dropWhile_angle hangle, hds, hrest, hc, hback]

theorem numericReference?_angle (a : Text) : (∀ y, numericReference? (a ++ '<' :: y) = none) ∨
    ∃ n b, b <:+ a ∧ ∀ y, numericReference? (a ++ '<' :: y) = some (n, b ++ '<' :: y) := by
  have hhex : Text.isHexDigit '<' = false := rfl
  have hdigit : Text.isDigit '<' = false := rfl
  by_cases hx : ∃ c r, a = c :: r ∧ (c = 'x' ∨ c = 'X')
  · obtain ⟨c, r, rfl, hc⟩ := hx
    have hopen : ∀ y, numericReference? (c :: r ++ '<' :: y) =
        digitsReference? Text.isHexDigit Text.ofHex (r ++ '<' :: y) := by
      intro y
      rcases hc with rfl | rfl <;> rfl
    simp only [hopen]
    exact (digitsReference?_angle hhex Text.ofHex r).imp id fun ⟨n, b, hb, hall⟩ =>
      ⟨n, b, hb.trans (List.suffix_cons c r), hall⟩
  · have hopen : ∀ y, numericReference? (a ++ '<' :: y) = digitsReference? Text.isDigit Text.ofDecimal (a ++ '<' :: y) := by
      intro y
      unfold numericReference?
      split
      · next r heq =>
        obtain ⟨b, rfl⟩ := @front_angle ['x'] a r y (by decide) heq
        exact absurd ⟨'x', b, rfl, .inl rfl⟩ hx
      · next r heq =>
        obtain ⟨b, rfl⟩ := @front_angle ['X'] a r y (by decide) heq
        exact absurd ⟨'X', b, rfl, .inr rfl⟩ hx
      · rfl
    simp only [hopen]
    exact digitsReference?_angle hdigit Text.ofDecimal a

theorem stepLocal_ampersand (a : Text) : StepLocal ampersandStep a := by
  cases a with
  | nil => exact @stepLocal_of_read _ _ [] [.text ['&']] List.suffix_rfl fun y _ => rfl
  | cons c a =>
    have hangle : isEntityChar '<' = false := rfl
    have hdigit : Text.isDigit '<' = false := rfl
    by_cases hnumeric : c = '#'
    · subst hnumeric
      have hexcess : ∀ y, excess? (a ++ '<' :: y) = excess? a := by
        intro y
        simp only [excess?, takeWhile_angle hdigit]
      rcases numericReference?_angle a with hnone | ⟨n, b, hb, hsome⟩
      · by_cases hsemicolon : (a ++ ['<']).contains ';' = true
        · refine @stepLocal_of_stop _ _ (a ++ ['<']) [.text "&#".text] ?_ ?_
          · simp only [List.cons_append, ampersandStep, hnone, hsemicolon, if_true]
          · intro heq
            rw [heq] at hsemicolon
            cases hsemicolon
        · refine @stepLocal_of_stop _ _ ('&' :: '#' :: (a ++ ['<'])) [] ?_ (by simp)
          simp only [List.cons_append, ampersandStep, hnone, hsemicolon, Bool.false_eq_true, if_false]
      · cases hlong : excess? a with
        | none =>
          refine @stepLocal_of_read _ _ b [.text [numbered n]] (hb.trans (List.suffix_cons _ a)) fun y _ => ?_
          simp only [List.cons_append, ampersandStep, hsome, hexcess, hlong]
        | some digits =>
          refine @stepLocal_of_reject _ _ (.longNumber digits) ?_
          simp only [List.cons_append, ampersandStep, hsome, hexcess, hlong]
    by_cases hletter : Text.isLetter c = true
    · obtain ⟨b, hb, hsemicolon⟩ := dropSemicolon_angle ((c :: a).dropWhile isEntityChar)
      refine @stepLocal_of_read _ _ b
        [.text ((named? ((c :: a).takeWhile isEntityChar)).getD ('&' :: (c :: a).takeWhile isEntityChar))]
        (hb.trans (List.dropWhile_suffix _)) fun y _ => ?_
      have htake := takeWhile_angle hangle (c :: a) y
      have hdrop := dropWhile_angle hangle (c :: a) y
      have hback := hsemicolon y
      obtain ⟨d, rest, hrest⟩ := List.exists_cons_of_ne_nil
        (List.append_ne_nil_of_right_ne_nil ((c :: a).dropWhile isEntityChar) (List.cons_ne_nil '<' y))
      rw [hrest] at hdrop hback
      rw [List.cons_append] at htake hdrop ⊢
      simp [ampersandStep, hletter, htake, hdrop, hback]
    · refine @stepLocal_of_read _ _ (c :: a) [.text ['&']] List.suffix_rfl fun y _ => ?_
      simp [ampersandStep, hletter]

theorem stepLocal_step (c : Char) (a : Text) : StepLocal (step false c) a := by
  by_cases hangle : c = '<'
  · subst hangle
    exact stepLocal_angle a
  by_cases hampersand : c = '&'
  · subst hampersand
    exact stepLocal_ampersand a
  refine @stepLocal_of_read _ _ (a.dropWhile isTextChar) [.text (c :: a.takeWhile isTextChar)]
    (List.dropWhile_suffix _) fun y _ => ?_
  have htext : isTextChar '<' = false := rfl
  rw [step, if_neg hangle, if_neg hampersand, takeWhile_angle htext, dropWhile_angle htext]

/-! ### Passes -/

theorem pass_cases {final : Bool} {c : Char} {r left : Text} {ts : List Token}
    (h : pass final (c :: r) = .ok (ts, left)) : step final c r = .stop ts left ∨
      ∃ us rest more, step final c r = .read us rest ∧ pass final rest = .ok (more, left) ∧ ts = us ++ more := by
  rw [pass] at h
  split at h
  · cases h
  · next us left' hstep =>
    cases h
    exact .inl hstep
  · next us rest hstep =>
    split at h
    · cases h
    · next more left' hpass =>
      cases h
      exact .inr ⟨us, rest, more, hstep, hpass, rfl⟩

/-- Markup that is read to its end: of a bracket behind it the first pass leaves just that bracket. -/
def ReadsThrough (t : Text) (ts : List Token) : Prop := pass false (t ++ ['<']) = .ok (ts, ['<'])

theorem ReadsThrough.nil : ReadsThrough [] [] := by
  rw [ReadsThrough, List.nil_append, pass]
  rfl

/-- The first step through such markup leaves such markup. -/
theorem ReadsThrough.cons {c : Char} {a : Text} {ts : List Token} (h : ReadsThrough (c :: a) ts) :
    ∃ us b more, ts = us ++ more ∧ b <:+ a ∧ ReadsThrough b more ∧
      ∀ y, Unquoted y → step false c (a ++ '<' :: y) = .read us (b ++ '<' :: y) := by
  have hlocal := stepLocal_step c a
  rcases pass_cases h with hstop | ⟨us, rest, more, hread, hpass, rfl⟩
  · exact absurd rfl (hlocal.stop hstop)
  rcases hlocal.read hread with rfl | ⟨b, hb, rfl, hall⟩
  · rw [pass] at hpass
    cases hpass
  · exact ⟨us, b, more, rfl, hb, hpass, hall⟩

/-- Markup that is read to its end is read in the same way in front of any tag without quotes. -/
theorem ReadsThrough.pass {t y : Text} {ts : List Token} (h : ReadsThrough t ts) (hy : Unquoted y) :
    pass false (t ++ '<' :: y) = consume ts (pass false ('<' :: y)) := by
  induction hn : t.length using Nat.strong_induction_on generalizing t ts with
  | _ n ih =>
    subst hn
    cases t with
    | nil =>
      cases ReadsThrough.nil.symm.trans h
      exact (consume_nil _).symm
    | cons c a =>
      obtain ⟨us, b, more, rfl, hb, hmore, hstep⟩ := h.cons
      rw [List.cons_append, pass_read (hstep y hy), ih b.length (Nat.lt_succ_of_le hb.length_le) hmore rfl,
        consume_consume]

/-! ### The names of tags -/

def Token.name? : Token → Option Text
  | .opening name _ _ => some name
  | .closing name => some name
  | _ => none

/-- The names of the tags among tokens stand in the text, in one case or the other. -/
def NamesWithin (t : Text) (ts : List Token) : Prop :=
  ∀ token ∈ ts, ∀ name ∈ token.name?, ∃ u, u <:+: t ∧ name = Text.lower u

theorem namesWithin_of_none {t : Text} {ts : List Token} (h : ∀ token ∈ ts, token.name? = none) : NamesWithin t ts := by
  intro token htoken name hname
  rw [h token htoken] at hname
  cases hname

theorem NamesWithin.mono {t t' : Text} {ts : List Token} (h : NamesWithin t ts) (ht : t <:+: t') : NamesWithin t' ts := by
  intro token htoken name hname
  obtain ⟨u, hu, rfl⟩ := h token htoken name hname
  exact ⟨u, hu.trans ht, rfl⟩

theorem NamesWithin.append {t : Text} {ts us : List Token} (hts : NamesWithin t ts) (hus : NamesWithin t us) :
    NamesWithin t (ts ++ us) :=
  fun token htoken => (List.mem_append.mp htoken).elim (hts token) (hus token)

theorem name?_textToken {t : Text} : ∀ token ∈ textToken t, token.name? = none := by
  intro token htoken
  unfold textToken at htoken
  split at htoken
  · cases htoken
  · rw [List.mem_singleton] at htoken
    subst htoken
    rfl

theorem namesWithin_incomplete {final : Bool} {c : Char} {r rest t : Text} {us : List Token}
    (h : incomplete final c r = .read us rest) : NamesWithin t us := by
  refine namesWithin_of_none ?_
  unfold incomplete at h
  repeat' split at h
  all_goals
    cases h
    try simp [Token.name?]

theorem namesWithin_opening {final : Bool} {t rest : Text} {us : List Token}
    (h : openingStep final t = .read us rest) : NamesWithin t us := by
  have hname : ∀ attributes closed more, (∀ token ∈ more, Token.name? token = none) →
      NamesWithin t (.opening (tagParts t).1 attributes closed :: more) := by
    intro attributes closed more hmore token htoken name hn
    rcases List.mem_cons.mp htoken with rfl | hin
    · cases hn
      exact ⟨t.takeWhile isTagNameChar, (List.takeWhile_prefix _).isInfix, rfl⟩
    · rw [hmore token hin] at hn
      cases hn
  unfold openingStep at h
  dsimp only at h
  split at h
  · replace h := eq_of_unlessLong h
    split at h
    · split at h
      · cases h
        exact hname _ _ _ name?_textToken
      · cases h
    · cases h
      exact hname _ _ _ (by simp)
  · cases eq_of_unlessLong h
    exact hname _ _ _ (by simp)
  · exact namesWithin_incomplete h
  · split at h
    · exact namesWithin_incomplete h
    · cases eq_of_unlessLong h
      exact namesWithin_of_none (by simp [Token.name?])

theorem infix_of_plainClosing? {t name rest : Text} (h : plainClosing? t = some (name, rest)) : name <:+: t := by
  unfold plainClosing? at h
  split at h
  · next c r heq =>
    have hr : c :: r <:+ t := heq ▸ Text.skipBlanks_suffix t
    split at h
    · rw [Option.map_eq_some_iff] at h
      obtain ⟨rest', -, hpair⟩ := h
      cases hpair
      exact ((List.prefix_cons_inj c).mpr (List.takeWhile_prefix _)).isInfix.trans hr.isInfix
    · cases h
  · cases h

theorem namesWithin_closing {final : Bool} {t rest : Text} {us : List Token}
    (h : closingStep final t = .read us rest) : NamesWithin t us := by
  have hname : ∀ u, u <:+: t → NamesWithin t [.closing (Text.lower u)] := by
    intro u hu token htoken name hn
    rw [List.mem_singleton] at htoken
    subst htoken
    cases hn
    exact ⟨u, hu, rfl⟩
  unfold closingStep at h
  split at h
  · exact namesWithin_incomplete h
  · split at h
    · next hplain =>
      cases h
      exact hname _ (infix_of_plainClosing? hplain)
    · split at h
      · cases h
        exact namesWithin_of_none (by simp)
      · split at h
        · cases h
          exact hname _ (List.takeWhile_prefix _).isInfix
        · cases h
          exact namesWithin_of_none (by simp [Token.name?])
      · cases h
        exact namesWithin_of_none (by simp)

theorem namesWithin_section {final : Bool} {t rest r : Text} {us : List Token}
    (h : sectionStep final t = .read us rest) : NamesWithin r us := by
  unfold sectionStep at h
  repeat' split at h
  all_goals first
    | exact namesWithin_incomplete h
    | cases h
  all_goals exact namesWithin_of_none (by simp [Token.name?])

theorem namesWithin_declaration {final : Bool} {t rest r : Text} {us : List Token}
    (h : declarationStep final t = .read us rest) : NamesWithin r us := by
  unfold declarationStep at h
  repeat' split at h
  all_goals first
    | exact namesWithin_incomplete h
    | exact namesWithin_section h
    | cases h
  all_goals exact namesWithin_of_none (by simp [Token.name?])

theorem namesWithin_ampersand {t rest r : Text} {us : List Token} (h : ampersandStep t = .read us rest) :
    NamesWithin r us := by
  refine namesWithin_of_none ?_
  unfold ampersandStep at h
  dsimp only at h
  repeat' split at h
  all_goals
    cases h
    try simp [Token.name?]

theorem namesWithin_step {final : Bool} {c : Char} {r rest : Text} {us : List Token}
    (h : step final c r = .read us rest) : NamesWithin r us := by
  unfold step at h
  split at h
  · unfold angleStep at h
    split at h
    · cases h
    · exact (namesWithin_closing h).mono (List.suffix_cons _ _).isInfix
    · exact namesWithin_declaration h
    · split at h
      · cases h
        exact namesWithin_of_none (by simp [Token.name?])
      · exact namesWithin_incomplete h
    · split at h
      · exact namesWithin_opening h
      · cases h
        exact namesWithin_of_none (by simp [Token.name?])
  · split at h
    · exact namesWithin_ampersand h
    · cases h
      exact namesWithin_of_none (by simp [Token.name?])

theorem ReadsThrough.namesWithin {t : Text} {ts : List Token} (h : ReadsThrough t ts) : NamesWithin (t ++ ['<']) ts := by
  induction hn : t.length using Nat.strong_induction_on generalizing t ts with
  | _ n ih =>
    subst hn
    cases t with
    | nil =>
      cases ReadsThrough.nil.symm.trans h
      exact namesWithin_of_none (by simp)
    | cons c a =>
      obtain ⟨us, b, more, rfl, hb, hmore, hstep⟩ := h.cons
      have hrest : b ++ ['<'] <:+ c :: a ++ ['<'] := by
        obtain ⟨front, rfl⟩ := hb
        exact ⟨c :: front, by simp⟩
      have hnames := ih b.length (Nat.lt_succ_of_le hb.length_le) hmore rfl
      exact ((namesWithin_step (hstep [] unquoted_nil)).mono (List.suffix_cons c _).isInfix).append
        (hnames.mono hrest.isInfix)

end Markup
end Stylebook
