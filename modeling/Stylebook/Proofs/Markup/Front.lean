import Mathlib.Data.List.Infix
import Stylebook.Proofs.Markup.Writing

/-! Reading is local. What is read in front of an angle bracket that is left alone does not depend on what stands
    behind the bracket; only a quote that was left open is looked for beyond it. Here this is shown of the parts of
    constructs: gaps, values, tags, raw texts and the ends of comments and marked sections. -/

namespace Stylebook
namespace Markup

def Unquoted (t : Text) : Prop := ∀ c ∈ t, isQuote c = false

/-! ### Runs of characters -/

section
variable {p : Char → Bool} {a : Text}

theorem takeWhile_within (h : a.dropWhile p ≠ []) (w : Text) : (a ++ w).takeWhile p = a.takeWhile p := by
  rw [List.takeWhile_append, if_neg]
  intro hlength
  have hall := congrArg List.length (List.takeWhile_append_dropWhile (p := p) (l := a))
  rw [List.length_append, hlength] at hall
  exact h (List.length_eq_zero_iff.mp (by omega))

theorem dropWhile_within (h : a.dropWhile p ≠ []) (w : Text) : (a ++ w).dropWhile p = a.dropWhile p ++ w := by
  rw [List.dropWhile_append, if_neg]
  rwa [List.isEmpty_iff]

/-- A run that takes all of a text takes the bracket behind it, too, if it takes brackets. -/
theorem dropWhile_beyond (hp : p '<' = true) (h : a.dropWhile p = []) : (a ++ ['<']).dropWhile p = [] := by
  rw [List.dropWhile_append, h]
  simp [hp]

theorem takeWhile_angle (hp : p '<' = false) (a y : Text) : (a ++ '<' :: y).takeWhile p = a.takeWhile p :=
  (Text.run_append_stop (by simpa using hp) a).1

theorem dropWhile_angle (hp : p '<' = false) (a y : Text) :
    (a ++ '<' :: y).dropWhile p = a.dropWhile p ++ '<' :: y := (Text.run_append_stop (by simpa using hp) a).2

end

theorem skipBlanks_angle (a y : Text) : Text.skipBlanks (a ++ '<' :: y) = Text.skipBlanks a ++ '<' :: y :=
  dropWhile_angle rfl a y

/-! ### Tags -/

theorem skipGap_angle (last : Char) (a : Text) :
    ∃ l b, b <:+ a ∧ ∀ y, skipGap last (a ++ '<' :: y) = (l, b ++ '<' :: y) := by
  induction a generalizing last with
  | nil =>
    have hblank : Text.isBlank '<' = false := rfl
    exact ⟨last, [], List.suffix_rfl, fun y => by simp [skipGap, hblank]⟩
  | cons c a ih =>
    obtain ⟨l, b, hb, hskip⟩ := ih c
    by_cases hblank : Text.isBlank c = true
    · exact ⟨l, b, hb.trans (List.suffix_cons c a), fun y => by simp [skipGap, hblank, hskip]⟩
    by_cases hslash : c = '/' ∧ a.head? ≠ some '>'
    · refine ⟨l, b, hb.trans (List.suffix_cons c a), fun y => ?_⟩
      have hhead : (a ++ '<' :: y).head? ≠ some '>' := by
        cases a with
        | nil => simp
        | cons d a => exact hslash.2
      rw [List.cons_append, skipGap, if_neg hblank, if_pos ⟨hslash.1, hhead⟩, hskip]
    · refine ⟨last, c :: a, List.suffix_rfl, fun y => ?_⟩
      have hhead : ¬(c = '/' ∧ (a ++ '<' :: y).head? ≠ some '>') := by
        cases a with
        | nil => simpa using hslash
        | cons d a => exact hslash
      rw [List.cons_append, skipGap, if_neg hblank, if_neg hhead]

/-- A value without quotes takes the bracket, or it ends in front of it. -/
theorem bareValue_angle (a : Text) : (a ++ ['<']).dropWhile isBareValueChar = [] ∨
    ∃ v b, b <:+ a ∧ ∀ y, (a ++ '<' :: y).takeWhile isBareValueChar = v ∧
      (a ++ '<' :: y).dropWhile isBareValueChar = b ++ '<' :: y := by
  by_cases hnil : a.dropWhile isBareValueChar = []
  · exact .inl (dropWhile_beyond rfl hnil)
  · exact .inr ⟨_, _, List.dropWhile_suffix _, fun y => ⟨takeWhile_within hnil _, dropWhile_within hnil _⟩⟩

/-- The value behind the equals signs of an attribute; `signs` are those behind the first one. -/
def signedValue? (signs t : Text) : Option (Text × Char × Text) :=
  match Text.skipBlanks t with
  | q :: v =>
    if isQuote q then
      match v.dropWhile (· != q) with
      | _ :: rest => some (v.takeWhile (· != q), q, rest)
      | [] =>
        if t.head?.any Text.isBlank then some ([], ' ', q :: v)
        else if signs.isEmpty then none
        else some ('=' :: t.takeWhile isBareValueChar, '=', t.dropWhile isBareValueChar)
    else some ((q :: v).takeWhile isBareValueChar, '=', (q :: v).dropWhile isBareValueChar)
  | [] => some ([], '=', [])

theorem attributeValue?_signed {t r : Text} (h : Text.skipBlanks t = '=' :: r) :
    attributeValue? t = signedValue? (r.takeWhile (· == '=')) (r.dropWhile (· == '=')) := by
  simp only [attributeValue?, h]
  rfl

/-- What a reading of a value in front of a bracket comes to: there is none, or it takes all the text up to the end,
    or it leaves the bracket. -/
def ValueLocal (f : Text → Option (Text × Char × Text)) (a : Text) : Prop :=
  (∀ y, Unquoted y → f (a ++ '<' :: y) = none) ∨ (∃ v l, f (a ++ ['<']) = some (v, l, [])) ∨
    ∃ v l b, b <:+ a ∧ ∀ y, Unquoted y → f (a ++ '<' :: y) = some (v, l, b ++ '<' :: y)

theorem unquoted_nil : Unquoted [] := fun _ h => by cases h

theorem valueLocal_bare {f : Text → Option (Text × Char × Text)} {a s : Text} (hs : s <:+ a) (g : Text → Text)
    (hf : ∀ y, Unquoted y → f (a ++ '<' :: y) =
      some (g ((s ++ '<' :: y).takeWhile isBareValueChar), '=', (s ++ '<' :: y).dropWhile isBareValueChar)) :
    ValueLocal f a := by
  rcases bareValue_angle s with hall | ⟨v, b, hb, hbare⟩
  · exact .inr (.inl ⟨_, _, by rw [hf [] unquoted_nil, hall]⟩)
  · refine .inr (.inr ⟨g v, '=', b, hb.trans hs, fun y hy => ?_⟩)
    rw [hf y hy, (hbare y).1, (hbare y).2]

theorem dropWhile_quote {q : Char} {v y : Text} (hq : isQuote q = true) (hv : v.dropWhile (· != q) = [])
    (hy : Unquoted y) : (v ++ '<' :: y).dropWhile (· != q) = [] := by
  rw [List.dropWhile_eq_nil_iff] at hv ⊢
  have hangle : isQuote '<' = false := rfl
  intro c hc
  rw [bne_iff_ne]
  rintro rfl
  rcases List.mem_append.mp hc with hin | hin
  · exact absurd (hv c hin) (by simp)
  · rcases List.mem_cons.mp hin with rfl | hin
    · rw [hq] at hangle; cases hangle
    · rw [hy c hin] at hq; cases hq

theorem signedValue?_angle (signs a : Text) : ValueLocal (signedValue? signs) a := by
  cases ha : Text.skipBlanks a with
  | nil =>
    have hangle : isQuote '<' = false := rfl
    refine valueLocal_bare (List.nil_suffix) id fun y _ => ?_
    simp [signedValue?, skipBlanks_angle, ha, hangle]
  | cons q v =>
    have hv : q :: v <:+ a := ha ▸ Text.skipBlanks_suffix a
    have hhead : ∀ y, (a ++ '<' :: y).head? = a.head? := by
      intro y
      cases a with
      | nil => cases ha
      | cons c a => rfl
    by_cases hq : isQuote q = true
    case neg =>
      refine valueLocal_bare hv id fun y _ => ?_
      simp [signedValue?, skipBlanks_angle, ha, hq]
    cases hclose : v.dropWhile (· != q) with
    | cons c b =>
      have hne : v.dropWhile (· != q) ≠ [] := by simp [hclose]
      have hb : b <:+ v := (List.suffix_cons c b).trans (hclose ▸ List.dropWhile_suffix _)
      refine .inr (.inr ⟨v.takeWhile (· != q), q, b, hb.trans ((List.suffix_cons q v).trans hv), fun y _ => ?_⟩)
      simp [signedValue?, skipBlanks_angle, ha, hq, dropWhile_within hne, takeWhile_within hne, hclose]
    | nil =>
      -- a quote that is not closed in front of the bracket is never closed
      by_cases hblank : a.head?.any Text.isBlank = true
      · refine .inr (.inr ⟨[], ' ', q :: v, hv, fun y hy => ?_⟩)
        simp [signedValue?, skipBlanks_angle, ha, hq, dropWhile_quote hq hclose hy, hhead, hblank]
      cases signs with
      | nil =>
        refine .inl fun y hy => ?_
        simp [signedValue?, skipBlanks_angle, ha, hq, dropWhile_quote hq hclose hy, hhead, hblank]
      | cons c signs =>
        refine valueLocal_bare List.suffix_rfl ('=' :: ·) fun y hy => ?_
        simp [signedValue?, skipBlanks_angle, ha, hq, dropWhile_quote hq hclose hy, hhead, hblank]

theorem attributeValue?_angle (a : Text) : ValueLocal attributeValue? a := by
  cases ha : Text.skipBlanks a with
  | nil => exact .inl fun y _ => by simp [attributeValue?, skipBlanks_angle, ha]
  | cons c r =>
    by_cases hc : c = '='
    case neg => exact .inl fun y _ => by simp [attributeValue?, skipBlanks_angle, ha, hc]
    subst hc
    have hr : r.dropWhile (· == '=') <:+ a :=
      (List.dropWhile_suffix _).trans ((List.suffix_cons '=' r).trans (ha ▸ Text.skipBlanks_suffix a))
    have hsigned : ∀ y, attributeValue? (a ++ '<' :: y) =
        signedValue? (r.takeWhile (· == '=')) (r.dropWhile (· == '=') ++ '<' :: y) := by
      intro y
      have hskip : Text.skipBlanks (a ++ '<' :: y) = '=' :: (r ++ '<' :: y) := by rw [skipBlanks_angle, ha]; rfl
      have hangle : ('<' == '=') = false := rfl
      rw [attributeValue?_signed hskip, takeWhile_angle hangle, dropWhile_angle hangle]
    rcases signedValue?_angle (r.takeWhile (· == '=')) (r.dropWhile (· == '=')) with
      hnone | ⟨v, l, hall⟩ | ⟨v, l, b, hb, hsome⟩
    · exact .inl fun y hy => (hsigned y).trans (hnone y hy)
    · exact .inr (.inl ⟨v, l, (hsigned []).trans hall⟩)
    · exact .inr (.inr ⟨v, l, b, hb.trans hr, fun y hy => (hsigned y).trans (hsome y hy)⟩)

theorem valueAndGap_angle (last : Char) (a : Text) : (valueAndGap last (a ++ ['<'])).2.2 = [] ∨
    ∃ v l b, b <:+ a ∧ ∀ y, Unquoted y → valueAndGap last (a ++ '<' :: y) = (v, l, b ++ '<' :: y) := by
  rcases attributeValue?_angle a with hnone | ⟨v, l, hall⟩ | ⟨v, l, b, hb, hsome⟩
  · obtain ⟨l, b, hb, hgap⟩ := skipGap_angle last a
    exact .inr ⟨[], l, b, hb, fun y hy => by rw [valueAndGap, hnone y hy, hgap y]⟩
  · exact .inl (by rw [valueAndGap, hall]; rfl)
  · obtain ⟨l', b', hb', hgap⟩ := skipGap_angle l b
    exact .inr ⟨v, l', b', hb'.trans hb, fun y hy => by simp only [valueAndGap, hsome y hy, hgap y]⟩

theorem attributes_nil (last : Char) : attributes last [] = ([], []) := by rw [attributes]

theorem attributes_angle (last : Char) (a : Text) : (attributes last (a ++ ['<'])).2 = [] ∨
    ∃ read b, b <:+ a ∧ ∀ y, Unquoted y → attributes last (a ++ '<' :: y) = (read, b ++ '<' :: y) := by
  -- over the length of the text: an attribute takes a name at least
  induction hn : a.length using Nat.strong_induction_on generalizing last a with
  | _ n ih =>
    subst hn
    cases a with
    | nil =>
      by_cases hallows : allowsAttribute last = true
      · left
        have hstarts : startsAttribute '<' = true := rfl
        rw [List.nil_append, attributes]
        simp [hallows, hstarts, valueAndGap, attributeValue?, Text.skipBlanks, Text.trimLeftBy, skipGap, attributes_nil]
      · exact .inr ⟨[], [], List.suffix_rfl, fun y _ => by simp [attributes, hallows]⟩
    | cons c a =>
      by_cases hstarts : (allowsAttribute last && startsAttribute c) = true
      case neg => exact .inr ⟨[], c :: a, List.suffix_rfl, fun y _ => by rw [List.cons_append, attributes, if_neg hstarts]⟩
      by_cases hname : a.dropWhile isAttributeChar = []
      · -- the name takes the bracket
        left
        rw [List.cons_append, attributes, if_pos hstarts, dropWhile_beyond rfl hname]
        simp [valueAndGap, attributeValue?, Text.skipBlanks, Text.trimLeftBy, skipGap, attributes_nil]
      · have hopen : ∀ y, attributes last (c :: a ++ '<' :: y) =
            let gap := valueAndGap ((c :: a.takeWhile isAttributeChar).getLast?.getD c)
              (a.dropWhile isAttributeChar ++ '<' :: y)
            ((Text.lower (c :: a.takeWhile isAttributeChar), gap.1) :: (attributes gap.2.1 gap.2.2).1,
              (attributes gap.2.1 gap.2.2).2) := by
          intro y
          rw [List.cons_append, attributes, if_pos hstarts, takeWhile_within hname, dropWhile_within hname]
        have hrest : a.dropWhile isAttributeChar <:+ a := List.dropWhile_suffix _
        rcases valueAndGap_angle ((c :: a.takeWhile isAttributeChar).getLast?.getD c) (a.dropWhile isAttributeChar) with
          hall | ⟨v, l, b, hb, hgap⟩
        · left
          simp only [hopen, hall, attributes_nil]
        · have hshort : b.length < (c :: a).length := Nat.lt_succ_of_le (hb.trans hrest).length_le
          rcases ih b.length hshort l b rfl with hall | ⟨read, b', hb', hread⟩
          · left
            simp only [hopen, hgap [] unquoted_nil, hall]
          · refine .inr ⟨(Text.lower (c :: a.takeWhile isAttributeChar), v) :: read, b',
              (hb'.trans (hb.trans hrest)).trans (List.suffix_cons c a), fun y hy => ?_⟩
            simp only [hopen, hgap y hy, hread y hy]

theorem tagParts_angle (a : Text) : (tagParts (a ++ ['<'])).2.2 = [] ∨
    ∃ name read b, b <:+ a ∧ ∀ y, Unquoted y → tagParts (a ++ '<' :: y) = (name, read, b ++ '<' :: y) := by
  by_cases hname : a.dropWhile isTagNameChar = []
  · left
    simp only [tagParts, dropWhile_beyond (show isTagNameChar '<' = true from rfl) hname, skipGap, attributes_nil]
  obtain ⟨l, b, hb, hgap⟩ := skipGap_angle ((a.takeWhile isTagNameChar).getLast?.getD '<') (a.dropWhile isTagNameChar)
  have hopen : ∀ y, tagParts (a ++ '<' :: y) =
      (Text.lower (a.takeWhile isTagNameChar), attributes l (b ++ '<' :: y)) := by
    intro y
    simp only [tagParts, takeWhile_within hname, dropWhile_within hname, hgap]
  rcases attributes_angle l b with hall | ⟨read, b', hb', hread⟩
  · exact .inl (by rw [hopen, hall])
  · exact .inr ⟨_, read, b', (hb'.trans hb).trans (List.dropWhile_suffix _), fun y hy => by rw [hopen, hread y hy]⟩

/-! ### Ends of constructs -/

/-- The end of a construct is found in front of a bracket or not at all, whatever stands behind the bracket. -/
structure CloseLocal (close? : Text → Option Text) : Prop where
  nil : close? [] = none
  angle : ∀ a, (∀ y, close? (a ++ '<' :: y) = none) ∨ ∃ b, b <:+ a ∧ ∀ y, close? (a ++ '<' :: y) = some (b ++ '<' :: y)

theorem CloseLocal.after : CloseLocal (Text.after? ['>']) where
  nil := rfl
  angle
    | [] => .inl fun _ => rfl
    | c :: a => by
      by_cases hc : '>' = c
      · subst hc
        exact .inr ⟨a, List.suffix_cons _ a, fun y => by simp [Text.after?]⟩
      · exact .inl fun y => by simp [Text.after?, hc]

theorem CloseLocal.skipBlanks {close? : Text → Option Text} (h : CloseLocal close?) :
    CloseLocal fun t => close? (Text.skipBlanks t) where
  nil := h.nil
  angle a := by
    simp only [skipBlanks_angle]
    exact (h.angle _).imp id fun ⟨b, hb, hclose⟩ => ⟨b, hb.trans (Text.skipBlanks_suffix a), hclose⟩

/-- An end that begins with a character other than the bracket. -/
theorem CloseLocal.behind {close? inner? : Text → Option Text} (h : CloseLocal inner?) {c : Char} (hc : c ≠ '<')
    (hnil : close? [] = none) (hnone : ∀ d t, d ≠ c → close? (d :: t) = none) (hsome : ∀ t, close? (c :: t) = inner? t) :
    CloseLocal close? where
  nil := hnil
  angle
    | [] => .inl fun y => hnone _ _ hc.symm
    | d :: a => by
      by_cases hd : d = c
      · subst hd
        simp only [List.cons_append, hsome]
        exact (h.angle a).imp id fun ⟨b, hb, hclose⟩ => ⟨b, hb.trans (List.suffix_cons d a), hclose⟩
      · exact .inl fun y => hnone _ _ hd

theorem closeLocal_bracket : CloseLocal bracketClose? :=
  CloseLocal.after.skipBlanks.behind (c := ']') (by decide) rfl (fun d t hd => by simp [bracketClose?, hd]) fun _ => rfl

theorem closeLocal_doubleBracket : CloseLocal doubleBracketClose? :=
  closeLocal_bracket.skipBlanks.behind (c := ']') (by decide) rfl (fun d t hd => by simp [doubleBracketClose?, hd])
    fun _ => rfl

theorem closeLocal_comment : CloseLocal commentClose? := by
  have hsecond : CloseLocal fun t => commentClose? ('-' :: t) :=
    CloseLocal.after.skipBlanks.behind (c := '-') (by decide) rfl (fun d t hd => by simp [commentClose?, hd]) fun _ => rfl
  exact hsecond.behind (c := '-') (by decide) rfl (fun d t hd => by simp [commentClose?, hd]) fun _ => rfl

theorem closeLocal_section {kind : Text} {close? : Text → Option Text} (h : sectionClose? kind = some close?) :
    CloseLocal close? := by
  unfold sectionClose? at h
  split at h
  · cases h
    exact closeLocal_doubleBracket
  · split at h
    · cases h
      exact closeLocal_bracket
    · cases h

theorem until?_angle {close? : Text → Option Text} (h : CloseLocal close?) {a inside rest : Text}
    (hread : until? close? (a ++ ['<']) = some (inside, rest)) :
    ∃ b, b <:+ a ∧ rest = b ++ ['<'] ∧ ∀ y, until? close? (a ++ '<' :: y) = some (inside, b ++ '<' :: y) := by
  induction a generalizing inside with
  | nil =>
    rcases h.angle [] with hnone | ⟨b, hb, hsome⟩
    · have hangle : close? ['<'] = none := hnone []
      simp [until?, hangle, h.nil] at hread
    · have hangle : ∀ y, close? ('<' :: y) = some (b ++ '<' :: y) := hsome
      simp only [List.nil_append, until?, hangle, Option.some.injEq, Prod.mk.injEq] at hread
      obtain ⟨rfl, rfl⟩ := hread
      exact ⟨b, hb, rfl, fun y => by simp [until?, hangle]⟩
  | cons c a ih =>
    rcases h.angle (c :: a) with hnone | ⟨b, hb, hsome⟩
    · have hangle : ∀ y, until? close? (c :: a ++ '<' :: y) =
          (until? close? (a ++ '<' :: y)).map fun read => (c :: read.1, read.2) := by
        intro y
        have hclose := hnone y
        rw [List.cons_append] at hclose ⊢
        rw [until?, hclose]
      rw [hangle, Option.map_eq_some_iff] at hread
      obtain ⟨⟨before, rest'⟩, hread, heq⟩ := hread
      obtain ⟨rfl, rfl⟩ := Prod.mk.inj heq
      obtain ⟨b, hb, hrest, hall⟩ := ih hread
      exact ⟨b, hb.trans (List.suffix_cons c a), hrest, fun y => by rw [hangle, hall y]; rfl⟩
    · have hangle : ∀ y, until? close? (c :: a ++ '<' :: y) = some ([], b ++ '<' :: y) := by
        intro y
        have hclose := hsome y
        rw [List.cons_append] at hclose ⊢
        rw [until?, hclose]
      rw [hangle, Option.some.injEq, Prod.mk.injEq] at hread
      obtain ⟨rfl, rfl⟩ := hread
      exact ⟨b, hb, rfl, hangle⟩

theorem untilAngle?_eq (t : Text) : untilAngle? t = until? (Text.after? ['>']) t := by
  induction t with
  | nil => rfl
  | cons c t ih =>
    rw [untilAngle?, Text.cut?, until?, ← ih]
    rfl

theorem untilAngle?_angle {a inside rest : Text} (h : untilAngle? (a ++ ['<']) = some (inside, rest)) :
    ∃ b, b <:+ a ∧ rest = b ++ ['<'] ∧ ∀ y, untilAngle? (a ++ '<' :: y) = some (inside, b ++ '<' :: y) := by
  simp only [untilAngle?_eq] at h ⊢
  exact until?_angle CloseLocal.after h

/-! ### Raw text -/

theorem afterAnyCase?_angle {w : Text} (hw : ∀ l ∈ w, Text.isLetterAnyCase l '<' = false) (a : Text) :
    (∀ y, Text.afterAnyCase? w (a ++ '<' :: y) = none) ∨
      w.length ≤ a.length ∧ ∀ y, (Text.afterAnyCase? w (a ++ '<' :: y)).isSome = true := by
  induction w generalizing a with
  | nil => exact .inr ⟨Nat.zero_le _, fun _ => rfl⟩
  | cons l w ih =>
    cases a with
    | nil => exact .inl fun y => by simp [Text.afterAnyCase?, hw l List.mem_cons_self]
    | cons c a =>
      by_cases hc : Text.isLetterAnyCase l c = true
      · simp only [List.cons_append, Text.afterAnyCase?, hc, if_true, List.length_cons, Nat.succ_le_succ_iff]
        exact ih (fun l hl => hw l (List.mem_cons_of_mem _ hl)) a
      · exact .inl fun y => by simp [Text.afterAnyCase?, hc]

/-- What a text begins with in front of a bracket, it begins with on its own. -/
theorem front_angle {w a r y : Text} (hw : '<' ∉ w) (h : a ++ '<' :: y = w ++ r) : ∃ b, a = w ++ b := by
  rcases List.append_eq_append_iff.mp h with ⟨u, hwu, hu⟩ | ⟨u, rfl, -⟩
  · cases u with
    | nil => exact ⟨[], by simpa using hwu.symm⟩
    | cons c u =>
      obtain ⟨rfl, -⟩ := List.cons.inj hu
      exact absurd (by simp [hwu]) hw
  · exact ⟨u, rfl⟩

theorem head?_angle (a y : Text) : (a ++ '<' :: y).head? = (a ++ ['<']).head? := by
  cases a <;> rfl

theorem closesRaw_angle {name : Text} (hname : ∀ l ∈ name, Text.isLetterAnyCase l '<' = false) (strict : Bool)
    (c : Char) (a y : Text) : closesRaw strict name (c :: a ++ '<' :: y) = closesRaw strict name (c :: a ++ ['<']) := by
  by_cases hc : c = '<'
  case neg => simp [closesRaw, hc]
  cases a with
  | nil => simp [closesRaw]
  | cons d r =>
    by_cases hd : d = '/'
    case neg => simp [closesRaw, hd]
    subst hc hd
    simp only [List.cons_append, closesRaw, skipBlanks_angle]
    rcases afterAnyCase?_angle hname (Text.skipBlanks r) with hnone | ⟨hlength, hsome⟩
    · simp [hnone]
    · simp only [hsome, List.take_append_of_le_length hlength, List.drop_append_of_le_length hlength, skipBlanks_angle]
      rw [head?_angle]

theorem rawText_angle {name : Text} (hname : ∀ l ∈ name, Text.isLetterAnyCase l '<' = false) {a raw rest : Text}
    (h : rawText name (a ++ ['<']) = (raw, some rest)) :
    ∃ b, b <:+ a ∧ rest = b ++ ['<'] ∧ ∀ y, rawText name (a ++ '<' :: y) = (raw, some (b ++ '<' :: y)) := by
  induction a generalizing raw with
  | nil => simp [rawText, closesRaw] at h
  | cons c a ih =>
    have hcloses := closesRaw_angle hname true c a
    simp only [List.cons_append] at h hcloses ⊢
    by_cases hclose : closesRaw true name (c :: (a ++ ['<'])) = true
    · rw [rawText, if_pos hclose] at h
      obtain ⟨rfl, hrest⟩ := Prod.mk.inj h
      refine ⟨c :: a, List.suffix_rfl, (Option.some.inj hrest).symm, fun y => ?_⟩
      rw [rawText, if_pos ((hcloses y).trans hclose)]
      rfl
    · rw [rawText, if_neg hclose] at h
      split at h
      · next raw' rest' heq =>
        obtain ⟨rfl, hrest⟩ := Prod.mk.inj h
        cases hrest
        obtain ⟨b, hb, hrest, hall⟩ := ih heq
        refine ⟨b, hb.trans (List.suffix_cons c a), hrest, fun y => ?_⟩
        rw [rawText, hcloses y, if_neg hclose, hall y]
      · split at h <;> cases h
      · cases h

end Markup
end Stylebook
