import Mathlib.Data.List.Chain
import Stylebook.Proofs.Selector.Reading
import Stylebook.Selector.Matching

/-! Descendant marks of a selector. Blanks at the ends of a group, beside a comma or side by side leave no mark: a mark
    always stands between two parts. So no compound of a group is empty, which would hold for every element. -/

namespace Stylebook
namespace Selector

/-- Descendant marks stand between parts only, and never side by side. -/
structure IsSpaced (g : Group) : Prop where
  ne_nil : g ≠ []
  head : g.head? ≠ some .descendant
  last : g.getLast? ≠ some .descendant
  apart : g.IsChain fun p q => ¬(p = .descendant ∧ q = .descendant)

/-! ### Compounds -/

theorem compounds_ne_nil (g : Group) : compounds g ≠ [] := by
  cases g with
  | nil => exact List.cons_ne_nil _ _
  | cons p g => cases p <;> cases hcs : compounds g <;> simp [compounds, hcs]

theorem compounds_cons {p : Part} (hp : p ≠ .descendant) (g : Group) :
    ∃ c cs, compounds g = c :: cs ∧ compounds (p :: g) = (p :: c) :: cs := by
  obtain ⟨c, cs, hcs⟩ := List.exists_cons_of_ne_nil (compounds_ne_nil g)
  refine ⟨c, cs, hcs, ?_⟩
  rw [compounds.eq_3 p g hp, hcs]

/-- The compounds of a group, with one mark between two of them, are the group. -/
theorem joined_compounds (g : Group) : joined (compounds g) = g := by
  induction g with
  | nil => rfl
  | cons p g ih =>
    by_cases hp : p = .descendant
    · subst hp
      rw [compounds, joined_cons _ (compounds_ne_nil g), ih, List.nil_append]
    · obtain ⟨c, cs, hcs, hcons⟩ := compounds_cons hp g
      rw [hcs] at ih
      rw [hcons, ← ih]
      cases cs with
      | nil => simp [joined]
      | cons d ds => rw [joined_cons _ (List.cons_ne_nil d ds), joined_cons _ (List.cons_ne_nil d ds), List.cons_append]

theorem not_mem_of_mem_compounds {g : Group} : ∀ c ∈ compounds g, Part.descendant ∉ c := by
  induction g with
  | nil => simp [compounds]
  | cons p g ih =>
    by_cases hp : p = .descendant
    · subst hp
      rw [compounds, List.forall_mem_cons]
      exact ⟨List.not_mem_nil, ih⟩
    · obtain ⟨c, cs, hcs, hcons⟩ := compounds_cons hp g
      rw [hcs, List.forall_mem_cons] at ih
      rw [hcons, List.forall_mem_cons, List.mem_cons, not_or]
      exact ⟨⟨Ne.symm hp, ih.1⟩, ih.2⟩

theorem joined_append {cs ds : List Compound} (hcs : cs ≠ []) (hds : ds ≠ []) :
    joined (cs ++ ds) = joined cs ++ .descendant :: joined ds := by
  induction cs with
  | nil => exact absurd rfl hcs
  | cons c cs ih =>
    cases cs with
    | nil => simpa [joined] using joined_cons c hds
    | cons e es =>
      rw [List.cons_append, joined_cons c (by simp), ih (List.cons_ne_nil e es), joined_cons c (List.cons_ne_nil e es),
        List.append_assoc, List.cons_append]

/-- An empty compound would have a mark of the group at an end, or two of them around it. -/
theorem IsSpaced.ne_nil_of_mem {g : Group} (h : IsSpaced g) : ∀ c ∈ compounds g, c ≠ [] := by
  rintro c hc rfl
  obtain ⟨front, back, hsplit⟩ := List.append_of_mem hc
  have hg := joined_compounds g
  rw [hsplit] at hg
  rcases eq_or_ne front [] with rfl | hfront
  · rcases eq_or_ne back [] with rfl | hback
    · exact h.ne_nil hg.symm
    · rw [List.nil_append, joined_cons _ hback, List.nil_append] at hg
      exact h.head (hg ▸ rfl)
  · rw [joined_append hfront (List.cons_ne_nil _ _)] at hg
    rcases eq_or_ne back [] with rfl | hback
    · exact h.last (hg ▸ List.getLast?_concat)
    · rw [joined_cons _ hback, List.nil_append] at hg
      have hpair := h.apart
      rw [← hg] at hpair
      simpa using hpair.right_of_append

/-! ### Lexemes -/

theorem ne_descendant_of_attribute? {t r : Text} {p : Part} (h : attribute? t = some (p, r)) : p ≠ .descendant := by
  unfold attribute? at h
  repeat' split at h
  · cases h
  · cases h
    simp
  · rw [Option.map_eq_some_iff] at h
    obtain ⟨⟨v, rest⟩, -, hpair⟩ := h
    cases hpair
    simp
  · cases h

theorem ne_descendant_of_pseudo? {t r : Text} {p : Part} (h : pseudo? t = some (p, r)) : p ≠ .descendant := by
  unfold pseudo? at h
  repeat' split at h
  all_goals cases h
  all_goals simp

/-- Marks are not read, they are put between parts. -/
theorem ne_descendant_of_lexeme? {t r : Text} {p : Part} (h : lexeme? t = some (.part p, r)) : p ≠ .descendant := by
  cases t with
  | nil => cases h
  | cons c t =>
    rw [lexeme?] at h
    repeat' split at h
    all_goals simp only [Option.map_eq_some_iff, Option.some.injEq, Prod.mk.injEq, Prod.exists, Lexeme.part.injEq,
      reduceCtorEq, false_and] at h
    · obtain ⟨n, r', -, rfl, -⟩ := h
      simp
    · obtain ⟨n, r', -, rfl, -⟩ := h
      simp
    · obtain ⟨p, r', hread, rfl, -⟩ := h
      exact ne_descendant_of_attribute? hread
    · obtain ⟨p, r', hread, rfl, -⟩ := h
      exact ne_descendant_of_pseudo? hread
    · obtain ⟨rfl, -⟩ := h
      simp
    · obtain ⟨n, r', -, rfl, -⟩ := h
      simp

theorem descendant_not_mem_scan (t : Text) : .part .descendant ∉ (scan t).1 := by
  fun_induction scan t with
  | case1 t _ => exact List.not_mem_nil
  | case2 t l r hread ls rest hscan ih =>
    rw [hscan] at ih
    rw [List.mem_cons, not_or]
    refine ⟨?_, ih⟩
    rintro rfl
    exact ne_descendant_of_lexeme? hread rfl

/-! ### Groups -/

/-- The state of a reader within a group: it has no part yet, or marks only between its parts. -/
def IsBegun (current : Group) (pending : Bool) : Prop := current = [] ∧ pending = false ∨ IsSpaced current

theorem IsSpaced.append {g u : Group} {p : Part} (h : IsSpaced g) (hlast : u.getLast? = some p) (hp : p ≠ .descendant)
    (hu : u.IsChain fun p q => ¬(p = .descendant ∧ q = .descendant)) : IsSpaced (g ++ u) where
  ne_nil := by simp [h.ne_nil]
  head := by
    rw [List.head?_append_of_ne_nil _ h.ne_nil]
    exact h.head
  last := by simp [List.getLast?_append, hlast, hp]
  apart := by
    refine List.isChain_append.mpr ⟨h.apart, hu, ?_⟩
    rintro x hx y - ⟨rfl, -⟩
    exact h.last hx

/-- One part more, with a mark in front of it if blanks stand there. -/
theorem IsBegun.add {current : Group} {pending : Bool} {p : Part} (h : IsBegun current pending) (hp : p ≠ .descendant) :
    IsSpaced (current ++ if pending then [.descendant, p] else [p]) := by
  rcases h with ⟨rfl, rfl⟩ | hspaced
  · exact ⟨by simp, by simpa using hp, by simpa using hp, by simp⟩
  · cases pending with
    | false => exact hspaced.append rfl hp (by simp)
    | true => exact hspaced.append rfl hp (by simp [hp])

theorem isSpaced_of_groups {selector : Text} {fault : Option Error} {current : Group} {pending : Bool}
    {lexemes : List Lexeme} {gs : List Group} (hbegun : IsBegun current pending)
    (hparts : .part .descendant ∉ lexemes) (h : groups selector fault current pending lexemes = .ok gs) :
    gs ≠ [] ∧ ∀ g ∈ gs, IsSpaced g := by
  fun_induction groups selector fault current pending lexemes generalizing gs with
  | case1 => cases h
  | case2 => cases h
  | case3 current pending _ hne =>
    cases h
    have hspaced : IsSpaced current := hbegun.resolve_left fun hnil => hne (List.isEmpty_iff.mpr hnil.1)
    exact ⟨List.cons_ne_nil _ _, List.forall_mem_singleton.mpr hspaced⟩
  | case4 current pending r ih =>
    refine ih ?_ (fun hmem => hparts (List.mem_cons_of_mem _ hmem)) h
    rcases hbegun with ⟨rfl, -⟩ | hspaced
    · exact .inl ⟨rfl, rfl⟩
    · exact .inr hspaced
  | case5 => cases h
  | case6 current pending r hne ih =>
    have hspaced : IsSpaced current := hbegun.resolve_left fun hnil => hne (List.isEmpty_iff.mpr hnil.1)
    cases hrest : groups selector fault [] false r with
    | error e =>
      rw [hrest] at h
      cases h
    | ok more =>
      rw [hrest] at h
      cases h
      obtain ⟨-, hmore⟩ := ih (.inl ⟨rfl, rfl⟩) (fun hmem => hparts (List.mem_cons_of_mem _ hmem)) hrest
      exact ⟨List.cons_ne_nil _ _, List.forall_mem_cons.mpr ⟨hspaced, hmore⟩⟩
  | case7 current pending p r ih =>
    have hp : p ≠ .descendant := fun heq => hparts (heq ▸ List.mem_cons_self)
    exact ih (.inr (hbegun.add hp)) (fun hmem => hparts (List.mem_cons_of_mem _ hmem)) h

/-- Only blank text has no groups. In each group marks stand between parts; its compounds have a part each and no mark,
    and with one mark between two of them they are the group. An empty compound would hold for every element. -/
theorem parse_spaced {selector : Text} {gs : List Group} (h : parse selector = .ok gs) :
    (gs = [] ↔ Blanks selector) ∧
    (∀ g ∈ gs, IsSpaced g ∧ (∀ c ∈ compounds g, c ≠ [] ∧ Part.descendant ∉ c) ∧ joined (compounds g) = g) ∧
    ∀ p, Compound.holds p [] = true := by
  have hread : (gs = [] ↔ Blanks selector) ∧ ∀ g ∈ gs, IsSpaced g := by
    unfold parse at h
    dsimp only at h
    split at h
    · next htrim =>
      cases h
      rw [List.isEmpty_iff, Text.trim, Text.trimBy_eq_nil_iff] at htrim
      exact ⟨iff_of_true rfl htrim, fun _ hg => absurd hg List.not_mem_nil⟩
    · next htrim =>
      rw [List.isEmpty_iff, Text.trim, Text.trimBy_eq_nil_iff] at htrim
      obtain ⟨hne, hspaced⟩ := isSpaced_of_groups (.inl ⟨rfl, rfl⟩) (descendant_not_mem_scan _) h
      exact ⟨iff_of_false hne htrim, hspaced⟩
  refine ⟨hread.1, fun g hg => ⟨hread.2 g hg, fun c hc => ⟨?_, not_mem_of_mem_compounds c hc⟩, joined_compounds g⟩,
    fun _ => rfl⟩
  exact (hread.2 g hg).ne_nil_of_mem c hc

theorem parse_spaced_menu :
    parse " nav \t a ,.menu  .item[ x ] ".text = .ok [[.tag "nav".text, .descendant, .tag "a".text],
      [.className "menu".text, .descendant, .className "item".text, .attribute "x".text none]] ∧
    ¬Blanks " nav \t a ,.menu  .item[ x ] ".text ∧
    IsSpaced [.tag "nav".text, .descendant, .tag "a".text] ∧
    compounds [.tag "nav".text, .descendant, .tag "a".text] = [[.tag "nav".text], [.tag "a".text]] ∧
    joined [[.tag "nav".text], [.tag "a".text]] = [.tag "nav".text, .descendant, .tag "a".text] := by
  have hparse : parse " nav \t a ,.menu  .item[ x ] ".text = .ok [[.tag "nav".text, .descendant, .tag "a".text],
      [.className "menu".text, .descendant, .className "item".text, .attribute "x".text none]] := by decide +kernel
  obtain ⟨hblank, hgroups, -⟩ := parse_spaced hparse
  obtain ⟨hspaced, -, hjoined⟩ := hgroups _ List.mem_cons_self
  exact ⟨hparse, fun h => List.cons_ne_nil _ _ (hblank.mpr h), hspaced, rfl, hjoined⟩

end Selector
end Stylebook
