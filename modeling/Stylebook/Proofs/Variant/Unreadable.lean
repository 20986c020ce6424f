import Stylebook.Proofs.Basic
import Stylebook.Proofs.Variant.Again

/-! Selectors that cannot be read. Whatever stands for the base, the modifier and the states, a variant fails only where
    the reader of markup refuses the markup or, for the sake of states, the first block. A base selector that cannot be
    read means no element, and a modifier that cannot be read has no parts: then there is nothing to do, and the markup
    stays as it was written. -/

namespace Stylebook
namespace Variant

open Markup (Node Rejected)
open Selector (Lineage lineages)

/-! ### Failures -/

section
variable {s : Settings} {isPresentation unique : Bool} {markup modifier : Text} {base : Option Text} {e : Rejected}

theorem fragment_eq_error_iff : fragment markup = .error e ↔ Markup.parse (wrap markup) = .error e := by
  rw [fragment]
  cases Markup.parse (wrap markup) <;> simp [Except.map]

/-- A variant without states fails exactly where the markup is refused. -/
theorem modified_eq_error_iff :
    modified s isPresentation unique markup base modifier = .error e ↔ Markup.parse (wrap markup) = .error e := by
  rw [← fragment_eq_error_iff]
  constructor
  · intro h
    rcases error_of_bind h with hfragment | ⟨⟨above, nodes⟩, -, hrest⟩
    · exact hfragment
    · dsimp only at hrest
      split at hrest <;> cases hrest
  · intro h
    rw [modified, h]
    rfl

/-- The blocks of states fail together, if there are any, where the markup that they are made from is refused. -/
theorem stateBlocks_eq_error_iff {states : List State} :
    stateBlocks s isPresentation markup base states = .error e ↔
      states ≠ [] ∧ Markup.parse (wrap markup) = .error e := by
  constructor
  · intro h
    induction states with
    | nil => cases h
    | cons state states ih =>
      refine ⟨List.cons_ne_nil state states, ?_⟩
      rcases error_of_bind h with hblock | ⟨block, -, hrest⟩
      · exact modified_eq_error_iff.mp (error_of_bind_pure hblock)
      · exact (ih (error_of_bind_pure hrest)).2
  · rintro ⟨hne, hrefused⟩
    obtain ⟨state, rest, rfl⟩ := List.exists_cons_of_ne_nil hne
    rw [stateBlocks, stateBlock, modified_eq_error_iff.mpr hrefused]
    rfl

theorem modified_eq_ok {document : List Node} (hread : Markup.parse (wrap markup) = .ok document) (s : Settings)
    (isPresentation unique : Bool) (base : Option Text) (modifier : Text) :
    ∃ first, modified s isPresentation unique markup base modifier = .ok first := by
  cases hmodified : modified s isPresentation unique markup base modifier with
  | ok first => exact ⟨first, rfl⟩
  | error e => cases hread.symm.trans (modified_eq_error_iff.mp hmodified)

/-- With its states a text fails only with the answer of the reader to it, and does not fail if the reader takes it. -/
theorem withStates_eq_ok_iff (s : Settings) (isPresentation : Bool) (markup : Text) (base : Option Text)
    (states : List State) :
    ((∃ result, withStates s isPresentation markup base states = .ok result) ↔
      states = [] ∨ ∃ document, Markup.parse (wrap markup) = .ok document) ∧
    ∀ e, withStates s isPresentation markup base states = .error e → Markup.parse (wrap markup) = .error e := by
  cases hblocks : stateBlocks s isPresentation markup base states with
  | error e =>
    obtain ⟨hne, hrefused⟩ := stateBlocks_eq_error_iff.mp hblocks
    have hfails : withStates s isPresentation markup base states = .error e := by
      rw [withStates, hblocks]
      rfl
    simp [hfails, hne, hrefused]
  | ok blocks =>
    have hresult : withStates s isPresentation markup base states = .ok (markup ++ blocks) := by
      rw [withStates, hblocks]
      rfl
    refine ⟨iff_of_true ⟨_, hresult⟩ ?_, fun e he => by cases hresult.symm.trans he⟩
    by_contra hnot
    obtain ⟨hne, hrefused⟩ := not_or.mp hnot
    cases hparse : Markup.parse (wrap markup) with
    | ok document => exact hrefused ⟨document, hparse⟩
    | error e => cases hblocks.symm.trans (stateBlocks_eq_error_iff.mpr ⟨hne, hparse⟩)

end

/-! ### Nothing to do -/

/-- A modifier finds something to do: the base selector can be read and means elements of the fragment, and the modifier
    can be read and has a group. -/
def Concerns (base : Option Text) (modifier : Text) (above : Lineage) (nodes : List Node) : Prop :=
  (∃ found, Selector.select (base.getD []) above nodes = .ok found ∧ found ≠ []) ∧
  ∃ groups, Selector.parse modifier = .ok groups ∧ groups ≠ []

section
variable {base : Option Text} {modifier : Text} {above : Lineage} {nodes : List Node}

theorem select_of_chosen (h : (lineages above false nodes).filter (chosen base) ≠ []) :
    Selector.select (base.getD []) above nodes = .ok ((lineages above false nodes).filter (chosen base)) := by
  cases hparse : Selector.parse (base.getD []) with
  | error e =>
    refine absurd (List.filter_eq_nil_iff.mpr fun lineage _ => ?_) h
    simp [chosen, hparse]
  | ok groups =>
    have hchosen : chosen base = Selector.anyHolds groups := by
      funext lineage
      simp only [chosen, hparse]
    rw [Selector.select, hparse, hchosen]
    rfl

theorem parse_of_modifierParts (h : modifierParts modifier ≠ []) :
    ∃ groups, Selector.parse modifier = .ok groups ∧ groups ≠ [] := by
  unfold modifierParts at h
  split at h
  · rename_i groups hparse
    refine ⟨groups, hparse, ?_⟩
    rintro rfl
    exact h rfl
  · exact absurd rfl h

theorem modified_of_not_concerns {s : Settings} (hhook : s.hook = none) {markup : Text}
    (hread : fragment markup = .ok (above, nodes)) (isPresentation : Bool) (h : ¬Concerns base modifier above nodes) :
    modified s isPresentation false markup base modifier = .ok markup := by
  -- there are parts only if an element is chosen and the modifier has a last group
  have hparts : (if ((lineages above false nodes).filter (chosen base)).isEmpty then [] else modifierParts modifier) =
      [] := by
    by_contra hsome
    split at hsome
    · exact hsome rfl
    · rename_i hfound
      rw [List.isEmpty_iff] at hfound
      exact h ⟨⟨_, select_of_chosen hfound, hfound⟩, parse_of_modifierParts hsome⟩
  rw [modified, hread, hhook]
  simp only [bind, Except.bind, pure, Except.pure, hparts, List.isEmpty_nil, Bool.not_false, Bool.and_self, if_true]

end

/-- Whatever the base, the modifier and the states are, the variant of markup that the reader takes comes about: without
    states always, and with states exactly if the reader takes the first block, too; otherwise it fails with the answer of
    the reader. Without a hook and without a rewriting of unique attributes the first block is the markup itself, unless
    the base selector can be read and means an element and the modifier can be read and has a group. -/
theorem apply_of_parse {markup : Text} {document : List Node} (hread : Markup.parse (wrap markup) = .ok document)
    (s : Settings) (isPresentation : Bool) (unique : Option Bool) (base : Option Text) (modifier : Text) :
    (∃ first, apply s isPresentation unique markup base modifier [] = .ok first ∧
      ∀ states, ((∃ result, apply s isPresentation unique markup base modifier states = .ok result) ↔
          states = [] ∨ ∃ document, Markup.parse (wrap first) = .ok document) ∧
        ∀ e, apply s isPresentation unique markup base modifier states = .error e →
          Markup.parse (wrap first) = .error e) ∧
    (s.hook = none → unique.getD s.config.modifyUnique = false →
      ¬Concerns base modifier (inside document).1 (inside document).2 →
      apply s isPresentation unique markup base modifier [] = .ok markup) := by
  obtain ⟨first, hfirst⟩ :=
    modified_eq_ok hread s isPresentation (unique.getD s.config.modifyUnique) base modifier
  refine ⟨⟨first, by rw [apply_nil, hfirst], fun states => ?_⟩, fun hhook hunique hnot => ?_⟩
  · have hopen : apply s isPresentation unique markup base modifier states =
        withStates s isPresentation first base states := by
      rw [apply, hfirst]
      rfl
    rw [hopen]
    exact withStates_eq_ok_iff s isPresentation first base states
  · have hfragment : fragment markup = .ok ((inside document).1, (inside document).2) := by
      rw [fragment, hread]
      rfl
    rw [apply_nil, hunique]
    exact modified_of_not_concerns hhook hfragment isPresentation hnot

/-- Markup that would be written in another way. -/
def looseMarkup : Text := "<P ID=a>x & y".text

def looseDocument : List Node :=
  [.element ⟨wrapperName, []⟩ [.element ⟨"p".text, [("id".text, .plain "a".text)]⟩ [.text "x & y".text]]]

theorem apply_of_parse_loose :
    Markup.parse (wrap looseMarkup) = .ok looseDocument ∧
    Selector.parse "p >".text = .error (.unsupported 2 "p >".text) ∧
    Selector.parse ".x,".text = .error (.trailingComma ".x,".text) ∧
    Selector.parse ", a".text = .error (.emptyGroup ", a".text) ∧
    apply {} false (some false) looseMarkup (some "p >".text) ".x,".text [] = .ok looseMarkup ∧
    ∃ result, apply {} false (some false) looseMarkup (some "p >".text) ".x,".text [⟨some ", a".text, none⟩] =
      .ok result := by
  have hread : Markup.parse (wrap looseMarkup) = .ok looseDocument := by with_unfolding_all rfl
  have hbase : Selector.parse "p >".text = .error (.unsupported 2 "p >".text) := by decide +kernel
  have hnot : ¬Concerns (some "p >".text) ".x,".text (inside looseDocument).1 (inside looseDocument).2 := by
    rintro ⟨⟨found, hfound, -⟩, -⟩
    rw [Selector.select, Option.getD_some, hbase] at hfound
    cases hfound
  obtain ⟨⟨first, hfirst, hstates⟩, hsame⟩ :=
    apply_of_parse hread {} false (some false) (some "p >".text) ".x,".text
  have hmarkup := hsame rfl rfl hnot
  obtain rfl : first = looseMarkup := Except.ok.inj (hfirst.symm.trans hmarkup)
  exact ⟨hread, hbase, by decide +kernel, by decide +kernel, hmarkup, (hstates _).1.mpr (.inr ⟨_, hread⟩)⟩

end Variant
end Stylebook
