import Mathlib.Data.List.Chain
import Mathlib.Data.List.Forall2
import Stylebook.Proofs.Selector.Address

/-! What a selector means. A group holds for an element when its compounds can be put, in order, on the
    element and on ancestors of it. Matching looks for the nearest ancestor that will do and never goes back
    on it; that loses nothing, since whatever stands above a farther ancestor also stands above the nearest
    one. -/

namespace Stylebook
namespace Selector

open Markup (Element Node)

/-- The element at an address satisfies every part of a compound. -/
def Satisfies (doc : List Node) (a : Address) (c : Compound) : Prop :=
  ∃ p, placeAt? doc a = some p ∧ ∀ part ∈ c, Part.holds p part = true

/-- `a` is the address of a proper ancestor of what is at `b`. -/
def IsAbove (a b : Address) : Prop := a <+: b ∧ a ≠ b

/-- The compounds can be put on a line of elements, each above the next, of which the last is at `a`. -/
def Embeds (doc : List Node) (cs : List Compound) (a : Address) : Prop :=
  ∃ line : List Address, line.getLast? = some a ∧ line.IsChain IsAbove ∧ List.Forall₂ (Satisfies doc) line cs

/-! ### The nearest ancestor is good enough -/

section
variable {doc : List Node}

theorem isAbove_snoc {a b : Address} {i : Nat} : IsAbove a (b ++ [i]) ↔ a <+: b := by
  unfold IsAbove
  rw [List.prefix_concat_iff]
  constructor
  · rintro ⟨rfl | h, hne⟩
    · exact absurd rfl hne
    · exact h
  · intro h
    refine ⟨.inr h, ?_⟩
    rintro rfl
    have hle := h.length_le
    simp only [List.length_append, List.length_singleton] at hle
    omega

theorem IsAbove.of_prefix {a b c : Address} (h : IsAbove a b) (hbc : b <+: c) : IsAbove a c := by
  refine ⟨h.1.trans hbc, ?_⟩
  rintro rfl
  exact h.2 (h.1.eq_of_length_le hbc.length_le)

theorem compound_holds_iff {p : Place} {c : Compound} :
    Compound.holds p c = true ↔ ∀ part ∈ c, Part.holds p part = true := List.all_eq_true

theorem satisfies_iff {a : Address} {c : Compound} {p : Place} (h : placeAt? doc a = some p) :
    Satisfies doc a c ↔ Compound.holds p c = true := by
  rw [compound_holds_iff]
  constructor
  · rintro ⟨p', hp', hall⟩
    cases h.symm.trans hp'
    exact hall
  · exact fun hall => ⟨p, h, hall⟩

/-- The compounds, the innermost first, can be put on a line of elements that goes up from above `a`. -/
def Climbs (doc : List Node) (cs : List Compound) (a : Address) : Prop :=
  ∃ line : List Address, (a :: line).IsChain (fun b c => IsAbove c b) ∧ List.Forall₂ (Satisfies doc) line cs

theorem climbs_nil (a : Address) : Climbs doc [] a := ⟨[], by simp, .nil⟩

theorem climbs_cons {c : Compound} {cs : List Compound} {a : Address} :
    Climbs doc (c :: cs) a ↔ ∃ b, IsAbove b a ∧ Satisfies doc b c ∧ Climbs doc cs b := by
  constructor
  · rintro ⟨line, hchain, hall⟩
    cases hall with
    | cons hb hall =>
      rw [List.isChain_cons_cons] at hchain
      exact ⟨_, hchain.1, hb, _, hchain.2, hall⟩
  · rintro ⟨b, hb, hsat, line, hchain, hall⟩
    exact ⟨b :: line, List.isChain_cons_cons.mpr ⟨hb, hchain⟩, .cons hsat hall⟩

/-- Whoever climbs from one element climbs from every element below it. -/
theorem Climbs.of_prefix {cs : List Compound} {a b : Address} (h : Climbs doc cs a) (hab : a <+: b) :
    Climbs doc cs b := by
  cases cs with
  | nil => exact climbs_nil b
  | cons c cs =>
    obtain ⟨d, hd, hsat, hrest⟩ := climbs_cons.mp h
    exact climbs_cons.mpr ⟨d, hd.of_prefix hab, hsat, hrest⟩

/-- The walk upwards finds a line whenever there is one. -/
theorem holdAbove_iff_climbs {cs : List Compound} {a : Address} {i : Nat}
    (h : (placeAt? doc (a ++ [i])).isSome) :
    holdAbove cs (lineageAt doc a) = true ↔ Climbs doc cs (a ++ [i]) := by
  induction a using List.reverseRecOn generalizing i cs with
  | nil =>
    cases cs with
    | nil => simp [holdAbove, climbs_nil]
    | cons c cs =>
      -- Above an outermost element there is only the document.
      simp only [climbs_cons, isAbove_snoc (b := []), List.prefix_nil, lineageAt_nil, holdAbove]
      simp [Satisfies, placeAt?]
  | append_singleton a j ih =>
    have hsome := placeAt?_front h (List.append_ne_nil_of_right_ne_nil a (List.cons_ne_nil j []))
    obtain ⟨p, hp⟩ := Option.isSome_iff_exists.mp hsome
    rw [lineageAt_snoc hp]
    cases cs with
    | nil => simp [holdAbove, climbs_nil]
    | cons c cs =>
      have hlift : ∀ {ds : List Compound}, Climbs doc ds (a ++ [j]) → Climbs doc ds (a ++ [j] ++ [i]) :=
        fun hd => hd.of_prefix (List.prefix_append _ _)
      rw [holdAbove]
      split
      · rename_i hc
        rw [ih hsome]
        constructor
        · intro hcs
          exact climbs_cons.mpr ⟨_, isAbove_snoc.mpr (List.prefix_refl _), (satisfies_iff hp).mpr hc, hcs⟩
        · intro hall
          -- The line may pass the nearest element by; its rest still stands above that element.
          obtain ⟨b, hb, -, hrest⟩ := climbs_cons.mp hall
          exact hrest.of_prefix (isAbove_snoc.mp hb)
      · rename_i hc
        rw [ih hsome]
        refine ⟨hlift, fun hall => ?_⟩
        obtain ⟨b, hb, hsat, hrest⟩ := climbs_cons.mp hall
        refine climbs_cons.mpr ⟨b, ⟨isAbove_snoc.mp hb, ?_⟩, hsat, hrest⟩
        rintro rfl
        exact hc ((satisfies_iff hp).mp hsat)

/-! ### Groups -/

theorem embeds_iff_climbs {cs : List Compound} {a : Address} :
    Embeds doc cs a ↔ ∃ c inner, cs.reverse = c :: inner ∧ Satisfies doc a c ∧ Climbs doc inner a := by
  constructor
  · rintro ⟨line, hlast, hchain, hall⟩
    obtain ⟨front, rfl⟩ := List.getLast?_eq_some_iff.mp hlast
    have hall' := List.forall₂_reverse_iff.mpr hall
    rw [← List.isChain_reverse, List.reverse_append] at hchain
    rw [List.reverse_append] at hall'
    generalize cs.reverse = up at hall' ⊢
    cases hall' with
    | cons hsat hrest => exact ⟨_, _, rfl, hsat, _, hchain, hrest⟩
  · rintro ⟨c, inner, hrev, hsat, line, hchain, hall⟩
    refine ⟨(a :: line).reverse, by simp, ?_, ?_⟩
    · rw [List.isChain_reverse]
      exact hchain
    · rw [← List.forall₂_reverse_iff, List.reverse_reverse, hrev]
      exact .cons hsat hall

theorem holdAt_iff_embeds {cs : List Compound} {a : Address} (h : (placeAt? doc a).isSome) :
    holdAt cs.reverse (lineageAt doc a) = true ↔ Embeds doc cs a := by
  rcases List.eq_nil_or_concat a with rfl | ⟨b, i, rfl⟩
  · cases h
  · rw [List.concat_eq_append] at h ⊢
    obtain ⟨p, hp⟩ := Option.isSome_iff_exists.mp h
    rw [embeds_iff_climbs, lineageAt_snoc hp]
    cases hrev : cs.reverse with
    | nil => simp [holdAt]
    | cons c inner =>
      rw [holdAt, Bool.and_eq_true, holdAbove_iff_climbs h, ← satisfies_iff hp]
      constructor
      · exact fun hboth => ⟨c, inner, rfl, hboth⟩
      · rintro ⟨c', inner', heq, hboth⟩
        cases heq
        exact hboth

theorem group_holds_iff {g : Group} {a : Address} (h : (placeAt? doc a).isSome) :
    Group.holds (lineageAt doc a) g = true ↔ Embeds doc (compounds g) a := holdAt_iff_embeds h

theorem anyHolds_iff {groups : List Group} {a : Address} (h : (placeAt? doc a).isSome) :
    anyHolds groups (lineageAt doc a) = true ↔ ∃ g ∈ groups, Embeds doc (compounds g) a := by
  simp only [anyHolds, List.any_eq_true, group_holds_iff h]

end

/-- Below the element at `root`, a selector finds the elements that it holds for, in document order and each
    of them once; and it holds for an element when the compounds of one of its groups embed at it. -/
theorem select_eq_embedded (doc : List Node) (root : Address) (children : List Node) (selector : Text)
    (groups : List Group) (hroot : childrenAt? doc root = some children) (hparse : parse selector = .ok groups) :
    (∃ found : List Address, found.Pairwise (List.Lex (· < ·)) ∧
      (∀ a, a ∈ found ↔
        (placeAt? doc a).isSome ∧ IsAbove root a ∧ anyHolds groups (lineageAt doc a) = true) ∧
      select selector (lineageAt doc root) children = .ok (found.map (lineageAt doc))) ∧
    ∀ a, (placeAt? doc a).isSome →
      (anyHolds groups (lineageAt doc a) = true ↔ ∃ g ∈ groups, Embeds doc (compounds g) a) := by
  refine ⟨⟨((addresses 0 children).map (root ++ ·)).filter fun a => anyHolds groups (lineageAt doc a),
    ?_, ?_, ?_⟩, fun a => anyHolds_iff⟩
  · refine List.Pairwise.filter _ (List.pairwise_map.mpr ((pairwise_addresses 0 children).imp ?_))
    exact fun hlex => List.Lex.append_left _ hlex root
  · intro a
    simp only [List.mem_filter, List.mem_map, mem_addresses]
    constructor
    · rintro ⟨⟨b, hb, rfl⟩, hholds⟩
      have hne : b ≠ [] := by
        rintro rfl
        cases hb
      refine ⟨?_, ⟨List.prefix_append root b, ?_⟩, hholds⟩
      · rw [placeAt?_append hroot hne]
        exact hb
      · simpa using hne
    · rintro ⟨hsome, ⟨⟨b, rfl⟩, hne⟩, hholds⟩
      have hb : b ≠ [] := by
        rintro rfl
        exact hne (List.append_nil root).symm
      rw [placeAt?_append hroot hb] at hsome
      exact ⟨⟨b, hsome, rfl⟩, hholds⟩
  · rw [select, hparse, lineages_eq_map hroot]
    exact congrArg Except.ok List.filter_map

/-- Two items of a list, the second of them with a link in it. -/
def itemNodes : List Node :=
  [.element ⟨"li".text, []⟩ [], .text "and".text, .element ⟨"li".text, []⟩ [.element ⟨"a".text, []⟩ []]]

theorem select_in_list :
    childrenAt? [.element ⟨"ul".text, []⟩ itemNodes] [0] = some itemNodes ∧
    parse "ul a, li".text = .ok [[.tag "ul".text, .descendant, .tag "a".text], [.tag "li".text]] ∧
    (∃ found : List Address, found.Pairwise (List.Lex (· < ·)) ∧
      (∀ a, a ∈ found ↔ (placeAt? [.element ⟨"ul".text, []⟩ itemNodes] a).isSome ∧ IsAbove [0] a ∧
        anyHolds [[.tag "ul".text, .descendant, .tag "a".text], [.tag "li".text]]
          (lineageAt [.element ⟨"ul".text, []⟩ itemNodes] a) = true) ∧
      select "ul a, li".text (lineageAt [.element ⟨"ul".text, []⟩ itemNodes] [0]) itemNodes =
        .ok (found.map (lineageAt [.element ⟨"ul".text, []⟩ itemNodes]))) := by
  have hroot : childrenAt? [.element ⟨"ul".text, []⟩ itemNodes] [0] = some itemNodes := rfl
  have hparse : parse "ul a, li".text =
      .ok [[.tag "ul".text, .descendant, .tag "a".text], [.tag "li".text]] := by decide +kernel
  exact ⟨hroot, hparse, (select_eq_embedded _ _ _ _ _ hroot hparse).1⟩

end Selector
end Stylebook
