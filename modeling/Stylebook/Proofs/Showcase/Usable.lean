import Stylebook.Proofs.Identifier.Selector
import Stylebook.Proofs.Showcase.Arrangement
import Stylebook.Proofs.Showcase.Content
import Stylebook.Proofs.Showcase.Unique

/-! What a renderer can use as a name. Anchors and ids have letters, digits, underscores and hyphens only. An anchor is
    never empty, since it begins with a word. An id is empty where underscores are collapsed and the selector of the
    variant has no letter, digit or hyphen, such as `*`: of the variants of a run with such selectors one gets the
    empty id. -/

namespace Stylebook
namespace Showcase

open Doc (Tag)
open Identifier (Registry isIdChar isLasting)
open Variant (Settings)

/-- A name that can stand in an anchor or be the name of a file. -/
def Usable (name : Text) : Prop := name ≠ [] ∧ ∀ c ∈ name, isIdChar c = true

/-- Nothing is left of a selector where an id is made from it. -/
def Vanishes (config : Config) (selector : Text) : Prop :=
  config.selectorIds = true ∧ config.collapseIds = true ∧ ∀ c ∈ selector, isLasting c = false

/-! ### Keys -/

theorem anchorKey_chars (config : Config) (item : Item) : ∀ c ∈ anchorKey config item, isIdChar c = true := by
  intro c hc
  have hword : ∀ c ∈ "section_".text, isIdChar c = true := List.all_eq_true.mp rfl
  rcases List.mem_append.mp hc with hc | hc
  · exact hword c hc
  · exact Identifier.isIdChar_of_mem_ofSelector hc

theorem subitemKey_chars (config : Config) (number : Nat) (selector : Text) (index : Nat) :
    ∀ c ∈ subitemKey config number selector index, isIdChar c = true := by
  intro c hc
  unfold subitemKey at hc
  split at hc
  · exact Identifier.isIdChar_of_mem_ofSelector hc
  · rcases List.mem_append.mp hc with hc | hc
    · exact Identifier.isIdChar_of_mem_decimal hc
    · rcases List.mem_cons.mp hc with rfl | hc
      · rfl
      · exact Identifier.isIdChar_of_mem_decimal hc

theorem subitemKey_eq_nil_iff {config : Config} {selector : Text} (hne : selector ≠ []) (number index : Nat) :
    subitemKey config number selector index = [] ↔ Vanishes config selector := by
  unfold subitemKey Vanishes
  split
  · rename_i hids
    rw [Identifier.ofSelector_eq_nil_iff]
    simp only [hne, false_or, hids, true_and]
  · rename_i hids
    refine iff_of_false ?_ fun h => hids h.1
    simp

/-! ### What is built -/

/-- How variants are named, whose ids are claimed from `ids`; `ids'` is what the claims leave. -/
structure Names (config : Config) (ids : Registry) (subs : List Subitem) (ids' : Registry) : Prop where
  id : ∀ sub ∈ subs, Usable sub.id ∨ sub.id = [] ∧ Vanishes config sub.selector
  nil_used : [] ∈ ids'.used ↔ [] ∈ ids.used ∨ ∃ sub ∈ subs, Vanishes config sub.selector

namespace Names
variable {config : Config} {ids ids₁ ids₂ : Registry} {subs subs₁ subs₂ : List Subitem}

theorem refl (ids : Registry) : Names config ids [] ids := ⟨fun _ h => absurd h List.not_mem_nil, by simp⟩

theorem trans (h₁ : Names config ids subs₁ ids₁) (h₂ : Names config ids₁ subs₂ ids₂) :
    Names config ids (subs₁ ++ subs₂) ids₂ where
  id := List.forall_mem_append.mpr ⟨h₁.id, h₂.id⟩
  nil_used := by
    rw [h₂.nil_used, h₁.nil_used, or_assoc]
    simp only [List.mem_append, or_and_right, exists_or]

theorem perm (h : Names config ids subs₁ ids₁) (hperm : subs₁.Perm subs₂) : Names config ids subs₂ ids₁ where
  id sub hsub := h.id sub (hperm.mem_iff.mpr hsub)
  nil_used := by simp only [h.nil_used, hperm.mem_iff]

end Names

section
variable {s : Settings}

theorem buildSubitem_names {item : Item} {base : Text} (hbase : base ≠ []) {ids ids' : Registry} {plan : Plan}
    {sub : Subitem} (h : buildSubitem s item base ids plan = .ok (sub, ids')) : Names s.config ids [sub] ids' := by
  obtain ⟨hclaim, -, -, -, hselector, -⟩ := buildSubitem_eq_ok h
  rw [← hselector] at hclaim
  have hne : sub.selector ≠ [] := by simp [hselector, hbase]
  have hkey := @subitemKey_eq_nil_iff s.config sub.selector hne item.id plan.index
  have hchars := subitemKey_chars s.config item.id sub.selector plan.index
  generalize subitemKey s.config item.id sub.selector plan.index = key at hclaim hkey hchars
  obtain ⟨k, hname, -⟩ := ids.claim_least key
  have hused := ids.nil_mem_claim key
  rw [hclaim] at hname hused
  dsimp only at hname hused
  refine ⟨List.forall_mem_singleton.mpr ?_, ?_⟩
  · by_cases hnil : sub.id = []
    · exact .inr ⟨hnil, hkey.mp (Registry.numbered_eq_nil_iff.mp (hname.symm.trans hnil)).1⟩
    · exact .inl ⟨hnil, hname ▸ Registry.isIdChar_of_mem_numbered hchars k⟩
  · rw [hused, hkey, or_comm]
    simp

theorem buildSubitems_names {item : Item} {base : Text} (hbase : base ≠ []) {ids ids' : Registry} {plans : List Plan}
    {subs : List Subitem} (h : buildSubitems s item base ids plans = .ok (subs, ids')) :
    Names s.config ids subs ids' := by
  induction plans generalizing ids subs with
  | nil =>
    cases h
    exact .refl _
  | cons plan rest ih =>
    obtain ⟨sub, ids₁, more, rfl, hsub, hmore⟩ := buildSubitems_cons h
    exact (buildSubitem_names hbase hsub).trans (ih hmore)

theorem buildItem_names {ids ids' : Registries} {number : Nat} {tags : List Tag} {item : Item}
    (h : buildItem s ids number tags = .ok (item, ids')) :
    Usable item.anchor ∧ Names s.config ids.subitems item.subitems ids'.subitems := by
  obtain ⟨hclaim, hfacts, hsubs⟩ := buildItem_eq_ok h
  constructor
  · obtain ⟨k, hname, -⟩ := ids.anchors.claim_least (anchorKey s.config (describe number tags))
    rw [hclaim] at hname
    dsimp only at hname
    refine ⟨fun hnil => ?_, hname ▸ Registry.isIdChar_of_mem_numbered (anchorKey_chars _ _) k⟩
    have hkey := (Registry.numbered_eq_nil_iff.mp (hname.symm.trans hnil)).1
    simp [anchorKey, String.text] at hkey
  · rcases hsubs with ⟨-, hnil, hsame⟩ | ⟨base, hsome, hbuilt⟩
    · rw [hnil, hsame]
      exact .refl _
    · have hdescribed : (describe number tags).base = some base := by
        rw [← hsome, hfacts]
      obtain ⟨content, description, -, hread⟩ := describe_base_eq_some_iff.mp hdescribed
      exact buildSubitems_names (selector_ne_nil hread) hbuilt

theorem buildItems_names {ids ids' : Registries} {number : Nat} {comments : List (List Tag)} {items : List Item}
    (h : buildItems s ids number comments = .ok (items, ids')) :
    (∀ item ∈ items, Usable item.anchor) ∧
      Names s.config ids.subitems (items.flatMap (·.subitems)) ids'.subitems := by
  induction comments generalizing ids number items with
  | nil =>
    cases h
    exact ⟨fun _ h => absurd h List.not_mem_nil, .refl _⟩
  | cons tags rest ih =>
    obtain ⟨item, ids₁, more, rfl, hitem, hmore⟩ := buildItems_cons h
    obtain ⟨hanchor, hfirst⟩ := buildItem_names hitem
    obtain ⟨hanchors, hrest⟩ := ih hmore
    exact ⟨List.forall_mem_cons.mpr ⟨hanchor, hanchors⟩, hfirst.trans hrest⟩

/-- Every anchor of a showcase can be used, and every id but the empty one. There is an empty id exactly if nothing is
    left of the selector of some variant, and then the variant that has it is such a one. -/
theorem build_usable {comments : List (List Tag)} {items : List Item} {ids' : Registries}
    (h : build s {} comments = .ok (items, ids')) :
    (∀ item ∈ items, Usable item.anchor) ∧
      (∀ sub ∈ items.flatMap (·.subitems), Usable sub.id ∨ sub.id = [] ∧ Vanishes s.config sub.selector) ∧
      ([] ∈ subitemIds items ↔ ∃ sub ∈ items.flatMap (·.subitems), Vanishes s.config sub.selector) := by
  obtain ⟨built, hbuilt, rfl⟩ := build_eq_ok h
  have hperm : built.Perm (sortItems built) := (List.mergeSort_perm _ _).symm
  obtain ⟨hanchors, hnames⟩ := buildItems_names hbuilt
  have hsorted := hnames.perm (hperm.flatMap_right _)
  refine ⟨fun item hitem => hanchors item (hperm.mem_iff.mpr hitem), hsorted.id, ?_⟩
  have hused := (build_claims h).subitems.used.mem_iff (a := [])
  rw [List.mem_append, hsorted.nil_used] at hused
  simpa using hused

end

/-- Settings under which runs of underscores become one and are dropped at the ends. -/
def collapsing : Settings := { config := { collapseIds := true } }

/-- Two variants without a letter, digit or hyphen, and one with a letter. -/
def starComments : List (List Tag) :=
  [[⟨"base".text, "*".text⟩, ⟨"modifier".text, ".".text⟩, ⟨"modifier".text, ".a".text⟩]]

theorem build_starComments : ∃ items ids', build collapsing {} starComments = .ok (items, ids') ∧
    subitemIds items = [[], "_1".text, "a".text] := by
  have hids : (build collapsing {} starComments).map (fun built => subitemIds built.1) =
      .ok [[], "_1".text, "a".text] := by decide +kernel
  cases hbuild : build collapsing {} starComments with
  | error e =>
    rw [hbuild] at hids
    cases hids
  | ok built =>
    rw [hbuild] at hids
    exact ⟨built.1, built.2, rfl, Except.ok.inj hids⟩

theorem build_usable_star : ∃ items ids', build collapsing {} starComments = .ok (items, ids') ∧
    [] ∈ subitemIds items ∧ (∀ item ∈ items, Usable item.anchor) ∧
      (∀ sub ∈ items.flatMap (·.subitems), Usable sub.id ∨ sub.id = [] ∧ Vanishes collapsing.config sub.selector) ∧
      ([] ∈ subitemIds items ↔ ∃ sub ∈ items.flatMap (·.subitems), Vanishes collapsing.config sub.selector) := by
  obtain ⟨items, ids', hbuild, hids⟩ := build_starComments
  exact ⟨items, ids', hbuild, hids ▸ List.mem_cons_self, build_usable hbuild⟩

/-- The base `*` gets an id that cannot be used. -/
theorem build_star_unusable : ∃ items ids', build collapsing {} starComments = .ok (items, ids') ∧
    ¬∀ id ∈ subitemIds items, Usable id := by
  obtain ⟨items, ids', hbuild, hids⟩ := build_starComments
  refine ⟨items, ids', hbuild, fun hall => ?_⟩
  exact (hall [] (hids ▸ List.mem_cons_self)).1 rfl

end Showcase
end Stylebook
