import Stylebook.Proofs.Identifier.Registry
import Stylebook.Proofs.Showcase.Build

/-! Identifiers of a showcase. Every anchor of an item and every id of a subitem is claimed from a registry,
    and the registries last over all the builds of a run; hence no two items of a run share an anchor and no
    two subitems an id. -/

namespace Stylebook
namespace Showcase

open Doc (Tag)
open Identifier (Registry)
open Markup (Rejected)
open Variant (Settings)

/-- Builds several showcases one after the other. The identifiers handed out by one build stay reserved in
    the next. -/
def buildEach (s : Settings) (ids : Registries) : List (List (List Tag)) → Except Rejected (List (List Item))
  | [] => return []
  | comments :: rest => do
    let (items, ids) ← build s ids comments
    return items :: (← buildEach s ids rest)

/-- The ids of all subitems of some items. -/
def subitemIds (items : List Item) : List Text := (items.flatMap (·.subitems)).map (·.id)

/-- Every subitem is found under its id. -/
def AnchoredById (items : List Item) : Prop := ∀ item ∈ items, ∀ sub ∈ item.subitems, sub.anchor = sub.id

/-- What building `items` does to the registries. -/
structure Claims (ids : Registries) (items : List Item) (ids' : Registries) : Prop where
  anchors : Registry.Hands ids.anchors (items.map (·.anchor)) ids'.anchors
  subitems : Registry.Hands ids.subitems (subitemIds items) ids'.subitems
  anchored : AnchoredById items

namespace Claims
variable {ids ids₁ ids₂ : Registries} {items items₁ items₂ : List Item}

theorem refl (ids : Registries) : Claims ids [] ids := ⟨.refl _, .refl _, fun _ h => nomatch h⟩

theorem trans (h₁ : Claims ids items₁ ids₁) (h₂ : Claims ids₁ items₂ ids₂) :
    Claims ids (items₁ ++ items₂) ids₂ where
  anchors := by
    rw [List.map_append]
    exact h₁.anchors.trans h₂.anchors
  subitems := by
    rw [subitemIds, List.flatMap_append, List.map_append]
    exact h₁.subitems.trans h₂.subitems
  anchored item hitem := by
    rcases List.mem_append.mp hitem with hitem | hitem
    · exact h₁.anchored item hitem
    · exact h₂.anchored item hitem

theorem perm (h : Claims ids items₁ ids₁) (hperm : items₁.Perm items₂) : Claims ids items₂ ids₁ where
  anchors := h.anchors.perm (hperm.map _)
  subitems := h.subitems.perm ((hperm.flatMap_right _).map _)
  anchored item hitem := h.anchored item (hperm.mem_iff.mpr hitem)

end Claims

section
variable {s : Settings}

theorem buildSubitems_hands {item : Item} {base : Text} {ids ids' : Registry} {plans : List Plan}
    {subs : List Subitem} (h : buildSubitems s item base ids plans = .ok (subs, ids')) :
    Registry.Hands ids (subs.map (·.id)) ids' ∧ ∀ sub ∈ subs, sub.anchor = sub.id := by
  induction plans generalizing ids subs with
  | nil =>
    cases h
    exact ⟨.refl _, fun _ h => nomatch h⟩
  | cons plan rest ih =>
    obtain ⟨sub, ids₁, more, rfl, hsub, hmore⟩ := buildSubitems_cons h
    obtain ⟨hclaim, hanchor, -⟩ := buildSubitem_eq_ok hsub
    obtain ⟨hrest, hanchors⟩ := ih hmore
    have hfirst := Registry.Hands.claim ids (subitemKey s.config item.id (base ++ plan.modifier.getD []) plan.index)
    rw [hclaim] at hfirst
    refine ⟨hfirst.trans hrest, fun x hx => ?_⟩
    rcases List.mem_cons.mp hx with rfl | hx
    · exact hanchor
    · exact hanchors x hx

theorem buildItem_claims {ids ids' : Registries} {number : Nat} {tags : List Tag} {item : Item}
    (h : buildItem s ids number tags = .ok (item, ids')) : Claims ids [item] ids' := by
  obtain ⟨hclaim, -, hsubs⟩ := buildItem_eq_ok h
  have hanchor := Registry.Hands.claim ids.anchors (anchorKey s.config (describe number tags))
  rw [hclaim] at hanchor
  have hids : subitemIds [item] = item.subitems.map (·.id) := by simp [subitemIds]
  have hboth : Registry.Hands ids.subitems (item.subitems.map (·.id)) ids'.subitems ∧
      ∀ sub ∈ item.subitems, sub.anchor = sub.id := by
    rcases hsubs with ⟨-, hnil, hsame⟩ | ⟨base, -, hbuilt⟩
    · rw [hnil, hsame]
      exact ⟨.refl _, fun _ h => nomatch h⟩
    · exact buildSubitems_hands hbuilt
  refine ⟨hanchor, ?_, fun x hx => ?_⟩
  · rw [hids]
    exact hboth.1
  · rw [List.mem_singleton.mp hx]
    exact hboth.2

theorem buildItems_claims {ids ids' : Registries} {number : Nat} {comments : List (List Tag)} {items : List Item}
    (h : buildItems s ids number comments = .ok (items, ids')) : Claims ids items ids' := by
  induction comments generalizing ids number items with
  | nil =>
    cases h
    exact .refl _
  | cons tags rest ih =>
    obtain ⟨item, ids₁, more, rfl, hitem, hmore⟩ := buildItems_cons h
    exact (buildItem_claims hitem).trans (ih hmore)

theorem build_claims {ids ids' : Registries} {comments : List (List Tag)} {items : List Item}
    (h : build s ids comments = .ok (items, ids')) : Claims ids items ids' := by
  obtain ⟨built, hbuilt, rfl⟩ := build_eq_ok h
  exact (buildItems_claims hbuilt).perm (List.mergeSort_perm _ _).symm

theorem buildEach_claims {ids : Registries} {runs : List (List (List Tag))} {built : List (List Item)}
    (h : buildEach s ids runs = .ok built) : ∃ ids', Claims ids built.flatten ids' := by
  induction runs generalizing ids built with
  | nil =>
    cases h
    exact ⟨ids, .refl _⟩
  | cons comments rest ih =>
    rw [buildEach] at h
    obtain ⟨⟨items, ids₁⟩, hitems, h⟩ := ok_of_bind h
    obtain ⟨more, hmore, h⟩ := ok_of_bind h
    cases h
    obtain ⟨ids', hrest⟩ := ih hmore
    exact ⟨ids', (build_claims hitems).trans hrest⟩

end

/-- Over all the builds of a run, the anchors of the items are different from one another, and so are the ids
    of the subitems, each of which is anchored by its id. -/
theorem buildEach_nodup (s : Settings) (runs : List (List (List Tag))) (built : List (List Item))
    (h : buildEach s {} runs = .ok built) :
    (built.flatten.map (·.anchor)).Nodup ∧ (subitemIds built.flatten).Nodup ∧ AnchoredById built.flatten := by
  obtain ⟨ids', hclaims⟩ := buildEach_claims h
  exact ⟨hclaims.anchors.nodup_names, hclaims.subitems.nodup_names, hclaims.anchored⟩

/-- One comment, built twice. -/
def twiceRuns : List (List (List Tag)) :=
  List.replicate 2 [[⟨"section".text, "a".text⟩, ⟨"base".text, ".b".text⟩, ⟨"modifier".text, ".c".text⟩]]

theorem buildEach_twice : ∃ built, buildEach {} {} twiceRuns = .ok built ∧
    built.flatten.map (·.anchor) = ["section_a".text, "section_a_1".text] ∧
    (built.flatten.map (·.anchor)).Nodup ∧ (subitemIds built.flatten).Nodup ∧ AnchoredById built.flatten := by
  have hanchors : (buildEach {} {} twiceRuns).map (fun built => built.flatten.map (·.anchor)) =
      .ok ["section_a".text, "section_a_1".text] := by decide +kernel
  cases h : buildEach {} {} twiceRuns with
  | error e =>
    rw [h] at hanchors
    cases hanchors
  | ok built =>
    rw [h] at hanchors
    exact ⟨built, rfl, Except.ok.inj hanchors, buildEach_nodup _ _ _ h⟩

end Showcase
end Stylebook
