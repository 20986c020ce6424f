import Mathlib.Data.List.Forall2
import Stylebook.Proofs.Showcase.Build
import Stylebook.Proofs.Showcase.Facts

/-! Only the order of tags of one kind counts. What a comment says can be read kind by kind, and with ids made from
    selectors the place of a modifier among the other tags does not matter either; so comments that have the same
    tags of every kind in the same order are built alike, whatever else stands between these tags. -/

namespace Stylebook
namespace Showcase

open Doc (Tag)
open Identifier (Registry)
open Variant (Settings)

/-! ### Kinds -/

/-- The kinds of tags that a showcase is built from. Tags with the names of one kind are read together. -/
def kinds : List (List String) :=
  [["$title"], ["$description"], ["section"], ["base"], ["example", "markup", "presentation", "preview"],
    ["version"], ["since"], ["deprecated"], ["author"], ["see"], ["todo"], ["fixme"], ["state", "pseudo"],
    ["modifier"]]

/-- The tags of one kind, in order. -/
def ofKind (kind : List String) (tags : List Tag) : List Tag :=
  tags.filter fun t => (kind.map String.text).contains t.name

/-- The same tags of every kind in the same order. -/
def SameKinds (tags tags' : List Tag) : Prop := ∀ kind ∈ kinds, ofKind kind tags = ofKind kind tags'

/-- What is read under some names of a kind stands in the tags of that kind. -/
theorem contents_ofKind {names kind : List String} (h : names ⊆ kind) (tags : List Tag) :
    contents (ofKind kind tags) names = contents tags names := by
  have hboth : ∀ t : Tag, ((names.map String.text).contains t.name && (kind.map String.text).contains t.name) =
      (names.map String.text).contains t.name := by
    intro t
    rw [Bool.and_eq_left_iff_imp, List.contains_iff_mem, List.contains_iff_mem]
    exact fun hin => List.map_subset _ h hin
  simp only [contents, ofKind, List.filter_filter, hboth]

theorem SameKinds.contents {tags tags' : List Tag} (h : SameKinds tags tags') {names kind : List String}
    (hkind : kind ∈ kinds) (hnames : names ⊆ kind) : contents tags names = Showcase.contents tags' names := by
  rw [← contents_ofKind hnames tags, h kind hkind, contents_ofKind hnames tags']

theorem SameKinds.describe {tags tags' : List Tag} (h : SameKinds tags tags') (number : Nat) :
    describe number tags = Showcase.describe number tags' := by
  have hkind : ∀ names ∈ kinds, Showcase.contents tags names = Showcase.contents tags' names :=
    fun names hnames => h.contents hnames (List.Subset.refl _)
  have hpreview : Showcase.contents tags ["presentation", "preview"] =
      Showcase.contents tags' ["presentation", "preview"] :=
    @SameKinds.contents _ _ h _ ["example", "markup", "presentation", "preview"] (by simp [kinds]) (by simp)
  simp only [describe_eq, Reading.byKind, lastSelector?, last?, hpreview, hkind ["$title"] (by simp [kinds]),
    hkind ["$description"] (by simp [kinds]), hkind ["section"] (by simp [kinds]), hkind ["base"] (by simp [kinds]),
    hkind ["example", "markup", "presentation", "preview"] (by simp [kinds]), hkind ["version"] (by simp [kinds]),
    hkind ["since"] (by simp [kinds]), hkind ["deprecated"] (by simp [kinds]), hkind ["author"] (by simp [kinds]),
    hkind ["see"] (by simp [kinds]), hkind ["todo"] (by simp [kinds]), hkind ["fixme"] (by simp [kinds]),
    hkind ["state", "pseudo"] (by simp [kinds])]

/-! ### Modifiers -/

/-- A variant without the place of its tag. -/
def Plan.unplaced (plan : Plan) : Plan := { plan with index := 0 }

/-- The variant that one modifier asks for, wherever it stands. -/
def modifierPlan? (t : Tag) : Option Plan :=
  (selectorAndDescription? t.content).map fun (selector, description) => ⟨some selector, description, 0⟩

theorem modifierPlans_unplaced (index : Nat) (tags : List Tag) :
    (modifierPlans index tags).map Plan.unplaced = (ofKind ["modifier"] tags).filterMap modifierPlan? := by
  induction tags generalizing index with
  | nil => rfl
  | cons t rest ih =>
    rw [modifierPlans]
    split
    · rename_i hname
      have hkind : ofKind ["modifier"] (t :: rest) = t :: ofKind ["modifier"] rest := by simp [ofKind, hname]
      rw [hkind, List.filterMap_cons, modifierPlan?]
      cases hcontent : selectorAndDescription? t.content with
      | none => exact ih (index + 1)
      | some read => exact congrArg (_ :: ·) (ih (index + 1))
    · rename_i hname
      have hkind : ofKind ["modifier"] (t :: rest) = ofKind ["modifier"] rest := by simp [ofKind, hname]
      rw [hkind]
      exact ih (index + 1)

theorem SameKinds.plans {tags tags' : List Tag} (h : SameKinds tags tags') (item : Item) :
    (plans item tags).map Plan.unplaced = (Showcase.plans item tags').map Plan.unplaced := by
  have hmodifiers := h ["modifier"] (by simp [kinds])
  simp only [Showcase.plans, List.map_cons, modifierPlans_unplaced, hmodifiers]

/-! ### Building -/

section
variable {s : Settings}

/-- With ids made from selectors, a variant does not depend on the place of its tag. -/
theorem buildSubitem_unplaced (hs : s.config.selectorIds = true) (item : Item) (base : Text) (ids : Registry)
    (plan : Plan) : buildSubitem s item base ids plan.unplaced = buildSubitem s item base ids plan := by
  have hkey : ∀ selector, subitemKey s.config item.id selector plan.unplaced.index =
      subitemKey s.config item.id selector plan.index := by
    intro selector
    simp only [subitemKey, hs, if_true]
  simp only [buildSubitem, hkey]
  rfl

theorem buildSubitems_unplaced (hs : s.config.selectorIds = true) (item : Item) (base : Text) (ids : Registry)
    (plans : List Plan) :
    buildSubitems s item base ids (plans.map Plan.unplaced) = buildSubitems s item base ids plans := by
  induction plans generalizing ids with
  | nil => rfl
  | cons plan rest ih => simp only [List.map_cons, buildSubitems, buildSubitem_unplaced hs, ih]

theorem SameKinds.buildItem {tags tags' : List Tag} (h : SameKinds tags tags') (hs : s.config.selectorIds = true)
    (ids : Registries) (number : Nat) : buildItem s ids number tags = Showcase.buildItem s ids number tags' := by
  have hsubitems : ∀ base, buildSubitems s (Showcase.describe number tags') base ids.subitems
        (Showcase.plans (Showcase.describe number tags') tags) =
      buildSubitems s (Showcase.describe number tags') base ids.subitems
        (Showcase.plans (Showcase.describe number tags') tags') := by
    intro base
    rw [← buildSubitems_unplaced hs, h.plans, buildSubitems_unplaced hs]
  simp only [Showcase.buildItem, h.describe, hsubitems]

theorem buildItems_of_sameKinds (hs : s.config.selectorIds = true) {comments comments' : List (List Tag)}
    (h : List.Forall₂ SameKinds comments comments') (ids : Registries) (number : Nat) :
    buildItems s ids number comments = buildItems s ids number comments' := by
  induction h generalizing ids number with
  | nil => rfl
  | cons hfirst _ ih => simp only [buildItems, hfirst.buildItem hs, ih]

/-- Comments that have, one by one, the same tags of every kind in the same order are built alike: the same items
    and the same registries, or the same refusal. -/
theorem build_of_sameKinds (hs : s.config.selectorIds = true) {comments comments' : List (List Tag)}
    (h : List.Forall₂ SameKinds comments comments') (ids : Registries) :
    build s ids comments = build s ids comments' := by
  simp only [build, buildItems_of_sameKinds hs h]

end

/-- A button with its tags kind by kind. -/
def sortedTags : List Tag :=
  [⟨"base".text, ".b Button".text⟩, ⟨"markup".text, "<a id=x>".text⟩, ⟨"preview".text, "<a>".text⟩,
    ⟨"state".text, ":hover".text⟩, ⟨"pseudo".text, ":focus".text⟩, ⟨"modifier".text, ".c".text⟩,
    ⟨"modifier".text, ".d".text⟩]

/-- The same button with its tags mixed, and a note among them. -/
def mixedTags : List Tag :=
  [⟨"modifier".text, ".c".text⟩, ⟨"state".text, ":hover".text⟩, ⟨"markup".text, "<a id=x>".text⟩,
    ⟨"note".text, "mixed".text⟩, ⟨"modifier".text, ".d".text⟩, ⟨"preview".text, "<a>".text⟩,
    ⟨"base".text, ".b Button".text⟩, ⟨"pseudo".text, ":focus".text⟩]

theorem build_mixedTags : (({} : Settings).config.selectorIds = true ∧
    List.Forall₂ SameKinds [sortedTags] [mixedTags]) ∧ sortedTags.length ≠ mixedTags.length ∧
    build {} {} [sortedTags] = build {} {} [mixedTags] := by
  have hsame : List.Forall₂ SameKinds [sortedTags] [mixedTags] :=
    .cons (by unfold SameKinds; decide +kernel) .nil
  exact ⟨⟨rfl, hsame⟩, by decide, build_of_sameKinds rfl hsame {}⟩

end Showcase
end Stylebook
