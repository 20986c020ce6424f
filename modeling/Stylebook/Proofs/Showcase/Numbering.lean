import Stylebook.Proofs.Identifier.Registry
import Stylebook.Proofs.Showcase.Arrangement
import Stylebook.Proofs.Text.Lines

/-! Ids made from numbers. Where ids are not made from selectors, a variant asks for the number of its item and its own
    number in the item. No two variants of a showcase have the same two numbers, so that every name asked for is still
    free: each variant gets just the name it asks for. Nor do ids ever stand in the way of a showcase: it is refused
    only for the markup of a variant. -/

namespace Stylebook
namespace Showcase

open Doc (Tag)
open Identifier (Registry)
open Variant (Settings)

/-! ### Names -/

/-- The name of a variant by the number of its item and its number in the item. -/
def numberedId (number index : Nat) : Text := Text.decimal number ++ '_' :: Text.decimal index

/-- The two numbers can be read off the name. -/
theorem numberedId_inj {m n i j : Nat} (h : numberedId m i = numberedId n j) : m = n ∧ i = j := by
  have hfront : ∀ k l, (numberedId k l).takeWhile Text.isDigit = Text.decimal k := fun k l =>
    Text.takeWhile_append_of_head (fun c hc => Text.isDigit_of_mem_decimal hc) (by simp [Text.isDigit])
  have hnumber : Text.decimal m = Text.decimal n := by
    rw [← hfront m i, h, hfront]
  refine ⟨Text.decimal_injective hnumber, ?_⟩
  rw [numberedId, numberedId, hnumber, List.append_cancel_left_eq, List.cons.injEq] at h
  exact Text.decimal_injective h.2

theorem subitemKey_numbered {config : Config} (hs : config.selectorIds = false) (number : Nat) (selector : Text)
    (index : Nat) : subitemKey config number selector index = numberedId number index := by
  rw [subitemKey, hs]
  rfl

/-- Every name in use belongs to an earlier item, or to an earlier variant of the item with the number `number`. -/
def Earlier (number index : Nat) (ids : Registry) : Prop :=
  ∀ name ∈ ids.used, ∃ n k, name = numberedId n k ∧ (n < number ∨ n = number ∧ k < index)

section
variable {number index : Nat} {ids : Registry}

theorem Earlier.not_mem (h : Earlier number index ids) : numberedId number index ∉ ids.used := by
  intro hmem
  obtain ⟨n, k, hname, hbefore⟩ := h _ hmem
  obtain ⟨rfl, rfl⟩ := numberedId_inj hname
  omega

theorem Earlier.mono (h : Earlier number index ids) {later : Nat} (hle : index ≤ later) : Earlier number later ids := by
  intro name hname
  obtain ⟨n, k, rfl, hbefore⟩ := h name hname
  exact ⟨n, k, rfl, by omega⟩

theorem Earlier.next (h : Earlier number index ids) : Earlier (number + 1) 0 ids := by
  intro name hname
  obtain ⟨n, k, rfl, hbefore⟩ := h name hname
  exact ⟨n, k, rfl, by omega⟩

/-- The next name is free, and taking it leaves the names behind it free. -/
theorem Earlier.claim (h : Earlier number index ids) :
    ∃ ids', ids.claim (numberedId number index) = (numberedId number index, ids') ∧ Earlier number (index + 1) ids' := by
  refine ⟨_, Registry.claim_of_not_mem h.not_mem, List.forall_mem_cons.mpr ⟨⟨number, index, rfl, by omega⟩, ?_⟩⟩
  exact h.mono (Nat.le_succ index)

end

/-! ### Variants -/

/-- What a tag at a place asks for, if it is a modifier with a selector: the modifier, and the id by its place. -/
def placedModifier? (number : Nat) (placed : Tag × Nat) : Option (Option Text × Text) :=
  if placed.1.name = "modifier".text then
    (selectorAndDescription? placed.1.content).map fun read => (some read.1, numberedId number (placed.2 + 1))
  else none

/-- The variants that a comment with a base asks for, each with its modifier and its id: the base has the number zero,
    and a modifier the place of its tag among all the tags of the comment, counted from one. -/
def numberedVariants (number : Nat) (tags : List Tag) : List (Option Text × Text) :=
  (none, numberedId number 0) :: tags.zipIdx.filterMap (placedModifier? number)

/-- The modifier and the id of a variant. -/
def named (sub : Subitem) : Option Text × Text := (sub.modifier, sub.id)

theorem modifierPlans_increasing (index : Nat) (tags : List Tag) :
    (modifierPlans index tags).Pairwise (·.index < ·.index) ∧ ∀ plan ∈ modifierPlans index tags, index ≤ plan.index := by
  induction tags generalizing index with
  | nil => exact ⟨.nil, by simp [modifierPlans]⟩
  | cons t rest ih =>
    obtain ⟨hrest, hle⟩ := ih (index + 1)
    have hlater : ∀ plan ∈ modifierPlans (index + 1) rest, index ≤ plan.index := fun plan hplan =>
      Nat.le_of_succ_le (hle plan hplan)
    rw [modifierPlans]
    split
    · split
      · exact ⟨.cons hle hrest, List.forall_mem_cons.mpr ⟨Nat.le_refl index, hlater⟩⟩
      · exact ⟨hrest, hlater⟩
    · exact ⟨hrest, hlater⟩

theorem modifierPlans_placed (number place : Nat) (tags : List Tag) :
    (modifierPlans (place + 1) tags).map (fun plan => (plan.modifier, numberedId number plan.index)) =
      (tags.zipIdx place).filterMap (placedModifier? number) := by
  induction tags generalizing place with
  | nil => rfl
  | cons t rest ih =>
    rw [modifierPlans, List.zipIdx_cons, List.filterMap_cons]
    by_cases hname : t.name = "modifier".text
    · cases hread : selectorAndDescription? t.content with
      | none => simp [placedModifier?, hname, hread, ih (place + 1)]
      | some read => simp [placedModifier?, hname, hread, ih (place + 1)]
    · simp [placedModifier?, hname, ih (place + 1)]

theorem plans_increasing (item : Item) (tags : List Tag) : (plans item tags).Pairwise (·.index < ·.index) := by
  obtain ⟨hmodifiers, hle⟩ := modifierPlans_increasing 1 tags
  exact .cons hle hmodifiers

theorem plans_placed (item : Item) (number : Nat) (tags : List Tag) :
    (plans item tags).map (fun plan => (plan.modifier, numberedId number plan.index)) = numberedVariants number tags := by
  rw [plans, List.map_cons, modifierPlans_placed number 0 tags]
  rfl

section
variable {s : Settings}

theorem buildSubitem_numbered (hs : s.config.selectorIds = false) {item : Item} {base : Text} {ids ids' : Registry}
    {plan : Plan} {sub : Subitem} (hids : Earlier item.id plan.index ids)
    (h : buildSubitem s item base ids plan = .ok (sub, ids')) :
    named sub = (plan.modifier, numberedId item.id plan.index) ∧ Earlier item.id (plan.index + 1) ids' := by
  obtain ⟨hclaim, -, -, hmodifier, -⟩ := buildSubitem_eq_ok h
  rw [subitemKey_numbered hs] at hclaim
  obtain ⟨ids₁, hname, hlater⟩ := hids.claim
  obtain ⟨hid, rfl⟩ := Prod.mk.inj (hclaim.symm.trans hname)
  exact ⟨by rw [named, hmodifier, hid], hlater⟩

theorem buildSubitems_numbered (hs : s.config.selectorIds = false) {item : Item} {base : Text} {ids ids' : Registry}
    {plans : List Plan} {subs : List Subitem} {index : Nat} (hplans : plans.Pairwise (·.index < ·.index))
    (hle : ∀ plan ∈ plans, index ≤ plan.index) (hids : Earlier item.id index ids)
    (h : buildSubitems s item base ids plans = .ok (subs, ids')) :
    subs.map named = plans.map (fun plan => (plan.modifier, numberedId item.id plan.index)) ∧
      ∃ last, Earlier item.id last ids' := by
  induction plans generalizing ids subs index with
  | nil =>
    cases h
    exact ⟨rfl, index, hids⟩
  | cons plan rest ih =>
    obtain ⟨sub, ids₁, more, rfl, hsub, hmore⟩ := buildSubitems_cons h
    obtain ⟨hbehind, hrest⟩ := List.pairwise_cons.mp hplans
    obtain ⟨hfirst, hids₁⟩ := buildSubitem_numbered hs (hids.mono (hle plan List.mem_cons_self)) hsub
    obtain ⟨hnamed, hlast⟩ := ih hrest hbehind hids₁ hmore
    exact ⟨by rw [List.map_cons, List.map_cons, hfirst, hnamed], hlast⟩

/-! ### Items -/

theorem buildItem_numbered (hs : s.config.selectorIds = false) {ids ids' : Registries} {number : Nat} {tags : List Tag}
    {item : Item} (hids : Earlier number 0 ids.subitems) (h : buildItem s ids number tags = .ok (item, ids')) :
    (item.subitems ≠ [] → item.subitems.map named = numberedVariants number tags) ∧
      Earlier (number + 1) 0 ids'.subitems := by
  obtain ⟨-, -, hsubs⟩ := buildItem_eq_ok h
  rcases hsubs with ⟨-, hnil, hsame⟩ | ⟨base, -, hbuilt⟩
  · rw [hsame]
    exact ⟨fun hne => absurd hnil hne, hids.next⟩
  · have hplans := plans_increasing (describe number tags) tags
    have hids : Earlier (describe number tags).id 0 ids.subitems := by rwa [describe_id]
    obtain ⟨hnamed, last, hlast⟩ := buildSubitems_numbered hs hplans (fun _ _ => Nat.zero_le _) hids hbuilt
    rw [describe_id] at hnamed hlast
    exact ⟨fun _ => hnamed.trans (plans_placed _ number tags), hlast.next⟩

theorem buildItems_numbered (hs : s.config.selectorIds = false) {ids ids' : Registries} {number : Nat}
    {comments : List (List Tag)} {items : List Item} (hids : Earlier number 0 ids.subitems)
    (h : buildItems s ids number comments = .ok (items, ids')) :
    ∀ item ∈ items, ∃ i tags, comments[i]? = some tags ∧ item.id = number + i ∧ Presents tags item.id item ∧
      (item.subitems ≠ [] → item.subitems.map named = numberedVariants item.id tags) := by
  induction comments generalizing ids number items with
  | nil =>
    cases h
    exact fun _ hitem => absurd hitem List.not_mem_nil
  | cons tags rest ih =>
    obtain ⟨item, ids₁, more, rfl, hitem, hmore⟩ := buildItems_cons h
    obtain ⟨hnamed, hids₁⟩ := buildItem_numbered hs hids hitem
    have hpresents := buildItem_presents hitem
    have hid := hpresents.id_eq
    refine List.forall_mem_cons.mpr ⟨⟨0, tags, rfl, hid, hid ▸ hpresents, hid ▸ hnamed⟩, fun x hx => ?_⟩
    obtain ⟨i, tags', htags', hnumber, hx⟩ := ih hids₁ hmore x hx
    exact ⟨i + 1, tags', htags', by omega, hx⟩

/-! ### What is built at all -/

/-- The markup of a variant is accepted, be it shown or presented. -/
def Shows (s : Settings) (item : Item) (base : Text) (modifier : Option Text) : Prop :=
  ∀ isPresentation, ∃ shown,
    Variant.apply s isPresentation none ((if isPresentation then item.presentation else item.example_).getD [])
      (some base) (modifier.getD []) item.states = .ok shown

/-- The markup of every variant that a comment asks for is accepted. -/
def Accepted (s : Settings) (tags : List Tag) : Prop :=
  ∀ base, HasBase tags base → ∀ modifier ∈ none :: (modifiers tags).map some, Shows s (describe 0 tags) base modifier

theorem buildSubitem_isOk {item : Item} {base : Text} {plan : Plan} (ids : Registry) :
    (∃ built, buildSubitem s item base ids plan = .ok built) ↔ Shows s item base plan.modifier := by
  constructor
  · rintro ⟨built, h⟩ isPresentation
    unfold buildSubitem at h
    obtain ⟨shown, hshown, h⟩ := ok_of_bind h
    obtain ⟨presented, hpresented, -⟩ := ok_of_bind h
    cases isPresentation with
    | false => exact ⟨shown, hshown⟩
    | true => exact ⟨presented, hpresented⟩
  · intro h
    obtain ⟨shown, hshown⟩ := h false
    obtain ⟨presented, hpresented⟩ := h true
    simp only [Bool.false_eq_true, if_false, if_true] at hshown hpresented
    exact ⟨_, by simp only [buildSubitem, hshown, hpresented]; rfl⟩

theorem buildSubitems_isOk {item : Item} {base : Text} {plans : List Plan} (ids : Registry) :
    (∃ built, buildSubitems s item base ids plans = .ok built) ↔
      ∀ modifier ∈ plans.map (·.modifier), Shows s item base modifier := by
  induction plans generalizing ids with
  | nil => exact iff_of_true ⟨_, rfl⟩ (by simp)
  | cons plan rest ih =>
    rw [List.map_cons, List.forall_mem_cons, ← buildSubitem_isOk ids]
    constructor
    · rintro ⟨⟨subs, ids'⟩, h⟩
      obtain ⟨sub, ids₁, more, -, hsub, hmore⟩ := buildSubitems_cons h
      exact ⟨⟨_, hsub⟩, (ih ids₁).mp ⟨_, hmore⟩⟩
    · rintro ⟨⟨⟨sub, ids₁⟩, hsub⟩, hrest⟩
      obtain ⟨⟨more, ids'⟩, hmore⟩ := (ih ids₁).mpr hrest
      exact ⟨(sub :: more, ids'), by simp only [buildSubitems, hsub, hmore, bind, Except.bind, pure, Except.pure]⟩

theorem buildItem_isOk (ids : Registries) (number : Nat) {tags : List Tag} :
    (∃ built, buildItem s ids number tags = .ok built) ↔ Accepted s tags := by
  have hplans : (plans (describe number tags) tags).map (·.modifier) = none :: (modifiers tags).map some := by
    rw [plans, List.map_cons, map_modifier_modifierPlans]
  have hshows : ∀ base, (∃ built, buildSubitems s (describe number tags) base ids.subitems
      (plans (describe number tags) tags) = .ok built) ↔
        ∀ modifier ∈ none :: (modifiers tags).map some, Shows s (describe 0 tags) base modifier := by
    intro base
    rw [buildSubitems_isOk, hplans, describe_number 0 number]
    rfl
  constructor
  · rintro ⟨⟨item, ids'⟩, h⟩ base hbase
    obtain ⟨-, hfacts, hsubs⟩ := buildItem_eq_ok h
    have hsome : item.base = some base := by
      rw [hfacts]
      exact (@describe_base_eq_some_iff number _ _).mpr hbase
    rcases hsubs with ⟨hnone, -⟩ | ⟨other, hother, hbuilt⟩
    · rw [hnone] at hsome
      cases hsome
    · obtain rfl := Option.some.inj (hother.symm.trans hsome)
      exact (hshows other).mp ⟨_, hbuilt⟩
  · intro h
    cases hbase : (describe number tags).base with
    | none => exact ⟨_, by simp only [buildItem, hbase]; rfl⟩
    | some base =>
      obtain ⟨built, hbuilt⟩ := (hshows base).mpr (h base (describe_base_eq_some_iff.mp hbase))
      exact ⟨_, by simp only [buildItem, hbase, hbuilt]; rfl⟩

theorem buildItems_isOk (ids : Registries) (number : Nat) {comments : List (List Tag)} :
    (∃ built, buildItems s ids number comments = .ok built) ↔ ∀ tags ∈ comments, Accepted s tags := by
  induction comments generalizing ids number with
  | nil => exact iff_of_true ⟨_, rfl⟩ (by simp)
  | cons tags rest ih =>
    rw [List.forall_mem_cons, ← buildItem_isOk ids number]
    constructor
    · rintro ⟨⟨items, ids'⟩, h⟩
      obtain ⟨item, ids₁, more, -, hitem, hmore⟩ := buildItems_cons h
      exact ⟨⟨_, hitem⟩, (ih ids₁ (number + 1)).mp ⟨_, hmore⟩⟩
    · rintro ⟨⟨⟨item, ids₁⟩, hitem⟩, hrest⟩
      obtain ⟨⟨more, ids'⟩, hmore⟩ := (ih ids₁ (number + 1)).mpr hrest
      exact ⟨(item :: more, ids'), by simp only [buildItems, hitem, hmore, bind, Except.bind, pure, Except.pure]⟩

theorem build_isOk (ids : Registries) {comments : List (List Tag)} :
    (∃ built, build s ids comments = .ok built) ↔ ∀ tags ∈ comments, Accepted s tags := by
  rw [← buildItems_isOk ids 1]
  constructor
  · rintro ⟨⟨items, ids'⟩, h⟩
    obtain ⟨built, hbuilt, -⟩ := build_eq_ok h
    exact ⟨_, hbuilt⟩
  · rintro ⟨⟨items, ids'⟩, h⟩
    exact ⟨_, by simp only [build, h]; rfl⟩

/-! ### Showcases -/

/-- Where ids are not made from selectors, a showcase is built if the markup of every variant is accepted, and then the
    variants of every item bear its number and the numbers of their tags, with nothing behind them. -/
theorem build_numbered (hs : s.config.selectorIds = false) (comments : List (List Tag)) :
    ((∃ built, build s {} comments = .ok built) ↔ ∀ tags ∈ comments, Accepted s tags) ∧
      ∀ items ids', build s {} comments = .ok (items, ids') → ∀ item ∈ items, ∃ i tags, comments[i]? = some tags ∧
        item.id = i + 1 ∧ Presents tags item.id item ∧
        (item.subitems ≠ [] → item.subitems.map named = numberedVariants item.id tags) := by
  refine ⟨build_isOk {}, fun items ids' h item hitem => ?_⟩
  obtain ⟨built, hbuilt, rfl⟩ := build_eq_ok h
  have hnone : Earlier 1 0 ({} : Registries).subitems := fun _ hname => absurd hname List.not_mem_nil
  obtain ⟨i, tags, htags, hid, hitem⟩ := buildItems_numbered hs hnone hbuilt item (List.mem_mergeSort.mp hitem)
  exact ⟨i, tags, htags, by omega, hitem⟩

end

/-- Settings under which ids are made from numbers. -/
def counting : Settings := { config := { selectorIds := false } }

/-- Two comments, the first with one modifier twice and another tag between, the second with a modifier in front of its
    base. -/
def countedComments : List (List Tag) :=
  [[⟨"base".text, ".b".text⟩, ⟨"modifier".text, ".c".text⟩, ⟨"note".text, ".c".text⟩, ⟨"modifier".text, ".c".text⟩],
    [⟨"modifier".text, ".c".text⟩, ⟨"base".text, ".b".text⟩]]

theorem build_numbered_counted : ∃ items ids', build counting {} countedComments = .ok (items, ids') ∧
    (items.map (·.subitems.map (·.id))).Perm [["1_0".text, "1_2".text, "1_4".text], ["2_0".text, "2_1".text]] ∧
    (∀ tags ∈ countedComments, Accepted counting tags) ∧
    ∀ item ∈ items, ∃ i tags, countedComments[i]? = some tags ∧ item.id = i + 1 ∧ Presents tags item.id item ∧
      (item.subitems ≠ [] → item.subitems.map named = numberedVariants item.id tags) := by
  have hids : (buildItems counting {} 1 countedComments).map (·.1.map (·.subitems.map (·.id))) =
      .ok [["1_0".text, "1_2".text, "1_4".text], ["2_0".text, "2_1".text]] := by decide +kernel
  obtain ⟨hok, hnumbered⟩ := build_numbered (s := counting) rfl countedComments
  cases hbuilt : buildItems counting {} 1 countedComments with
  | error e =>
    rw [hbuilt] at hids
    cases hids
  | ok answer =>
    obtain ⟨built, ids'⟩ := answer
    rw [hbuilt] at hids
    have hbuild : build counting {} countedComments = .ok (sortItems built, ids') := by
      rw [build, hbuilt]
      rfl
    refine ⟨sortItems built, ids', hbuild, ?_, hok.mp ⟨_, hbuild⟩, hnumbered _ _ hbuild⟩
    rw [← Except.ok.inj hids]
    exact (List.mergeSort_perm _ _).map _

end Showcase
end Stylebook
