import Mathlib.Data.List.Forall2
import Mathlib.Data.List.Nodup
import Mathlib.Data.List.Sort
import Mathlib.Data.Char
import Stylebook.Proofs.Showcase.Build
import Stylebook.Proofs.Showcase.Facts

/-! How a showcase is arranged. The items bear the numbers of their comments and stand sorted by section, those of
    one section by number; and an item has the variants that its comment asks for: none without a base selector,
    else the base itself and then one for each modifier, in the order of their tags. -/

namespace Stylebook
namespace Showcase

open Doc (Tag)
open Identifier (Registry)
open Variant (Settings)

/-! ### What a comment asks for -/

/-- `content` stands in the last tag of a name. -/
def IsLast (tags : List Tag) (name : String) (content : Text) : Prop :=
  ∃ before after, tags = before ++ ⟨name.text, content⟩ :: after ∧ ∀ t ∈ after, t.name ≠ name.text

/-- The last base tag of a comment has the selector `base`. -/
def HasBase (tags : List Tag) (base : Text) : Prop :=
  ∃ content description, IsLast tags "base" content ∧ selectorAndDescription? content = some (base, description)

/-- The selectors of the modifier tags that have one, in order. -/
def modifiers (tags : List Tag) : List Text :=
  (tags.filter fun t => t.name = "modifier".text).filterMap fun t => (selectorAndDescription? t.content).map (·.1)

theorem last?_eq_some_iff {tags : List Tag} {name : String} {content : Text} :
    last? tags name = some content ↔ IsLast tags name content := by
  have hkind : ∀ t : Tag, ([name].map String.text).contains t.name = true ↔ t.name = name.text := by simp
  simp only [last?, contents, List.getLast?_map, Option.map_eq_some_iff, List.getLast?_eq_some_iff]
  constructor
  · rintro ⟨t, ⟨front, hfront⟩, rfl⟩
    obtain ⟨before, rest, rfl, -, hrest⟩ := List.filter_eq_append_iff.mp hfront
    obtain ⟨skipped, after, rfl, -, hname, hafter⟩ := List.filter_eq_cons_iff.mp hrest
    rw [hkind] at hname
    refine ⟨before ++ skipped, after, by simp [← hname], fun u hu hsame => ?_⟩
    exact List.filter_eq_nil_iff.mp hafter u hu ((hkind u).mpr hsame)
  · rintro ⟨before, after, rfl, hafter⟩
    have hnone : after.filter (fun t => ([name].map String.text).contains t.name) = [] :=
      List.filter_eq_nil_iff.mpr fun t ht => by
        rw [hkind]
        exact hafter t ht
    refine ⟨⟨name.text, content⟩, ?_, rfl⟩
    rw [List.filter_append, List.filter_cons_of_pos (by simp), hnone]
    exact ⟨_, rfl⟩

theorem lastSelector?_base_iff {tags : List Tag} {base : Text} :
    (∃ description, lastSelector? tags "base" = some (base, description)) ↔ HasBase tags base := by
  simp only [lastSelector?, Option.bind_eq_some_iff, last?_eq_some_iff, HasBase]
  exact exists_comm

theorem describe_base_eq_some_iff {number : Nat} {tags : List Tag} {base : Text} :
    (describe number tags).base = some base ↔ HasBase tags base := by
  rw [← lastSelector?_base_iff, describe_eq]
  simp [Reading.byKind]

/-! ### Variants -/

/-- A variant of `base` with a modifier, or of the base itself. -/
structure IsVariant (base : Text) (modifier : Option Text) (sub : Subitem) : Prop where
  base_eq : sub.base = base
  modifier_eq : sub.modifier = modifier
  selector_eq : sub.selector = base ++ modifier.getD []

theorem map_modifier_modifierPlans (index : Nat) (tags : List Tag) :
    (modifierPlans index tags).map (·.modifier) = (modifiers tags).map some := by
  induction tags generalizing index with
  | nil => rfl
  | cons t rest ih =>
    rw [modifierPlans]
    by_cases hname : t.name = "modifier".text
    · cases hcontent : selectorAndDescription? t.content with
      | none => simp [modifiers, hname, hcontent, ih (index + 1)]
      | some read => simp [modifiers, hname, hcontent, ih (index + 1)]
    · simp [modifiers, hname, ih (index + 1)]

section
variable {s : Settings}

theorem buildSubitems_forall₂ {item : Item} {base : Text} {ids ids' : Registry} {plans : List Plan}
    {subs : List Subitem} (h : buildSubitems s item base ids plans = .ok (subs, ids')) :
    List.Forall₂ (IsVariant base) (plans.map (·.modifier)) subs := by
  induction plans generalizing ids subs with
  | nil =>
    cases h
    exact .nil
  | cons plan rest ih =>
    obtain ⟨sub, ids₁, more, rfl, hsub, hmore⟩ := buildSubitems_cons h
    obtain ⟨-, -, hbase, hmodifier, hselector, -⟩ := buildSubitem_eq_ok hsub
    exact .cons ⟨hbase, hmodifier, hselector⟩ (ih hmore)

/-- An item that says what its comment says under a number, and has the variants that the comment asks for. -/
structure Presents (tags : List Tag) (number : Nat) (item : Item) : Prop where
  facts : item = { describe number tags with anchor := item.anchor, subitems := item.subitems }
  none_iff : item.subitems = [] ↔ ¬ ∃ base, HasBase tags base
  variants : ∀ base, HasBase tags base → item.base = some base ∧
    ∃ plain modified, item.subitems = plain :: modified ∧ IsVariant base none plain ∧
      List.Forall₂ (fun modifier sub => IsVariant base (some modifier) sub) (modifiers tags) modified

theorem Presents.id_eq {tags : List Tag} {number : Nat} {item : Item} (h : Presents tags number item) :
    item.id = number := by
  rw [h.facts]
  exact describe_id number tags

theorem buildItem_presents {ids ids' : Registries} {number : Nat} {tags : List Tag} {item : Item}
    (h : buildItem s ids number tags = .ok (item, ids')) : Presents tags number item := by
  obtain ⟨-, hfacts, hsubs⟩ := buildItem_eq_ok h
  have hbase : ∀ base, item.base = some base ↔ HasBase tags base := by
    intro base
    have hsame : item.base = (describe number tags).base := by rw [hfacts]
    rw [hsame, describe_base_eq_some_iff]
  rcases hsubs with ⟨hnone, hnil, -⟩ | ⟨base, hsome, hbuilt⟩
  · have hno : ¬ ∃ base, HasBase tags base := by
      rintro ⟨base, hhas⟩
      rw [← hbase, hnone] at hhas
      cases hhas
    exact ⟨hfacts, iff_of_true hnil hno, fun base hhas => absurd ⟨base, hhas⟩ hno⟩
  · have hvariants := buildSubitems_forall₂ hbuilt
    rw [plans, List.map_cons, map_modifier_modifierPlans] at hvariants
    obtain ⟨plain, modified, hplain, hmodified, hitem⟩ := List.forall₂_cons_left_iff.mp hvariants
    refine ⟨hfacts, iff_of_false (by simp [hitem]) (not_not_intro ⟨base, (hbase base).mp hsome⟩), ?_⟩
    intro other hother
    have hsame : base = other := Option.some.inj (hsome.symm.trans ((hbase other).mpr hother))
    subst hsame
    exact ⟨hsome, plain, modified, hitem, hplain, List.forall₂_map_left_iff.mp hmodified⟩

theorem buildItems_presents {ids ids' : Registries} {number : Nat} {comments : List (List Tag)} {items : List Item}
    (h : buildItems s ids number comments = .ok (items, ids')) :
    List.Forall₂ (fun place item => Presents place.1 place.2 item) (comments.zipIdx number) items := by
  induction comments generalizing ids number items with
  | nil =>
    cases h
    exact .nil
  | cons tags rest ih =>
    obtain ⟨item, ids₁, more, rfl, hitem, hmore⟩ := buildItems_cons h
    exact .cons (buildItem_presents hitem) (ih hmore)

end

/-! ### Order -/

theorem isBefore_iff {a b : Text} : Text.isBefore a b = true ↔ a < b := by
  have hchar : ∀ c d : Char, c.toNat < d.toNat ↔ c < d := fun _ _ => Iff.rfl
  induction a generalizing b with
  | nil => cases b <;> simp [Text.isBefore, List.lex]
  | cons c a ih =>
    cases b with
    | nil => simp [Text.isBefore, List.lex]
    | cons d b =>
      have hrest : a.lex b (fun c d => c.toNat < d.toNat) = true ↔ a < b := ih
      rw [List.cons_lt_cons_iff, ← hrest, ← hchar]
      simp [Text.isBefore, List.lex]

/-- `a` comes before `b`: by its section, and by its number within a section. -/
def Before (a b : Item) : Prop := sectionKey a < sectionKey b ∨ sectionKey a = sectionKey b ∧ a.id < b.id

/-- The order by which items are sorted. -/
def inOrder (a b : Item) : Bool := !Text.isBefore (sectionKey b) (sectionKey a)

theorem inOrder_iff {a b : Item} : inOrder a b = true ↔ ¬ sectionKey b < sectionKey a := by
  rw [inOrder, Bool.not_eq_true', Bool.eq_false_iff, ne_eq, isBefore_iff]

theorem inOrder_trans (a b c : Item) (hab : inOrder a b = true) (hbc : inOrder b c = true) : inOrder a c = true := by
  rw [inOrder_iff] at *
  exact List.le_trans hab hbc

theorem inOrder_total (a b : Item) : (inOrder a b || inOrder b a) = true := by
  rw [Bool.or_eq_true, inOrder_iff, inOrder_iff]
  exact List.le_total _ _

theorem before_of_inOrder {a b : Item} (h : inOrder a b = true) (hties : inOrder b a = true → a.id < b.id) :
    Before a b := by
  by_cases hlt : sectionKey a < sectionKey b
  · exact .inl hlt
  · have heq : sectionKey a = sectionKey b := List.le_antisymm (inOrder_iff.mp h) hlt
    exact .inr ⟨heq, hties (inOrder_iff.mpr hlt)⟩

/-- Items with increasing numbers are sorted by section, those of one section still by their numbers. -/
theorem sortItems_pairwise {items : List Item} (h : items.Pairwise fun a b => a.id < b.id) :
    (sortItems items).Pairwise Before := by
  -- Sorting is stable: with the places of the items to break ties it gives the same list.
  have hplaces : sortItems items = (items.zipIdx.mergeSort (List.zipIdxLE inOrder)).map (·.1) :=
    List.mergeSort_zipIdx.symm
  have hsorted : (items.zipIdx.mergeSort (List.zipIdxLE inOrder)).Pairwise fun x y => List.zipIdxLE inOrder x y = true :=
    List.pairwise_mergeSort (List.zipIdxLE_trans inOrder_trans) (List.zipIdxLE_total inOrder_total) _
  have hdistinct : (items.zipIdx.mergeSort (List.zipIdxLE inOrder)).Pairwise fun x y => x.2 ≠ y.2 := by
    have hnodup : (items.zipIdx.map (·.2)).Nodup := by
      rw [List.zipIdx_map_snd]
      exact List.nodup_range'
    exact List.pairwise_map.mp (((List.mergeSort_perm _ _).map _).nodup_iff.mpr hnodup)
  have hnumbers : ∀ x ∈ items.zipIdx, ∀ y ∈ items.zipIdx, x.2 < y.2 → x.1.id < y.1.id := by
    intro x hx y hy hlt
    rw [List.mem_zipIdx_iff_getElem?] at hx hy
    obtain ⟨hi, hx⟩ := List.getElem?_eq_some_iff.mp hx
    obtain ⟨hj, hy⟩ := List.getElem?_eq_some_iff.mp hy
    rw [← hx, ← hy]
    exact List.pairwise_iff_getElem.mp h x.2 y.2 hi hj hlt
  rw [hplaces, List.pairwise_map]
  refine (hsorted.and hdistinct).imp_of_mem fun {x y} hx hy hxy => ?_
  obtain ⟨hle, hne⟩ := hxy
  rw [List.mem_mergeSort] at hx hy
  simp only [List.zipIdxLE] at hle
  split at hle
  · rename_i hinOrder
    refine before_of_inOrder hinOrder fun hback => hnumbers x hx y hy ?_
    rw [if_pos hback, decide_eq_true_eq] at hle
    omega
  · cases hle

/-! ### Showcases -/

section
variable {s : Settings}

theorem buildItems_ids {ids ids' : Registries} {number : Nat} {comments : List (List Tag)} {items : List Item}
    (h : buildItems s ids number comments = .ok (items, ids')) :
    items.map (·.id) = List.range' number comments.length := by
  have hpresents := buildItems_presents h
  have hnumbers : items.map (·.id) = (comments.zipIdx number).map (·.2) := by
    rw [← List.forall₂_eq_eq_eq, List.forall₂_map_left_iff, List.forall₂_map_right_iff]
    exact hpresents.flip.imp fun _ _ hitem => hitem.id_eq
  rw [hnumbers, List.zipIdx_map_snd]

/-- A showcase has one item for every comment, under the number of the comment and with the variants that it asks
    for; and the items stand in order. -/
theorem build_arranged (s : Settings) (ids ids' : Registries) (comments : List (List Tag)) (items : List Item)
    (h : build s ids comments = .ok (items, ids')) :
    (items.map (·.id)).Perm (List.range' 1 comments.length) ∧ items.Pairwise Before ∧
      ∀ i tags, comments[i]? = some tags → ∃ item ∈ items, Presents tags (i + 1) item := by
  obtain ⟨built, hbuilt, rfl⟩ := build_eq_ok h
  have hids := buildItems_ids hbuilt
  have hperm : (sortItems built).Perm built := List.mergeSort_perm _ _
  refine ⟨?_, sortItems_pairwise ?_, fun i tags htags => ?_⟩
  · rw [← hids]
    exact hperm.map _
  · rw [← List.pairwise_map (f := Item.id), hids]
    exact List.pairwise_lt_range'
  · obtain ⟨hi, rfl⟩ := List.getElem?_eq_some_iff.mp htags
    have hpresents := buildItems_presents hbuilt
    have hplace : i < (comments.zipIdx 1).length := by simpa using hi
    have hitem := hpresents.get hplace (hpresents.length_eq ▸ hplace)
    rw [List.get_eq_getElem, List.getElem_zipIdx, Nat.add_comm] at hitem
    exact ⟨_, hperm.mem_iff.mpr (List.get_mem _ _), hitem⟩

end

/-- Three comments: one whose last base tag has no selector, and two of one section, the first with a base that is
    named twice, an empty modifier and two others. -/
def mixedComments : List (List Tag) :=
  [[⟨"section".text, "b".text⟩, ⟨"base".text, ".x".text⟩, ⟨"base".text, []⟩, ⟨"modifier".text, ".y".text⟩],
    [⟨"modifier".text, ".on Active".text⟩, ⟨"base".text, ".old".text⟩, ⟨"section".text, "a First".text⟩,
      ⟨"modifier".text, " ".text⟩, ⟨"base".text, ".tab Tab".text⟩, ⟨"modifier".text, "\x7b.a .b\x7d Both".text⟩],
    [⟨"section".text, "a".text⟩]]

/-- The number of an item and the selectors of its variants. -/
def outline (item : Item) : Nat × List Text := (item.id, item.subitems.map (·.selector))

theorem build_arranged_mixed : ∃ items ids', build {} {} mixedComments = .ok (items, ids') ∧
    (items.map outline).Perm [(1, []), (2, [".tab".text, ".tab.on".text, ".tab.a .b".text]), (3, [])] ∧
    (items.map (·.id)).Perm (List.range' 1 mixedComments.length) ∧ items.Pairwise Before ∧
      ∀ i tags, mixedComments[i]? = some tags → ∃ item ∈ items, Presents tags (i + 1) item := by
  have houtline : (buildItems {} {} 1 mixedComments).toOption.map (·.1.map outline) =
      some [(1, []), (2, [".tab".text, ".tab.on".text, ".tab.a .b".text]), (3, [])] := by
    decide +kernel
  cases hbuilt : buildItems {} {} 1 mixedComments with
  | error e =>
    rw [hbuilt] at houtline
    cases houtline
  | ok answer =>
    obtain ⟨built, ids'⟩ := answer
    rw [hbuilt] at houtline
    have hbuild : build {} {} mixedComments = .ok (sortItems built, ids') := by
      rw [build, hbuilt]
      rfl
    refine ⟨sortItems built, ids', hbuild, ?_, build_arranged _ _ _ _ _ hbuild⟩
    rw [← Option.some.inj houtline]
    exact (List.mergeSort_perm _ _).map _

end Showcase
end Stylebook
