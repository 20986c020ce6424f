import Stylebook.Proofs.Showcase.Arrangement

/-! Building a showcase in two goes. A second build goes on with the identifiers of the first and counts its items from
    one again. Where every comment of the second build has a section and ids are made from selectors, nothing but the
    numbers of the items tells that the count began again: sorted together, the items of both builds are those of one
    build of all the comments. -/

namespace Stylebook
namespace Showcase

open Doc (Tag)
open Identifier (Registry)
open Markup (Rejected)
open Variant (Settings)

/-! ### Sorting -/

/-- The items of one section. -/
def ofSection (key : Text) (items : List Item) : List Item := items.filter fun item => sectionKey item = key

theorem ofSection_append (key : Text) (a b : List Item) : ofSection key (a ++ b) = ofSection key a ++ ofSection key b :=
  List.filter_append a b

theorem ofSection_cons_self (item : Item) (items : List Item) :
    ofSection (sectionKey item) (item :: items) = item :: ofSection (sectionKey item) items :=
  List.filter_cons_of_pos (by simp)

theorem mem_of_mem_ofSection {key : Text} {items : List Item} {item : Item} (h : item ∈ ofSection key items) :
    item ∈ items := List.mem_of_mem_filter h

theorem pairwise_sortItems (items : List Item) : (sortItems items).Pairwise fun a b => inOrder a b = true :=
  List.pairwise_mergeSort inOrder_trans inOrder_total items

/-- Sorting is stable: the items of one section stay in their order. -/
theorem ofSection_sortItems (key : Text) (items : List Item) :
    ofSection key (sortItems items) = ofSection key items := by
  have hkey : ∀ item ∈ ofSection key items, sectionKey item = key := fun item h => by
    simpa using (List.mem_filter.mp h).2
  have hordered : (ofSection key items).Pairwise fun a b => inOrder a b = true := by
    refine List.pairwise_of_forall_mem_list fun a ha b hb => inOrder_iff.mpr ?_
    rw [hkey a ha, hkey b hb]
    exact List.lt_irrefl key
  have hsorted : (ofSection key items).Sublist (sortItems items) :=
    List.sublist_mergeSort inOrder_trans inOrder_total hordered List.filter_sublist
  have hsection : (ofSection key items).Sublist (ofSection key (sortItems items)) := by
    have hself : ofSection key (ofSection key items) = ofSection key items :=
      List.filter_eq_self.mpr fun item h => by simpa using hkey item h
    have hfilter : (ofSection key (ofSection key items)).Sublist (ofSection key (sortItems items)) := hsorted.filter _
    rwa [hself] at hfilter
  have hlength : (ofSection key items).length = (ofSection key (sortItems items)).length :=
    ((List.mergeSort_perm items _).symm.filter _).length_eq
  exact (hsection.eq_of_length hlength).symm

/-- Items that stand in order are determined by those of each section. -/
theorem eq_of_ofSection {l l' : List Item} (h : l.Pairwise fun a b => inOrder a b = true)
    (h' : l'.Pairwise fun a b => inOrder a b = true) (hsame : ∀ key, ofSection key l = ofSection key l') : l = l' := by
  induction l generalizing l' with
  | nil =>
    rcases l' with _ | ⟨y, l'⟩
    · rfl
    · have hnil := hsame (sectionKey y)
      rw [ofSection_cons_self] at hnil
      cases hnil
  | cons x l ih =>
    have hx := hsame (sectionKey x)
    rw [ofSection_cons_self] at hx
    rcases l' with _ | ⟨y, l'⟩
    · cases hx
    · have hy := hsame (sectionKey y)
      rw [ofSection_cons_self] at hy
      -- each of the two first items stands in the other list, so that neither comes before the other
      have hxy : inOrder x y = true := by
        have hmem : y ∈ x :: l := mem_of_mem_ofSection (hy ▸ List.mem_cons_self)
        rcases List.mem_cons.mp hmem with rfl | hmem
        · exact inOrder_iff.mpr (List.lt_irrefl _)
        · exact (List.pairwise_cons.mp h).1 y hmem
      have hyx : inOrder y x = true := by
        have hmem : x ∈ y :: l' := mem_of_mem_ofSection (hx ▸ List.mem_cons_self)
        rcases List.mem_cons.mp hmem with rfl | hmem
        · exact inOrder_iff.mpr (List.lt_irrefl _)
        · exact (List.pairwise_cons.mp h').1 x hmem
      have hkey : sectionKey x = sectionKey y := List.le_antisymm (inOrder_iff.mp hxy) (inOrder_iff.mp hyx)
      rw [hkey, ofSection_cons_self] at hx
      obtain ⟨rfl, -⟩ := List.cons.inj hx
      refine congrArg (x :: ·) (ih (List.pairwise_cons.mp h).2 (List.pairwise_cons.mp h').2 fun key => ?_)
      have hcons := hsame key
      simp only [ofSection, List.filter_cons] at hcons
      split at hcons
      · exact (List.cons.inj hcons).2
      · exact hcons

/-- Sorting the parts first makes no difference. -/
theorem sortItems_append_sortItems (a b : List Item) : sortItems (sortItems a ++ sortItems b) = sortItems (a ++ b) := by
  refine eq_of_ofSection (pairwise_sortItems _) (pairwise_sortItems _) fun key => ?_
  rw [ofSection_sortItems, ofSection_append, ofSection_sortItems, ofSection_sortItems, ofSection_sortItems,
    ofSection_append]

theorem sortItems_map {f : Item → Item} (hf : ∀ item, sectionKey (f item) = sectionKey item) (items : List Item) :
    sortItems (items.map f) = (sortItems items).map f := by
  refine (List.map_mergeSort fun a _ b _ => ?_).symm
  rw [hf, hf]

/-! ### Numbers -/

/-- The last section tag of a comment has a selector. -/
def HasSection (tags : List Tag) : Prop :=
  ∃ content read, IsLast tags "section" content ∧ selectorAndDescription? content = some read

/-- An item whose comment has `n` more comments before it. -/
def Item.later (n : Nat) (item : Item) : Item := { item with id := item.id + n }

/-- An item as it is numbered if the count begins again behind the first `n` comments. -/
def Item.recounted (n : Nat) (item : Item) : Item := if n < item.id then { item with id := item.id - n } else item

theorem HasSection.describe {tags : List Tag} (h : HasSection tags) (number : Nat) :
    ∃ name, (describe number tags).section_ = some name := by
  obtain ⟨content, read, hlast, hread⟩ := h
  refine ⟨read.1, ?_⟩
  simp only [describe_eq, Reading.byKind, lastSelector?, last?_eq_some_iff.mpr hlast, Option.bind_some, hread, Option.map_some]

theorem recounted_of_le {n : Nat} {item : Item} (h : item.id ≤ n) : item.recounted n = item :=
  if_neg (Nat.not_lt_of_le h)

theorem recounted_later {n : Nat} {item : Item} (h : 0 < item.id) : (item.later n).recounted n = item := by
  have hlt : n < item.id + n := by omega
  simp only [Item.recounted, Item.later, if_pos hlt, Nat.add_sub_cancel]

theorem sectionKey_recounted (n : Nat) (item : Item) : sectionKey (item.recounted n) = sectionKey item := by
  unfold Item.recounted
  split
  · rfl
  · rfl

section
variable {s : Settings}

/-! ### Building -/

theorem buildSubitems_later (hs : s.config.selectorIds = true) (n : Nat) (item : Item) (base : Text) (ids : Registry)
    (plans : List Plan) : buildSubitems s (item.later n) base ids plans = buildSubitems s item base ids plans := by
  have hkey : ∀ selector index, subitemKey s.config (item.later n).id selector index =
      subitemKey s.config item.id selector index := by
    intro selector index
    simp only [subitemKey, hs, if_true]
  induction plans generalizing ids with
  | nil => rfl
  | cons plan rest ih =>
    have hfirst : buildSubitem s (item.later n) base ids plan = buildSubitem s item base ids plan := by
      simp only [buildSubitem, hkey]
      rfl
    simp only [buildSubitems, hfirst, ih]

theorem buildItem_later (hs : s.config.selectorIds = true) {tags : List Tag} (h : HasSection tags) (n : Nat)
    (ids : Registries) (number : Nat) :
    buildItem s ids (number + n) tags = (buildItem s ids number tags).map fun (item, ids) => (item.later n, ids) := by
  have hdescribe : describe (number + n) tags = (describe number tags).later n := by
    rw [describe_number number, Item.later, describe_id]
  have hanchor : anchorKey s.config ((describe number tags).later n) = anchorKey s.config (describe number tags) := by
    obtain ⟨name, hname⟩ := h.describe number
    simp only [anchorKey, Item.later, hname, Option.getD_some]
  have hbase : ((describe number tags).later n).base = (describe number tags).base := rfl
  have hplans : plans ((describe number tags).later n) tags = plans (describe number tags) tags := rfl
  simp only [buildItem, hdescribe, hanchor, hbase, hplans, buildSubitems_later hs]
  cases (describe number tags).base with
  | none => rfl
  | some base =>
    dsimp only
    cases buildSubitems s (describe number tags) base ids.subitems (plans (describe number tags) tags) with
    | error e => rfl
    | ok built => rfl

theorem buildItems_later (hs : s.config.selectorIds = true) {comments : List (List Tag)}
    (h : ∀ tags ∈ comments, HasSection tags) (n : Nat) (ids : Registries) (number : Nat) :
    buildItems s ids (number + n) comments =
      (buildItems s ids number comments).map fun (items, ids) => (items.map (Item.later n), ids) := by
  induction comments generalizing ids number with
  | nil => rfl
  | cons tags rest ih =>
    rw [buildItems, buildItems, buildItem_later hs (h tags List.mem_cons_self)]
    cases buildItem s ids number tags with
    | error e => rfl
    | ok built =>
      obtain ⟨item, ids₁⟩ := built
      have hrest := ih (fun t ht => h t (List.mem_cons_of_mem tags ht)) ids₁ (number + 1)
      rw [Nat.add_right_comm] at hrest
      simp only [Except.map, bind, Except.bind, hrest]
      cases buildItems s ids₁ (number + 1) rest with
      | error e => rfl
      | ok more => rfl

theorem buildItems_append (ids : Registries) (number : Nat) (first second : List (List Tag)) :
    buildItems s ids number (first ++ second) = do
      let (a, ids₁) ← buildItems s ids number first
      let (b, ids₂) ← buildItems s ids₁ (number + first.length) second
      return (a ++ b, ids₂) := by
  induction first generalizing ids number with
  | nil =>
    cases hsecond : buildItems s ids number second with
    | error e => simp [buildItems, hsecond, bind, Except.bind, pure, Except.pure]
    | ok built => simp [buildItems, hsecond, bind, Except.bind, pure, Except.pure]
  | cons tags rest ih =>
    rw [List.cons_append, buildItems, buildItems]
    cases buildItem s ids number tags with
    | error e => rfl
    | ok built =>
      obtain ⟨item, ids₁⟩ := built
      simp only [bind, Except.bind, ih, List.length_cons, Nat.add_assoc, Nat.add_comm 1]
      cases buildItems s ids₁ (number + 1) rest with
      | error e => rfl
      | ok more =>
        obtain ⟨a, ids₂⟩ := more
        dsimp only [pure, Except.pure]
        cases buildItems s ids₂ (number + (rest.length + 1)) second with
        | error e => rfl
        | ok last => rfl

/-- Builds two showcases one after the other and sorts the items of both. -/
def buildInTwo (s : Settings) (ids : Registries) (first second : List (List Tag)) :
    Except Rejected (List Item × Registries) := do
  let (a, ids₁) ← build s ids first
  let (b, ids₂) ← build s ids₁ second
  return (sortItems (a ++ b), ids₂)

theorem map_recounted {ids ids₁ ids₂ : Registries} {first second : List (List Tag)} {a b : List Item}
    (ha : buildItems s ids 1 first = .ok (a, ids₁)) (hb : buildItems s ids₁ 1 second = .ok (b, ids₂)) :
    (a ++ b.map (Item.later first.length)).map (Item.recounted first.length) = a ++ b := by
  have hfirst : ∀ item ∈ a, item.id ≤ first.length := by
    intro item hitem
    have hid : item.id ∈ List.range' 1 first.length := buildItems_ids ha ▸ List.mem_map_of_mem hitem
    rw [List.mem_range'_1] at hid
    omega
  have hsecond : ∀ item ∈ b, 0 < item.id := by
    intro item hitem
    have hid : item.id ∈ List.range' 1 second.length := buildItems_ids hb ▸ List.mem_map_of_mem hitem
    exact (List.mem_range'_1.mp hid).1
  rw [List.map_append, List.map_map]
  congr 1
  · exact (List.map_congr_left fun item hitem => recounted_of_le (hfirst item hitem)).trans (List.map_id a)
  · exact (List.map_congr_left fun item hitem => recounted_later (hsecond item hitem)).trans (List.map_id b)

/-- A showcase that is built in two goes is the showcase of all the comments, with the numbers of the second go
    counted from one again; and it is refused where that is. The identifiers handed out are the same. -/
theorem buildInTwo_eq (hs : s.config.selectorIds = true) {second : List (List Tag)}
    (h : ∀ tags ∈ second, HasSection tags) (ids : Registries) (first : List (List Tag)) :
    buildInTwo s ids first second =
      (build s ids (first ++ second)).map fun (items, ids) => (items.map (Item.recounted first.length), ids) := by
  rw [buildInTwo, build, build, buildItems_append]
  cases ha : buildItems s ids 1 first with
  | error e => rfl
  | ok built =>
    obtain ⟨a, ids₁⟩ := built
    have hlater := buildItems_later hs h first.length ids₁ 1
    simp only [bind, Except.bind, pure, Except.pure, build, hlater]
    cases hb : buildItems s ids₁ 1 second with
    | error e => rfl
    | ok built =>
      obtain ⟨b, ids₂⟩ := built
      have hsorted : sortItems (sortItems a ++ sortItems b) =
          (sortItems (a ++ b.map (Item.later first.length))).map (Item.recounted first.length) := by
        rw [sortItems_append_sortItems, ← sortItems_map (sectionKey_recounted first.length), map_recounted ha hb]
      exact congrArg (fun items => Except.ok (items, ids₂)) hsorted

end

/-- A link and a list, of two sections. -/
def earlierComments : List (List Tag) :=
  [[⟨"section".text, "text Links".text⟩, ⟨"base".text, "a".text⟩], [⟨"section".text, "lists".text⟩, ⟨"base".text, "ul".text⟩]]

/-- Another list, whose section and base are named already. -/
def laterComments : List (List Tag) := [[⟨"base".text, "ul".text⟩, ⟨"section".text, "lists".text⟩]]

theorem buildInTwo_lists : (∀ tags ∈ laterComments, HasSection tags) ∧
    (buildItems {} {} 1 (earlierComments ++ laterComments)).toOption.map (·.1.map (·.anchor)) =
      some ["section_text".text, "section_lists".text, "section_lists_1".text] ∧
    buildInTwo {} {} earlierComments laterComments =
      (build {} {} (earlierComments ++ laterComments)).map fun (items, ids) => (items.map (Item.recounted 2), ids) := by
  have hsection : ∀ tags ∈ laterComments, HasSection tags := by
    simp only [laterComments, List.forall_mem_singleton]
    exact ⟨"lists".text, _, ⟨[_], [], rfl, by simp⟩, rfl⟩
  exact ⟨hsection, by decide +kernel, buildInTwo_eq rfl hsection {} earlierComments⟩

end Showcase
end Stylebook
