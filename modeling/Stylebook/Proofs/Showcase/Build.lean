import Stylebook.Proofs.Basic
import Stylebook.Showcase.Build

/-! What building does, step by step: each part of a showcase that was built tells the claims it made and
    the facts it was made from. -/

namespace Stylebook
namespace Showcase

open Doc (Tag)
open Identifier (Registry)
open Markup (Rejected)
open Variant (Settings State)

variable {s : Settings}

theorem buildSubitem_eq_ok {item : Item} {base : Text} {ids ids' : Registry} {plan : Plan} {sub : Subitem}
    (h : buildSubitem s item base ids plan = .ok (sub, ids')) :
    ids.claim (subitemKey s.config item.id (base ++ plan.modifier.getD []) plan.index) = (sub.id, ids') ∧
      sub.anchor = sub.id ∧ sub.base = base ∧ sub.modifier = plan.modifier ∧
      sub.selector = base ++ plan.modifier.getD [] ∧ sub.description = plan.description := by
  unfold buildSubitem at h
  obtain ⟨shown, -, h⟩ := ok_of_bind h
  obtain ⟨presented, -, h⟩ := ok_of_bind h
  cases h
  exact ⟨rfl, rfl, rfl, rfl, rfl, rfl⟩

theorem buildSubitems_cons {item : Item} {base : Text} {ids ids' : Registry} {plan : Plan} {rest : List Plan}
    {subs : List Subitem} (h : buildSubitems s item base ids (plan :: rest) = .ok (subs, ids')) :
    ∃ sub ids₁ more, subs = sub :: more ∧ buildSubitem s item base ids plan = .ok (sub, ids₁) ∧
      buildSubitems s item base ids₁ rest = .ok (more, ids') := by
  rw [buildSubitems] at h
  obtain ⟨⟨sub, ids₁⟩, hsub, h⟩ := ok_of_bind h
  obtain ⟨⟨more, ids₂⟩, hmore, h⟩ := ok_of_bind h
  cases h
  exact ⟨sub, ids₁, more, rfl, hsub, hmore⟩

theorem buildItem_eq_ok {ids ids' : Registries} {number : Nat} {tags : List Tag} {item : Item}
    (h : buildItem s ids number tags = .ok (item, ids')) :
    ids.anchors.claim (anchorKey s.config (describe number tags)) = (item.anchor, ids'.anchors) ∧
      item = { describe number tags with anchor := item.anchor, subitems := item.subitems } ∧
      ((item.base = none ∧ item.subitems = [] ∧ ids'.subitems = ids.subitems) ∨
        ∃ base, item.base = some base ∧
          buildSubitems s (describe number tags) base ids.subitems (plans (describe number tags) tags) =
            .ok (item.subitems, ids'.subitems)) := by
  unfold buildItem at h
  dsimp only at h
  split at h
  · rename_i base hbase
    obtain ⟨⟨subs, subIds⟩, hsubs, h⟩ := ok_of_bind h
    cases h
    exact ⟨rfl, rfl, .inr ⟨base, hbase, hsubs⟩⟩
  · rename_i hbase
    cases h
    exact ⟨rfl, rfl, .inl ⟨hbase, rfl, rfl⟩⟩

theorem buildItems_cons {ids ids' : Registries} {number : Nat} {tags : List Tag} {rest : List (List Tag)}
    {items : List Item} (h : buildItems s ids number (tags :: rest) = .ok (items, ids')) :
    ∃ item ids₁ more, items = item :: more ∧ buildItem s ids number tags = .ok (item, ids₁) ∧
      buildItems s ids₁ (number + 1) rest = .ok (more, ids') := by
  rw [buildItems] at h
  obtain ⟨⟨item, ids₁⟩, hitem, h⟩ := ok_of_bind h
  obtain ⟨⟨more, ids₂⟩, hmore, h⟩ := ok_of_bind h
  cases h
  exact ⟨item, ids₁, more, rfl, hitem, hmore⟩

theorem build_eq_ok {ids ids' : Registries} {comments : List (List Tag)} {sorted : List Item}
    (h : build s ids comments = .ok (sorted, ids')) :
    ∃ items, buildItems s ids 1 comments = .ok (items, ids') ∧ sorted = sortItems items := by
  unfold build at h
  obtain ⟨⟨items, ids₁⟩, hitems, h⟩ := ok_of_bind h
  cases h
  exact ⟨items, hitems, rfl⟩

end Showcase
end Stylebook
