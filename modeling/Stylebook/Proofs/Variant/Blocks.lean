import Mathlib.Data.List.Nodup
import Mathlib.Data.List.Pairwise
import Stylebook.Proofs.Variant.Reference

/-! The ids of state blocks. Every block is made from the same fragment, and its ids are those of the fragment with
    the suffix of its state behind them. So ids of different blocks meet just where two states have one suffix, or
    where an id of the fragment goes on from another one by a whole suffix, or by what a suffix has in front of another
    one. -/

namespace Stylebook

namespace Markup

/-- The ids of nodes, in document order. -/
def ids (nodes : List Node) : List Text := (elements nodes).filterMap (·.attributeText? "id".text)

theorem ids_mapLineages {f : Selector.Lineage → Element → Element} {g : Text → Text}
    (h : ∀ lineage e, (f lineage e).attributeText? "id".text = (e.attributeText? "id".text).map g)
    (above : Selector.Lineage) (seen : Bool) (nodes : List Node) :
    ids (Selector.mapLineages f above seen nodes) = (ids nodes).map g := by
  rw [ids, ids]
  fun_induction Selector.mapLineages f above seen nodes with
  | case1 => rw [elements, List.filterMap_nil, List.map_nil]
  | case2 above seen e children rest lineage ihchildren ihrest =>
    rw [elements, elements, List.filterMap_cons, List.filterMap_cons, List.filterMap_append, List.filterMap_append,
      ihchildren, ihrest, h, ← List.map_append]
    cases e.attributeText? "id".text <;> rfl
  | case3 above seen n rest hn ih =>
    rw [elements, elements, ih]
    · exact hn
    · exact hn

end Markup

namespace Variant

open Markup (Element Node ids)
open Selector (Part Lineage mapLineages)

/-! ### Ids under parts -/

/-- The attribute that a part writes. -/
def writes? : Part → Option Text
  | .id _ => some "id".text
  | .className _ => some "class".text
  | .attribute name _ => some name
  | .pseudo name _ => some name
  | _ => none

theorem attributeText?_applyPart {name : Text} {part : Part} (h : writes? part ≠ some name) (again : Bool)
    (e : Element) : (applyPart again e part).attributeText? name = e.attributeText? name := by
  have hne : ∀ {other : Text}, writes? part = some other → name ≠ other := by
    rintro other hother rfl
    exact h hother
  fun_cases applyPart again e part with
  | case1 name => exact Element.attributeText?_set_of_ne (hne rfl) e _
  | case2 name => exact Element.attributeText?_set_of_ne (hne rfl) e _
  | case3 name value => exact Element.attributeText?_set_of_ne (hne rfl) e _
  | case4 name argument => exact Element.attributeText?_set_of_ne (hne rfl) e _
  | case5 => rfl

theorem attributeText?_applyParts {name : Text} {parts : List Part} (h : ∀ part ∈ parts, writes? part ≠ some name)
    (again : Bool) (e : Element) : (applyParts again parts e).attributeText? name = e.attributeText? name := by
  induction parts generalizing e with
  | nil => rfl
  | cons part parts ih =>
    calc (applyParts again parts (applyPart again e part)).attributeText? name
        = (applyPart again e part).attributeText? name := ih (fun p hp => h p (List.mem_cons_of_mem part hp)) _
      _ = e.attributeText? name := attributeText?_applyPart (h part List.mem_cons_self) again e

theorem ids_withParts {modifier : Text} (h : ∀ part ∈ modifierParts modifier, writes? part ≠ some "id".text)
    (base : Option Text) (above : Lineage) (nodes : List Node) : ids (withParts base modifier above nodes) = ids nodes := by
  have hkept : ∀ lineage e, (change (modifierParts modifier) none (chosen base lineage) e).attributeText? "id".text =
      (e.attributeText? "id".text).map id := by
    intro lineage e
    rw [change, Option.map_id_apply]
    split
    · exact attributeText?_applyParts h _ e
    · rfl
  rw [withParts, Markup.ids_mapLineages hkept, List.map_id]

theorem ids_rewriteUnique (suffix : Text) (nodes : List Node) :
    ids (rewriteUnique suffix nodes) = (ids nodes).map (· ++ suffix) :=
  Markup.ids_mapLineages (fun _ => attributeText?_id_suffixUnique suffix) [] false nodes

/-! ### Blocks -/

/-- The nodes of the block of a state. -/
def stateNodes (config : Config) (base : Option Text) (above : Lineage) (nodes : List Node) (state : State) :
    List Node :=
  rewriteUnique (suffixOf config (state.state.getD [])) (withParts base (state.state.getD []) above nodes)

/-- A block with the glue in front; nothing, if it is empty. -/
def glued (glue : Text) (block : List Node) : Text :=
  if (Markup.write block).isEmpty then [] else glue ++ Markup.write block

theorem withStates_eq_ok {s : Settings} (hhook : s.hook = none) (hunique : s.config.statesModifyUnique = true)
    {markup : Text} {above : Lineage} {nodes : List Node} (hread : fragment markup = .ok (above, nodes))
    (isPresentation : Bool) (base : Option Text) (states : List State) :
    withStates s isPresentation markup base states = .ok (markup ++
      (states.map (stateNodes s.config base above nodes)).flatMap (glued s.config.statesGlue)) := by
  have hblock : ∀ state, stateBlock s isPresentation markup base state =
      .ok (glued s.config.statesGlue (stateNodes s.config base above nodes state)) := by
    intro state
    rw [stateBlock, hunique, modified_unique hhook hread]
    rfl
  have hblocks : stateBlocks s isPresentation markup base states = .ok
      ((states.map (stateNodes s.config base above nodes)).flatMap (glued s.config.statesGlue)) := by
    induction states with
    | nil => rfl
    | cons state rest ih =>
      rw [stateBlocks, hblock, ih]
      rfl
  rw [withStates, hblocks]
  rfl

/-! ### Ids of all blocks -/

/-- Two texts are the same with different endings only if one of them goes on from the other by what the ending of the
    other has in front of its own. -/
theorem append_eq_append_cases {a b s t : Text} (h : a ++ s = b ++ t) (hne : s ≠ t) :
    ∃ p, p ≠ [] ∧ (b = a ++ p ∧ s = p ++ t ∨ a = b ++ p ∧ t = p ++ s) := by
  rcases List.append_eq_append_iff.mp h with ⟨p, hb, hs⟩ | ⟨p, ha, ht⟩
  · refine ⟨p, ?_, .inl ⟨hb, hs⟩⟩
    rintro rfl
    exact hne hs
  · refine ⟨p, ?_, .inr ⟨ha, ht⟩⟩
    rintro rfl
    exact hne ht.symm

theorem nodup_endings_iff {texts endings : List Text} : (endings.flatMap fun s => texts.map (· ++ s)).Nodup ↔
    (endings ≠ [] → texts.Nodup) ∧ (texts ≠ [] → endings.Nodup) ∧
      ∀ a ∈ texts, ∀ b ∈ texts, ∀ s ∈ endings, ∀ t ∈ endings, ∀ p, p ≠ [] → s = p ++ t → b ≠ a ++ p := by
  rw [List.nodup_flatMap]
  constructor
  · rintro ⟨hblock, hpairwise⟩
    refine ⟨fun hne => ?_, fun hne => ?_, ?_⟩
    · obtain ⟨s, hs⟩ := List.exists_mem_of_ne_nil _ hne
      exact (hblock s hs).of_map _
    · obtain ⟨a, ha⟩ := List.exists_mem_of_ne_nil _ hne
      refine hpairwise.imp fun {s t} hdisjoint => ?_
      rintro rfl
      exact hdisjoint (List.mem_map_of_mem ha) (List.mem_map_of_mem ha)
    · rintro a ha b hb s hs t ht p hp rfl rfl
      have hsymm : Std.Symm (Function.onFun List.Disjoint fun s => texts.map (· ++ s)) :=
        ⟨fun _ _ hdisjoint _ hu hu' => hdisjoint hu' hu⟩
      have hne : p ++ t ≠ t := fun hsame => hp (List.append_left_eq_self.mp hsame)
      have hdisjoint : List.Disjoint (texts.map (· ++ (p ++ t))) (texts.map (· ++ t)) := hpairwise.forall hs ht hne
      exact hdisjoint (List.mem_map_of_mem ha) (List.mem_map.mpr ⟨_, hb, List.append_assoc a p t⟩)
  · rintro ⟨htexts, hendings, hapart⟩
    refine ⟨fun s hs => (htexts (List.ne_nil_of_mem hs)).map fun a b => List.append_cancel_right, ?_⟩
    by_cases hnil : texts = []
    · exact List.pairwise_of_forall fun s t u hu => by simp [hnil] at hu
    refine (hendings hnil).imp_of_mem fun {s t} hs ht hne => ?_
    show List.Disjoint (texts.map (· ++ s)) (texts.map (· ++ t))
    intro u hu hu'
    obtain ⟨a, ha, rfl⟩ := List.mem_map.mp hu
    obtain ⟨b, hb, heq⟩ := List.mem_map.mp hu'
    obtain ⟨p, hp, ⟨hon, hrest⟩ | ⟨hon, hrest⟩⟩ := append_eq_append_cases heq.symm hne
    · exact hapart a ha b hb s hs t ht p hp hrest hon
    · exact hapart b hb a ha t ht s hs p hp hrest hon

/-- Where no state writes ids, the ids of the first block and of all state blocks are different from one another exactly
    if those of the fragment are, the states have different identifiers (where there are ids at all), and no id of the
    fragment goes on from another one by a whole suffix, or by what a suffix has in front of another one. -/
theorem withStates_ids_nodup {s : Settings} (hhook : s.hook = none) (hunique : s.config.statesModifyUnique = true)
    {markup : Text} {above : Lineage} {nodes : List Node} (hread : fragment markup = .ok (above, nodes))
    (isPresentation : Bool) (base : Option Text) {states : List State}
    (hwrites : ∀ state ∈ states, ∀ part ∈ modifierParts (state.state.getD []), writes? part ≠ some "id".text) :
    withStates s isPresentation markup base states = .ok (markup ++
      (states.map (stateNodes s.config base above nodes)).flatMap (glued s.config.statesGlue)) ∧
    ((ids nodes ++ (states.map (stateNodes s.config base above nodes)).flatMap ids).Nodup ↔
      (ids nodes).Nodup ∧
      (ids nodes ≠ [] → (states.map fun state => suffixOf s.config (state.state.getD [])).Nodup) ∧
      ∀ a ∈ ids nodes, ∀ b ∈ ids nodes, ∀ state ∈ states,
        ∀ rest ∈ [] :: states.map fun state => suffixOf s.config (state.state.getD []),
          ∀ p, p ≠ [] → suffixOf s.config (state.state.getD []) = p ++ rest → b ≠ a ++ p) := by
  refine ⟨withStates_eq_ok hhook hunique hread isPresentation base states, ?_⟩
  have hblocks : (states.map (stateNodes s.config base above nodes)).flatMap ids =
      (states.map fun state => suffixOf s.config (state.state.getD [])).flatMap fun suffix =>
        (ids nodes).map (· ++ suffix) := by
    rw [List.flatMap_map, List.flatMap_map]
    refine List.flatMap_congr fun state hstate => ?_
    rw [stateNodes, ids_rewriteUnique, ids_withParts (hwrites state hstate)]
  -- the first block is one more block, with the empty ending
  have hfirst : ids nodes ++ (states.map (stateNodes s.config base above nodes)).flatMap ids =
      ([] :: states.map fun state => suffixOf s.config (state.state.getD [])).flatMap fun suffix =>
        (ids nodes).map (· ++ suffix) := by
    simp [hblocks]
  have hnew : [] ∉ states.map fun state => suffixOf s.config (state.state.getD []) := by
    simp [suffixOf]
  rw [hfirst, nodup_endings_iff, List.nodup_cons, and_iff_right hnew]
  refine and_congr (by simp) (and_congr Iff.rfl ?_)
  refine forall₂_congr fun a _ => forall₂_congr fun b _ => ?_
  rw [List.forall_mem_cons, List.forall_mem_map]
  refine and_iff_right fun t _ p hp hsame => ?_
  exact absurd (List.append_eq_nil_iff.mp hsame.symm).1 hp

/-- Two fields, the second with an id that goes on from the first one the way every suffix begins, and two states. -/
def pairNodes : List Node :=
  [.element ⟨"i".text, [("id".text, .plain "x".text)]⟩ [], .element ⟨"b".text, [("id".text, .plain "x_".text)]⟩ []]

def pairStates : List State := [⟨some ":hover".text, none⟩, ⟨some ".on".text, none⟩]

theorem withStates_ids_nodup_pair :
    fragment "<i id=x></i><b id=x_></b>".text = .ok ([wrapperPlace], pairNodes) ∧
    (∀ state ∈ pairStates, ∀ part ∈ modifierParts (state.state.getD []), writes? part ≠ some "id".text) ∧
    (ids pairNodes ++ (pairStates.map (stateNodes {} (some "b".text) [wrapperPlace] pairNodes)).flatMap ids).Nodup ∧
    (pairStates.map (stateNodes {} (some "b".text) [wrapperPlace] pairNodes)).flatMap ids =
      ["x__hover".text, "x___hover".text, "x__on".text, "x___on".text] := by
  have hread : fragment "<i id=x></i><b id=x_></b>".text = .ok ([wrapperPlace], pairNodes) := by
    with_unfolding_all rfl
  have hwrites : ∀ state ∈ pairStates, ∀ part ∈ modifierParts (state.state.getD []), writes? part ≠ some "id".text := by
    decide +kernel
  have hids : ids pairNodes = ["x".text, "x_".text] := by
    simp only [ids, Markup.elements, pairNodes]
    decide
  -- what an id has behind another one is not all that a suffix has in front of another suffix
  have hapart : ∀ a ∈ ["x".text, "x_".text], ∀ b ∈ ["x".text, "x_".text], ∀ state ∈ pairStates,
      ∀ rest ∈ [] :: pairStates.map fun state => suffixOf {} (state.state.getD []), b.drop a.length ≠ [] →
        suffixOf {} (state.state.getD []) = b.drop a.length ++ rest → b ≠ a ++ b.drop a.length := by
    decide +kernel
  have hnodup := @withStates_ids_nodup {} rfl rfl _ _ _ hread false (some "b".text) pairStates hwrites
  refine ⟨hread, hwrites, hnodup.2.mpr ?_, ?_⟩
  · rw [hids]
    refine ⟨by decide, fun _ => by decide +kernel, fun a ha b hb state hstate rest hrest p hp hsuffix hon => ?_⟩
    obtain rfl : p = b.drop a.length := by rw [hon, List.drop_left]
    exact hapart a ha b hb state hstate rest hrest hp hsuffix hon
  · simp only [pairStates, List.map_cons, List.map_nil, List.flatMap_cons, List.flatMap_nil, stateNodes,
      ids_rewriteUnique]
    rw [ids_withParts (by decide +kernel), ids_withParts (by decide +kernel), hids]
    decide +kernel

/-- One field, and two states of it that have one identifier. -/
def fieldWithId : List Node := [.element ⟨"i".text, [("id".text, .plain "x".text)]⟩ []]

def likeStates : List State := [⟨some ":hover".text, none⟩, ⟨some ".hover".text, none⟩]

/-- The blocks of two states with one identifier share their ids. -/
theorem withStates_ids_meet :
    fragment "<i id=x></i>".text = .ok ([wrapperPlace], fieldWithId) ∧ (ids fieldWithId).Nodup ∧
    (likeStates.map (·.state)).Nodup ∧
    (∀ state ∈ likeStates, ∀ part ∈ modifierParts (state.state.getD []), writes? part ≠ some "id".text) ∧
    withStates {} false "<i id=x></i>".text none likeStates =
      .ok "<i id=x></i>\n<i id=\"x__hover\"></i>\n<i id=\"x__hover\"></i>".text ∧
    ¬(ids fieldWithId ++ (likeStates.map (stateNodes {} none [wrapperPlace] fieldWithId)).flatMap ids).Nodup := by
  have hread : fragment "<i id=x></i>".text = .ok ([wrapperPlace], fieldWithId) := by with_unfolding_all rfl
  have hids : ids fieldWithId = ["x".text] := by
    simp only [ids, Markup.elements, fieldWithId]
    decide
  refine ⟨hread, by rw [hids]; decide, by decide, by decide +kernel, ?_, ?_⟩
  · rw [withStates_eq_ok rfl rfl hread]
    simp only [likeStates, List.map_cons, List.map_nil, stateNodes, withParts, rewriteUnique, mapLineages,
      fieldWithId]
    decide +kernel
  · simp only [likeStates, List.map_cons, List.map_nil, List.flatMap_cons, List.flatMap_nil, stateNodes,
      ids_rewriteUnique]
    rw [ids_withParts (by decide +kernel), ids_withParts (by decide +kernel), hids]
    decide +kernel

end Variant
end Stylebook
