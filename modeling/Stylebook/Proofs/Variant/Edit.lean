import Stylebook.Proofs.Markup.Reading
import Stylebook.Proofs.Selector.Address
import Stylebook.Variant

/-! The variant of written markup is what an edit of its tree is written as. The edit works on the tree alone:
    the elements that the base selector finds take on the parts of the modifier, and then every `id` and `for`
    value gets the suffix. That the markup is left as it is where nothing is to do makes no difference. -/

namespace Stylebook

namespace Selector

open Markup (Element Node)

/-! ### Maps over lineages -/

/-- Only what is done to the elements of the nodes matters. -/
theorem mapLineages_congr {f g : Lineage → Element → Element} {above : Lineage} {seen : Bool} {nodes : List Node}
    (h : ∀ p rest, p :: rest ∈ lineages above seen nodes → f (p :: rest) p.element = g (p :: rest) p.element) :
    mapLineages f above seen nodes = mapLineages g above seen nodes := by
  fun_induction mapLineages f above seen nodes with
  | case1 => rw [mapLineages]
  | case2 above seen e children rest lineage ihchildren ihrest =>
    have hhead : f lineage e = g lineage e := h _ _ (by simp [lineages])
    have hchildren := ihchildren fun p more hp => h p more (by simp [lineages, lineage, hp])
    have hrest := ihrest fun p more hp => h p more (by simp [lineages, hp])
    rw [mapLineages, hhead, hchildren, hrest]
  | case3 above seen n rest hn ih =>
    have hrest := ih fun p more hp => h p more (by rwa [lineages]; exact hn)
    rw [mapLineages, hrest]
    exact hn

theorem mapLineages_self (above : Lineage) (seen : Bool) (nodes : List Node) :
    mapLineages (fun _ e => e) above seen nodes = nodes := by
  fun_induction mapLineages (fun _ e => e) above seen nodes with
  | case1 => rfl
  | case2 above seen e children rest lineage ihchildren ihrest => rw [ihchildren, ihrest]
  | case3 above seen n rest hn ih => rw [ih]

end Selector

namespace Markup

/-! ### Attributes with one name each -/

theorem Attributes.names_set (name : Text) (value : Value) (attrs : Attributes) :
    (Attributes.set name value attrs).map Prod.fst =
      if name ∈ attrs.map Prod.fst then attrs.map Prod.fst else attrs.map Prod.fst ++ [name] := by
  induction attrs with
  | nil => rfl
  | cons a attrs ih =>
    rw [Attributes.set]
    split
    · rename_i heq
      simp [heq]
    · rename_i hne
      rw [List.map_cons, ih]
      split <;> rename_i hin <;> simp_all [Ne.symm hne]

theorem Attributes.nodup_set {name : Text} {value : Value} {attrs : Attributes} (h : (attrs.map Prod.fst).Nodup) :
    ((Attributes.set name value attrs).map Prod.fst).Nodup := by
  rw [Attributes.names_set]
  split
  · exact h
  · rename_i hnot
    rw [List.nodup_append]
    refine ⟨h, by simp, fun n hn m hm => ?_⟩
    rw [List.mem_singleton] at hm
    exact fun heq => hnot (hm ▸ heq ▸ hn)

/-- To set an attribute to what its value becomes is to change this value alone. -/
theorem Attributes.set_get? {attrs : Attributes} (h : (attrs.map Prod.fst).Nodup) {name : Text} {v : Value}
    (hv : Attributes.get? attrs name = some v) (g : Value → Value) :
    Attributes.set name (g v) attrs = attrs.map fun a => if a.1 = name then (a.1, g a.2) else a := by
  induction attrs with
  | nil => cases hv
  | cons a attrs ih =>
    obtain ⟨n, w⟩ := a
    obtain ⟨hfresh, hrest⟩ : n ∉ attrs.map Prod.fst ∧ (attrs.map Prod.fst).Nodup := List.nodup_cons.mp h
    rw [Attributes.get?, List.lookup_cons] at hv
    by_cases hn : n = name
    · subst hn
      have hothers : ∀ a ∈ attrs, (if a.1 = n then (a.1, g a.2) else a) = a := by
        intro a ha
        refine if_neg fun heq => hfresh ?_
        rw [← heq]
        exact List.mem_map_of_mem ha
      rw [beq_self_eq_true] at hv
      cases hv
      rw [Attributes.set, if_pos rfl, List.map_cons, if_pos rfl, List.map_congr_left hothers, List.map_id']
    · rw [beq_eq_false_iff_ne.mpr (Ne.symm hn)] at hv
      rw [Attributes.set, if_neg hn, List.map_cons, if_neg hn, ih hrest hv]

theorem Attributes.map_of_get?_eq_none {attrs : Attributes} {name : Text} (h : Attributes.get? attrs name = none)
    (g : Value → Value) : (attrs.map fun a => if a.1 = name then (a.1, g a.2) else a) = attrs := by
  have hothers : ∀ a ∈ attrs, (if a.1 = name then (a.1, g a.2) else a) = a := by
    intro a ha
    refine if_neg fun heq => ?_
    have hne := List.lookup_eq_none_iff.mp h a ha
    simp [heq] at hne
  rw [List.map_congr_left hothers, List.map_id']

end Markup

namespace Variant

open Markup (Attributes Element Node Canonical)
open Selector (Part Place Lineage lineages mapLineages)

/-! ### Parts and suffixes -/

theorem nodup_applyPart {again : Bool} {part : Part} {e : Element} (h : (e.attributes.map Prod.fst).Nodup) :
    ((applyPart again e part).attributes.map Prod.fst).Nodup := by
  fun_cases applyPart again e part with
  | case1 name => exact Attributes.nodup_set h
  | case2 name => exact Attributes.nodup_set h
  | case3 name value => exact Attributes.nodup_set h
  | case4 name argument => exact Attributes.nodup_set h
  | case5 => exact h

theorem nodup_applyParts {again : Bool} {parts : List Part} {e : Element} (h : (e.attributes.map Prod.fst).Nodup) :
    ((applyParts again parts e).attributes.map Prod.fst).Nodup := by
  induction parts generalizing e with
  | nil => exact h
  | cons part parts ih => exact ih (nodup_applyPart h)

/-- An attribute with a text behind the value that has to stay unique. -/
def suffixed (suffix : Text) (a : Text × Markup.Value) : Text × Markup.Value :=
  if a.1 = "id".text ∨ a.1 = "for".text then (a.1, .plain (a.2.text ++ suffix)) else a

theorem appendTo_attributes {suffix name : Text} {e : Element} (h : (e.attributes.map Prod.fst).Nodup) :
    appendTo suffix e name = ⟨e.name, e.attributes.map fun a =>
      if a.1 = name then (a.1, .plain (a.2.text ++ suffix)) else a⟩ := by
  rw [appendTo, Element.attributeText?, Element.get?]
  cases hv : Attributes.get? e.attributes name with
  | none => rw [Attributes.map_of_get?_eq_none hv fun v => .plain (v.text ++ suffix)]; rfl
  | some v => rw [← Attributes.set_get? h hv fun v => .plain (v.text ++ suffix)]; rfl

theorem suffixUnique_eq {suffix : Text} {e : Element} (h : (e.attributes.map Prod.fst).Nodup) :
    suffixUnique suffix e = ⟨e.name, e.attributes.map (suffixed suffix)⟩ := by
  have hid : (appendTo suffix e "id".text).attributes.map Prod.fst = e.attributes.map Prod.fst := by
    rw [appendTo_attributes h, List.map_map]
    refine List.map_congr_left fun a _ => ?_
    dsimp only [Function.comp]
    split <;> rfl
  have hne : "id".text ≠ "for".text := by decide
  rw [suffixUnique, appendTo_attributes (hid ▸ h), appendTo_attributes h, List.map_map]
  refine congrArg (Element.mk e.name) (List.map_congr_left fun a _ => ?_)
  dsimp only [Function.comp, suffixed]
  by_cases ha : a.1 = "id".text
  · simp [ha, hne]
  · simp [ha]

/-! ### The edit of a tree -/

/-- The wrapper as the place around a fragment. -/
def wrapperPlace : Place := ⟨⟨wrapperName, []⟩, true, true⟩

/-- The lineages of the elements of a fragment that a selector finds; none, if it cannot be read. -/
def found (base : Text) (nodes : List Node) : List Lineage :=
  (Selector.select base [wrapperPlace] nodes).toOption.getD []

/-- The elements that the base selector finds take on the parts of the modifier. -/
def modifyFound (base modifier : Text) (nodes : List Node) : List Node :=
  let parts := modifierParts modifier
  mapLineages (fun lineage e => if lineage ∈ found base nodes then applyParts (parts.any isTag) parts e else e)
    [wrapperPlace] false nodes

/-- Every `id` and `for` value gets a text behind it. -/
def suffixValues (suffix : Text) : List Node → List Node
  | [] => []
  | .element e children :: rest =>
    .element ⟨e.name, e.attributes.map (suffixed suffix)⟩ (suffixValues suffix children) :: suffixValues suffix rest
  | n :: rest => n :: suffixValues suffix rest

/-- The variant of a fragment, made on its tree. -/
def edit (config : Config) (unique : Bool) (base modifier : Text) (nodes : List Node) : List Node :=
  let nodes := modifyFound base modifier nodes
  if unique then suffixValues ('_' :: Identifier.ofSelector config.collapseIds modifier) nodes else nodes

/-- Lineages that are the same are found together, so the lineage tells whether an element is found. -/
theorem mem_found {base : Text} {nodes : List Node} {lineage : Lineage}
    (h : lineage ∈ lineages [wrapperPlace] false nodes) : lineage ∈ found base nodes ↔ chosen (some base) lineage = true := by
  rw [found, chosen, Selector.select]
  cases hparse : Selector.parse base with
  | error e => simp [hparse, Except.map, Except.toOption]
  | ok groups => simp [hparse, Except.map, Except.toOption, h]

theorem suffixValues_mapLineages {suffix : Text} {f : Lineage → Element → Element} {above : Lineage} {seen : Bool}
    (nodes : List Node) : suffixValues suffix (mapLineages f above seen nodes) =
      mapLineages (fun lineage e => ⟨(f lineage e).name, (f lineage e).attributes.map (suffixed suffix)⟩) above seen
        nodes := by
  fun_induction mapLineages f above seen nodes with
  | case1 => rw [suffixValues, mapLineages]
  | case2 above seen e children rest lineage ihchildren ihrest => rw [suffixValues, ihchildren, ihrest, mapLineages]
  | case3 above seen n rest hn ih =>
    rw [suffixValues, ih, mapLineages]
    · exact hn
    · exact hn

theorem nodup_of_mem_lineages {nodes : List Node} (h : Canonical nodes) {above : Lineage} {seen : Bool} {p : Place}
    {more : Lineage} (hp : p :: more ∈ lineages above seen nodes) : (p.element.attributes.map Prod.fst).Nodup := by
  induction h generalizing above seen with
  | nil => simp [lineages] at hp
  | text ht hnext hrest ih =>
    rw [lineages] at hp
    · exact ih hp
    · simp
  | element he hvoid hchildren hrest ihchildren ih =>
    rw [lineages, List.mem_cons, List.mem_append] at hp
    rcases hp with hp | hp | hp
    · cases hp
      exact he.nodup
    · exact ihchildren hp
    · exact ih hp

/-- The suffix of unique attributes, if they get one. -/
def suffix? (config : Config) (unique : Bool) (modifier : Text) : Option Text :=
  if unique then some ('_' :: Identifier.ofSelector config.collapseIds modifier) else none

/-- The two passes of the edit as one. -/
theorem edit_eq_mapLineages {nodes : List Node} (h : Canonical nodes) (config : Config) (unique : Bool)
    (base modifier : Text) : edit config unique base modifier nodes =
      mapLineages (fun lineage e => change (modifierParts modifier) (suffix? config unique modifier)
        (chosen (some base) lineage) e) [wrapperPlace] false nodes := by
  have hmodify : ∀ p more, p :: more ∈ lineages [wrapperPlace] false nodes →
      (if p :: more ∈ found base nodes then
        applyParts ((modifierParts modifier).any isTag) (modifierParts modifier) p.element else p.element) =
      change (modifierParts modifier) none (chosen (some base) (p :: more)) p.element := by
    intro p more hp
    simp only [change, mem_found hp]
  cases unique with
  | false =>
    exact Selector.mapLineages_congr hmodify
  | true =>
    rw [edit, if_pos rfl, modifyFound, suffixValues_mapLineages]
    refine Selector.mapLineages_congr fun p more hp => ?_
    rw [hmodify p more hp]
    -- a name that stands once stays so, and then setting it and changing its value in place are the same
    have hnodup : ((change (modifierParts modifier) none (chosen (some base) (p :: more)) p.element).attributes.map
        Prod.fst).Nodup := by
      rw [change]
      split
      · exact nodup_applyParts (nodup_of_mem_lineages h hp)
      · exact nodup_of_mem_lineages h hp
    exact (suffixUnique_eq hnodup).symm

/-! ### Written fragments -/

theorem wrap_write (nodes : List Node) :
    wrap (Markup.write nodes) = Markup.write [.element ⟨wrapperName, []⟩ nodes] := by
  rw [Markup.write_element (by decide) (by decide)]
  simp [wrap, Markup.writeOpening, Markup.writeClosing, Markup.write, Markup.writeNodes]

theorem canonical_wrapped {nodes : List Node} (h : Canonical nodes) :
    Canonical [.element ⟨wrapperName, []⟩ nodes] :=
  .element (by decide +kernel) (fun hvoid => absurd hvoid (by decide +kernel)) h .nil

/-- Between the tags of the wrapper a canonical fragment is read as it was written, and nothing else is. -/
theorem parse_wrap_write {nodes : List Node} (h : Canonical nodes) :
    Markup.parse (wrap (Markup.write nodes)) = .ok [.element ⟨wrapperName, []⟩ nodes] := by
  rw [wrap_write]
  exact Markup.parse_write (canonical_wrapped h)

/-- Texts that look like tags and references, in an element that is named like the wrapper. -/
def quotingNodes : List Node :=
  [.text "</styledoc-wrapper> &amp; &#60;\u00a0&nbsp".text,
    .element ⟨wrapperName, [("title".text, .plain "\"'<b>&lt; ".text), ("class".text, .tokens ["x&amp;".text, ">".text]),
        ("id".text, .plain [])]⟩
      [.element ⟨"br".text, []⟩ [], .text "\n".text],
    .text " ".text]

theorem canonical_quotingNodes : Canonical quotingNodes := by
  have hinner : Canonical [.element ⟨"br".text, []⟩ [], .text "\n".text] :=
    .element (by decide +kernel) (fun _ => rfl) .nil (.text (by decide +kernel) (by simp) .nil)
  refine .text (by decide +kernel) (by simp [Node.isText]) ?_
  exact .element (by decide +kernel) (fun hvoid => absurd hvoid (by decide +kernel)) hinner
    (.text (by decide +kernel) (by simp) .nil)

theorem parse_wrap_write_quoting :
    Canonical quotingNodes ∧
    Markup.write quotingNodes = "&lt;/styledoc-wrapper&gt; &amp;amp; &amp;#60;&nbsp;&amp;nbsp".text ++
      "<styledoc-wrapper title=\"&quot;'&lt;b&gt;&amp;lt; \" class=\"x&amp;amp; &gt;\" id=\"\"><br>\n".text ++
      "</styledoc-wrapper> ".text ∧
    Markup.parse (wrap (Markup.write quotingNodes)) = .ok [.element ⟨wrapperName, []⟩ quotingNodes] :=
  ⟨canonical_quotingNodes, by decide +kernel, parse_wrap_write canonical_quotingNodes⟩

theorem fragment_write {nodes : List Node} (h : Canonical nodes) :
    fragment (Markup.write nodes) = .ok ([wrapperPlace], nodes) := by
  rw [fragment, wrap_write, Markup.parse_write (canonical_wrapped h)]
  rfl

/-- Where no element is chosen, it does not matter which parts there are. -/
theorem mapLineages_change {base modifier : Text} {suffix : Option Text} {above : Lineage} {nodes : List Node} :
    mapLineages (fun lineage e => change
        (if ((lineages above false nodes).filter (chosen (some base))).isEmpty then [] else modifierParts modifier)
        suffix (chosen (some base) lineage) e) above false nodes =
      mapLineages (fun lineage e => change (modifierParts modifier) suffix (chosen (some base) lineage) e) above false
        nodes := by
  refine Selector.mapLineages_congr fun p more hp => ?_
  split
  · rename_i hempty
    have hnot : chosen (some base) (p :: more) = false := by
      simpa using List.filter_eq_nil_iff.mp (List.isEmpty_iff.mp hempty) _ hp
    rw [hnot]
    rfl
  · rfl

/-- Markup that stays as it is where there is nothing to do is the markup of what is done. -/
theorem write_unless_nothing (config : Config) (unique : Bool) (base modifier : Text) (parts : List Part)
    (above : Lineage) (nodes : List Node) :
    (if parts.isEmpty && !unique then Markup.write nodes
      else Markup.write (mapLineages (fun lineage e => change parts (suffix? config unique modifier)
        (chosen (some base) lineage) e) above false nodes)) =
      Markup.write (mapLineages (fun lineage e => change parts (suffix? config unique modifier)
        (chosen (some base) lineage) e) above false nodes) := by
  split
  · rename_i hnothing
    rw [Bool.and_eq_true, Bool.not_eq_true', List.isEmpty_iff] at hnothing
    obtain ⟨rfl, rfl⟩ := hnothing
    have hself : ∀ lineage e, change [] none (chosen (some base) lineage) e = e := by
      intro lineage e
      cases chosen (some base) lineage <;> rfl
    have hmap : mapLineages (fun lineage e => change [] none (chosen (some base) lineage) e) above false nodes =
        nodes := by
      simp only [hself, Selector.mapLineages_self]
    exact congrArg Markup.write hmap.symm
  · rfl

theorem modified_write {nodes : List Node} (h : Canonical nodes) (s : Settings) (hhook : s.hook = none)
    (isPresentation unique : Bool) (base modifier : Text) :
    modified s isPresentation unique (Markup.write nodes) (some base) modifier =
      .ok (Markup.write (edit s.config unique base modifier nodes)) := by
  rw [edit_eq_mapLineages h, ← mapLineages_change, ← write_unless_nothing, modified, fragment_write h, hhook]
  rfl

/-- The variant of what a canonical fragment is written as is what the edited fragment is written as. -/
theorem apply_write {nodes : List Node} (h : Canonical nodes) (s : Settings) (hhook : s.hook = none)
    (isPresentation : Bool) (unique : Option Bool) (base modifier : Text) :
    apply s isPresentation unique (Markup.write nodes) (some base) modifier [] =
      .ok (Markup.write (edit s.config (unique.getD s.config.modifyUnique) base modifier nodes)) := by
  rw [apply, modified_write h s hhook]
  simp [withStates, stateBlocks, bind, Except.bind, pure, Except.pure]

/-- A text with a bold part in it, and a break. -/
def boldNodes : List Node :=
  [.element ⟨"a".text, [("for".text, .plain "q".text)]⟩
      [.text "x&".text, .element ⟨"b".text, [("class".text, .tokens ["k".text])]⟩ [.text "\n".text]],
    .text " ".text, .element ⟨"br".text, [("id".text, .plain "\"'".text)]⟩ []]

theorem canonical_boldNodes : Canonical boldNodes := by
  have hinner : Canonical
      [.text "x&".text, .element ⟨"b".text, [("class".text, .tokens ["k".text])]⟩ [.text "\n".text]] :=
    .text (by decide +kernel) (by simp [Node.isText])
      (.element (by decide +kernel) (fun hvoid => absurd hvoid (by decide +kernel))
        (.text (by decide +kernel) (by simp) .nil) .nil)
  refine .element (by decide +kernel) (fun hvoid => absurd hvoid (by decide +kernel)) hinner ?_
  exact .text (by decide +kernel) (by simp [Node.isText]) (.element (by decide +kernel) (fun _ => rfl) .nil .nil)

theorem apply_write_bold :
    Canonical boldNodes ∧
    Markup.write boldNodes = "<a for=\"q\">x&amp;<b class=\"k\">\n</b></a> <br id=\"&quot;'\">".text ∧
    apply {} false (some true) (Markup.write boldNodes) (some "a b, br".text) "p, .k:on".text [] =
      .ok ("<a for=\"q_p___k_on\">x&amp;<b class=\"k\" on=\"on\">\n</b></a> ".text ++
        "<br id=\"&quot;'_p___k_on\" class=\"k\" on=\"on\">".text) := by
  have hwrite := apply_write canonical_boldNodes {} rfl false (some true) "a b, br".text "p, .k:on".text
  have hbase : Selector.parse "a b, br".text = .ok [[.tag "a".text, .descendant, .tag "b".text], [.tag "br".text]] := by
    decide +kernel
  have hparts : modifierParts "p, .k:on".text = [.className "k".text, .pseudo "on".text none] := by decide +kernel
  have hsuffix : Identifier.ofSelector false "p, .k:on".text = "p___k_on".text := by decide +kernel
  refine ⟨canonical_boldNodes, by decide +kernel, hwrite.trans (congrArg Except.ok ?_)⟩
  simp only [edit, modifyFound, found, Selector.select, lineages, mapLineages, suffixValues, boldNodes,
    Option.getD_some, if_true, hbase, hparts, hsuffix]
  decide +kernel

end Variant

end Stylebook
