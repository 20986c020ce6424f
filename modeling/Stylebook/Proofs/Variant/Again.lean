import Stylebook.Proofs.Markup.Spelling
import Stylebook.Proofs.Selector.Texts
import Stylebook.Proofs.Variant.Parts

/-! A modifier that is applied to its own result changes nothing more. The second run reads what the first has written,
    which is canonical again as long as the parts set what the reader gives back: plain names, and one value where an
    attribute holds one. In the second run an element may no longer be chosen, and then it stays as it is; one that is
    chosen again takes on parts it has already; and one that was not chosen has not changed, so it is not chosen now.
    The last holds for a base selector that looks at the element alone, not at those above it, which may have
    changed. -/

namespace Stylebook

namespace Selector

open Markup (Element Node Canonical)

/-! ### Selectors that look at one element -/

/-- Every group of the selector is one compound. -/
def IsFlat (selector : Text) : Prop := ∀ groups, parse selector = .ok groups → ∀ g ∈ groups, Part.descendant ∉ g

theorem compounds_of_not_mem {g : Group} (h : Part.descendant ∉ g) : compounds g = [g] := by
  fun_induction compounds g with
  | case1 => rfl
  | case2 r ih => exact absurd List.mem_cons_self h
  | case3 p r hp hnil ih =>
    rw [ih fun hin => h (List.mem_cons_of_mem _ hin)] at hnil
    cases hnil
  | case4 p r hp c cs hcons ih =>
    rw [ih fun hin => h (List.mem_cons_of_mem _ hin)] at hcons
    cases hcons
    rfl

theorem holds_of_not_mem {g : Group} (h : Part.descendant ∉ g) (p : Place) (above : Lineage) :
    Group.holds (p :: above) g = Compound.holds p g := by
  rw [Group.holds, compounds_of_not_mem h, List.reverse_singleton, holdAt, holdAbove, Bool.and_true]

theorem anyHolds_of_not_mem {groups : List Group} (h : ∀ g ∈ groups, Part.descendant ∉ g) (p : Place)
    (above : Lineage) : anyHolds groups (p :: above) = groups.any (Compound.holds p) := by
  rw [anyHolds, Bool.eq_iff_iff, List.any_eq_true, List.any_eq_true]
  refine exists_congr fun g => and_congr_right fun hg => ?_
  rw [holds_of_not_mem (h g hg)]

/-! ### Changed trees -/

theorem any_isElement_mapLineages (f : Lineage → Element → Element) (above : Lineage) (seen : Bool)
    (nodes : List Node) : (mapLineages f above seen nodes).any Node.isElement = nodes.any Node.isElement := by
  fun_induction mapLineages f above seen nodes with
  | case1 => rfl
  | case2 above seen e children rest lineage ihchildren ihrest => rfl
  | case3 above seen n rest hn ih => rw [List.any_cons, List.any_cons, ih]

/-- If an element stays as it was changed, at its place and whatever is above it, then so does the whole tree. -/
theorem mapLineages_again {f : Lineage → Element → Element} {above : Lineage} {seen : Bool} {nodes : List Node}
    (h : ∀ p more, p :: more ∈ lineages above seen nodes → ∀ others,
      f ({ p with element := f (p :: more) p.element } :: others) (f (p :: more) p.element) =
        f (p :: more) p.element) :
    ∀ other, mapLineages f other seen (mapLineages f above seen nodes) = mapLineages f above seen nodes := by
  fun_induction mapLineages f above seen nodes with
  | case1 =>
    intro other
    rw [mapLineages]
  | case2 above seen e children rest lineage ihchildren ihrest =>
    intro other
    have hhead := h _ _ (by rw [lineages]; exact List.mem_cons_self) other
    have hchildren := ihchildren fun p more hp => h p more (by simp [lineages, lineage, hp])
    have hrest := ihrest fun p more hp => h p more (by simp [lineages, hp])
    rw [mapLineages, any_isElement_mapLineages, hchildren, hrest]
    exact congrArg (Node.element · _ :: _) hhead
  | case3 above seen n rest hn ih =>
    intro other
    have hrest := ih fun p more hp => h p more (by rwa [lineages]; exact hn)
    rw [mapLineages, hrest]
    exact hn

theorem isText_head_mapLineages {f : Lineage → Element → Element} {above : Lineage} {seen : Bool} {nodes : List Node}
    (h : ∀ n ∈ nodes.head?, n.isText = false) : ∀ n ∈ (mapLineages f above seen nodes).head?, n.isText = false := by
  fun_cases mapLineages f above seen nodes with
  | case1 => exact h
  | case2 e children rest lineage =>
    rintro _ ⟨⟩
    rfl
  | case3 n rest hn => exact h

theorem canonical_mapLineages {f : Lineage → Element → Element}
    (hf : ∀ lineage e, e.IsCanonical → (f lineage e).IsCanonical) (hname : ∀ lineage e, (f lineage e).name = e.name)
    {nodes : List Node} (h : Canonical nodes) (above : Lineage) (seen : Bool) :
    Canonical (mapLineages f above seen nodes) := by
  induction h generalizing above seen with
  | nil =>
    rw [mapLineages]
    exact .nil
  | @text t rest ht hnext hrest ih =>
    rw [mapLineages]
    · exact .text ht (isText_head_mapLineages hnext) (ih above seen)
    · simp
  | @element e children rest he hvoid hchildren hrest ihchildren ih =>
    rw [mapLineages]
    refine .element (hf _ e he) (fun hv => ?_) (ihchildren _ false) (ih above true)
    rw [hname] at hv
    rw [hvoid hv, mapLineages]

end Selector

namespace Markup

/-! ### Canonical elements -/

theorem isTokenList_class (element : Text) : isTokenList element "class".text = true := by
  rw [isTokenList, Bool.or_eq_true]
  exact .inl (by decide)

/-- An attribute that is not in the list holds one value, whatever its element. -/
theorem isTokenList_eq_false {name : Text} (h : name ∉ ["class", "accesskey", "dropzone", "rel", "rev", "headers",
    "accept-charset", "archive", "sizes", "sandbox", "for"].map String.text) (element : Text) :
    isTokenList element name = false := by
  simp only [List.map_cons, List.map_nil, List.mem_cons, List.not_mem_nil, not_or] at h
  simp [isTokenList, h]

theorem Element.IsCanonical.set {e : Element} (h : e.IsCanonical) {name : Text} {value : Value}
    (hname : PlainName name) (hvalue : value.IsCanonical (isTokenList e.name name)) :
    (e.set name value).IsCanonical where
  name := h.name
  not_raw := h.not_raw
  not_meta := h.not_meta
  names a ha := by
    rcases Attributes.mem_set ha with rfl | hin
    · exact hname
    · exact h.names a hin
  nodup := Attributes.nodup_set h.nodup
  values a ha := by
    rcases Attributes.mem_set ha with rfl | hin
    · exact hvalue
    · exact h.values a hin

theorem Element.IsCanonical.of_mem_classes {e : Element} (h : e.IsCanonical) {t : Text} (ht : t ∈ e.classes) :
    t ≠ [] ∧ ∀ c ∈ t, Text.isBlank c = false := by
  rw [e.classes_eq] at ht
  cases hget : e.get? "class".text with
  | none =>
    rw [hget] at ht
    cases ht
  | some v =>
    have hvalue := h.values _ (Element.mem_of_get? hget)
    rw [isTokenList_class] at hvalue
    rw [hget] at ht
    cases v with
    | tokens ts => exact hvalue.2.2 t ht
    | plain t => cases hvalue
    | charset t => cases hvalue
    | contentType t => cases hvalue

end Markup

namespace Variant

open Markup (Element Node Canonical PlainName isTokenList)
open Selector (Part Lineage lineages mapLineages)

/-! ### Parts that the reader gives back -/

/-- What the part names is an attribute with a plain name that holds one value. -/
def SetsPlain : Part → Prop
  | .attribute name _ => PlainName name ∧ ∀ element, isTokenList element name = false
  | .pseudo name _ => PlainName name ∧ ∀ element, isTokenList element name = false
  | _ => True

theorem isCanonical_applyPart {e : Element} (h : e.IsCanonical) (again : Bool) {part : Part} (hnamed : part.IsNamed)
    (hplain : SetsPlain part) : (applyPart again e part).IsCanonical := by
  fun_cases applyPart again e part with
  | case1 name => exact h.set (by decide) (Markup.isTokenList_eq_false (by decide) _)
  | case2 name classes =>
    have hname : name ≠ [] ∧ ∀ c ∈ name, Text.isBlank c = false := ⟨hnamed.1, fun c hc => hnamed.not_blank hc⟩
    refine h.set (by decide) ⟨Markup.isTokenList_class _, ?_, ?_⟩
    · -- where the class is not added it is there already
      split
      · simp
      · rename_i hnot
        rintro hnil
        simp [hnil] at hnot
    · intro t ht
      split at ht
      · rcases List.mem_append.mp ht with ht | ht
        · exact h.of_mem_classes ht
        · rw [List.mem_singleton.mp ht]
          exact hname
      · exact h.of_mem_classes ht
  | case3 name value => exact h.set hplain.1 (hplain.2 _)
  | case4 name argument => exact h.set hplain.1 (hplain.2 _)
  | case5 => exact h

theorem isCanonical_applyParts {e : Element} (h : e.IsCanonical) (again : Bool) {parts : List Part}
    (hparts : ∀ part ∈ parts, part.IsNamed ∧ SetsPlain part) : (applyParts again parts e).IsCanonical := by
  induction parts generalizing e with
  | nil => exact h
  | cons part parts ih =>
    obtain ⟨⟨hnamed, hplain⟩, hrest⟩ := List.forall_mem_cons.mp hparts
    exact ih (isCanonical_applyPart h again hnamed hplain) hrest

/-! ### The second run -/

variable {base modifier : Text} {nodes : List Node}

/-- With a selector that looks at one element, what is above it makes no difference. -/
theorem chosen_cons_congr (h : Selector.IsFlat base) (p : Selector.Place) (above other : Lineage) :
    chosen (some base) (p :: above) = chosen (some base) (p :: other) := by
  unfold chosen
  split
  · next groups hread =>
    rw [Selector.anyHolds_of_not_mem (h groups hread), Selector.anyHolds_of_not_mem (h groups hread)]
  · rfl

theorem edit_false (h : Canonical nodes) (config : Config) (base modifier : Text) :
    edit config false base modifier nodes = mapLineages (fun lineage e =>
      if chosen (some base) lineage then applyParts ((modifierParts modifier).any isTag) (modifierParts modifier) e
      else e) [wrapperPlace] false nodes :=
  edit_eq_mapLineages h config false base modifier

theorem canonical_edit (h : Canonical nodes) (config : Config) (base : Text)
    (hplain : ∀ part ∈ modifierParts modifier, SetsPlain part) : Canonical (edit config false base modifier nodes) := by
  have hparts : ∀ part ∈ modifierParts modifier, part.IsNamed ∧ SetsPlain part := by
    intro part hpart
    obtain ⟨groups, g, hread, hg, hin⟩ := mem_modifierParts hpart
    exact ⟨Selector.isNamed_of_parse hread hg hin, hplain part hpart⟩
  rw [edit_false h]
  refine Selector.canonical_mapLineages (fun lineage e he => ?_) (fun lineage e => ?_) h _ _
  · split
    · exact isCanonical_applyParts he _ hparts
    · exact he
  · split
    · exact name_applyParts _ _ e
    · rfl

theorem edit_again (h : Canonical nodes) (config : Config) (hbase : Selector.IsFlat base)
    (htag : (modifierParts modifier).any isTag = false) (hplain : ∀ part ∈ modifierParts modifier, SetsPlain part) :
    edit config false base modifier (edit config false base modifier nodes) =
      edit config false base modifier nodes := by
  rw [edit_false (canonical_edit h config base hplain), edit_false h, htag]
  refine Selector.mapLineages_again (fun p more hp others => ?_) _
  cases hchosen : chosen (some base) (p :: more) with
  | true =>
    -- chosen again or not, it has what the parts set
    simp only [if_true, applyParts_again (nodup_of_mem_lineages h hp), ite_self]
  | false =>
    have hstill : chosen (some base) (p :: others) = false := (chosen_cons_congr hbase p others more).trans hchosen
    exact if_neg (by simp [hstill])

theorem apply_nil (s : Settings) (isPresentation : Bool) (unique : Option Bool) (markup : Text) (base : Option Text)
    (modifier : Text) : apply s isPresentation unique markup base modifier [] =
      modified s isPresentation (unique.getD s.config.modifyUnique) markup base modifier := by
  rw [apply]
  cases modified s isPresentation (unique.getD s.config.modifyUnique) markup base modifier with
  | error e => rfl
  | ok m => simp [withStates, stateBlocks, bind, Except.bind, pure, Except.pure]

/-- A modifier without tags, applied to its own result, gives the same markup again. -/
theorem apply_again (h : Canonical nodes) (s : Settings) (hhook : s.hook = none) (isPresentation : Bool)
    (unique : Option Bool) (hunique : unique.getD s.config.modifyUnique = false) (hbase : Selector.IsFlat base)
    (htag : (modifierParts modifier).any isTag = false) (hplain : ∀ part ∈ modifierParts modifier, SetsPlain part) :
    ∃ m, apply s isPresentation unique (Markup.write nodes) (some base) modifier [] = .ok m ∧
      apply s isPresentation unique m (some base) modifier [] = .ok m := by
  refine ⟨Markup.write (edit s.config false base modifier nodes), ?_, ?_⟩
  · rw [apply_nil, hunique, modified_write h s hhook]
  · rw [apply_nil, hunique, modified_write (canonical_edit h s.config base hplain) s hhook,
      edit_again h s.config hbase htag hplain]

/-- Two elements, of which the second loses the `id` it is chosen by. -/
def renamedNodes : List Node :=
  [.element ⟨"p".text, [("class".text, .tokens ["k".text])]⟩ [.text "x".text],
    .element ⟨"b".text, [("id".text, .plain "c".text)]⟩ []]

theorem canonical_renamedNodes : Canonical renamedNodes := by
  refine .element (by decide +kernel) (fun hvoid => absurd hvoid (by decide +kernel)) ?_ ?_
  · exact .text (by decide +kernel) (by simp) .nil
  · exact .element (by decide +kernel) (fun hvoid => absurd hvoid (by decide +kernel)) .nil .nil

theorem isFlat_renaming : Selector.IsFlat "p, #c".text := by
  have hread : Selector.parse "p, #c".text = .ok [[.tag "p".text], [.id "c".text]] := by decide +kernel
  intro groups hgroups
  rw [hread] at hgroups
  cases hgroups
  decide

theorem modifierParts_renaming : modifierParts "i, #a[id=b].k.m:on".text =
    [.id "a".text, .attribute "id".text (some "b".text), .className "k".text, .className "m".text,
      .pseudo "on".text none] := by
  decide +kernel

theorem setsPlain_renaming : ∀ part ∈ modifierParts "i, #a[id=b].k.m:on".text, SetsPlain part := by
  rw [modifierParts_renaming]
  simp only [List.forall_mem_cons]
  refine ⟨trivial, ⟨by decide, fun element => ?_⟩, trivial, trivial, ⟨by decide, fun element => ?_⟩, by simp⟩
  · exact Markup.isTokenList_eq_false (by decide) element
  · exact Markup.isTokenList_eq_false (by decide) element

theorem apply_again_renamed :
    Canonical renamedNodes ∧ Selector.IsFlat "p, #c".text ∧
    (modifierParts "i, #a[id=b].k.m:on".text).any isTag = false ∧
    (∀ part ∈ modifierParts "i, #a[id=b].k.m:on".text, SetsPlain part) ∧
    ∃ m, apply {} false (some false) (Markup.write renamedNodes) (some "p, #c".text) "i, #a[id=b].k.m:on".text [] =
        .ok m ∧
      apply {} false (some false) m (some "p, #c".text) "i, #a[id=b].k.m:on".text [] = .ok m := by
  have htag : (modifierParts "i, #a[id=b].k.m:on".text).any isTag = false := by
    rw [modifierParts_renaming]
    decide
  exact ⟨canonical_renamedNodes, isFlat_renaming, htag, setsPlain_renaming,
    apply_again canonical_renamedNodes {} rfl false (some false) rfl isFlat_renaming htag setsPlain_renaming⟩

end Variant
end Stylebook
