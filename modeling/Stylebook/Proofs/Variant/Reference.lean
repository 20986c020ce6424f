import Stylebook.Proofs.Variant.Edit

/-! References between elements. A label is for the element whose id its `for` value names. Every `id` and every
    `for` value gets the same suffix, so a `for` value that is one name goes on to name the same elements, and
    nothing else of the tree changes. A `for` value that holds several names gets the suffix once, behind the last
    of them: the others then name nothing any more. -/

namespace Stylebook

namespace Selector

open Markup (Element Node)

/-- A change that does not look at the places of elements can be made afterwards. -/
theorem mapLineages_mapLineages {f : Lineage → Element → Element} (g : Element → Element) {above : Lineage}
    {seen : Bool} (above' : Lineage) (seen' : Bool) (nodes : List Node) :
    mapLineages (fun _ => g) above' seen' (mapLineages f above seen nodes) =
      mapLineages (fun lineage e => g (f lineage e)) above seen nodes := by
  fun_induction mapLineages f above seen nodes generalizing above' seen' with
  | case1 => rw [mapLineages, mapLineages]
  | case2 above seen e children rest lineage ihchildren ihrest =>
    rw [mapLineages, ihchildren, ihrest, mapLineages]
  | case3 above seen n rest hn ih =>
    rw [mapLineages, ih, mapLineages]
    · exact hn
    · exact hn

end Selector

namespace Markup

/-! ### Elements -/

/-- The elements of nodes, in document order. -/
def elements : List Node → List Element
  | [] => []
  | .element e children :: rest => e :: (elements children ++ elements rest)
  | _ :: rest => elements rest

theorem elements_mapLineages (g : Element → Element) (above : Selector.Lineage) (seen : Bool) (nodes : List Node) :
    elements (Selector.mapLineages (fun _ => g) above seen nodes) = (elements nodes).map g := by
  fun_induction Selector.mapLineages (fun _ => g) above seen nodes with
  | case1 => rw [elements, List.map_nil]
  | case2 above seen e children rest lineage ihchildren ihrest =>
    rw [elements, elements, ihchildren, ihrest, List.map_cons, List.map_append]
  | case3 above seen n rest hn ih =>
    rw [elements, elements, ih]
    · exact hn
    · exact hn

theorem Attributes.get?_set_self (name : Text) (value : Value) (attrs : Attributes) :
    Attributes.get? (Attributes.set name value attrs) name = some value := by
  induction attrs with
  | nil => simp [Attributes.set, Attributes.get?]
  | cons a attrs ih =>
    rw [Attributes.set]
    split
    · rename_i heq
      simp [Attributes.get?, heq]
    · rename_i hne
      have hne' : (name == a.1) = false := beq_eq_false_iff_ne.mpr (Ne.symm hne)
      rw [Attributes.get?, List.lookup_cons, hne']
      exact ih

theorem Attributes.get?_set_of_ne {name other : Text} (h : other ≠ name) (value : Value) (attrs : Attributes) :
    Attributes.get? (Attributes.set name value attrs) other = Attributes.get? attrs other := by
  induction attrs with
  | nil => simp [Attributes.set, Attributes.get?, h]
  | cons a attrs ih =>
    rw [Attributes.set]
    split
    · rename_i heq
      have hne : (other == a.1) = false := beq_eq_false_iff_ne.mpr (heq ▸ h)
      rw [Attributes.get?, Attributes.get?, List.lookup_cons, List.lookup_cons, hne]
    · rw [Attributes.get?, Attributes.get?] at ih ⊢
      rw [List.lookup_cons, List.lookup_cons, ih]

theorem Element.attributeText?_set_self (e : Element) (name : Text) (value : Value) :
    (e.set name value).attributeText? name = some value.text := by
  rw [attributeText?, get?, Element.set, Attributes.get?_set_self, Option.map_some]

theorem Element.attributeText?_set_of_ne {name other : Text} (h : other ≠ name) (e : Element) (value : Value) :
    (e.set name value).attributeText? other = e.attributeText? other := by
  rw [attributeText?, get?, Element.set, Attributes.get?_set_of_ne h]
  rfl

end Markup

namespace Variant

open Markup (Attributes Element Node elements)
open Selector (Lineage lineages mapLineages)

/-! ### The rewrite -/

/-- Every `id` and `for` value of a fragment gets a text behind it. -/
def rewriteUnique (suffix : Text) (nodes : List Node) : List Node :=
  mapLineages (fun _ => suffixUnique suffix) [] false nodes

/-- The parts of a modifier on the elements that a base selector means. -/
def withParts (base : Option Text) (modifier : Text) (above : Lineage) (nodes : List Node) : List Node :=
  mapLineages (fun lineage e => change (modifierParts modifier) none (chosen base lineage) e) above false nodes

/-- The suffix of unique attributes under a modifier. -/
def suffixOf (config : Config) (modifier : Text) : Text := '_' :: Identifier.ofSelector config.collapseIds modifier

/-- The nodes of a variant: those that were read, with the parts of the modifier on them and then, if that is asked
    for, with unique attributes rewritten. -/
def variantNodes (config : Config) (unique : Bool) (base : Option Text) (modifier : Text) (above : Lineage)
    (nodes : List Node) : List Node :=
  if unique then rewriteUnique (suffixOf config modifier) (withParts base modifier above nodes)
  else withParts base modifier above nodes

theorem variantNodes_eq (config : Config) (unique : Bool) (base : Option Text) (modifier : Text) (above : Lineage)
    (nodes : List Node) : variantNodes config unique base modifier above nodes =
      mapLineages (fun lineage e => change (modifierParts modifier) (suffix? config unique modifier)
        (chosen base lineage) e) above false nodes := by
  cases unique with
  | false => rfl
  | true =>
    rw [variantNodes, if_pos rfl, withParts, rewriteUnique, Selector.mapLineages_mapLineages]
    rfl

/-- The variant of markup that was read is the markup itself, where there is nothing to do, or else what its nodes
    are written as. -/
theorem modified_cases {s : Settings} (hhook : s.hook = none) {markup : Text} {above : Lineage} {nodes : List Node}
    (hread : fragment markup = .ok (above, nodes)) (isPresentation unique : Bool) (base : Option Text)
    (modifier : Text) :
    (unique = false ∧ modified s isPresentation unique markup base modifier = .ok markup) ∨
      modified s isPresentation unique markup base modifier =
        .ok (Markup.write (variantNodes s.config unique base modifier above nodes)) := by
  have hparts : mapLineages (fun lineage e => change
        (if ((lineages above false nodes).filter (chosen base)).isEmpty then [] else modifierParts modifier)
        (suffix? s.config unique modifier) (chosen base lineage) e) above false nodes =
      variantNodes s.config unique base modifier above nodes :=
    (@mapLineages_change (base.getD []) _ _ _ _).trans (variantNodes_eq _ _ _ _ _ _).symm
  by_cases hnothing : ((if ((lineages above false nodes).filter (chosen base)).isEmpty then [] else
      modifierParts modifier).isEmpty && !unique) = true
  · rw [Bool.and_eq_true, Bool.not_eq_true'] at hnothing
    refine .inl ⟨hnothing.2, ?_⟩
    rw [modified, hread, hhook]
    simp only [bind, Except.bind, pure, Except.pure, hnothing, Bool.not_false, Bool.and_self, if_true]
  · refine .inr ?_
    rw [modified, hread, hhook, ← hparts]
    simp only [bind, Except.bind, pure, Except.pure, if_neg hnothing, suffix?]

theorem modified_unique {s : Settings} (hhook : s.hook = none) {markup : Text} {above : Lineage} {nodes : List Node}
    (hread : fragment markup = .ok (above, nodes)) (isPresentation : Bool) (base : Option Text) (modifier : Text) :
    modified s isPresentation true markup base modifier = .ok (Markup.write
      (rewriteUnique (suffixOf s.config modifier) (withParts base modifier above nodes))) := by
  rcases modified_cases hhook hread isPresentation true base modifier with ⟨hfalse, -⟩ | hwritten
  · cases hfalse
  · exact hwritten

theorem attributeText?_appendTo_self (suffix : Text) (e : Element) (name : Text) :
    (appendTo suffix e name).attributeText? name = (e.attributeText? name).map (· ++ suffix) := by
  rw [appendTo]
  split
  · rename_i t ht
    rw [Element.attributeText?_set_self, ht]
    rfl
  · rename_i hnone
    rw [hnone]
    rfl

theorem attributeText?_appendTo_of_ne {name other : Text} (h : other ≠ name) (suffix : Text) (e : Element) :
    (appendTo suffix e name).attributeText? other = e.attributeText? other := by
  rw [appendTo]
  split
  · rw [Element.attributeText?_set_of_ne h]
  · rfl

theorem name_suffixUnique (suffix : Text) (e : Element) : (suffixUnique suffix e).name = e.name := by
  have hname : ∀ (e : Element) (name : Text), (appendTo suffix e name).name = e.name := by
    intro e name
    rw [appendTo]
    split <;> rfl
  rw [suffixUnique, hname, hname]

theorem attributeText?_id_suffixUnique (suffix : Text) (e : Element) :
    (suffixUnique suffix e).attributeText? "id".text = (e.attributeText? "id".text).map (· ++ suffix) := by
  rw [suffixUnique, attributeText?_appendTo_of_ne (by decide), attributeText?_appendTo_self]

theorem attributeText?_for_suffixUnique (suffix : Text) (e : Element) :
    (suffixUnique suffix e).attributeText? "for".text = (e.attributeText? "for".text).map (· ++ suffix) := by
  rw [suffixUnique, attributeText?_appendTo_self, attributeText?_appendTo_of_ne (by decide)]

/-! ### What stays -/

/-- An attribute without its value, if this has to stay unique. -/
def blankUnique (a : Text × Markup.Value) : Text × Markup.Value :=
  if a.1 = "id".text ∨ a.1 = "for".text then (a.1, .plain []) else a

/-- An element without the values that have to stay unique. -/
def withoutUnique (e : Element) : Element := { e with attributes := e.attributes.map blankUnique }

/-- A fragment without the values that have to stay unique: its tree, its texts, its names and its other values. -/
def remainder (nodes : List Node) : List Node := mapLineages (fun _ => withoutUnique) [] false nodes

theorem map_blankUnique_set {name : Text} (h : name = "id".text ∨ name = "for".text) (value : Markup.Value)
    {attrs : Attributes} (hin : (Attributes.get? attrs name).isSome) :
    (Attributes.set name value attrs).map blankUnique = attrs.map blankUnique := by
  induction attrs with
  | nil => simp [Attributes.get?] at hin
  | cons a attrs ih =>
    rw [Attributes.set]
    split
    · rename_i heq
      have ha : a.1 = "id".text ∨ a.1 = "for".text := heq ▸ h
      rw [List.map_cons, List.map_cons, blankUnique, blankUnique, if_pos ha, if_pos ha]
    · rename_i hne
      have hne' : (name == a.1) = false := beq_eq_false_iff_ne.mpr (Ne.symm hne)
      rw [Attributes.get?, List.lookup_cons, hne'] at hin
      rw [List.map_cons, List.map_cons, ih hin]

theorem withoutUnique_appendTo {name : Text} (h : name = "id".text ∨ name = "for".text) (suffix : Text)
    (e : Element) : withoutUnique (appendTo suffix e name) = withoutUnique e := by
  rw [appendTo]
  split
  · rename_i t ht
    have hin : (Attributes.get? e.attributes name).isSome := by
      have hsome := congrArg Option.isSome ht
      rwa [Element.attributeText?, Element.get?, Option.isSome_map] at hsome
    exact congrArg (Element.mk e.name) (map_blankUnique_set h _ hin)
  · rfl

theorem remainder_rewriteUnique (suffix : Text) (nodes : List Node) :
    remainder (rewriteUnique suffix nodes) = remainder nodes := by
  have hsame : ∀ e, withoutUnique (suffixUnique suffix e) = withoutUnique e := by
    intro e
    rw [suffixUnique, withoutUnique_appendTo (.inr rfl), withoutUnique_appendTo (.inl rfl)]
  rw [remainder, rewriteUnique, Selector.mapLineages_mapLineages]
  simp only [hsame, remainder]

/-! ### References -/

/-- Whether an element is for another: its `for` value is the id of the other or, on elements where it may hold
    several names, has it among its words. -/
def isFor (x y : Element) : Bool :=
  match x.attributeText? "for".text, y.attributeText? "id".text with
  | some target, some id =>
    if Markup.isTokenList x.name "for".text then (Text.words target).contains id else target == id
  | _, _ => false

/-- An element keeps what it is for: its `for` value counts as a whole, or is one name and stays so with the suffix
    behind it. -/
def KeepsTarget (suffix : Text) (x : Element) : Prop :=
  Markup.isTokenList x.name "for".text = true → ∀ target, x.attributeText? "for".text = some target →
    target ≠ [] ∧ ∀ c ∈ target ++ suffix, Text.isBlank c = false

instance (suffix : Text) : DecidablePred (KeepsTarget suffix) := fun x =>
  decidable_of_iff (Markup.isTokenList x.name "for".text = true → (x.attributeText? "for".text).all
      (fun target => !target.isEmpty && (target ++ suffix).all fun c => !Text.isBlank c) = true)
    (by simp [KeepsTarget, Option.all_eq_true, or_imp, forall_and])

theorem words_of_unbroken {t : Text} (hne : t ≠ []) (h : ∀ c ∈ t, Text.isBlank c = false) : Text.words t = [t] := by
  simp [Text.words, Text.split_of_forall h, hne]

theorem isFor_suffixUnique {suffix : Text} {x : Element} (h : KeepsTarget suffix x) (y : Element) :
    isFor (suffixUnique suffix x) (suffixUnique suffix y) = isFor x y := by
  rw [isFor, isFor, attributeText?_for_suffixUnique, attributeText?_id_suffixUnique, name_suffixUnique]
  cases htarget : x.attributeText? "for".text with
  | none => rfl
  | some target =>
    cases hid : y.attributeText? "id".text with
    | none => rfl
    | some id =>
      have hends : (target ++ suffix == id ++ suffix) = (target == id) := by
        rw [Bool.eq_iff_iff, beq_iff_eq, beq_iff_eq, List.append_left_inj]
      cases hseveral : Markup.isTokenList x.name "for".text with
      | false => exact hends
      | true =>
        obtain ⟨hne, hblank⟩ := h hseveral target htarget
        have hafter := words_of_unbroken (List.append_ne_nil_of_left_ne_nil hne suffix) hblank
        have hbefore := words_of_unbroken hne fun c hc => hblank c (List.mem_append_left suffix hc)
        simp only [Option.map_some, hafter, hbefore, List.contains_cons, List.contains_nil, Bool.or_false, if_true]
        rw [BEq.comm, hends, BEq.comm]

/-- Rewriting the unique attributes of a fragment by a suffix changes the elements one by one and nothing besides
    their `id` and `for` values; no id stays what it was; and an element whose `for` value is one name is for the
    same elements as before. -/
theorem rewriteUnique_keeps {suffix : Text} (hsuffix : suffix ≠ []) (nodes : List Node) :
    elements (rewriteUnique suffix nodes) = (elements nodes).map (suffixUnique suffix) ∧
    remainder (rewriteUnique suffix nodes) = remainder nodes ∧
    (∀ x ∈ elements nodes, ∀ id, x.attributeText? "id".text = some id →
      (suffixUnique suffix x).attributeText? "id".text ≠ some id) ∧
    ∀ x ∈ elements nodes, KeepsTarget suffix x → ∀ y ∈ elements nodes,
      (isFor (suffixUnique suffix x) (suffixUnique suffix y) = true ↔ isFor x y = true) := by
  refine ⟨Markup.elements_mapLineages _ _ _ _, remainder_rewriteUnique suffix nodes, ?_, ?_⟩
  · intro x _ id hid
    rw [attributeText?_id_suffixUnique, hid, Option.map_some, ne_eq, Option.some.injEq]
    exact fun heq => hsuffix (List.append_right_eq_self.mp heq)
  · intro x _ hkeeps y _
    rw [isFor_suffixUnique hkeeps]

/-- A label and an output for one field. -/
def fieldNodes : List Node :=
  [.element ⟨"label".text, [("for".text, .plain "a".text)]⟩ [.text "A".text],
    .element ⟨"output".text, [("for".text, .tokens ["a".text])]⟩ [],
    .element ⟨"input".text, [("id".text, .plain "a".text)]⟩ []]

theorem rewriteUnique_keeps_field :
    "_m".text ≠ [] ∧ (∀ x ∈ elements fieldNodes, KeepsTarget "_m".text x) ∧
    (elements (rewriteUnique "_m".text fieldNodes)).map (·.attributes.map fun a => a.2.text) =
      [["a_m".text], ["a_m".text], ["a_m".text]] ∧
    ∀ x ∈ elements fieldNodes, KeepsTarget "_m".text x → ∀ y ∈ elements fieldNodes,
      (isFor (suffixUnique "_m".text x) (suffixUnique "_m".text y) = true ↔ isFor x y = true) := by
  have hkeeps := @rewriteUnique_keeps "_m".text (by decide) fieldNodes
  have helements : elements fieldNodes = [⟨"label".text, [("for".text, .plain "a".text)]⟩,
      ⟨"output".text, [("for".text, .tokens ["a".text])]⟩, ⟨"input".text, [("id".text, .plain "a".text)]⟩] := by
    simp [elements, fieldNodes]
  refine ⟨by decide, ?_, ?_, hkeeps.2.2.2⟩
  · rw [helements]
    decide +kernel
  · rw [hkeeps.1, helements]
    decide +kernel

/-- An output for two fields, and the first of them. -/
def twoFields : Text := "<output for='a b'></output><i id=a></i>".text

def twoFieldsOutput : Element := ⟨"output".text, [("for".text, .tokens ["a".text, "b".text])]⟩

def firstField : Element := ⟨"i".text, [("id".text, .plain "a".text)]⟩

/-- Of two names in a `for` value the first names its field no more. -/
theorem isFor_first_of_two_lost :
    fragment twoFields = .ok ([wrapperPlace], [.element twoFieldsOutput [], .element firstField []]) ∧
    modified {} false true twoFields none ".m".text =
      .ok "<output for=\"a b__m\"></output><i id=\"a__m\"></i>".text ∧
    isFor twoFieldsOutput firstField = true ∧
    isFor (suffixUnique "__m".text twoFieldsOutput) (suffixUnique "__m".text firstField) = false := by
  have hread : fragment twoFields = .ok ([wrapperPlace], [.element twoFieldsOutput [], .element firstField []]) := by
    with_unfolding_all rfl
  refine ⟨hread, ?_, by decide, by decide⟩
  rw [modified_unique rfl hread]
  simp only [withParts, rewriteUnique, mapLineages]
  decide +kernel

end Variant

end Stylebook
