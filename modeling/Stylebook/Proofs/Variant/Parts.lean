import Stylebook.Proofs.Variant.Blocks

/-! Parts on an element, attribute by attribute. To the value of one attribute a list of parts can do no more than
    three things: leave it alone, set it to a value of its own, or add classes to it (`Effect`). Each of these does
    nothing more when it is done again, so an element that has taken on parts stays as it is under the same parts. -/

namespace Stylebook

namespace Markup

/-! ### Attributes by name -/

theorem Attributes.get?_of_not_mem {name : Text} {attrs : Attributes} (h : name ∉ attrs.map Prod.fst) :
    Attributes.get? attrs name = none := by
  refine List.lookup_eq_none_iff.mpr fun a ha => ?_
  have hne : name ≠ a.1 := by
    rintro rfl
    exact h (List.mem_map_of_mem ha)
  simpa using hne

/-- Attributes with the same names in the same order and the same values are the same. -/
theorem Attributes.ext_get? {attrs others : Attributes} (hnames : attrs.map Prod.fst = others.map Prod.fst)
    (hnodup : (attrs.map Prod.fst).Nodup) (h : ∀ name, Attributes.get? attrs name = Attributes.get? others name) :
    attrs = others := by
  induction attrs generalizing others with
  | nil =>
    cases others with
    | nil => rfl
    | cons b others => cases hnames
  | cons a attrs ih =>
    cases others with
    | nil => cases hnames
    | cons b others =>
      obtain ⟨n, v⟩ := a
      obtain ⟨m, w⟩ := b
      obtain ⟨rfl, hrest⟩ : n = m ∧ attrs.map Prod.fst = others.map Prod.fst := List.cons.inj hnames
      obtain ⟨hfresh, hnodup⟩ : n ∉ attrs.map Prod.fst ∧ (attrs.map Prod.fst).Nodup := List.nodup_cons.mp hnodup
      have hv : v = w := by
        have hhead := h n
        simpa [Attributes.get?] using hhead
      have hothers : ∀ name, Attributes.get? attrs name = Attributes.get? others name := by
        intro name
        by_cases hname : name = n
        · -- the name of the first attribute is in neither rest
          rw [hname, Attributes.get?_of_not_mem hfresh, Attributes.get?_of_not_mem (hrest ▸ hfresh)]
        · have hname' := h name
          rwa [Attributes.get?, Attributes.get?, List.lookup_cons, List.lookup_cons,
            beq_eq_false_iff_ne.mpr hname] at hname'
      rw [hv, ih hrest hnodup hothers]

theorem Element.mem_of_get? {e : Element} {name : Text} {v : Value} (h : e.get? name = some v) :
    (name, v) ∈ e.attributes := by
  obtain ⟨front, back, heq, -⟩ := List.lookup_eq_some_iff.mp h
  rw [heq]
  simp

/-- The classes that the value of `class` holds. -/
def classesOf : Option Value → List Text
  | none => []
  | some (.tokens ts) => ts
  | some v => Text.words v.text

theorem Element.classes_eq (e : Element) : e.classes = classesOf (e.get? "class".text) := by
  unfold Element.classes classesOf
  split <;> simp_all

end Markup

namespace Variant

open Markup (Attributes Element classesOf)
open Selector (Part)

theorem mem_modifierParts {modifier : Text} {part : Part} (h : part ∈ modifierParts modifier) :
    ∃ groups g, Selector.parse modifier = .ok groups ∧ g ∈ groups ∧ part ∈ g := by
  unfold modifierParts at h
  split at h
  · next groups hread =>
    cases hlast : groups.getLast? with
    | none =>
      rw [hlast] at h
      cases h
    | some g =>
      rw [hlast] at h
      exact ⟨groups, g, hread, List.mem_of_getLast? hlast, h⟩
  · cases h

/-! ### Names -/

theorem name_applyParts (again : Bool) (parts : List Part) (e : Element) :
    (applyParts again parts e).name = e.name := by
  have hname : ∀ (e : Element) (part : Part), (applyPart again e part).name = e.name := by
    intro e part
    fun_cases applyPart again e part <;> rfl
  induction parts generalizing e with
  | nil => rfl
  | cons part parts ih => exact (ih _).trans (hname e part)

theorem name_change (parts : List Part) (suffix : Option Text) (isChosen : Bool) (e : Element) :
    (change parts suffix isChosen e).name = e.name := by
  have hchosen : (if isChosen then applyParts (parts.any isTag) parts e else e).name = e.name := by
    split
    · exact name_applyParts _ _ e
    · rfl
  cases suffix with
  | none => exact hchosen
  | some t => exact (name_suffixUnique t _).trans hchosen

theorem names_applyPart (again : Bool) (e : Element) (part : Part) :
    (applyPart again e part).attributes.map Prod.fst =
      match writes? part with
      | some name =>
        if name ∈ e.attributes.map Prod.fst then e.attributes.map Prod.fst else e.attributes.map Prod.fst ++ [name]
      | none => e.attributes.map Prod.fst := by
  fun_cases applyPart again e part with
  | case1 name => exact Attributes.names_set _ _ _
  | case2 name => exact Attributes.names_set _ _ _
  | case3 name value => exact Attributes.names_set _ _ _
  | case4 name argument => exact Attributes.names_set _ _ _
  | case5 part hid hclass hattribute hpseudo => cases part <;> simp_all [writes?]

theorem mem_names_applyPart {again : Bool} {e : Element} {part : Part} {name : Text}
    (h : name ∈ e.attributes.map Prod.fst ∨ writes? part = some name) :
    name ∈ (applyPart again e part).attributes.map Prod.fst := by
  rw [names_applyPart]
  split
  · rename_i other hother
    split
    · rename_i hin
      rcases h with h | h
      · exact h
      · rw [hother] at h
        exact Option.some.inj h ▸ hin
    · rcases h with h | h
      · exact List.mem_append_left _ h
      · rw [hother] at h
        exact List.mem_append_right _ (Option.some.inj h ▸ List.mem_singleton_self _)
  · rename_i hnone
    rcases h with h | h
    · exact h
    · rw [hnone] at h
      cases h

theorem mem_names_applyParts {again : Bool} {parts : List Part} {e : Element} {name : Text}
    (h : name ∈ e.attributes.map Prod.fst ∨ ∃ part ∈ parts, writes? part = some name) :
    name ∈ (applyParts again parts e).attributes.map Prod.fst := by
  induction parts generalizing e with
  | nil =>
    rcases h with h | ⟨part, hpart, -⟩
    · exact h
    · cases hpart
  | cons part parts ih =>
    refine ih ?_
    rcases h with h | ⟨other, hother, hwrites⟩
    · exact .inl (mem_names_applyPart (.inl h))
    · rcases List.mem_cons.mp hother with rfl | hother
      · exact .inl (mem_names_applyPart (.inr hwrites))
      · exact .inr ⟨other, hother, hwrites⟩

/-- Parts that write what is there already bring no new names. -/
theorem names_applyParts_of_mem {again : Bool} {parts : List Part} {e : Element}
    (h : ∀ part ∈ parts, ∀ name, writes? part = some name → name ∈ e.attributes.map Prod.fst) :
    (applyParts again parts e).attributes.map Prod.fst = e.attributes.map Prod.fst := by
  induction parts generalizing e with
  | nil => rfl
  | cons part parts ih =>
    obtain ⟨hpart, hrest⟩ := List.forall_mem_cons.mp h
    have hstep : (applyPart again e part).attributes.map Prod.fst = e.attributes.map Prod.fst := by
      rw [names_applyPart]
      split
      · rename_i name hname
        exact if_pos (hpart name hname)
      · rfl
    refine (ih fun other hother name hname => ?_).trans hstep
    rw [hstep]
    exact hrest other hother name hname

/-! ### Values -/

/-- The classes with one more, if it is new. -/
def withClass (classes : List Text) (name : Text) : List Text :=
  if classes.contains name then classes else classes ++ [name]

/-- What a part makes of the value of one attribute. -/
def valueAfter (name : Text) (v : Option Markup.Value) : Part → Option Markup.Value
  | .id n => if name = "id".text then some (.plain n) else v
  | .className n => if name = "class".text then some (.tokens (withClass (classesOf v) n)) else v
  | .attribute n value => if name = n then some (.plain (value.getD [])) else v
  | .pseudo n _ => if name = n then some (.plain n) else v
  | _ => v

theorem get?_set (e : Element) (written name : Text) (value : Markup.Value) :
    (e.set written value).get? name = if name = written then some value else e.get? name := by
  split
  · rename_i heq
    rw [heq]
    exact Attributes.get?_set_self _ _ _
  · rename_i hne
    exact Attributes.get?_set_of_ne hne _ _

theorem get?_applyPart (e : Element) (name : Text) : ∀ part : Part,
    (applyPart false e part).get? name = valueAfter name (e.get? name) part
  | .id n => get?_set e _ name _
  | .attribute n value => get?_set e _ name _
  | .pseudo n argument => get?_set e _ name _
  | .tag n => rfl
  | .universal => rfl
  | .descendant => rfl
  | .className n => by
    rw [applyPart, get?_set, valueAfter, e.classes_eq]
    by_cases hname : name = "class".text
    · rw [if_pos hname, if_pos hname, hname, withClass]
      cases (classesOf (e.get? "class".text)).contains n <;> rfl
    · rw [if_neg hname, if_neg hname]

theorem get?_applyParts (e : Element) (parts : List Part) (name : Text) :
    (applyParts false parts e).get? name = parts.foldl (valueAfter name) (e.get? name) := by
  induction parts generalizing e with
  | nil => rfl
  | cons part parts ih => exact (ih _).trans (congrArg (parts.foldl (valueAfter name)) (get?_applyPart e name part))

theorem mem_withClass {classes : List Text} {name n : Text} : n ∈ withClass classes name ↔ n ∈ classes ∨ n = name := by
  unfold withClass
  split
  · rename_i hin
    rw [List.contains_iff_mem] at hin
    exact ⟨.inl, fun h => h.elim id fun heq => heq ▸ hin⟩
  · simp

theorem mem_foldl_withClass {names classes : List Text} {n : Text} :
    n ∈ names.foldl withClass classes ↔ n ∈ classes ∨ n ∈ names := by
  induction names generalizing classes with
  | nil => simp
  | cons name names ih => rw [List.foldl_cons, ih, mem_withClass, List.mem_cons, or_assoc]

theorem foldl_withClass_of_mem {names classes : List Text} (h : ∀ n ∈ names, n ∈ classes) :
    names.foldl withClass classes = classes := by
  induction names with
  | nil => rfl
  | cons name names ih =>
    obtain ⟨hname, hrest⟩ := List.forall_mem_cons.mp h
    have hstep : withClass classes name = classes := if_pos (List.contains_iff_mem.mpr hname)
    rw [List.foldl_cons, hstep, ih hrest]

/-- What parts can do to a value: leave it alone, set it to a value of their own, or add classes to it. -/
inductive Effect (f : Option Markup.Value → Option Markup.Value) : Prop
  | keeps (h : ∀ v, f v = v)
  | sets {w : Option Markup.Value} (h : ∀ v, f v = w)
  | adds {names : List Text} (h : ∀ v, f v = some (.tokens (names.foldl withClass (classesOf v))))

theorem effect_set (name n : Text) (w : Option Markup.Value) : Effect fun v => if name = n then w else v := by
  by_cases hname : name = n
  · exact .sets fun v => if_pos hname
  · exact .keeps fun v => if_neg hname

theorem effect_valueAfter (name : Text) : ∀ part : Part, Effect fun v => valueAfter name v part
  | .id _ => effect_set name _ _
  | .attribute _ _ => effect_set name _ _
  | .pseudo _ _ => effect_set name _ _
  | .tag _ => .keeps fun _ => rfl
  | .universal => .keeps fun _ => rfl
  | .descendant => .keeps fun _ => rfl
  | .className n => by
    by_cases hname : name = "class".text
    · exact @Effect.adds _ [n] fun v => if_pos hname
    · exact .keeps fun v => if_neg hname

theorem Effect.followed {f g : Option Markup.Value → Option Markup.Value} (hf : Effect f) (hg : Effect g) :
    Effect fun v => g (f v) := by
  cases hf with
  | sets hf => exact .sets fun v => congrArg g (hf v)
  | keeps hf =>
    have heq : (fun v => g (f v)) = g := funext fun v => congrArg g (hf v)
    rwa [heq]
  | @adds names hf =>
    cases hg with
    | sets hg => exact .sets fun v => hg (f v)
    | keeps hg => exact .adds fun v => (hg (f v)).trans (hf v)
    | @adds more hg =>
      refine @Effect.adds _ (names ++ more) fun v => ?_
      rw [hg, hf, List.foldl_append]
      rfl

theorem effect_foldl (name : Text) (parts : List Part) : Effect fun v => parts.foldl (valueAfter name) v := by
  induction parts with
  | nil => exact .keeps fun _ => rfl
  | cons part parts ih => exact (effect_valueAfter name part).followed ih

theorem Effect.again {f : Option Markup.Value → Option Markup.Value} (h : Effect f) (v : Option Markup.Value) :
    f (f v) = f v := by
  cases h with
  | keeps h => exact h (f v)
  | sets h => exact (h (f v)).trans (h v).symm
  | @adds names h =>
    have hclasses : classesOf (f v) = names.foldl withClass (classesOf v) := by
      rw [h]
      rfl
    rw [h (f v), hclasses, foldl_withClass_of_mem fun n hn => mem_foldl_withClass.mpr (.inr hn), h]

/-- To take on parts a second time changes nothing. -/
theorem applyParts_again {e : Element} (h : (e.attributes.map Prod.fst).Nodup) (parts : List Part) :
    applyParts false parts (applyParts false parts e) = applyParts false parts e := by
  have hnames : (applyParts false parts (applyParts false parts e)).attributes.map Prod.fst =
      (applyParts false parts e).attributes.map Prod.fst :=
    names_applyParts_of_mem fun part hpart name hname => mem_names_applyParts (.inr ⟨part, hpart, hname⟩)
  have hvalues : ∀ name, (applyParts false parts (applyParts false parts e)).get? name =
      (applyParts false parts e).get? name := by
    intro name
    rw [get?_applyParts, get?_applyParts]
    exact (effect_foldl name parts).again (e.get? name)
  have hattributes := Attributes.ext_get? hnames (hnames ▸ nodup_applyParts h) hvalues
  have hname := name_applyParts false parts (applyParts false parts e)
  generalize applyParts false parts (applyParts false parts e) = twice at hattributes hname
  generalize applyParts false parts e = once at hattributes hname
  cases twice
  cases once
  exact congr (congrArg Element.mk hname) hattributes

end Variant
end Stylebook
