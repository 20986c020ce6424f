import Stylebook.Proofs.Variant.Parts

/-! The attributes that parts leave on an element, and that matching finds them there. A part does one of three things:
    nothing, to set an attribute to a text of its own, or to add a class (`applyPart_cases`). So attributes that no
    part writes stay as they are, the last part that sets an attribute decides its value, and classes add up. Where no
    two parts meet in one attribute, class parts apart, every part that writes one holds for the element afterwards. -/

namespace Stylebook
namespace Variant

open Markup (Attributes Element classesOf)
open Selector (Part Place)

/-! ### One part -/

/-- The text that a part sets its attribute to. A class part sets none: it adds to what is there. -/
def statedText? : Part → Option Text
  | .id name => some name
  | .attribute _ value => some (value.getD [])
  | .pseudo name _ => some name
  | _ => none

/-- The classes with one more, if it is new or `again` is set. -/
def addClass (again : Bool) (classes : List Text) (name : Text) : List Text :=
  if again then classes ++ [name] else withClass classes name

theorem applyPart_className (again : Bool) (e : Element) (name : Text) :
    applyPart again e (.className name) = e.set "class".text (.tokens (addClass again e.classes name)) := by
  rw [applyPart, addClass, withClass]
  cases again with
  | true => rfl
  | false => cases e.classes.contains name <;> rfl

/-- All that a part can do: nothing, to set an attribute to a text, or to add a class. -/
theorem applyPart_cases (again : Bool) (e : Element) : ∀ part : Part,
    (writes? part = none ∧ applyPart again e part = e) ∨
    (∃ name t, writes? part = some name ∧ statedText? part = some t ∧
      applyPart again e part = e.set name (.plain t)) ∨
    ∃ name, part = .className name ∧
      applyPart again e part = e.set "class".text (.tokens (addClass again e.classes name))
  | .tag _ => .inl ⟨rfl, rfl⟩
  | .universal => .inl ⟨rfl, rfl⟩
  | .descendant => .inl ⟨rfl, rfl⟩
  | .id _ => .inr (.inl ⟨_, _, rfl, rfl, rfl⟩)
  | .attribute _ _ => .inr (.inl ⟨_, _, rfl, rfl, rfl⟩)
  | .pseudo _ _ => .inr (.inl ⟨_, _, rfl, rfl, rfl⟩)
  | .className name => .inr (.inr ⟨name, rfl, applyPart_className again e name⟩)

section
variable {again : Bool} {parts : List Part} {part : Part} {e : Element} {name : Text}

theorem applyParts_append (again : Bool) (front back : List Part) (e : Element) :
    applyParts again (front ++ back) e = applyParts again back (applyParts again front e) := List.foldl_append

/-! ### Names -/

/-- The names that parts write and that are not there yet, in the order of their first mention. -/
def newNames (names : List Text) (parts : List Part) : List Text :=
  ((parts.filterMap writes?).filter fun name => !names.contains name).eraseDups

theorem newNames_cons_of_none {names : List Text} (h : writes? part = none) :
    newNames names (part :: parts) = newNames names parts := by
  rw [newNames, List.filterMap_cons_none h, newNames]

theorem newNames_cons_of_mem {names : List Text} (h : writes? part = some name) (hin : name ∈ names) :
    newNames names (part :: parts) = newNames names parts := by
  rw [newNames, List.filterMap_cons_some h, List.filter_cons_of_neg (by simpa using hin), newNames]

theorem newNames_cons_of_not_mem {names : List Text} (h : writes? part = some name) (hnot : name ∉ names) :
    newNames names (part :: parts) = name :: newNames (names ++ [name]) parts := by
  rw [newNames, List.filterMap_cons_some h, List.filter_cons_of_pos (by simpa using hnot), List.eraseDups_cons,
    List.filter_filter, newNames]
  refine congrArg (fun ts => name :: List.eraseDups ts) (List.filter_congr fun other _ => ?_)
  rw [Bool.eq_iff_iff]
  simp [and_comm]

/-- The names that were there stay in their order, and the new ones follow in the order of their first mention. -/
theorem names_applyParts (again : Bool) (parts : List Part) (e : Element) :
    (applyParts again parts e).attributes.map Prod.fst =
      e.attributes.map Prod.fst ++ newNames (e.attributes.map Prod.fst) parts := by
  induction parts generalizing e with
  | nil => exact (List.append_nil _).symm
  | cons part parts ih =>
    have hstep := names_applyPart again e part
    refine (ih (applyPart again e part)).trans ?_
    cases hwrites : writes? part with
    | none =>
      rw [hwrites] at hstep
      rw [hstep, newNames_cons_of_none hwrites]
    | some name =>
      rw [hwrites] at hstep
      dsimp only at hstep
      split at hstep
      · rename_i hin
        rw [hstep, newNames_cons_of_mem hwrites hin]
      · rename_i hnot
        rw [hstep, newNames_cons_of_not_mem hwrites hnot, List.append_assoc, List.singleton_append]

/-! ### Values -/

theorem get?_applyPart_of_ne (h : writes? part ≠ some name) :
    (applyPart again e part).get? name = e.get? name := by
  rcases applyPart_cases again e part with ⟨-, heq⟩ | ⟨other, t, hother, -, heq⟩ | ⟨n, rfl, heq⟩
  · rw [heq]
  · rw [heq, get?_set, if_neg]
    rintro rfl
    exact h hother
  · rw [heq, get?_set, if_neg]
    rintro rfl
    exact h rfl

/-- An attribute that no part writes keeps its value. -/
theorem get?_applyParts_of_ne (h : ∀ part ∈ parts, writes? part ≠ some name) :
    (applyParts again parts e).get? name = e.get? name := by
  induction parts generalizing e with
  | nil => rfl
  | cons part parts ih =>
    obtain ⟨hpart, hrest⟩ := List.forall_mem_cons.mp h
    exact (ih hrest).trans (get?_applyPart_of_ne hpart)

theorem get?_applyPart_stated {t : Text} (h : writes? part = some name) (ht : statedText? part = some t) :
    (applyPart again e part).get? name = some (.plain t) := by
  rcases applyPart_cases again e part with ⟨hnone, -⟩ | ⟨other, u, hother, hu, heq⟩ | ⟨n, rfl, -⟩
  · cases hnone.symm.trans h
  · cases hother.symm.trans h
    cases hu.symm.trans ht
    rw [heq, get?_set, if_pos rfl]
  · cases ht

/-- The last part that sets an attribute decides its value. -/
theorem get?_applyParts_stated {front back : List Part} {t : Text} (h : writes? part = some name)
    (ht : statedText? part = some t) (hback : ∀ other ∈ back, writes? other ≠ some name) :
    (applyParts again (front ++ part :: back) e).get? name = some (.plain t) := by
  rw [applyParts_append]
  exact (get?_applyParts_of_ne hback).trans (get?_applyPart_stated h ht)

theorem statedText?_isSome (h : writes? part = some name) (hclass : name ≠ "class".text) :
    ∃ t, statedText? part = some t := by
  rcases applyPart_cases false ⟨[], []⟩ part with ⟨hnone, -⟩ | ⟨-, t, -, ht, -⟩ | ⟨n, rfl, -⟩
  · cases hnone.symm.trans h
  · exact ⟨t, ht⟩
  · exact absurd (Option.some.inj h).symm hclass

/-! ### Classes -/

/-- The class that a part adds. -/
def addedClass? : Part → Option Text
  | .className name => some name
  | _ => none

theorem eq_className (h : (addedClass? part).isSome) : ∃ name, part = .className name := by
  fun_cases addedClass? part with
  | case1 name => exact ⟨name, rfl⟩
  | case2 => simp_all [addedClass?]

/-- Only class parts write the classes. -/
def AddsClasses (parts : List Part) : Prop :=
  ∀ part ∈ parts, writes? part = some "class".text → ∃ name, part = .className name

theorem addsClasses_of_not_mem (hattribute : ∀ value, .attribute "class".text value ∉ parts)
    (hpseudo : ∀ argument, .pseudo "class".text argument ∉ parts) : AddsClasses parts := by
  intro part hpart hwrites
  fun_cases writes? part with
  | case1 name => exact absurd (Option.some.inj hwrites) (by decide)
  | case2 name => exact ⟨name, rfl⟩
  | case3 name value =>
    cases hwrites
    exact absurd hpart (hattribute value)
  | case4 name argument =>
    cases hwrites
    exact absurd hpart (hpseudo argument)
  | case5 => simp_all [writes?]

theorem classes_applyPart (h : writes? part = some "class".text → ∃ name, part = .className name) :
    (applyPart again e part).classes = (addedClass? part).toList.foldl (addClass again) e.classes := by
  by_cases hwrites : writes? part = some "class".text
  · obtain ⟨name, rfl⟩ := h hwrites
    rw [applyPart_className, Element.classes_eq, get?_set, if_pos rfl]
    rfl
  · have hnone : addedClass? part = none := by
      cases part with
      | className name => exact absurd rfl hwrites
      | _ => rfl
    rw [hnone, Element.classes_eq, get?_applyPart_of_ne hwrites, ← Element.classes_eq]
    rfl

/-- The classes add up in the order of the parts. -/
theorem classes_applyParts (h : AddsClasses parts) :
    (applyParts again parts e).classes = (parts.filterMap addedClass?).foldl (addClass again) e.classes := by
  induction parts generalizing e with
  | nil => rfl
  | cons part parts ih =>
    obtain ⟨hpart, hrest⟩ := List.forall_mem_cons.mp h
    have hstep : (applyPart again e part).classes = _ := classes_applyPart hpart
    calc (applyParts again parts (applyPart again e part)).classes
        = (parts.filterMap addedClass?).foldl (addClass again) (applyPart again e part).classes := ih hrest
      _ = ((part :: parts).filterMap addedClass?).foldl (addClass again) e.classes := by
        rw [hstep]
        cases hadded : addedClass? part with
        | none => rw [List.filterMap_cons_none hadded]; rfl
        | some name => rw [List.filterMap_cons_some hadded]; rfl

theorem foldl_addClass_true (names classes : List Text) : names.foldl (addClass true) classes = classes ++ names := by
  induction names generalizing classes with
  | nil => exact (List.append_nil classes).symm
  | cons name names ih =>
    rw [List.foldl_cons, ih, addClass, if_pos rfl, List.append_assoc, List.singleton_append]

/-! ### Twice -/

section
variable {tag : Text} {value : Markup.Value} {attrs : Attributes}

theorem set_cons_of_ne {written : Text} (h : name ≠ written) (v : Markup.Value) :
    Element.set ⟨tag, (name, value) :: attrs⟩ written v =
      ⟨tag, (name, value) :: (Element.set ⟨tag, attrs⟩ written v).attributes⟩ := by
  rw [Element.set, Attributes.set, if_neg h]
  rfl

/-- A part that writes the first attribute leaves the others alone. -/
theorem applyPart_cons_self (h : writes? part = some name) :
    ∃ w, applyPart again ⟨tag, (name, value) :: attrs⟩ part = ⟨tag, (name, w) :: attrs⟩ := by
  have hset : ∀ w, Element.set ⟨tag, (name, value) :: attrs⟩ name w = ⟨tag, (name, w) :: attrs⟩ := by
    intro w
    rw [Element.set, Attributes.set, if_pos rfl]
  rcases applyPart_cases again ⟨tag, (name, value) :: attrs⟩ part with ⟨hnone, -⟩ | ⟨other, t, hother, -, heq⟩ |
    ⟨n, rfl, heq⟩
  · cases hnone.symm.trans h
  · cases hother.symm.trans h
    exact ⟨_, heq.trans (hset _)⟩
  · cases h
    exact ⟨_, heq.trans (hset _)⟩

/-- A part that does not write the first attribute does to the others what it would do without the first. -/
theorem applyPart_cons_of_ne (h : writes? part ≠ some name) :
    applyPart again ⟨tag, (name, value) :: attrs⟩ part =
      ⟨tag, (name, value) :: (applyPart again ⟨tag, attrs⟩ part).attributes⟩ := by
  have hne : ∀ {written : Text}, writes? part = some written → name ≠ written := by
    rintro written hwritten rfl
    exact h hwritten
  fun_cases writes? part with
  | case1 n => exact set_cons_of_ne (hne rfl) _
  | case2 n =>
    have hclasses : Element.classes ⟨tag, (name, value) :: attrs⟩ = Element.classes ⟨tag, attrs⟩ := by
      have hget : Element.get? ⟨tag, (name, value) :: attrs⟩ "class".text = Element.get? ⟨tag, attrs⟩ "class".text := by
        rw [Element.get?, Attributes.get?, List.lookup_cons, beq_eq_false_iff_ne.mpr (hne rfl).symm]
        rfl
      rw [Element.classes_eq, hget, ← Element.classes_eq]
    rw [applyPart, hclasses]
    exact set_cons_of_ne (hne rfl) _
  | case3 n v => exact set_cons_of_ne (hne rfl) _
  | case4 n argument => exact set_cons_of_ne (hne rfl) _
  | case5 => cases part <;> simp_all [writes?, applyPart]

theorem mk_applyParts (again : Bool) (parts : List Part) (tag : Text) (attrs : Attributes) :
    Element.mk tag (applyParts again parts ⟨tag, attrs⟩).attributes = applyParts again parts ⟨tag, attrs⟩ :=
  congrArg (Element.mk · _) (name_applyParts again parts ⟨tag, attrs⟩).symm

/-- Parts work on the first attribute and on the others apart: those that write its name, and the rest. -/
theorem applyParts_cons (again : Bool) (parts : List Part) (tag name : Text) (value : Markup.Value)
    (attrs : Attributes) : ∃ w, applyParts again parts ⟨tag, (name, value) :: attrs⟩ = ⟨tag, (name, w) ::
        (applyParts again (parts.filter fun part => writes? part != some name) ⟨tag, attrs⟩).attributes⟩ := by
  induction parts generalizing value attrs with
  | nil => exact ⟨value, rfl⟩
  | cons part parts ih =>
    by_cases hwrites : writes? part = some name
    · obtain ⟨v, hstep⟩ := @applyPart_cons_self again part name tag value attrs hwrites
      obtain ⟨w, hrun⟩ := ih v attrs
      refine ⟨w, ?_⟩
      rw [List.filter_cons_of_neg (by simp [hwrites]), ← hrun, ← hstep]
      rfl
    · obtain ⟨w, hrun⟩ := ih value (applyPart again ⟨tag, attrs⟩ part).attributes
      have hrest : Element.mk tag (applyPart again ⟨tag, attrs⟩ part).attributes =
          applyPart again ⟨tag, attrs⟩ part := mk_applyParts again [part] tag attrs
      rw [hrest, ← applyPart_cons_of_ne hwrites] at hrun
      refine ⟨w, ?_⟩
      rw [List.filter_cons_of_pos (by simp [hwrites])]
      exact hrun

end

/-- To take on the same parts twice is to take them on once. -/
theorem applyParts_twice (parts : List Part) (e : Element) :
    applyParts false parts (applyParts false parts e) = applyParts false parts e := by
  obtain ⟨tag, attrs⟩ := e
  induction attrs generalizing parts with
  | nil => exact applyParts_again (by simp) parts
  | cons a attrs ih =>
    obtain ⟨name, value⟩ := a
    obtain ⟨v, honce⟩ := applyParts_cons false parts tag name value attrs
    obtain ⟨w, htwice⟩ := applyParts_cons false parts tag name v
      (applyParts false (parts.filter fun part => writes? part != some name) ⟨tag, attrs⟩).attributes
    have hfirst : parts.foldl (valueAfter name) (some value) = some v := by
      have hget := get?_applyParts ⟨tag, (name, value) :: attrs⟩ parts name
      simpa [honce, Element.get?, Attributes.get?] using hget.symm
    have hsecond : parts.foldl (valueAfter name) (some v) = some w := by
      have hget := get?_applyParts ⟨tag, (name, v) ::
        (applyParts false (parts.filter fun part => writes? part != some name) ⟨tag, attrs⟩).attributes⟩ parts name
      simpa [htwice, Element.get?, Attributes.get?] using hget.symm
    have hsame : w = v := by
      have hagain := (effect_foldl name parts).again (some value)
      rw [hfirst, hsecond] at hagain
      exact Option.some.inj hagain
    rw [honce, htwice, hsame, mk_applyParts, ih]

end

/-- What parts leave on an element: the old names in their order and the new ones behind them in the order of their
    first mention; the values that no part writes; the text of the last part that writes an attribute other than
    `class`; and, unless an attribute or pseudo part is named `class`, the old classes with those of the parts behind
    them, each if it is new or all of them if `again` is set. The same parts a second time change nothing. -/
theorem applyParts_leaves (again : Bool) (parts : List Part) (e : Element) :
    (applyParts again parts e).attributes.map Prod.fst =
      e.attributes.map Prod.fst ++ newNames (e.attributes.map Prod.fst) parts ∧
    (∀ name, (∀ part ∈ parts, writes? part ≠ some name) → (applyParts again parts e).get? name = e.get? name) ∧
    (∀ front part back name, parts = front ++ part :: back → writes? part = some name → name ≠ "class".text →
      (∀ other ∈ back, writes? other ≠ some name) →
      ∃ t, statedText? part = some t ∧ (applyParts again parts e).get? name = some (.plain t)) ∧
    ((∀ value, .attribute "class".text value ∉ parts) → (∀ argument, .pseudo "class".text argument ∉ parts) →
      (applyParts again parts e).classes =
        if again then e.classes ++ parts.filterMap addedClass?
        else (parts.filterMap addedClass?).foldl withClass e.classes) ∧
    applyParts false parts (applyParts false parts e) = applyParts false parts e := by
  refine ⟨names_applyParts again parts e, fun name => get?_applyParts_of_ne, ?_, ?_, applyParts_twice parts e⟩
  · rintro front part back name rfl hwrites hclass hback
    obtain ⟨t, ht⟩ := statedText?_isSome hwrites hclass
    exact ⟨t, ht, get?_applyParts_stated hwrites ht hback⟩
  · intro hattribute hpseudo
    rw [classes_applyParts (addsClasses_of_not_mem hattribute hpseudo)]
    cases again with
    | true => exact foldl_addClass_true _ _
    | false => rfl

/-- A link, and parts that meet in its attributes. -/
def linkElement : Element :=
  ⟨"a".text, [("class".text, .plain "b  c".text), ("href".text, .plain "/".text), ("rel".text, .tokens ["up".text])]⟩

def linkParts : List Part :=
  [.className "d".text, .id "x".text, .attribute "href".text (some "#".text), .className "b".text,
    .pseudo "on".text none, .attribute "id".text none, .className "d".text]

theorem applyParts_leaves_link :
    (applyParts false linkParts linkElement).attributes.map Prod.fst =
      ["class".text, "href".text, "rel".text, "id".text, "on".text] ∧
    (applyParts false linkParts linkElement).get? "rel".text = some (.tokens ["up".text]) ∧
    (applyParts false linkParts linkElement).get? "id".text = some (.plain []) ∧
    (applyParts false linkParts linkElement).classes = ["b".text, "c".text, "d".text] ∧
    (applyParts true linkParts linkElement).classes =
      ["b".text, "c".text, "d".text, "b".text, "d".text] ∧
    applyParts false linkParts (applyParts false linkParts linkElement) = applyParts false linkParts linkElement := by
  have hattribute : ∀ value, .attribute "class".text value ∉ linkParts := by simp [linkParts, String.text]
  have hpseudo : ∀ argument, .pseudo "class".text argument ∉ linkParts := by simp [linkParts, String.text]
  obtain ⟨hnames, hkept, hlast, hclasses, htwice⟩ := applyParts_leaves false linkParts linkElement
  obtain ⟨-, -, -, hmore, -⟩ := applyParts_leaves true linkParts linkElement
  obtain ⟨t, ht, hid⟩ := hlast (linkParts.take 5) (.attribute "id".text none) [.className "d".text] "id".text rfl rfl
    (by decide) (by decide)
  cases ht
  refine ⟨hnames.trans (by decide), hkept _ (by decide), hid, ?_, ?_, htwice⟩
  · exact (hclasses hattribute hpseudo).trans (by decide)
  · exact (hmore hattribute hpseudo).trans (by decide)

/-! ### Matching -/

section
variable {again : Bool} {parts : List Part} {part : Part} {e : Element} {n : Text}

/-- A class among the tokens of the classes. -/
def HasClass (e : Element) (name : Text) : Prop := ∃ ts, e.get? "class".text = some (.tokens ts) ∧ name ∈ ts

theorem mem_addClass {classes : List Text} {name : Text} :
    n ∈ addClass again classes name ↔ n ∈ classes ∨ n = name := by
  unfold addClass
  split
  · simp
  · exact mem_withClass

theorem hasClass_applyPart (again : Bool) (e : Element) (n : Text) : HasClass (applyPart again e (.className n)) n := by
  refine ⟨addClass again e.classes n, ?_, mem_addClass.mpr (.inr rfl)⟩
  rw [applyPart_className, get?_set, if_pos rfl]

/-- A class stays under parts that add classes or leave them alone. -/
theorem HasClass.applyPart (h : HasClass e n)
    (hpart : writes? part = some "class".text → ∃ name, part = .className name) : HasClass (applyPart again e part) n := by
  obtain ⟨ts, hget, hin⟩ := h
  by_cases hwrites : writes? part = some "class".text
  · obtain ⟨name, rfl⟩ := hpart hwrites
    have hclasses : e.classes = ts := by
      rw [Element.classes_eq, hget]
      rfl
    refine ⟨addClass again ts name, ?_, mem_addClass.mpr (.inl hin)⟩
    rw [applyPart_className, hclasses, get?_set, if_pos rfl]
  · exact ⟨ts, (get?_applyPart_of_ne hwrites).trans hget, hin⟩

theorem HasClass.applyParts (h : HasClass e n) (hparts : AddsClasses parts) : HasClass (applyParts again parts e) n := by
  induction parts generalizing e with
  | nil => exact h
  | cons part parts ih =>
    obtain ⟨hpart, hrest⟩ := List.forall_mem_cons.mp hparts
    exact ih (h.applyPart hpart) hrest

theorem holds_className {p : Place} (h : HasClass p.element n) : Part.holds p (.className n) = true := by
  obtain ⟨ts, hget, hin⟩ := h
  rw [Part.holds, hget]
  exact List.contains_iff_mem.mpr hin

/-- A part holds where its attribute has the text it sets. -/
theorem holds_of_stated {p : Place} {name t : Text} (h : writes? part = some name) (ht : statedText? part = some t)
    (hget : p.element.get? name = some (.plain t))
    (hplace : ∀ name argument, part = .pseudo name argument → name ≠ "first-child".text ∧ name ≠ "last-child".text) :
    Part.holds p part = true := by
  have htext : p.element.attributeText? name = some t := by
    rw [Element.attributeText?, hget]
    rfl
  have hhas : p.element.has name = true := by
    rw [Element.has, hget]
    rfl
  fun_cases statedText? part with
  | case1 id =>
    cases h
    cases ht
    exact beq_iff_eq.mpr htext
  | case2 other value =>
    cases h
    cases ht
    cases value with
    | none => exact hhas
    | some v => exact beq_iff_eq.mpr htext
  | case3 other argument =>
    cases h
    obtain ⟨hfirst, hlast⟩ := hplace _ _ rfl
    rw [Part.holds, if_neg hfirst, if_neg hlast]
    exact hhas
  | case4 => cases part <;> simp_all [statedText?]

end

/-- Every attribute is written by one part alone or by class parts only. -/
def WritesApart (parts : List Part) : Prop :=
  ∀ part ∈ parts, ∀ name ∈ writes? part, parts.countP (fun other => writes? other == some name) = 1 ∨
    ∀ other ∈ parts, writes? other = some name → (addedClass? other).isSome

instance : DecidablePred WritesApart := fun parts =>
  inferInstanceAs (Decidable (∀ part ∈ parts, ∀ name ∈ writes? part,
    parts.countP (fun other => writes? other == some name) = 1 ∨
      ∀ other ∈ parts, writes? other = some name → (addedClass? other).isSome))

/-- The only part that writes an attribute is the last one that does. -/
theorem not_writes_behind {front back : List Part} {part : Part} {name : Text} (h : writes? part = some name)
    (hone : (front ++ part :: back).countP (fun other => writes? other == some name) = 1) :
    ∀ other ∈ back, writes? other ≠ some name := by
  rw [List.countP_append, List.countP_cons_of_pos (by simpa using h)] at hone
  have hback : back.countP (fun other => writes? other == some name) = 0 := by omega
  intro other hother hwrites
  exact List.countP_eq_zero.mp hback other hother (beq_iff_eq.mpr hwrites)

/-- Matching reads what parts write: if every attribute is written by one part alone or by class parts only, then each
    part that writes an attribute holds for the element that has taken them on, wherever that stands. -/
theorem holds_applyParts {parts : List Part} (hapart : WritesApart parts)
    (hplaces : ∀ name argument, .pseudo name argument ∈ parts → name ≠ "first-child".text ∧ name ≠ "last-child".text)
    (again : Bool) (p : Place) {part : Part} (hpart : part ∈ parts) (hwrites : (writes? part).isSome) :
    Part.holds { p with element := applyParts again parts p.element } part = true := by
  obtain ⟨name, hname⟩ := Option.isSome_iff_exists.mp hwrites
  have hmeets := hapart part hpart name hname
  obtain ⟨front, back, rfl⟩ := List.append_of_mem hpart
  cases hstated : statedText? part with
  | some t =>
    -- a part that is no class part is the only one to write its attribute
    have hone : (front ++ part :: back).countP (fun other => writes? other == some name) = 1 := by
      refine hmeets.resolve_right fun hclasses => ?_
      obtain ⟨n, rfl⟩ := eq_className (hclasses part hpart hname)
      cases hstated
    refine holds_of_stated hname hstated ?_ fun other argument heq => hplaces other argument (heq ▸ hpart)
    exact get?_applyParts_stated hname hstated (not_writes_behind hname hone)
  | none =>
    obtain ⟨n, rfl⟩ : ∃ n, part = .className n := by
      rcases applyPart_cases again p.element part with ⟨hnone, -⟩ | ⟨_, t, -, ht, -⟩ | ⟨n, heq, -⟩
      · cases hnone.symm.trans hname
      · cases hstated.symm.trans ht
      · exact ⟨n, heq⟩
    cases hname
    have hback : AddsClasses back := by
      intro other hother hclass
      rcases hmeets with hone | hclasses
      · exact absurd hclass (not_writes_behind rfl hone other hother)
      · exact eq_className (hclasses other (List.mem_append_right _ (List.mem_cons_of_mem _ hother)) hclass)
    refine holds_className ?_
    show HasClass (applyParts again (front ++ .className n :: back) p.element) n
    rw [applyParts_append]
    exact (hasClass_applyPart again _ n).applyParts hback

/-- A field with a class, and parts that write each attribute once, the classes apart. -/
def fieldPlace : Place := ⟨⟨"input".text, [("class".text, .plain "b c".text)]⟩, false, true⟩

def fieldParts : List Part :=
  [.tag "input".text, .className "a".text, .id "x".text, .attribute "title".text none, .className "b".text,
    .attribute "type".text (some "text".text), .pseudo "disabled".text none, .className "a".text]

theorem holds_applyParts_field :
    WritesApart fieldParts ∧
    (∀ name argument, .pseudo name argument ∈ fieldParts → name ≠ "first-child".text ∧ name ≠ "last-child".text) ∧
    ∀ again, ∀ part ∈ fieldParts, (writes? part).isSome →
      Part.holds { fieldPlace with element := applyParts again fieldParts fieldPlace.element } part = true := by
  have hapart : WritesApart fieldParts := by decide
  have hplaces : ∀ name argument, .pseudo name argument ∈ fieldParts →
      name ≠ "first-child".text ∧ name ≠ "last-child".text := by
    intro name argument hin
    obtain ⟨rfl, -⟩ : name = "disabled".text ∧ argument = none := by simpa [fieldParts] using hin
    decide
  exact ⟨hapart, hplaces, fun again part hpart => holds_applyParts hapart hplaces again fieldPlace hpart⟩

end Variant
end Stylebook
