import Mathlib.Data.List.Infix
import Stylebook.Proofs.Selector.Writing

/-! The texts of a selector. What a reader finds in a selector stands there: every name and value that a part sets on
    an element is a piece of the selector (`infix_of_parse`), and the names are made as names are (`isNamed_of_parse`).
    Names of tags are left out: they are lower-cased, and set nothing. -/

namespace Stylebook
namespace Selector

/-- The names and the value that a part sets. -/
def Part.texts : Part → List Text
  | .id name => [name]
  | .className name => [name]
  | .attribute name value => name :: value.toList
  | .pseudo name _ => [name]
  | _ => []

/-! ### Readers -/

theorem pieces_of_name? {t n r : Text} (h : name? t = some (n, r)) : n <:+: t ∧ r <:+ t := by
  unfold name? at h
  split at h
  · cases h
  · cases h
    exact ⟨(List.takeWhile_prefix _).isInfix, List.dropWhile_suffix _⟩

theorem suffix_of_closeBracket? {t r : Text} (h : closeBracket? t = some r) : r <:+ t := by
  unfold closeBracket? at h
  split at h
  · next heq =>
    cases h
    exact (List.suffix_cons _ _).trans (heq ▸ Text.skipBlanks_suffix t)
  · cases h

theorem pieces_of_quotedValue? {q : Char} {t v r : Text} (h : quotedValue? q t = some (v, r)) : v <:+: t ∧ r <:+ t := by
  cases t with
  | nil => cases h
  | cons c t =>
    rw [quotedValue?] at h
    split at h
    · split at h
      · cases h
      · next d rest heq =>
        rw [Option.map_eq_some_iff] at h
        obtain ⟨rest', hclose, hpair⟩ := h
        cases hpair
        have hrest : d :: rest <:+ t := heq ▸ List.dropWhile_suffix _
        have hback := ((suffix_of_closeBracket? hclose).trans (List.suffix_cons d rest)).trans hrest
        exact ⟨(List.takeWhile_prefix _).isInfix.trans (List.suffix_cons c t).isInfix,
          hback.trans (List.suffix_cons c t)⟩
    · cases h

theorem pieces_of_value? {t v r : Text} (h : value? t = some (v, r)) : v <:+: t ∧ r <:+ t := by
  unfold value? at h
  split at h
  · next heq =>
    cases h
    exact pieces_of_quotedValue? heq
  · split at h
    · next heq =>
      cases h
      exact pieces_of_quotedValue? heq
    · rw [bareValue?, Option.map_eq_some_iff] at h
      obtain ⟨rest, hclose, hpair⟩ := h
      cases hpair
      exact ⟨(List.takeWhile_prefix _).isInfix, (suffix_of_closeBracket? hclose).trans (List.dropWhile_suffix _)⟩

theorem pieces_of_attribute? {t r : Text} {p : Part} (h : attribute? t = some (p, r)) :
    (∀ u ∈ p.texts, u <:+: t) ∧ r <:+ t := by
  unfold attribute? at h
  split at h
  · cases h
  · next name rest hname =>
    obtain ⟨hn, hrest⟩ := pieces_of_name? hname
    have hskip := Text.skipBlanks_suffix t
    have hn' : name <:+: t := hn.trans hskip.isInfix
    have hrest' : Text.skipBlanks rest <:+ t := ((Text.skipBlanks_suffix rest).trans hrest).trans hskip
    split at h
    · next heq =>
      cases h
      rw [heq] at hrest'
      exact ⟨by simpa [Part.texts] using hn', (List.suffix_cons _ _).trans hrest'⟩
    · next r' heq =>
      rw [heq] at hrest'
      rw [Option.map_eq_some_iff] at h
      obtain ⟨⟨v, rest'⟩, hvalue, hpair⟩ := h
      cases hpair
      obtain ⟨hv, hr⟩ := pieces_of_value? hvalue
      have hback : Text.skipBlanks r' <:+ t := (Text.skipBlanks_suffix r').trans ((List.suffix_cons _ _).trans hrest')
      exact ⟨by simpa [Part.texts] using ⟨hn', hv.trans hback.isInfix⟩, hr.trans hback⟩
    · cases h

theorem pieces_of_pseudo? {t r : Text} {p : Part} (h : pseudo? t = some (p, r)) :
    (∀ u ∈ p.texts, u <:+: t) ∧ r <:+ t := by
  unfold pseudo? at h
  split at h
  · cases h
  · next name rest hname =>
    obtain ⟨hn, hrest⟩ := pieces_of_name? hname
    have htexts : ∀ argument, ∀ u ∈ (Part.pseudo name argument).texts, u <:+: t := by
      intro argument
      simpa [Part.texts] using hn
    split at h
    · next a =>
      split at h
      · next heq =>
        cases h
        have hclose := List.dropWhile_suffix (l := a) isArgumentChar
        rw [heq] at hclose
        exact ⟨htexts _, (((List.suffix_cons _ _).trans hclose).trans (List.suffix_cons _ _)).trans hrest⟩
      · cases h
        exact ⟨htexts _, hrest⟩
    · cases h
      exact ⟨htexts _, hrest⟩

theorem pieces_of_lexeme? {t r : Text} {l : Lexeme} (h : lexeme? t = some (l, r)) :
    (∀ p, l = .part p → ∀ u ∈ p.texts, u <:+: t) ∧ r <:+ t := by
  cases t with
  | nil => cases h
  | cons c t =>
    have hmarked : ∀ {p : Part} {r : Text}, (∀ u ∈ p.texts, u <:+: t) → r <:+ t →
        (∀ p', Lexeme.part p = .part p' → ∀ u ∈ p'.texts, u <:+: c :: t) ∧ r <:+ c :: t := by
      intro p r htexts hr
      refine ⟨?_, hr.trans (List.suffix_cons c t)⟩
      rintro _ ⟨⟩ u hu
      exact (htexts u hu).trans (List.suffix_cons c t).isInfix
    rw [lexeme?] at h
    repeat' split at h
    all_goals simp only [Option.map_eq_some_iff, Option.some.injEq, Prod.mk.injEq, Prod.exists] at h
    · obtain ⟨rfl, rfl⟩ := h
      exact ⟨by simp, (Text.skipBlanks_suffix t).trans (List.suffix_cons c t)⟩
    · obtain ⟨rfl, rfl⟩ := h
      exact ⟨by simp, List.suffix_cons c t⟩
    · obtain ⟨n, r', hname, rfl, rfl⟩ := h
      obtain ⟨hn, hr⟩ := pieces_of_name? hname
      exact hmarked (by simpa [Part.texts] using hn) hr
    · obtain ⟨n, r', hname, rfl, rfl⟩ := h
      obtain ⟨hn, hr⟩ := pieces_of_name? hname
      exact hmarked (by simpa [Part.texts] using hn) hr
    · obtain ⟨p, r', hread, rfl, rfl⟩ := h
      obtain ⟨htexts, hr⟩ := pieces_of_attribute? hread
      exact hmarked htexts hr
    · obtain ⟨p, r', hread, rfl, rfl⟩ := h
      obtain ⟨htexts, hr⟩ := pieces_of_pseudo? hread
      exact hmarked htexts hr
    · obtain ⟨rfl, rfl⟩ := h
      exact hmarked (by simp [Part.texts]) List.suffix_rfl
    · obtain ⟨n, r', hname, rfl, rfl⟩ := h
      refine ⟨?_, (pieces_of_name? hname).2⟩
      rintro _ ⟨⟩ u hu
      cases hu

/-! ### Groups -/

theorem infix_of_mem_scan {t : Text} {p : Part} (h : .part p ∈ (scan t).1) : ∀ u ∈ p.texts, u <:+: t := by
  fun_induction scan t with
  | case1 t _ => cases h
  | case2 t l r hread ls rest hscan ih =>
    obtain ⟨htexts, hr⟩ := pieces_of_lexeme? hread
    intro u hu
    rcases List.mem_cons.mp h with hl | hin
    · exact htexts p hl.symm u hu
    · rw [hscan] at ih
      exact (ih hin u hu).trans hr.isInfix

/-- The parts of groups are those of the lexemes, with descendant marks between them. -/
theorem mem_of_groups {selector : Text} {fault : Option Error} {current : Group} {pending : Bool}
    {lexemes : List Lexeme} {gs : List Group} (h : groups selector fault current pending lexemes = .ok gs) {g : Group}
    (hg : g ∈ gs) {p : Part} (hp : p ∈ g) : p ∈ current ∨ p = .descendant ∨ .part p ∈ lexemes := by
  fun_induction groups selector fault current pending lexemes generalizing gs with
  | case1 => cases h
  | case2 => cases h
  | case3 current pending hne =>
    cases h
    rw [List.mem_singleton.mp hg] at hp
    exact .inl hp
  | case4 current pending r ih =>
    exact (ih h hg).imp id fun hrest => hrest.imp id (List.mem_cons_of_mem _)
  | case5 => cases h
  | case6 current pending r hne ih =>
    cases hrest : groups selector fault [] false r with
    | error e =>
      rw [hrest] at h
      cases h
    | ok more =>
      rw [hrest] at h
      cases h
      rcases List.mem_cons.mp hg with rfl | hin
      · exact .inl hp
      · rcases ih hrest hin with hnil | hrest
        · cases hnil
        · exact .inr (hrest.imp id (List.mem_cons_of_mem _))
  | case7 current pending q r ih =>
    have hadded : ∀ x ∈ (if pending then [.descendant, q] else [q] : List Part), x = .descendant ∨ x = q := by
      intro x hx
      split at hx
      · simpa using hx
      · exact .inr (by simpa using hx)
    rcases ih h hg with hin | hrest
    · rcases List.mem_append.mp hin with hin | hin
      · exact .inl hin
      · rcases hadded p hin with heq | rfl
        · exact .inr (.inl heq)
        · exact .inr (.inr List.mem_cons_self)
    · exact .inr (hrest.imp id (List.mem_cons_of_mem _))

/-- Every name and value that a part of a selector sets stands in the selector. -/
theorem infix_of_parse {selector : Text} {gs : List Group} (h : parse selector = .ok gs) {g : Group} (hg : g ∈ gs)
    {p : Part} (hp : p ∈ g) : ∀ u ∈ p.texts, u <:+: selector := by
  unfold parse at h
  dsimp only at h
  split at h
  · cases h
    cases hg
  · intro u hu
    rcases mem_of_groups h hg hp with hnil | rfl | hin
    · cases hnil
    · cases hu
    · exact (infix_of_mem_scan hin u hu).trans (Text.trimBy_infix _ _)

/-! ### Names -/

/-- What a part sets bears a name. -/
def Part.IsNamed : Part → Prop
  | .id name => Name name
  | .className name => Name name
  | .attribute name _ => Name name
  | .pseudo name _ => Name name
  | _ => True

theorem Name.of_name? {t n r : Text} (h : name? t = some (n, r)) : Name n := by
  unfold name? at h
  split at h
  · cases h
  · next hne =>
    cases h
    exact ⟨hne, fun c hc => List.mem_takeWhile_imp hc⟩

theorem isNamed_of_attribute? {t r : Text} {p : Part} (h : attribute? t = some (p, r)) : p.IsNamed := by
  unfold attribute? at h
  split at h
  · cases h
  · next name rest hname =>
    have hn : Name name := .of_name? hname
    split at h
    · cases h
      exact hn
    · rw [Option.map_eq_some_iff] at h
      obtain ⟨⟨v, rest'⟩, -, hpair⟩ := h
      cases hpair
      exact hn
    · cases h

theorem isNamed_of_pseudo? {t r : Text} {p : Part} (h : pseudo? t = some (p, r)) : p.IsNamed := by
  unfold pseudo? at h
  split at h
  · cases h
  · next name rest hname =>
    have hn : Name name := .of_name? hname
    repeat' split at h
    all_goals
      cases h
      exact hn

theorem isNamed_of_lexeme? {t r : Text} {p : Part} (h : lexeme? t = some (.part p, r)) : p.IsNamed := by
  cases t with
  | nil => cases h
  | cons c t =>
    rw [lexeme?] at h
    repeat' split at h
    all_goals simp only [Option.map_eq_some_iff, Option.some.injEq, Prod.mk.injEq, Prod.exists, Lexeme.part.injEq,
      reduceCtorEq, false_and] at h
    · obtain ⟨n, r', hname, rfl, -⟩ := h
      exact Name.of_name? hname
    · obtain ⟨n, r', hname, rfl, -⟩ := h
      exact Name.of_name? hname
    · obtain ⟨p, r', hread, rfl, -⟩ := h
      exact isNamed_of_attribute? hread
    · obtain ⟨p, r', hread, rfl, -⟩ := h
      exact isNamed_of_pseudo? hread
    · obtain ⟨rfl, -⟩ := h
      trivial
    · obtain ⟨n, r', -, rfl, -⟩ := h
      trivial

theorem isNamed_of_mem_scan {t : Text} {p : Part} (h : .part p ∈ (scan t).1) : p.IsNamed := by
  fun_induction scan t with
  | case1 t _ => cases h
  | case2 t l r hread ls rest hscan ih =>
    rcases List.mem_cons.mp h with rfl | hin
    · exact isNamed_of_lexeme? hread
    · rw [hscan] at ih
      exact ih hin

theorem isNamed_of_parse {selector : Text} {gs : List Group} (h : parse selector = .ok gs) {g : Group} (hg : g ∈ gs)
    {p : Part} (hp : p ∈ g) : p.IsNamed := by
  unfold parse at h
  dsimp only at h
  split at h
  · cases h
    cases hg
  · rcases mem_of_groups h hg hp with hnil | rfl | hin
    · cases hnil
    · trivial
    · exact isNamed_of_mem_scan hin

end Selector
end Stylebook
