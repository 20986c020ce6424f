import Stylebook.Proofs.Text.Lines
import Stylebook.Showcase.Build

/-! What the content of a tag says. A selector stands in braces or goes up to the first blank, and behind blanks its
    description may follow. Content that can be read in braces is read so, all other content that has a selector up
    to the first blank. There is no selector only where the content is empty or begins with a blank, and where
    blanks follow the first word and nothing else. -/

namespace Stylebook
namespace Showcase

/-! ### Forms of content -/

/-- Blanks, one at least. -/
def Gap (t : Text) : Prop := t ≠ [] ∧ ∀ c ∈ t, Text.isBlank c = true

/-- A text that begins with a character that is no blank. -/
def Solid (t : Text) : Prop := ∃ c r, t = c :: r ∧ Text.isBlank c = false

/-- What may stand behind a selector, and the description it gives. -/
inductive Follows : Text → Option Text → Prop
  | nothing : Follows [] none
  | description {gap d : Text} : Gap gap → Solid d → Follows (gap ++ d) (some d)

/-- A selector in braces. -/
structure InBraces (content selector : Text) (d : Option Text) : Prop where
  ne_nil : selector ≠ []
  no_brace : ∀ c ∈ selector, c ≠ '\x7b' ∧ c ≠ '\x7d'
  behind : ∃ behind, content = '\x7b' :: (selector ++ '\x7d' :: behind) ∧ Follows behind d

/-- A selector that goes up to the first blank. -/
structure Bare (content selector : Text) (d : Option Text) : Prop where
  ne_nil : selector ≠ []
  no_blank : ∀ c ∈ selector, Text.isBlank c = false
  behind : ∃ behind, content = selector ++ behind ∧ Follows behind d

/-- One word with nothing but blanks behind it. -/
def LoneWord (content : Text) : Prop :=
  ∃ word gap, content = word ++ gap ∧ word ≠ [] ∧ (∀ c ∈ word, Text.isBlank c = false) ∧ Gap gap

/-- Content that is empty, begins with a blank, or is a lone word. -/
def NoSelector (content : Text) : Prop :=
  content = [] ∨ (∃ c r, content = c :: r ∧ Text.isBlank c = true) ∨ LoneWord content

/-! ### Descriptions -/

theorem Follows.head_blank {t : Text} {d : Option Text} (h : Follows t d) : ∀ c ∈ t.head?, Text.isBlank c = true := by
  cases h with
  | nothing => rintro _ ⟨⟩
  | description hgap =>
    intro c hc
    rw [List.head?_append_of_ne_nil _ hgap.1] at hc
    exact hgap.2 c (List.mem_of_mem_head? hc)

theorem description?_gap {gap rest : Text} (hgap : Gap gap) (hrest : ∀ c ∈ rest.head?, Text.isBlank c = false) :
    description? (gap ++ rest) = if rest = [] then none else some (some rest) := by
  have hskip : Text.skipBlanks (gap ++ rest) = rest := Text.trimLeftBy_append hgap.2 hrest
  obtain ⟨b, gap, rfl⟩ := List.exists_cons_of_ne_nil hgap.1
  rw [List.cons_append] at hskip ⊢
  rw [description?, if_pos (hgap.2 b List.mem_cons_self), hskip]
  cases rest with
  | nil => rfl
  | cons c rest => rfl

theorem description?_eq_some_iff {t : Text} {d : Option Text} : description? t = some d ↔ Follows t d := by
  constructor
  · intro h
    obtain ⟨gap, rest, rfl, hgap, hrest⟩ := Text.exists_run Text.isBlank t
    by_cases hne : gap = []
    · subst hne
      cases rest with
      | nil =>
        cases h
        exact .nothing
      | cons c rest =>
        rw [List.nil_append, description?, if_neg (by simp [hrest c rfl])] at h
        cases h
    · rw [description?_gap ⟨hne, hgap⟩ hrest] at h
      cases rest with
      | nil => cases h
      | cons c rest =>
        cases h
        exact .description ⟨hne, hgap⟩ ⟨c, rest, rfl, hrest c rfl⟩
  · intro h
    cases h with
    | nothing => rfl
    | description hgap hd =>
      obtain ⟨c, r, rfl, hc⟩ := hd
      rw [description?_gap hgap (by rintro _ ⟨⟩; exact hc), if_neg (List.cons_ne_nil c r)]

/-- Behind a word there is no description to be read only if nothing but blanks follow. -/
theorem gap_of_description? {t : Text} (hhead : ∀ c ∈ t.head?, Text.isBlank c = true) (h : description? t = none) :
    Gap t := by
  obtain ⟨gap, rest, rfl, hgap, hrest⟩ := Text.exists_run Text.isBlank t
  have hne : gap ≠ [] := by
    rintro rfl
    cases rest with
    | nil => cases h
    | cons c rest => exact absurd (hhead c rfl) (by simp [hrest c rfl])
  rw [description?_gap ⟨hne, hgap⟩ hrest] at h
  split at h
  · rename_i hnil
    rw [hnil, List.append_nil]
    exact ⟨hne, hgap⟩
  · cases h

/-! ### Selectors -/

theorem bare?_append {word rest : Text} (hword : ∀ c ∈ word, Text.isBlank c = false)
    (hrest : ∀ c ∈ rest.head?, Text.isBlank c = true) :
    bare? (word ++ rest) = if word = [] then none else (description? rest).map (word, ·) := by
  have hinside : ∀ c ∈ word, (!Text.isBlank c) = true := fun c hc => by simp [hword c hc]
  have hend : ∀ c ∈ rest.head?, (!Text.isBlank c) = false := fun c hc => by simp [hrest c hc]
  have hdrop : (word ++ rest).dropWhile (!Text.isBlank ·) = rest := Text.trimLeftBy_append hinside hend
  rw [bare?, Text.takeWhile_append_of_head hinside hend, hdrop]
  cases word with
  | nil => rfl
  | cons c word => rfl

/-- Every content is a word, which may be empty, and what is behind it. -/
theorem exists_word (t : Text) : ∃ word rest, t = word ++ rest ∧ (∀ c ∈ word, Text.isBlank c = false) ∧
    ∀ c ∈ rest.head?, Text.isBlank c = true := by
  obtain ⟨word, rest, ht, hword, hrest⟩ := Text.exists_run (!Text.isBlank ·) t
  exact ⟨word, rest, ht, by simpa using hword, by simpa using hrest⟩

theorem bare?_eq_some_iff {content selector : Text} {d : Option Text} :
    bare? content = some (selector, d) ↔ Bare content selector d := by
  constructor
  · intro h
    obtain ⟨word, rest, rfl, hword, hrest⟩ := exists_word content
    rw [bare?_append hword hrest] at h
    split at h
    · cases h
    · rename_i hne
      simp only [Option.map_eq_some_iff, Prod.mk.injEq] at h
      obtain ⟨e, he, rfl, rfl⟩ := h
      exact ⟨hne, hword, rest, rfl, description?_eq_some_iff.mp he⟩
  · rintro ⟨hne, hblank, behind, rfl, hbehind⟩
    rw [bare?_append hblank hbehind.head_blank, if_neg hne, description?_eq_some_iff.mpr hbehind]
    rfl

theorem bare?_eq_none_iff {content : Text} : bare? content = none ↔ NoSelector content := by
  constructor
  · intro h
    obtain ⟨word, rest, rfl, hword, hrest⟩ := exists_word content
    rw [bare?_append hword hrest] at h
    by_cases hne : word = []
    · subst hne
      cases rest with
      | nil => exact .inl rfl
      | cons c rest => exact .inr (.inl ⟨c, rest, rfl, hrest c rfl⟩)
    · rw [if_neg hne, Option.map_eq_none_iff] at h
      exact .inr (.inr ⟨word, rest, rfl, hne, hword, gap_of_description? hrest h⟩)
  · rintro (rfl | ⟨c, r, rfl, hc⟩ | ⟨word, gap, rfl, hne, hword, hgap⟩)
    · rfl
    · exact @bare?_append [] (c :: r) (by simp) (by rintro _ ⟨⟩; exact hc)
    · have hnone : description? gap = none := by
        have hbehind := @description?_gap gap [] hgap (by simp)
        rwa [List.append_nil] at hbehind
      have hhead : ∀ c ∈ gap.head?, Text.isBlank c = true := fun c hc => hgap.2 c (List.mem_of_mem_head? hc)
      rw [bare?_append hword hhead, if_neg hne, hnone]
      rfl

/-- Behind an opening brace the text up to the next brace is the selector, if that brace is a closing one. -/
theorem braced?_run {run rest selector : Text} {d : Option Text} (hrun : ∀ c ∈ run, isBrace c = false)
    (hrest : ∀ c ∈ rest.head?, isBrace c = true) : braced? ('\x7b' :: (run ++ rest)) = some (selector, d) ↔
      run ≠ [] ∧ selector = run ∧ ∃ behind, rest = '\x7d' :: behind ∧ description? behind = some d := by
  have hinside : ∀ c ∈ run, (!isBrace c) = true := fun c hc => by simp [hrun c hc]
  have hend : ∀ c ∈ rest.head?, (!isBrace c) = false := fun c hc => by simp [hrest c hc]
  have hdrop : (run ++ rest).dropWhile (!isBrace ·) = rest := Text.trimLeftBy_append hinside hend
  simp only [braced?, Text.takeWhile_append_of_head hinside hend, hdrop]
  rcases run with _ | ⟨c, run⟩
  · simp
  rcases rest with _ | ⟨b, behind⟩
  · simp
  · have hb : b = '\x7b' ∨ b = '\x7d' := by simpa [isBrace] using hrest b rfl
    rcases hb with rfl | rfl
    · simp
    · constructor
      · intro h
        obtain ⟨e, he, hpair⟩ := Option.map_eq_some_iff.mp h
        cases hpair
        exact ⟨List.cons_ne_nil c run, rfl, behind, rfl, he⟩
      · rintro ⟨-, rfl, _, ⟨⟩, he⟩
        exact Option.map_eq_some_iff.mpr ⟨d, he, rfl⟩

theorem braced?_eq_some_iff {content selector : Text} {d : Option Text} :
    braced? content = some (selector, d) ↔ InBraces content selector d := by
  constructor
  · intro h
    rcases content with _ | ⟨b, t⟩
    · cases h
    · have hb : b = '\x7b' := by
        by_contra hb
        simp [braced?, hb] at h
      subst hb
      obtain ⟨run, rest, rfl, hrun, hrest⟩ := Text.exists_run (!isBrace ·) t
      rw [braced?_run (by simpa using hrun) (by simpa using hrest)] at h
      obtain ⟨hne, rfl, behind, rfl, hbehind⟩ := h
      exact ⟨hne, by simpa [isBrace] using hrun, behind, rfl, description?_eq_some_iff.mp hbehind⟩
  · rintro ⟨hne, hbrace, behind, rfl, hbehind⟩
    rw [braced?_run (by simpa [isBrace] using hbrace) (by rintro _ ⟨⟩; rfl)]
    exact ⟨hne, rfl, behind, rfl, description?_eq_some_iff.mpr hbehind⟩

/-- In content with a lone word, a character that is no blank has no blank before it, and does not stand last. -/
theorem LoneWord.around {a b : Text} {c : Char} (h : LoneWord (a ++ c :: b)) (hc : Text.isBlank c = false) :
    (∀ x ∈ a, Text.isBlank x = false) ∧ b ≠ [] := by
  obtain ⟨word, gap, heq, -, hword, hne, hgap⟩ := h
  rcases List.append_eq_append_iff.mp heq with ⟨u, rfl, hu⟩ | ⟨u, rfl, hu⟩
  · refine ⟨fun x hx => hword x (List.mem_append_left u hx), ?_⟩
    rintro rfl
    rcases u with _ | ⟨x, u⟩
    · rw [List.nil_append] at hu
      exact absurd (hgap c (hu ▸ List.mem_cons_self)) (by simp [hc])
    · rw [List.cons_append, List.cons.injEq] at hu
      exact hne (List.append_eq_nil_iff.mp hu.2.symm).2
  · exact absurd (hgap c (hu ▸ List.mem_append_right u List.mem_cons_self)) (by simp [hc])

theorem InBraces.not_noSelector {content selector : Text} {d : Option Text} (h : InBraces content selector d) :
    ¬NoSelector content := by
  obtain ⟨-, -, behind, rfl, hbehind⟩ := h
  rintro (hnil | ⟨c, r, hcons, hc⟩ | hword)
  · cases hnil
  · cases hcons
    cases hc
  · cases hbehind with
    | nothing =>
      rw [← List.cons_append] at hword
      exact (hword.around rfl).2 rfl
    | @description gap d hgap hd =>
      obtain ⟨c, r, rfl, hc⟩ := hd
      obtain ⟨b, gap, rfl⟩ := List.exists_cons_of_ne_nil hgap.1
      have hblank := hgap.2 b List.mem_cons_self
      have hfront : '\x7b' :: (selector ++ '\x7d' :: (b :: gap ++ c :: r)) =
          '\x7b' :: (selector ++ '\x7d' :: b :: gap) ++ c :: r := by simp
      rw [hfront] at hword
      exact absurd ((hword.around hc).1 b (by simp)) (by simp [hblank])

/-! ### Contents -/

theorem selectorAndDescription?_eq_some_iff {content selector : Text} {d : Option Text} :
    selectorAndDescription? content = some (selector, d) ↔
      InBraces content selector d ∨ (¬∃ s e, InBraces content s e) ∧ Bare content selector d := by
  simp only [← braced?_eq_some_iff, ← bare?_eq_some_iff, selectorAndDescription?]
  cases braced? content with
  | none => simp
  | some read =>
    refine ⟨.inl, fun h => h.resolve_right ?_⟩
    rintro ⟨hnone, -⟩
    exact hnone ⟨read.1, read.2, rfl⟩

theorem selectorAndDescription?_eq_none_iff {content : Text} :
    selectorAndDescription? content = none ↔ NoSelector content := by
  rw [← bare?_eq_none_iff, selectorAndDescription?]
  cases hbraced : braced? content with
  | none => rfl
  | some read =>
    have hin : InBraces content read.1 read.2 := braced?_eq_some_iff.mp hbraced
    refine iff_of_false (by simp) fun hnone => hin.not_noSelector (bare?_eq_none_iff.mp hnone)

/-- A selector is never empty. -/
theorem selector_ne_nil {content selector : Text} {d : Option Text}
    (h : selectorAndDescription? content = some (selector, d)) : selector ≠ [] := by
  rcases selectorAndDescription?_eq_some_iff.mp h with hbraces | ⟨-, hbare⟩
  · exact hbraces.ne_nil
  · exact hbare.ne_nil

/-- What is read from the content of a tag: a selector in braces where there is one, else one up to the first
    blank; and nothing from the content without a selector. In particular a selector that is written with its
    description, in braces or not, is read back with it. -/
theorem content_forms :
    (∀ content selector d, selectorAndDescription? content = some (selector, d) ↔
      InBraces content selector d ∨ (¬∃ s e, InBraces content s e) ∧ Bare content selector d) ∧
    (∀ content, selectorAndDescription? content = none ↔ NoSelector content) ∧
    (∀ selector gap d, selector ≠ [] → (∀ c ∈ selector, c ≠ '\x7b' ∧ c ≠ '\x7d') → Gap gap → Solid d →
      selectorAndDescription? ('\x7b' :: (selector ++ '\x7d' :: (gap ++ d))) = some (selector, some d)) ∧
    ∀ selector gap d, selector ≠ [] → (∀ c ∈ selector, Text.isBlank c = false) → selector.head? ≠ some '\x7b' →
      Gap gap → Solid d → selectorAndDescription? (selector ++ (gap ++ d)) = some (selector, some d) := by
  refine ⟨fun _ _ _ => selectorAndDescription?_eq_some_iff, fun _ => selectorAndDescription?_eq_none_iff, ?_, ?_⟩
  · intro selector gap d hne hbrace hgap hd
    exact selectorAndDescription?_eq_some_iff.mpr (.inl ⟨hne, hbrace, gap ++ d, rfl, .description hgap hd⟩)
  · intro selector gap d hne hblank hhead hgap hd
    refine selectorAndDescription?_eq_some_iff.mpr (.inr ⟨?_, hne, hblank, gap ++ d, rfl, .description hgap hd⟩)
    rintro ⟨s, e, -, -, behind, heq, -⟩
    apply hhead
    rw [← List.head?_append_of_ne_nil _ hne, heq]
    rfl

theorem content_forms_menu :
    selectorAndDescription? "\x7b.menu .item\x7d \x7bMenu\x7d".text = some (".menu .item".text, some "\x7bMenu\x7d".text) ∧
      selectorAndDescription? "a\x7bb\x7d\t c d".text = some ("a\x7bb\x7d".text, some "c d".text) := by
  obtain ⟨-, -, hbraces, hbare⟩ := content_forms
  constructor
  · exact hbraces ".menu .item".text " ".text "\x7bMenu\x7d".text (by decide) (by simp [String.text])
      ⟨by decide, by simp [String.text, Text.isBlank]⟩ ⟨'\x7b', _, rfl, rfl⟩
  · exact hbare "a\x7bb\x7d".text "\t ".text "c d".text (by decide) (by simp [String.text, Text.isBlank]) (by decide)
      ⟨by decide, by simp [String.text, Text.isBlank]⟩ ⟨'c', _, rfl, rfl⟩

end Showcase
end Stylebook
