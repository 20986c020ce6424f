import Mathlib.Data.List.Forall2
import Stylebook.Proofs.Text.Lines
import Stylebook.Sheet.Import

/-! Finding written import directives. A directive names its path in quotes or bare, and either way alone or in
    `url( )`. Between the directives any text may stand that has not their keyword. However a sheet is written, its
    imports are found: one for each directive, in order, even where a path reads like a directive itself. -/

namespace Stylebook
namespace Sheet

/-! ### What is written -/

/-- The texts that name a path. -/
inductive PathWrites : Text → Text → Prop
  | quoted {path : Text} (q : Char) : q = '"' ∨ q = '\'' → path ≠ [] → (∀ c ∈ path, c ≠ '"' ∧ c ≠ '\'') →
      PathWrites path (q :: (path ++ [q]))
  | bare {path : Text} : path ≠ [] → (∀ c ∈ path, c ∉ "\"'();".text ∧ Text.isBlank c = false) → PathWrites path path

/-- The texts of a directive that imports a path. -/
inductive DirectiveWrites : Text → Text → Prop
  | alone {path name : Text} : PathWrites path name → DirectiveWrites path ("@import ".text ++ (name ++ [';']))
  | url {path name : Text} : PathWrites path name →
      DirectiveWrites path ("@import url(".text ++ (name ++ [')', ';']))

/-- A text without the keyword of a directive. -/
def Filler (t : Text) : Prop := ¬"@import".text <:+: t

instance : DecidablePred Filler := fun t => inferInstanceAs (Decidable ¬"@import".text <:+: t)

/-- The texts of a sheet that imports some paths: a directive for each of them, and fillers around the directives. -/
inductive SheetWrites : List Text → Text → Prop
  | filler (t : Text) : Filler t → SheetWrites [] t
  | directive (filler : Text) {path directive t : Text} {paths : List Text} : Filler filler →
      DirectiveWrites path directive → SheetWrites paths t →
      SheetWrites (path :: paths) (filler ++ (directive ++ t))

/-! ### Paths -/

theorem isQuoteMark_iff {c : Char} : isQuoteMark c = true ↔ c = '"' ∨ c = '\'' := by simp [isQuoteMark]

theorem isBarePathChar_iff {c : Char} :
    isBarePathChar c = true ↔ c ∉ "\"'();".text ∧ Text.isBlank c = false := by
  simp [isBarePathChar, isQuoteMark, String.text, and_assoc]

/-- A written path is read back where nothing follows that could belong to it. -/
theorem PathWrites.importPath? {path name : Text} (h : PathWrites path name) {r : Text}
    (hr : ∀ c ∈ r.head?, isBarePathChar c = false) : importPath? (name ++ r) = some (path, r) := by
  cases h with
  | quoted q hq hne hpath =>
    rw [← isQuoteMark_iff] at hq
    have hinside : ∀ c ∈ path, (!isQuoteMark c) = true := by
      intro c hc
      simpa [isQuoteMark] using hpath c hc
    have hend : ∀ c ∈ (q :: r).head?, (!isQuoteMark c) = false := by
      rintro _ ⟨⟩
      simp [hq]
    have htake := Text.takeWhile_append_of_head hinside hend
    have hdrop : (path ++ q :: r).dropWhile (!isQuoteMark ·) = q :: r := Text.trimLeftBy_append hinside hend
    obtain ⟨c, path, rfl⟩ := List.exists_cons_of_ne_nil hne
    rw [List.cons_append, List.append_assoc, List.singleton_append, Sheet.importPath?, if_pos hq, htake, hdrop]
    simp
  | bare hne hpath =>
    have hinside : ∀ c ∈ path, isBarePathChar c = true := fun c hc => isBarePathChar_iff.mpr (hpath c hc)
    have htake := Text.takeWhile_append_of_head hinside hr
    have hdrop : (path ++ r).dropWhile isBarePathChar = r := Text.trimLeftBy_append hinside hr
    obtain ⟨c, rest, rfl⟩ := List.exists_cons_of_ne_nil hne
    have hquote : ¬isQuoteMark c = true := by
      rw [isQuoteMark_iff]
      rintro (rfl | rfl)
      · exact (hpath '"' List.mem_cons_self).1 (by decide)
      · exact (hpath '\'' List.mem_cons_self).1 (by decide)
    rw [List.cons_append] at htake hdrop ⊢
    rw [Sheet.importPath?, if_neg hquote, htake, hdrop]

theorem PathWrites.head_not_blank {path name : Text} (h : PathWrites path name) (r : Text) :
    ∀ c ∈ (name ++ r).head?, Text.isBlank c = false := by
  cases h with
  | quoted q hq =>
    rintro _ ⟨⟩
    rcases hq with rfl | rfl
    · rfl
    · rfl
  | bare hne hpath =>
    intro c hc
    rw [List.head?_append_of_ne_nil _ hne] at hc
    exact (hpath c (List.mem_of_mem_head? hc)).2

/-- A path that stands alone does not open `url( )`. -/
theorem PathWrites.after?_url {path name : Text} (h : PathWrites path name) (r : Text) :
    Text.after? "url(".text (name ++ ';' :: r) = none := by
  refine Text.after?_eq_none fun hurl => ?_
  cases h with
  | quoted q hq =>
    obtain ⟨rfl, -⟩ := List.cons_prefix_cons.mp hurl
    rcases hq with hq | hq
    · cases hq
    · cases hq
  | bare hne hpath =>
    have hin : "url(".text <+: path := Text.prefix_of_prefix_append hne (by rintro _ ⟨⟩; decide) hurl
    exact (hpath '(' (hin.subset (by decide))).1 (by decide)

/-! ### Directives -/

theorem directive?_alone {t path rest : Text} (hhead : ∀ c ∈ t.head?, Text.isBlank c = false)
    (hurl : Text.after? "url(".text t = none) (hpath : importPath? t = some (path, rest)) :
    directive? (' ' :: t) = (directiveEnd? rest).map (path, ·) := by
  have hblank : Text.isBlank ' ' = true := rfl
  have hskip : Text.skipBlanks (' ' :: t) = t := Text.trimLeftBy_append (List.forall_mem_singleton.mpr rfl) hhead
  simp only [directive?, hblank, if_true, hskip, hurl, hpath]

theorem directive?_url {t path rest : Text} (hhead : ∀ c ∈ t.head?, Text.isBlank c = false)
    (hpath : importPath? t = some (path, rest)) :
    directive? (" url(".text ++ t) = (directiveEnd? rest).map (path, ·) := by
  have hblank : Text.isBlank ' ' = true := rfl
  have hgap : Text.skipBlanks (' ' :: ("url(".text ++ t)) = "url(".text ++ t := rfl
  have hskip : Text.skipBlanks t = t := Text.trimLeftBy_of_head hhead
  show directive? (' ' :: ("url(".text ++ t)) = _
  simp only [directive?, hblank, if_true, hgap, Text.after?_append, hskip, hpath]

/-- What stands behind the keyword of a directive is read, up to the semicolon. -/
theorem DirectiveWrites.directive? {path directive : Text} (h : DirectiveWrites path directive) :
    ∃ target, directive = "@import".text ++ target ∧ ∀ r, directive? (target ++ r) = some (path, ';' :: r) := by
  cases h with
  | @alone name hname =>
    refine ⟨' ' :: (name ++ [';']), rfl, fun r => ?_⟩
    have hpath := hname.importPath? (r := ';' :: r) (by rintro _ ⟨⟩; rfl)
    rw [List.cons_append, List.append_assoc, List.singleton_append,
      directive?_alone (hname.head_not_blank _) (hname.after?_url r) hpath]
    rfl
  | @url name hname =>
    refine ⟨" url(".text ++ (name ++ [')', ';']), rfl, fun r => ?_⟩
    have hpath := hname.importPath? (r := ')' :: ';' :: r) (by rintro _ ⟨⟩; rfl)
    rw [List.append_assoc, List.append_assoc]
    exact (directive?_url (hname.head_not_blank _) hpath).trans rfl

/-! ### Sheets -/

theorem importPaths_of_no_keyword {c : Char} {r : Text} (h : Text.after? "@import".text (c :: r) = none) :
    importPaths (c :: r) = importPaths r := by
  rw [importPaths]
  split
  · rfl
  · next hsome => simp [h] at hsome

theorem importPaths_of_directive? {t path rest : Text} (h : directive? t = some (path, rest)) :
    importPaths ("@import".text ++ t) = path :: importPaths rest := by
  have hkeyword := Text.after?_append "@import".text t
  generalize hsheet : "@import".text ++ t = sheet at hkeyword ⊢
  rw [importPaths.eq_def]
  split
  · simp [String.text] at hsheet
  · split
    · next hnone => simp [hkeyword] at hnone
    · next behind hsome =>
      obtain rfl := Option.some.inj (hkeyword.symm.trans hsome)
      split
      · next hread =>
        obtain ⟨rfl, rfl⟩ := Prod.mk.inj (Option.some.inj (h.symm.trans hread))
        rfl
      · next hread => simp [h] at hread

/-- A filler holds no import, also not together with the beginning of the next directive. -/
theorem importPaths_filler {t : Text} (h : Filler t) {r : Text} (hr : ∀ c ∈ r.head?, c = '@') :
    importPaths (t ++ r) = importPaths r := by
  induction t with
  | nil => rfl
  | cons c t ih =>
    have hnone : Text.after? "@import".text (c :: t ++ r) = none := by
      refine Text.after?_eq_none fun hkeyword => h (List.IsPrefix.isInfix ?_)
      refine Text.prefix_of_prefix_append (List.cons_ne_nil c t) (fun d hd => ?_) hkeyword
      rw [hr d hd]
      decide
    rw [List.cons_append] at hnone ⊢
    rw [importPaths_of_no_keyword hnone]
    exact ih fun hin => h (List.infix_cons hin)

theorem importPaths_written {paths : List Text} {t : Text} (h : SheetWrites paths t) : importPaths t = paths := by
  induction h with
  | filler t hfiller =>
    have hnone := importPaths_filler hfiller (r := []) (by rintro _ ⟨⟩)
    rw [List.append_nil] at hnone
    rw [hnone, importPaths]
  | @directive filler path directive t paths hfiller hdirective _ ih =>
    obtain ⟨target, rfl, hread⟩ := hdirective.directive?
    rw [importPaths_filler hfiller (by rintro _ ⟨⟩; rfl), List.append_assoc, importPaths_of_directive? (hread t),
      importPaths_of_no_keyword rfl, ih]

/-! ### Imports -/

/-- The import of a path in a sheet from `url`. -/
structure Imports (url : Option Text) (path : Text) (found : Import) : Prop where
  path_eq : found.path = path
  place : resolve path url = .ok found.url

theorem imports_of_importPaths {paths : List Text} {t : Text} {url : Option Text} (hpaths : importPaths t = paths)
    (hurl : ∀ path ∈ paths, ∃ place, resolve path url = .ok place) :
    ∃ found, imports t url = .ok found ∧ List.Forall₂ (Imports url) paths found := by
  rw [imports, hpaths]
  clear hpaths
  induction paths with
  | nil => exact ⟨[], rfl, .nil⟩
  | cons path paths ih =>
    obtain ⟨place, hplace⟩ := hurl path List.mem_cons_self
    obtain ⟨found, hfound, hall⟩ := ih fun p hp => hurl p (List.mem_cons_of_mem path hp)
    refine ⟨⟨path, place⟩ :: found, ?_, .cons ⟨rfl, hplace⟩ hall⟩
    rw [List.mapM_cons, hplace, hfound]
    rfl

/-- A sheet has the imports that its directives are written for, one for each directive and in their order. -/
theorem imports_written {paths : List Text} {t : Text} {url : Option Text} (h : SheetWrites paths t)
    (hurl : ∀ path ∈ paths, ∃ place, resolve path url = .ok place) :
    ∃ found, imports t url = .ok found ∧ List.Forall₂ (Imports url) paths found :=
  imports_of_importPaths (importPaths_written h) hurl

/-- A sheet whose paths and fillers read like directives. -/
def trickySheet : Text := "/* @imp@import url('@import url(c);');)@import @import;@imp".text

theorem imports_trickySheet :
    SheetWrites ["@import url(c);".text, "@import".text] trickySheet ∧
      resolve "@import url(c);".text (some "css/main.css".text) = .ok "css/@import url(c);".text ∧
      resolve "@import".text (some "css/main.css".text) = .ok "css/@import".text ∧
      ∃ found, imports trickySheet (some "css/main.css".text) = .ok found ∧
        List.Forall₂ (Imports (some "css/main.css".text)) ["@import url(c);".text, "@import".text] found := by
  have hpieces : SheetWrites ["@import url(c);".text, "@import".text] _ :=
    .directive "/* @imp".text (by decide +kernel) (.url (.quoted '\'' (.inr rfl) (by decide) (by simp [String.text]))) <|
    .directive ")".text (by decide +kernel) (.alone (.bare (by decide) (by simp [String.text, Text.isBlank]))) <|
    .filler "@imp".text (by decide +kernel)
  have hsheet : SheetWrites ["@import url(c);".text, "@import".text] trickySheet := by
    refine Eq.mp (congrArg (SheetWrites _) ?_) hpieces
    decide +kernel
  have hfirst : resolve "@import url(c);".text (some "css/main.css".text) = .ok "css/@import url(c);".text := by
    decide +kernel
  have hsecond : resolve "@import".text (some "css/main.css".text) = .ok "css/@import".text := by decide +kernel
  refine ⟨hsheet, hfirst, hsecond, imports_written hsheet fun path hpath => ?_⟩
  rcases List.mem_cons.mp hpath with rfl | hpath
  · exact ⟨_, hfirst⟩
  · rw [List.mem_singleton.mp hpath]
    exact ⟨_, hsecond⟩

end Sheet
end Stylebook
