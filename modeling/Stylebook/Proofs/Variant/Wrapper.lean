import Stylebook.Proofs.Markup.Spelling
import Stylebook.Proofs.Selector.Texts
import Stylebook.Proofs.Variant.Parts

/-! The wrapper stays inside. Markup is read between the tags of a wrapper and written without them, so the name of the
    wrapper comes out only where the markup itself brings it: in letters, by references or around a tag that is dropped;
    or where the markup ends within a construct that takes the closing tag of the wrapper as a part of it. Neither the
    parts of a modifier nor the suffix of unique attributes can bring the name, if the modifier does not have it. -/

namespace Stylebook

namespace Identifier

/-! ### Identifiers -/

variable {p : Text}

theorem infix_of_mask (hp : '_' ∉ p) {t : Text} (h : p <:+: mask t) : p <:+: t := by
  obtain ⟨front, back, heq⟩ := h
  rw [mask] at heq
  obtain ⟨u, v, rfl, huv, -⟩ := List.map_eq_append_iff.mp heq.symm
  obtain ⟨w, q, rfl, -, hq⟩ := List.map_eq_append_iff.mp huv
  have hsame : p = q := by
    rw [← hq]
    refine (List.map_congr_left fun c hc => ?_).trans (List.map_id q)
    split
    · rfl
    · next hchar =>
      have hin : (if isIdChar c then c else '_') ∈ p := hq ▸ List.mem_map_of_mem hc
      rw [if_neg hchar] at hin
      exact absurd hin hp
  rw [hsame]
  exact ⟨w, v, rfl⟩

theorem head?_squeeze (c : Char) (t : Text) : (squeeze (c :: t)).head? = some c := by
  induction t generalizing c with
  | nil => rfl
  | cons d t ih =>
    rw [squeeze]
    split
    · next hboth => rw [ih, hboth.1, hboth.2]
    · rfl

theorem prefix_of_squeeze (hp : '_' ∉ p) {t : Text} (h : p <+: squeeze t) : p <+: t := by
  fun_induction squeeze t generalizing p with
  | case1 => exact h
  | case2 => exact h
  | case3 c d r hboth ih =>
    -- a word without underscores cannot begin here
    have hhead := head?_squeeze d r
    cases p with
    | nil => exact List.nil_prefix
    | cons x p =>
      obtain ⟨rest, hrest⟩ := h
      rw [← hrest, List.cons_append, List.head?_cons, Option.some.injEq] at hhead
      exact absurd (by rw [hhead, hboth.2]; exact List.mem_cons_self) hp
  | case4 c d r hnot ih =>
    cases p with
    | nil => exact List.nil_prefix
    | cons x p =>
      rw [List.cons_prefix_cons] at h ⊢
      exact ⟨h.1, ih (fun hin => hp (List.mem_cons_of_mem _ hin)) h.2⟩

theorem infix_of_squeeze (hp : '_' ∉ p) {t : Text} (h : p <:+: squeeze t) : p <:+: t := by
  fun_induction squeeze t with
  | case1 => exact h
  | case2 => exact h
  | case3 c d r hboth ih => exact List.infix_cons (ih h)
  | case4 c d r hnot ih =>
    rcases List.infix_cons_iff.mp h with hfront | hrest
    · have hsqueeze : c :: squeeze (d :: r) = squeeze (c :: d :: r) := by rw [squeeze, if_neg hnot]
      exact (prefix_of_squeeze hp (hsqueeze ▸ hfront)).isInfix
    · exact List.infix_cons (ih hrest)

/-- A word without underscores stands in the identifier of a selector only where it stands in the selector. -/
theorem infix_of_ofSelector (hp : '_' ∉ p) {collapsed : Bool} {selector : Text} (h : p <:+: ofSelector collapsed selector) :
    p <:+: selector := by
  unfold ofSelector at h
  split at h
  · exact infix_of_mask hp (infix_of_squeeze hp (h.trans (Text.trimBy_infix _ _)))
  · exact infix_of_mask hp h

end Identifier

namespace Variant

open Markup (Builder Element IsKeyword ReadsThrough Token elements)
open Selector (Part mapLineages)

/-! ### Changed elements -/

section
variable {p : Text} {e : Element}

theorem spares_set (h : e.Spares p) {name : Text} {value : Markup.Value} (hname : ¬p <:+: name)
    (hvalue : ¬p <:+: value.text) (hsame : value.written = value.text) : (e.set name value).Spares p where
  name := h.name
  names a ha := by
    rcases Markup.Attributes.mem_set ha with rfl | hin
    · exact hname
    · exact h.names a hin
  written a ha := by
    rcases Markup.Attributes.mem_set ha with rfl | hin
    · exact hsame ▸ hvalue
    · exact h.written a hin
  texts a ha := by
    rcases Markup.Attributes.mem_set ha with rfl | hin
    · exact fun _ => hvalue
    · exact h.texts a hin

theorem not_infix_classes (h : e.Spares p) : ∀ t ∈ e.classes, ¬p <:+: t := by
  unfold Element.classes
  split
  · simp
  · next ts hget =>
    have htext : ¬p <:+: Text.join [' '] ts := h.texts _ (Element.mem_of_get? hget) (by simp)
    exact fun t ht hin => htext (hin.trans (Text.infix_join_of_mem t ht))
  · next v _ hget =>
    have htext : ¬p <:+: v.text := h.texts _ (Element.mem_of_get? hget) (by simp)
    exact fun t ht hin => htext (hin.trans (Text.infix_of_mem_words t ht))

/-- A part without a keyword in its texts puts none on an element. -/
theorem spares_applyPart (hp : IsKeyword p) (h : e.Spares p) {part : Part} (hpart : ∀ u ∈ part.texts, ¬p <:+: u)
    (again : Bool) : (applyPart again e part).Spares p := by
  fun_cases applyPart again e part with
  | case1 name => exact spares_set h (hp.not_infix_short (by decide)) (hpart name (by simp [Part.texts])) rfl
  | case2 name classes =>
    have hname : ¬p <:+: name := hpart name (by simp [Part.texts])
    have hclasses : ∀ t ∈ if again || !classes.contains name then classes ++ [name] else classes, ¬p <:+: t := by
      split
      · exact List.forall_mem_append.mpr ⟨not_infix_classes h, by simpa using hname⟩
      · exact not_infix_classes h
    refine spares_set h (hp.not_infix_short (by decide)) (fun hin => ?_) rfl
    obtain ⟨t, ht, hin⟩ := Text.infix_of_infix_join (hp.not_mem (by decide)) hp.ne_nil hin
    exact hclasses t ht hin
  | case3 name value =>
    refine spares_set h (hpart name (by simp [Part.texts])) ?_ rfl
    cases value with
    | none => exact hp.not_infix_nil
    | some v => exact hpart v (by simp [Part.texts])
  | case4 name argument =>
    have hname : ¬p <:+: name := hpart name (by simp [Part.texts])
    exact spares_set h hname hname rfl
  | case5 => exact h

theorem spares_applyParts (hp : IsKeyword p) (h : e.Spares p) {parts : List Part}
    (hparts : ∀ part ∈ parts, ∀ u ∈ part.texts, ¬p <:+: u) (again : Bool) : (applyParts again parts e).Spares p := by
  induction parts generalizing e with
  | nil => exact h
  | cons part parts ih =>
    obtain ⟨hpart, hrest⟩ := List.forall_mem_cons.mp hparts
    exact ih (spares_applyPart hp h hpart again) hrest

theorem spares_appendTo (hp : IsKeyword p) (h : e.Spares p) {suffix : Text} (hsuffix : ¬p <:+: suffix) {name : Text}
    (hname : name ∈ ["class".text, "id".text, "for".text]) : (appendTo ('_' :: suffix) e name).Spares p := by
  unfold appendTo
  split
  · next t htext =>
    rw [Element.attributeText?, Option.map_eq_some_iff] at htext
    obtain ⟨v, hget, rfl⟩ := htext
    have hin := Element.mem_of_get? hget
    refine spares_set h (h.names _ hin) (fun hspelled => ?_) rfl
    rcases hp.parted (by decide) hspelled with hspelled | hspelled
    · exact h.texts _ hin hname hspelled
    · exact hsuffix hspelled
  · exact h

theorem spares_change (hp : IsKeyword p) (h : e.Spares p) {modifier : Text} (hmodifier : ¬p <:+: modifier)
    (config : Config) (unique isChosen : Bool) :
    (change (modifierParts modifier) (suffix? config unique modifier) isChosen e).Spares p := by
  have hparts : ∀ part ∈ modifierParts modifier, ∀ u ∈ part.texts, ¬p <:+: u := by
    intro part hpart u hu hin
    obtain ⟨groups, g, hread, hg, hpart⟩ := mem_modifierParts hpart
    exact hmodifier (hin.trans (Selector.infix_of_parse hread hg hpart u hu))
  have hchosen : (if isChosen then applyParts ((modifierParts modifier).any isTag) (modifierParts modifier) e
      else e).Spares p := by
    split
    · exact spares_applyParts hp h hparts _
    · exact h
  have hsuffix : ¬p <:+: Identifier.ofSelector config.collapseIds modifier := fun hin =>
    hmodifier (Identifier.infix_of_ofSelector (hp.not_mem (by decide)) hin)
  cases unique with
  | false => exact hchosen
  | true => exact spares_appendTo hp (spares_appendTo hp hchosen hsuffix (by simp)) hsuffix (by simp)

end

/-! ### Markup in the wrapper -/

/-- The name of the wrapper does not stand in a text, in whatever case. -/
def NameFree (t : Text) : Prop := ¬wrapperName <:+: t.map Char.toLower

instance : DecidablePred NameFree := fun t => inferInstanceAs (Decidable ¬wrapperName <:+: t.map Char.toLower)

/-- Markup that has not the name of the wrapper, that is read to its end, and whose nodes are written without the name,
    too. -/
structure SelfContained (markup : Text) : Prop where
  free : NameFree markup
  reads : ∃ ts, ReadsThrough markup ts ∧ ¬wrapperName <:+: Markup.write (ts.foldl Builder.step {}).finish

theorem wrapperName_isKeyword : IsKeyword wrapperName := by decide +kernel

theorem NameFree.not_infix {t : Text} (h : NameFree t) : ¬wrapperName <:+: t :=
  fun hin => h (wrapperName_isKeyword.infix_map_toLower hin)

/-- What canonical nodes are written as is self-contained, unless the name stands in it. -/
theorem selfContained_write {nodes : List Markup.Node} (h : Markup.Canonical nodes) (hfree : NameFree (Markup.write nodes)) :
    SelfContained (Markup.write nodes) := by
  obtain ⟨ts, hread, hfinish⟩ := Markup.readsThrough_write h
  exact ⟨hfree, ts, hread, hfinish ▸ hfree.not_infix⟩

/-- No tag of such markup bears the name of the wrapper. -/
theorem NameFree.name?_ne {t : Text} (h : NameFree t) {ts : List Markup.Token} (hread : ReadsThrough t ts) :
    ∀ token ∈ ts, token.name? ≠ some wrapperName := by
  intro token htoken hname
  obtain ⟨u, hu, hlower⟩ := hread.namesWithin token htoken wrapperName hname
  have hin : wrapperName <:+: u.map Char.toLower :=
    wrapperName_isKeyword.infix_of_lower (hlower ▸ List.infix_rfl)
  have hall := hin.trans (hu.map Char.toLower)
  rw [List.map_append] at hall
  exact h ((wrapperName_isKeyword.parted (by decide) hall).resolve_right wrapperName_isKeyword.not_infix_nil)

/-- Self-contained markup is read in the wrapper as it is read on its own, and nothing in it spells the name. -/
theorem SelfContained.fragment {markup : Text} (h : SelfContained markup) : ∃ nodes,
    fragment markup = .ok ([wrapperPlace], nodes) ∧ ¬wrapperName <:+: Markup.write nodes ∧
      ∀ e ∈ elements nodes, e.Spares wrapperName := by
  obtain ⟨ts, hread, hwrite⟩ := h.reads
  have hwrapper : (⟨wrapperName, []⟩ : Element).IsCanonical := by decide +kernel
  have hwrap : wrap markup = Markup.writeOpening ⟨wrapperName, []⟩ ++ (markup ++ Markup.writeClosing ⟨wrapperName, []⟩) := by
    simp [wrap, Markup.writeOpening, Markup.writeClosing]
  have hparse := hread.parse_within hwrapper (by decide +kernel) (by decide +kernel) (h.free.name?_ne hread)
  have hfaithful : ∀ e ∈ elements (ts.foldl Builder.step {}).finish, e.Faithful :=
    (Builder.Made.empty.foldl fun name attributes _ _ => Markup.faithful_ofTag name attributes).finish
  refine ⟨_, ?_, hwrite, fun e he => ?_⟩
  · rw [Variant.fragment, hwrap, hparse]
    rfl
  · refine wrapperName_isKeyword.spares (hfaithful e he) fun hin => hwrite ?_
    exact hin.trans (Markup.infix_insideTag he false)

/-! ### Variants -/

section
variable {s : Settings} {markup modifier : Text}

/-- A variant of self-contained markup does not have the name of the wrapper. -/
theorem SelfContained.modified (h : SelfContained markup) (hhook : s.hook = none) (hmodifier : NameFree modifier)
    (isPresentation unique : Bool) (base : Option Text) :
    ∃ r, modified s isPresentation unique markup base modifier = .ok r ∧ ¬wrapperName <:+: r := by
  obtain ⟨nodes, hread, hwrite, hspares⟩ := h.fragment
  rcases modified_cases hhook hread isPresentation unique base modifier with ⟨-, hsame⟩ | hwritten
  · exact ⟨markup, hsame, h.free.not_infix⟩
  · refine ⟨_, hwritten, ?_⟩
    have hfront : ¬wrapperName <:+: [] ++ Markup.writeNodes false nodes := hwrite
    rw [variantNodes_eq]
    exact wrapperName_isKeyword.not_infix_mapLineages (fun lineage e => name_change _ _ _ e)
      (fun e he lineage => spares_change wrapperName_isKeyword (hspares e he) hmodifier.not_infix _ _ _) hfront

/-- A glue that keeps the name from being put together across two blocks. -/
def KeepsApart (glue : Text) : Prop := glue ≠ [] ∧ ∀ c ∈ glue, c ∉ wrapperName

instance : DecidablePred KeepsApart := fun glue =>
  decidable_of_iff (glue ≠ [] ∧ (glue.all fun c => !wrapperName.contains c) = true) (by simp [KeepsApart])

theorem KeepsApart.not_infix {glue : Text} (h : KeepsApart glue) {before rest : Text} (hbefore : ¬wrapperName <:+: before)
    (hrest : ¬wrapperName <:+: rest) : ¬wrapperName <:+: before ++ (glue ++ rest) := by
  obtain ⟨hne, hall⟩ := h
  obtain ⟨z, glue, rfl⟩ := List.exists_cons_of_ne_nil hne
  obtain ⟨hz, hall⟩ := List.forall_mem_cons.mp hall
  intro hin
  rcases Text.infix_of_infix_separated hz hin with hin | hin
  · exact hbefore hin
  · exact hrest (wrapperName_isKeyword.behind_all hall hin)

/-- What states add to a text without the name leaves it without the name. -/
theorem SelfContained.stateBlocks (h : SelfContained markup) (hhook : s.hook = none)
    (hglue : KeepsApart s.config.statesGlue) {states : List State}
    (hstates : ∀ state ∈ states, NameFree (state.state.getD [])) (isPresentation : Bool) (base : Option Text) :
    ∃ blocks, stateBlocks s isPresentation markup base states = .ok blocks ∧
      ∀ before, ¬wrapperName <:+: before → ¬wrapperName <:+: before ++ blocks := by
  induction states with
  | nil => exact ⟨[], rfl, fun before hbefore => by simpa using hbefore⟩
  | cons state states ih =>
    obtain ⟨hstate, hrest⟩ := List.forall_mem_cons.mp hstates
    obtain ⟨blocks, hblocks, hmore⟩ := ih hrest
    obtain ⟨block, hblock, hfree⟩ := h.modified hhook hstate isPresentation s.config.statesModifyUnique base
    refine ⟨(if block.isEmpty then [] else s.config.statesGlue ++ block) ++ blocks, ?_, fun before hbefore => ?_⟩
    · simp [Variant.stateBlocks, stateBlock, hblock, hblocks, bind, Except.bind, pure, Except.pure]
    · split
      · exact hmore before hbefore
      · rw [List.append_assoc]
        exact hglue.not_infix hbefore (hmore block hfree)

/-- A variant with its states does not have the name of the wrapper, if the markup and, where there are states, the first
    block are self-contained. -/
theorem apply_selfContained (hmarkup : SelfContained markup) (hhook : s.hook = none)
    (hglue : KeepsApart s.config.statesGlue) (hmodifier : NameFree modifier) {states : List State}
    (hstates : ∀ state ∈ states, NameFree (state.state.getD [])) (isPresentation : Bool) (unique : Option Bool)
    (base : Option Text)
    (hfirst : states ≠ [] → ∀ first, modified s isPresentation (unique.getD s.config.modifyUnique) markup base modifier =
      .ok first → SelfContained first) :
    ∃ r, apply s isPresentation unique markup base modifier states = .ok r ∧ ¬wrapperName <:+: r := by
  obtain ⟨first, hmodified, hfree⟩ :=
    hmarkup.modified hhook hmodifier isPresentation (unique.getD s.config.modifyUnique) base
  have hopen : apply s isPresentation unique markup base modifier states =
      withStates s isPresentation first base states := by
    rw [apply, hmodified]
    rfl
  cases states with
  | nil =>
    refine ⟨first, ?_, hfree⟩
    rw [hopen]
    simp [withStates, Variant.stateBlocks, bind, Except.bind, pure, Except.pure]
  | cons state states =>
    have hsealed := hfirst (List.cons_ne_nil _ _) first hmodified
    obtain ⟨blocks, hblocks, hmore⟩ := hsealed.stateBlocks hhook hglue hstates isPresentation base
    refine ⟨first ++ blocks, ?_, hmore first hfree⟩
    rw [hopen]
    simp [withStates, hblocks, bind, Except.bind, pure, Except.pure]

end

/-- Two halves of the name, and two elements that are left open. -/
def noteMarkup : Text := "<p id=a>styledoc&amp;wrapper <b>x".text

def noteVariant : Text := "<p id=\"a__on\" class=\"on\">styledoc&amp;wrapper <b>x</b></p>".text

def noteNodes : List Markup.Node :=
  [.element ⟨"p".text, [("id".text, .plain "a__on".text), ("class".text, .tokens ["on".text])]⟩
    [.text "styledoc&wrapper ".text, .element ⟨"b".text, []⟩ [.text "x".text]]]

theorem selfContained_noteMarkup : SelfContained noteMarkup where
  free := by decide +kernel
  reads := by
    refine ⟨[.opening "p".text [("id".text, "a".text)] false, .text "styledoc".text, .text "&".text,
      .text "wrapper ".text, .opening "b".text [] false, .text "x".text], ?_, by decide +kernel⟩
    rw [ReadsThrough]
    decide +kernel

theorem selfContained_noteVariant : SelfContained noteVariant := by
  have hcanonical : Markup.Canonical noteNodes :=
    .element (by decide +kernel) (fun hvoid => absurd hvoid (by decide +kernel))
      (.text (by decide +kernel) (by simp [Markup.Node.isText])
        (.element (by decide +kernel) (fun hvoid => absurd hvoid (by decide +kernel))
          (.text (by decide +kernel) (by simp) .nil) .nil)) .nil
  have hwrite : Markup.write noteNodes = noteVariant := by decide +kernel
  exact hwrite ▸ selfContained_write hcanonical (by decide +kernel)

theorem modified_noteMarkup : modified {} false true noteMarkup (some "p".text) ".on".text = .ok noteVariant := by
  have hread : fragment noteMarkup = .ok ([wrapperPlace], [.element ⟨"p".text, [("id".text, .plain "a".text)]⟩
      [.text "styledoc&wrapper ".text, .element ⟨"b".text, []⟩ [.text "x".text]]]) := by
    with_unfolding_all rfl
  rw [modified_unique rfl hread]
  simp only [withParts, rewriteUnique, mapLineages]
  decide +kernel

theorem apply_selfContained_note :
    SelfContained noteMarkup ∧ SelfContained noteVariant ∧
    modified {} false true noteMarkup (some "p".text) ".on".text = .ok noteVariant ∧
    ∃ r, apply {} false (some true) noteMarkup (some "p".text) ".on".text [⟨some ":hover".text, none⟩] = .ok r ∧
      ¬wrapperName <:+: r := by
  refine ⟨selfContained_noteMarkup, selfContained_noteVariant, modified_noteMarkup, ?_⟩
  refine apply_selfContained selfContained_noteMarkup rfl (by decide +kernel) (by decide +kernel)
    (by decide +kernel) false (some true) (some "p".text) fun _ first hfirst => ?_
  cases modified_noteMarkup.symm.trans hfirst
  exact selfContained_noteVariant

theorem apply_unique_eq {markup modifier first : Text} {base : Option Text}
    (h : modified {} false true markup base modifier = .ok first) (states : List State) :
    apply {} false (some true) markup base modifier states = withStates {} false first base states := by
  rw [apply]
  exact congrArg (· >>= fun result => withStates {} false result base states) h

theorem apply_unique_eq_ok {markup modifier first : Text} {base : Option Text}
    (h : modified {} false true markup base modifier = .ok first) :
    apply {} false (some true) markup base modifier [] = .ok first := by
  rw [apply_unique_eq h]
  simp [withStates, stateBlocks, bind, Except.bind, pure, Except.pure]

/-- A reference in the name, a reference that is not finished, and a section that is written as an instruction. -/
def referredMarkup : Text := "<p>styledoc&#45;wrapper</p>".text

def unfinishedMarkup : Text := "<p>No. &#</p>".text

def sectionMarkup : Text := "<![if >&#]><p>x</p>".text

def sectionVariant : Text := "<?if >&#?><p class=\"x\">x</p>".text

theorem selfContained_sectionMarkup : SelfContained sectionMarkup where
  free := by decide +kernel
  reads := by
    refine ⟨[.markedSection "if >&#".text, .opening "p".text [] false, .text "x".text, .closing "p".text], ?_,
      by decide +kernel⟩
    rw [ReadsThrough]
    decide +kernel

theorem modified_sectionMarkup :
    modified {} false true sectionMarkup (some "p".text) ".x".text = .ok sectionVariant := by
  have hread : fragment sectionMarkup = .ok ([wrapperPlace],
      [.markedSection "if >&#".text, .element ⟨"p".text, []⟩ [.text "x".text]]) := by
    with_unfolding_all rfl
  rw [modified_unique rfl hread]
  simp only [withParts, rewriteUnique, mapLineages]
  decide +kernel

/-- A reference is written as the character it stands for, which can spell the name; what is not finished takes the
    closing tag of the wrapper as its text; and a first block can be unfinished where the markup is not. -/
theorem apply_spells_wrapperName :
    NameFree "p".text ∧ NameFree ".x".text ∧ NameFree ":hover".text ∧
    (NameFree referredMarkup ∧
      apply {} false (some true) referredMarkup (some "p".text) ".x".text [] =
        .ok "<p class=\"x\">styledoc-wrapper</p>".text ∧
      wrapperName <:+: "<p class=\"x\">styledoc-wrapper</p>".text) ∧
    (NameFree unfinishedMarkup ∧
      apply {} false (some true) unfinishedMarkup (some "p".text) ".x".text [] =
        .ok "<p class=\"x\">No. &amp;#&lt;/p&gt;&lt;/styledoc-wrapper&gt;</p>".text ∧
      wrapperName <:+: "<p class=\"x\">No. &amp;#&lt;/p&gt;&lt;/styledoc-wrapper&gt;</p>".text) ∧
    (SelfContained sectionMarkup ∧
      apply {} false (some true) sectionMarkup (some "p".text) ".x".text [⟨some ":hover".text, none⟩] =
        .ok (sectionVariant ++ "\n<?if >&amp;#?&gt;&lt;p class=\"x\"&gt;x&lt;/p&gt;&lt;/styledoc-wrapper&gt;".text) ∧
      wrapperName <:+:
        sectionVariant ++ "\n<?if >&amp;#?&gt;&lt;p class=\"x\"&gt;x&lt;/p&gt;&lt;/styledoc-wrapper&gt;".text) := by
  have hreferred : fragment referredMarkup =
      .ok ([wrapperPlace], [.element ⟨"p".text, []⟩ [.text "styledoc-wrapper".text]]) := by
    with_unfolding_all rfl
  have hunfinished : fragment unfinishedMarkup =
      .ok ([wrapperPlace], [.element ⟨"p".text, []⟩ [.text "No. &#</p></styledoc-wrapper>".text]]) := by
    with_unfolding_all rfl
  have hsection : fragment sectionVariant = .ok ([wrapperPlace],
      [.instruction "if ".text, .text "&#?><p class=\"x\">x</p></styledoc-wrapper>".text]) := by
    with_unfolding_all rfl
  refine ⟨by decide +kernel, by decide +kernel, by decide +kernel,
    ⟨by decide +kernel, apply_unique_eq_ok ?_, by decide +kernel⟩,
    ⟨by decide +kernel, apply_unique_eq_ok ?_, by decide +kernel⟩,
    ⟨selfContained_sectionMarkup, ?_, by decide +kernel⟩⟩
  · rw [modified_unique rfl hreferred]
    simp only [withParts, rewriteUnique, mapLineages]
    decide +kernel
  · rw [modified_unique rfl hunfinished]
    simp only [withParts, rewriteUnique, mapLineages]
    decide +kernel
  · rw [apply_unique_eq modified_sectionMarkup, withStates_eq_ok rfl rfl hsection]
    simp only [stateNodes, withParts, rewriteUnique, mapLineages, List.map_cons, List.map_nil]
    decide +kernel

end Variant
end Stylebook
