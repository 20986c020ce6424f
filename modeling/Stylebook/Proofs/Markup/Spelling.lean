import Mathlib.Data.List.Infix
import Stylebook.Proofs.Markup.Within

/-! Where a keyword is spelled. A keyword is a word that neither lower-casing nor writing can bring about: it stands in a
    lower-cased text only where the text has its letters, and in written markup only inside a text, a name or a value.
    So elements can be changed all over a tree without spelling a keyword, as long as no changed element has a name or a
    value that spells it (`IsKeyword.not_infix_mapLineages`). -/

namespace Stylebook
namespace Markup

/-! ### Keywords -/

/-- Longer than the names of written references and than `class`, and without the two letters of ASCII that capitals
    outside of it are lower-cased to. -/
structure IsKeyword (p : Text) : Prop where
  all : ∀ c ∈ p, isPlainNameChar c = true ∧ c ≠ 'i' ∧ c ≠ 'k'
  long : 5 < p.length

instance : DecidablePred IsKeyword := fun p =>
  decidable_of_iff ((p.all fun c => isPlainNameChar c && c != 'i' && c != 'k') = true ∧ 5 < p.length)
    ⟨fun ⟨hall, hlong⟩ => ⟨by simpa [and_assoc] using hall, hlong⟩, fun h => ⟨by simpa [and_assoc] using h.all, h.long⟩⟩

section
variable {p : Text}

theorem IsKeyword.not_mem (hp : IsKeyword p) {z : Char} (hz : isPlainNameChar z = false) : z ∉ p := by
  intro hin
  rw [(hp.all z hin).1] at hz
  cases hz

theorem IsKeyword.not_infix_short (hp : IsKeyword p) {t : Text} (ht : t.length ≤ 5) : ¬p <:+: t := by
  intro h
  have hlong := hp.long
  have hlength := h.length_le
  omega

theorem IsKeyword.not_infix_nil (hp : IsKeyword p) : ¬p <:+: [] := hp.not_infix_short (Nat.zero_le 5)

theorem IsKeyword.ne_nil (hp : IsKeyword p) : p ≠ [] := by
  rintro rfl
  exact hp.not_infix_nil List.nil_infix

/-- A keyword stands on one side of a character that no name has. -/
theorem IsKeyword.parted (hp : IsKeyword p) {z : Char} (hz : isPlainNameChar z = false) {a b : Text}
    (h : p <:+: a ++ z :: b) : p <:+: a ∨ p <:+: b :=
  Text.infix_of_infix_separated (hp.not_mem hz) h

theorem IsKeyword.behind (hp : IsKeyword p) {z : Char} (hz : isPlainNameChar z = false) {b : Text} (h : p <:+: z :: b) :
    p <:+: b :=
  (hp.parted (a := []) hz h).resolve_left hp.not_infix_nil

theorem IsKeyword.behind_all (hp : IsKeyword p) {s r : Text} (hs : ∀ c ∈ s, c ∉ p) (h : p <:+: s ++ r) : p <:+: r := by
  induction s with
  | nil => exact h
  | cons c s ih =>
    obtain ⟨hc, hs⟩ := List.forall_mem_cons.mp hs
    exact ih hs ((Text.infix_of_infix_separated (a := []) hc h).resolve_left hp.not_infix_nil)

/-! ### Lower case -/

/-- The small letters of capitals outside ASCII are outside ASCII, except that of the Kelvin sign. -/
theorem capitalRuns_image : ∀ run ∈ Text.capitalRuns, 128 ≤ run.2.2.2 ∨ run.1 = run.2.1 ∧ run.2.2.2 = 'k'.toNat := by
  decide +kernel

theorem plain_of_lowerChar {c d : Char} (h : d ∈ Text.lowerChar c) (hplain : isPlainNameChar d = true) (hi : d ≠ 'i')
    (hk : d ≠ 'k') : c.toNat < 128 := by
  have hlt : d.toNat < 128 := (plain_char hplain).2.2.2.2.2.2.1
  by_contra hc
  rw [Text.lowerChar, if_neg hc] at h
  split at h
  · rw [List.mem_cons, List.mem_singleton] at h
    rcases h with rfl | rfl
    · exact hi rfl
    · exact absurd hlt (by decide)
  dsimp only at h
  split at h
  · next n hfind =>
    obtain ⟨⟨first, last, step, image⟩, hrun, hsome⟩ := List.exists_of_findSome?_eq_some hfind
    simp only [Option.ite_none_right_eq_some, Bool.and_eq_true, decide_eq_true_eq, Option.some.injEq] at hsome
    obtain ⟨⟨⟨hfirst, hlast⟩, -⟩, hn⟩ := hsome
    rw [List.mem_singleton] at h
    have hd : d.toNat = n ∨ d.toNat = 0xfffd := by
      rw [h, Text.charOf]
      split
      · next hvalid => exact .inl (by rw [Char.ofNat, dif_pos hvalid]; rfl)
      · exact .inr rfl
    rcases capitalRuns_image _ hrun with himage | ⟨hsingle, himage⟩
    · dsimp only at himage
      omega
    · dsimp only at hsingle himage
      refine hk (Char.toNat_inj.mp ?_)
      omega
  · rw [List.mem_singleton] at h
    exact hc (h ▸ hlt)

/-- A character is lower-cased within ASCII, or to characters that no keyword has. -/
theorem IsKeyword.lowerChar_cases (hp : IsKeyword p) (c : Char) :
    Text.lowerChar c = [c.toLower] ∨ Text.lowerChar c ≠ [] ∧ ∀ d ∈ Text.lowerChar c, d ∉ p := by
  by_cases hc : c.toNat < 128
  · exact .inl (if_pos hc)
  · refine .inr ⟨?_, fun d hd hin => hc ?_⟩
    · unfold Text.lowerChar
      dsimp only
      repeat' split
      all_goals exact List.cons_ne_nil _ _
    · obtain ⟨hplain, hi, hk⟩ := hp.all d hin
      exact plain_of_lowerChar hd hplain hi hk

theorem IsKeyword.small_cases (hp : IsKeyword p) (before : Text) (c : Char) (r : Text) :
    ∃ small, Text.lowerAfter before (c :: r) = small ++ Text.lowerAfter (c :: before) r ∧
      (small = [c.toLower] ∨ small ≠ [] ∧ ∀ d ∈ small, d ∉ p) := by
  refine ⟨_, by rw [Text.lowerAfter], ?_⟩
  split
  · refine .inr ⟨List.cons_ne_nil _ _, fun d hd => ?_⟩
    rw [List.mem_singleton] at hd
    subst hd
    split
    · exact hp.not_mem (by decide)
    · exact hp.not_mem (by decide)
  · exact hp.lowerChar_cases c

theorem IsKeyword.prefix_of_lowerAfter {q : Text} (hp : IsKeyword p) (hq : ∀ c ∈ q, c ∈ p) {before t : Text}
    (h : q <+: Text.lowerAfter before t) : q <+: t.map Char.toLower := by
  induction t generalizing q before with
  | nil => simpa [Text.lowerAfter] using h
  | cons c t ih =>
    cases q with
    | nil => exact List.nil_prefix
    | cons d q =>
      obtain ⟨hd, hq⟩ := List.forall_mem_cons.mp hq
      obtain ⟨small, hlower, rfl | ⟨hne, hsmall⟩⟩ := hp.small_cases before c t
      · rw [hlower, List.singleton_append, List.cons_prefix_cons] at h
        rw [List.map_cons, List.cons_prefix_cons]
        exact ⟨h.1, ih hq h.2⟩
      · obtain ⟨s, small, rfl⟩ := List.exists_cons_of_ne_nil hne
        rw [hlower, List.cons_append, List.cons_prefix_cons] at h
        exact absurd (h.1 ▸ hd) (hsmall s List.mem_cons_self)

theorem IsKeyword.infix_of_lower (hp : IsKeyword p) {t : Text} (h : p <:+: Text.lower t) : p <:+: t.map Char.toLower := by
  have hafter : ∀ before t, p <:+: Text.lowerAfter before t → p <:+: t.map Char.toLower := by
    intro before t h
    induction t generalizing before with
    | nil => simpa [Text.lowerAfter] using h
    | cons c t ih =>
      rw [List.map_cons]
      obtain ⟨small, hlower, rfl | ⟨-, hsmall⟩⟩ := hp.small_cases before c t
      · rcases List.infix_cons_iff.mp (hlower ▸ h) with hfront | hrest
        · have hlowered : p <+: Text.lowerAfter before (c :: t) := hlower ▸ hfront
          exact (hp.prefix_of_lowerAfter (fun _ hc => hc) hlowered).isInfix
        · exact List.infix_cons (ih _ hrest)
      · exact List.infix_cons (ih _ (hp.behind_all hsmall (hlower ▸ h)))
  exact hafter [] t h

theorem IsKeyword.infix_map_toLower (hp : IsKeyword p) {t : Text} (h : p <:+: t) : p <:+: t.map Char.toLower := by
  have hsmall : p.map Char.toLower = p := by
    refine (List.map_congr_left fun c hc => ?_).trans (List.map_id p)
    exact (plain_char (hp.all c hc).1).2.2.2.2.2.2.2.1
  exact hsmall ▸ h.map Char.toLower

/-! ### Written texts and values -/

theorem writtenNames_short {name cs : Text} (h : (name, cs) ∈ writtenNames) :
    name.length ≤ 5 ∧ ∀ c ∈ cs, isPlainNameChar c = false := by
  have hall : ∀ x ∈ writtenNames, x.1.length ≤ 5 ∧ (x.2.all fun c => !isPlainNameChar c) = true := by decide +kernel
  simpa using hall _ h

theorem IsKeyword.prefix_of_flatMap {f : Char → Text} (hf : WritesChars f) {q : Text} (hp : IsKeyword p)
    (hq : ∀ c ∈ q, c ∈ p) {t : Text} (h : q <+: t.flatMap f) : q <+: t := by
  induction t generalizing q with
  | nil => simpa using h
  | cons c t ih =>
    cases q with
    | nil => exact List.nil_prefix
    | cons d q =>
      obtain ⟨hd, hq⟩ := List.forall_mem_cons.mp hq
      rw [List.flatMap_cons] at h
      rcases hf c with ⟨hself, -⟩ | ⟨name, -, href⟩
      · rw [hself, List.singleton_append, List.cons_prefix_cons] at h
        rw [List.cons_prefix_cons]
        exact ⟨h.1, ih hq h.2⟩
      · rw [href, List.cons_append, List.cons_prefix_cons] at h
        exact absurd (h.1 ▸ hd) (hp.not_mem (by decide))

/-- A keyword stands in a written text just where it stands in the text. -/
theorem IsKeyword.infix_flatMap {f : Char → Text} (hf : WritesChars f) (hp : IsKeyword p) {t : Text} :
    p <:+: t.flatMap f ↔ p <:+: t := by
  constructor
  · intro h
    induction t with
    | nil => exact h
    | cons c t ih =>
      rw [List.flatMap_cons] at h
      rcases hf c with ⟨hself, -⟩ | ⟨name, hname, href⟩
      · rw [hself, List.singleton_append] at h
        rcases List.infix_cons_iff.mp h with hfront | hrest
        · refine (hp.prefix_of_flatMap hf (fun _ hc => hc) (t := c :: t) ?_).isInfix
          rwa [List.flatMap_cons, hself]
        · exact List.infix_cons (ih hrest)
      · rw [href, List.cons_append, List.append_assoc, List.singleton_append] at h
        rcases hp.parted (by decide) (hp.behind (by decide) h) with hin | hrest
        · exact absurd hin (hp.not_infix_short (writtenNames_short hname).1)
        · exact List.infix_cons (ih hrest)
  · intro h
    have hself : p.flatMap f = p := by
      have hchars : ∀ c ∈ p, f c = [c] := by
        intro c hc
        rcases hf c with ⟨hself, -⟩ | ⟨name, hname, -⟩
        · exact hself
        · have hnot := (writtenNames_short hname).2 c List.mem_cons_self
          exact absurd hc (hp.not_mem hnot)
      rw [List.flatMap_congr hchars, List.flatMap_singleton']
    exact hself ▸ h.flatMap f

theorem IsKeyword.infix_escape (hp : IsKeyword p) {t : Text} : p <:+: escape t ↔ p <:+: t :=
  hp.infix_flatMap writesChars_escapeChar

theorem IsKeyword.infix_quoted (hp : IsKeyword p) {q : Char} (hq : isPlainNameChar q = false) {t : Text} :
    p <:+: [q] ++ t ++ [q] ↔ p <:+: t := by
  refine ⟨fun h => ?_, fun h => h.trans (List.infix_append [q] t [q])⟩
  rw [List.append_assoc, List.singleton_append] at h
  exact (hp.parted hq (hp.behind hq h)).resolve_right hp.not_infix_nil

theorem IsKeyword.infix_writeValue (hp : IsKeyword p) {t : Text} : p <:+: writeValue (escape t) ↔ p <:+: t := by
  unfold writeValue
  split
  · split
    · rw [hp.infix_quoted (by decide), replaceChar_escape]
      exact hp.infix_flatMap writesChars_quoted
    · rw [hp.infix_quoted (by decide)]
      exact hp.infix_escape
  · rw [hp.infix_quoted (by decide)]
    exact hp.infix_escape

/-! ### Written elements -/

/-- Neither the name nor an attribute of an element spells a word as it is written, and no class, `id` or `for` value
    does as it is read. -/
structure Element.Spares (p : Text) (e : Element) : Prop where
  name : ¬p <:+: e.name
  names : ∀ a ∈ e.attributes, ¬p <:+: a.1
  written : ∀ a ∈ e.attributes, ¬p <:+: a.2.written
  texts : ∀ a ∈ e.attributes, a.1 ∈ ["class".text, "id".text, "for".text] → ¬p <:+: a.2.text

theorem IsKeyword.infix_attributes (hp : IsKeyword p) {attrs : Attributes}
    (h : ∀ a ∈ attrs, ¬p <:+: a.1 ∧ ¬p <:+: a.2.written) {before : Text} (hbefore : ¬p <:+: before) :
    ¬p <:+: before ++ attrs.flatMap writeAttribute := by
  induction attrs generalizing before with
  | nil => simpa using hbefore
  | cons a attrs ih =>
    obtain ⟨⟨hname, hwritten⟩, hrest⟩ := List.forall_mem_cons.mp h
    have htext : before ++ (a :: attrs).flatMap writeAttribute =
        before ++ ' ' :: (a.1 ++ '=' :: (writeValue (escape a.2.written) ++ attrs.flatMap writeAttribute)) := by
      simp [writeAttribute]
    intro hin
    rw [htext] at hin
    rcases hp.parted (by decide) hin with hin | hin
    · exact hbefore hin
    rcases hp.parted (by decide) hin with hin | hin
    · exact hname hin
    · exact ih hrest (fun hvalue => hwritten (hp.infix_writeValue.mp hvalue)) hin

/-- What stands between the angle brackets of an opening tag. -/
def insideTag (e : Element) : Text := e.name ++ e.attributes.flatMap writeAttribute

theorem writeOpening_eq (e : Element) : writeOpening e = '<' :: (insideTag e ++ ['>']) := by
  simp [writeOpening, insideTag]

theorem writeClosing_eq (e : Element) : writeClosing e = '<' :: '/' :: (e.name ++ ['>']) := by
  simp [writeClosing, String.text]

theorem Element.Spares.insideTag {e : Element} (h : e.Spares p) (hp : IsKeyword p) : ¬p <:+: insideTag e :=
  hp.infix_attributes (fun a ha => ⟨h.names a ha, h.written a ha⟩) h.name

/-! ### Written nodes -/

theorem writeNodes_cons (raw : Bool) (n : Node) (nodes : List Node) :
    writeNodes raw (n :: nodes) = writeNode raw n ++ writeNodes raw nodes := by
  rw [writeNodes]

theorem writeNode_element (raw : Bool) (e : Element) (children : List Node) :
    writeNode raw (.element e children) = writeOpening e ++
      if isVoid e.name && children.isEmpty then [] else writeNodes (isRaw e.name) children ++ writeClosing e := by
  rw [writeNode]
  split
  · rw [List.append_nil]
  · rw [List.append_assoc]

/-- An element is written without a keyword, if its tags and its children are. -/
theorem IsKeyword.not_infix_element (hp : IsKeyword p) {e : Element} {children : List Node}
    (htag : ¬p <:+: insideTag e) (hname : ¬p <:+: e.name) (hchildren : ¬p <:+: writeNodes (isRaw e.name) children)
    {before rest : Text} (hbefore : ¬p <:+: before) (hrest : ¬p <:+: rest) (raw : Bool) :
    ¬p <:+: before ++ (writeNode raw (.element e children) ++ rest) := by
  have hclosing : ¬p <:+: writeNodes (isRaw e.name) children ++ (writeClosing e ++ rest) := by
    rw [writeClosing_eq]
    intro hin
    simp only [List.cons_append, List.append_assoc, List.nil_append] at hin
    rcases hp.parted (by decide) hin with hin | hin
    · exact hchildren hin
    · rcases hp.parted (by decide) (hp.behind (by decide) hin) with hin | hin
      · exact hname hin
      · exact hrest hin
  rw [writeNode_element, writeOpening_eq]
  intro hin
  simp only [List.cons_append, List.append_assoc, List.nil_append] at hin
  rcases hp.parted (by decide) hin with hin | hin
  · exact hbefore hin
  rcases hp.parted (by decide) hin with hin | hin
  · exact htag hin
  split at hin
  · exact hrest hin
  · rw [List.append_assoc] at hin
    exact hclosing hin

/-- The parts of an element stand in what it is written as. -/
theorem infix_writeNode_element (raw : Bool) (e : Element) (children : List Node) :
    insideTag e <:+: writeNode raw (.element e children) ∧
      writeNodes (isRaw e.name) children <:+: writeNode raw (.element e children) := by
  rw [writeNode_element]
  constructor
  · refine List.IsInfix.trans ?_ (List.prefix_append _ _).isInfix
    rw [writeOpening_eq]
    exact ⟨['<'], ['>'], by simp⟩
  · split
    · next hvoid =>
      rw [Bool.and_eq_true, List.isEmpty_iff] at hvoid
      rw [hvoid.2, writeNodes]
      exact List.nil_infix
    · exact ⟨writeOpening e, writeClosing e, by simp⟩

/-- Elements may be changed all over the nodes, if no changed element spells a keyword. -/
theorem IsKeyword.not_infix_mapLineages (hp : IsKeyword p) {f : Selector.Lineage → Element → Element}
    (hname : ∀ lineage e, (f lineage e).name = e.name) {above : Selector.Lineage} {seen : Bool} {nodes : List Node}
    (hf : ∀ e ∈ elements nodes, ∀ lineage, (f lineage e).Spares p) {raw : Bool} {before : Text}
    (h : ¬p <:+: before ++ writeNodes raw nodes) :
    ¬p <:+: before ++ writeNodes raw (Selector.mapLineages f above seen nodes) := by
  fun_induction Selector.mapLineages f above seen nodes generalizing before raw with
  | case1 => exact h
  | case2 above seen e children rest lineage ihchildren ihrest =>
    rw [elements, List.forall_mem_cons, List.forall_mem_append] at hf
    obtain ⟨he, hfchildren, hfrest⟩ := hf
    rw [writeNodes_cons] at h
    -- each piece stands in the markup as it was, so none of them spells the keyword
    have hbefore : ¬p <:+: before := fun hin => h (hin.trans (List.prefix_append _ _).isInfix)
    have hnode : ¬p <:+: writeNode raw (.element e children) := fun hin => h (hin.trans (List.infix_append' _ _ _))
    have hrest : ¬p <:+: [] ++ writeNodes raw rest := fun hin =>
      h (hin.trans ((List.suffix_append _ _).trans (List.suffix_append _ _)).isInfix)
    have hchildren : ¬p <:+: [] ++ writeNodes (isRaw e.name) children := fun hin =>
      hnode (hin.trans (infix_writeNode_element raw e children).2)
    have hspares := he lineage
    have hraw : isRaw (f lineage e).name = isRaw e.name := by rw [hname]
    rw [writeNodes_cons]
    refine hp.not_infix_element (hspares.insideTag hp) hspares.name ?_ hbefore (ihrest hfrest hrest) raw
    rw [hraw]
    exact ihchildren hfchildren hchildren
  | case3 above seen n rest hn ih =>
    rw [elements] at hf
    · rw [writeNodes_cons, ← List.append_assoc] at h ⊢
      exact ih hf h
    · exact hn

/-! ### Elements that were read -/

/-- Only the value that declares an encoding is written otherwise than it was read. -/
def Element.Faithful (e : Element) : Prop :=
  ∀ a ∈ e.attributes, a.2.written = a.2.text ∨ a.1 = "charset".text ∨ a.1 = "content".text

theorem Attributes.mem_set {name : Text} {value : Value} {attrs : Attributes} {a : Text × Value}
    (h : a ∈ Attributes.set name value attrs) : a = (name, value) ∨ a ∈ attrs := by
  induction attrs with
  | nil => exact .inl (List.mem_singleton.mp h)
  | cons b attrs ih =>
    rw [Attributes.set] at h
    split at h
    · next heq =>
      rcases List.mem_cons.mp h with rfl | hin
      · exact .inl (by rw [heq])
      · exact .inr (List.mem_cons_of_mem _ hin)
    · rcases List.mem_cons.mp h with rfl | hin
      · exact .inr List.mem_cons_self
      · exact (ih hin).imp id (List.mem_cons_of_mem _)

theorem Element.Faithful.set {e : Element} (h : e.Faithful) {name : Text} {value : Value}
    (hvalue : value.written = value.text ∨ name = "charset".text ∨ name = "content".text) :
    (e.set name value).Faithful := by
  intro a ha
  rcases Attributes.mem_set ha with rfl | hin
  · exact hvalue
  · exact h a hin

theorem Element.Faithful.markEncoding {e : Element} (h : e.Faithful) : e.markEncoding.Faithful := by
  unfold Element.markEncoding
  repeat' split
  all_goals first
    | exact h
    | exact h.set (by simp)

theorem faithful_ofTag (name : Text) (attributes : List (Text × Text)) : (Element.ofTag name attributes).Faithful := by
  have hset : ∀ attrs : Attributes, (⟨name, attrs⟩ : Element).Faithful → (⟨name, attributes.foldl
      (fun attrs a => Attributes.set a.1 (Value.ofText name a.1 a.2) attrs) attrs⟩ : Element).Faithful := by
    induction attributes with
    | nil => exact fun attrs h => h
    | cons a attributes ih =>
      intro attrs h
      refine ih _ (Element.Faithful.set h (.inl ?_))
      unfold Value.ofText
      split <;> rfl
  exact (hset [] (by simp [Element.Faithful])).markEncoding

theorem infix_insideTag {e : Element} {nodes : List Node} (h : e ∈ elements nodes) (raw : Bool) :
    insideTag e <:+: writeNodes raw nodes := by
  fun_induction elements nodes generalizing raw with
  | case1 => cases h
  | case2 e' children rest ihchildren ihrest =>
    rw [writeNodes_cons]
    obtain ⟨htag, hchildren⟩ := infix_writeNode_element raw e' children
    rw [List.mem_cons, List.mem_append] at h
    rcases h with rfl | hin | hin
    · exact htag.trans (List.prefix_append _ _).isInfix
    · exact (ihchildren hin _).trans (hchildren.trans (List.prefix_append _ _).isInfix)
    · exact (ihrest hin raw).trans (List.suffix_append _ _).isInfix
  | case3 n rest hn ih =>
    rw [writeNodes_cons]
    exact (ih h raw).trans (List.suffix_append _ _).isInfix

/-- An element that was read spares a keyword that is not spelled where it is written. -/
theorem IsKeyword.spares (hp : IsKeyword p) {e : Element} (he : e.Faithful) (h : ¬p <:+: insideTag e) : e.Spares p := by
  have hattribute : ∀ a ∈ e.attributes, writeAttribute a <:+: insideTag e := by
    intro a ha
    have hin : [a] <:+: e.attributes := (List.singleton_infix_iff a _).mpr ha
    have hflat : [a].flatMap writeAttribute <:+: e.attributes.flatMap writeAttribute := hin.flatMap writeAttribute
    rw [List.flatMap_singleton] at hflat
    exact hflat.trans (List.suffix_append _ _).isInfix
  have hwritten : ∀ a ∈ e.attributes, ¬p <:+: a.2.written := by
    intro a ha hin
    refine h ((hp.infix_writeValue.mpr hin).trans (List.IsInfix.trans ?_ (hattribute a ha)))
    exact (List.suffix_append _ _).isInfix
  refine ⟨fun hin => h (hin.trans (List.prefix_append _ _).isInfix), fun a ha hin => ?_, hwritten, fun a ha hname => ?_⟩
  · refine h (hin.trans (List.IsInfix.trans ?_ (hattribute a ha)))
    exact ⟨[' '], ['='] ++ writeValue (escape a.2.written), by simp [writeAttribute]⟩
  · rcases he a ha with heq | hencoding
    · exact heq ▸ hwritten a ha
    · have hother : a.1 ∉ ["class".text, "id".text, "for".text] := by
        rcases hencoding with heq | heq <;> rw [heq] <;> decide
      exact absurd hname hother

end
end Markup
end Stylebook
