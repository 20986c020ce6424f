import Mathlib.Data.List.Chain
import Stylebook.Proofs.Identifier.Selector

/-! Collapsed identifiers. What collapsing leaves of a text are its pieces between underscores that are not empty, with
    one underscore between two of them (`collapse_eq_join`). So a collapsed identifier is left as it is, and that of two
    selectors with a character between them that does not last is put together from those of the two. -/

namespace Stylebook
namespace Identifier

/-- No underscore stands at an end, and no two stand side by side. -/
structure IsCollapsed (t : Text) : Prop where
  head : t.head? ≠ some '_'
  last : t.getLast? ≠ some '_'
  apart : t.IsChain fun c d => ¬(c = '_' ∧ d = '_')

/-- The non-empty pieces between underscores. -/
def pieces (t : Text) : List Text := (Text.split (· == '_') t).filter (!·.isEmpty)

/-- The texts that are not empty, with one underscore between two of them. -/
def link (ts : List Text) : Text := Text.join ['_'] (ts.filter (!·.isEmpty))

theorem link_pair (a b : Text) :
    link [a, b] = if a = [] then b else if b = [] then a else a ++ '_' :: b := by
  rcases eq_or_ne a [] with rfl | ha <;> rcases eq_or_ne b [] with rfl | hb
  · rfl
  · simp [link, hb, Text.join_singleton]
  · simp [link, ha, Text.join_singleton]
  · simp [link, ha, hb, Text.join_cons, Text.join_singleton]

/-! ### Squeezing -/

theorem squeeze_cons {c : Char} (hc : c ≠ '_') (t : Text) : squeeze (c :: t) = c :: squeeze t := by
  cases t with
  | nil => rfl
  | cons d t => simp [squeeze, hc]

theorem squeeze_underscore (t : Text) : squeeze ('_' :: t) = '_' :: Text.trimLeftBy (· == '_') (squeeze t) := by
  induction t with
  | nil => rfl
  | cons d t ih =>
    by_cases hd : d = '_'
    · subst hd
      have hdrop : squeeze ('_' :: '_' :: t) = squeeze ('_' :: t) := by simp [squeeze]
      rw [hdrop, ih]
      simp [Text.trimLeftBy, List.dropWhile_idempotent]
    · have hkeep : squeeze ('_' :: d :: t) = '_' :: squeeze (d :: t) := by simp [squeeze, hd]
      rw [hkeep, squeeze_cons hd]
      simp [Text.trimLeftBy, hd]

theorem squeeze_append {w : Text} (hw : '_' ∉ w) (t : Text) : squeeze (w ++ t) = w ++ squeeze t := by
  induction w with
  | nil => rfl
  | cons c w ih =>
    rw [List.mem_cons, not_or] at hw
    rw [List.cons_append, squeeze_cons (Ne.symm hw.1), ih hw.2, List.cons_append]

theorem isChain_squeeze (t : Text) : (squeeze t).IsChain fun c d => ¬(c = '_' ∧ d = '_') := by
  induction t with
  | nil => exact .nil
  | cons c t ih =>
    by_cases hc : c = '_'
    · subst hc
      rw [squeeze_underscore, List.isChain_cons]
      refine ⟨?_, ih.suffix (List.dropWhile_suffix _)⟩
      rintro d hd ⟨-, rfl⟩
      have hhead := List.head?_dropWhile_not (· == '_') (squeeze t)
      rw [Text.trimLeftBy] at hd
      rw [Option.mem_def.mp hd] at hhead
      cases hhead
    · rw [squeeze_cons hc, List.isChain_cons]
      exact ⟨fun d _ hboth => hc hboth.1, ih⟩

/-! ### Collapsing -/

theorem isCollapsed_collapse (t : Text) : IsCollapsed (collapse t) where
  head h := by simpa using Text.head?_trimBy (· == '_') (squeeze t) '_' h
  last h := by simpa using Text.getLast?_trimBy (· == '_') (squeeze t) '_' h
  apart := by
    obtain ⟨front, back, hsplit⟩ := Text.trimBy_infix (· == '_') (squeeze t)
    have hchain := isChain_squeeze t
    rw [← hsplit] at hchain
    exact hchain.left_of_append.right_of_append

theorem collapse_underscore (t : Text) : collapse ('_' :: t) = collapse t := by
  rw [collapse, squeeze_underscore, collapse]
  simp [Text.trimBy, Text.trimLeftBy, List.dropWhile_idempotent]

theorem squeeze_of_not_mem {w : Text} (hw : '_' ∉ w) : squeeze w = w := by
  simpa [squeeze] using squeeze_append hw []

/-- Neither end of a word is an underscore. -/
theorem ends_of_not_mem {w : Text} (hw : '_' ∉ w) :
    (∀ c ∈ w.head?, (c == '_') = false) ∧ ∀ c ∈ w.getLast?, (c == '_') = false := by
  have hends : ∀ c ∈ w, (c == '_') = false := fun c hc => beq_eq_false_iff_ne.mpr fun heq => hw (heq ▸ hc)
  exact ⟨fun c hc => hends c (List.mem_of_mem_head? hc), fun c hc => hends c (List.mem_of_mem_getLast? hc)⟩

theorem collapse_of_not_mem {w : Text} (hw : '_' ∉ w) : collapse w = w := by
  rw [collapse, squeeze_of_not_mem hw]
  exact Text.trimBy_of_ends (ends_of_not_mem hw).1 (ends_of_not_mem hw).2

/-- Of the underscores behind a word one is left, or none at the end. -/
theorem collapse_append {w : Text} (hne : w ≠ []) (hw : '_' ∉ w) (t : Text) :
    collapse (w ++ '_' :: t) = link [w, collapse t] := by
  have hword := Text.trimRightBy_of_last (ends_of_not_mem hw).2
  have hhead : ∀ u, ∀ c ∈ (w ++ u).head?, (c == '_') = false := by
    intro u
    rw [List.head?_append_of_ne_nil _ hne]
    exact (ends_of_not_mem hw).1
  have hback : Text.trimRightBy (· == '_') ('_' :: Text.trimLeftBy (· == '_') (squeeze t)) =
      if collapse t = [] then [] else '_' :: collapse t := Text.trimRightBy_append (· == '_') ['_'] _
  rw [collapse, squeeze_append hw, squeeze_underscore, Text.trimBy, Text.trimLeftBy_of_head (hhead _),
    Text.trimRightBy_append, hback, hword, link_pair, if_neg hne]
  by_cases hnil : collapse t = []
  · simp [hnil]
  · simp [hnil]

/-! ### Pieces -/

theorem mem_pieces {t u : Text} (hu : u ∈ pieces t) : u ≠ [] ∧ '_' ∉ u := by
  obtain ⟨hsplit, hne⟩ := List.mem_filter.mp hu
  refine ⟨by simpa using hne, fun hmem => ?_⟩
  cases Text.not_mem_of_mem_split u hsplit '_' hmem

theorem pieces_append (a b : Text) : pieces (a ++ '_' :: b) = pieces a ++ pieces b := by
  have hsplit : Text.split (· == '_') (a ++ '_' :: b) = Text.split (· == '_') a ++ Text.split (· == '_') b :=
    Text.split_append rfl a b
  rw [pieces, hsplit, List.filter_append, pieces, pieces]

theorem pieces_of_not_mem {w : Text} (hne : w ≠ []) (hw : '_' ∉ w) : pieces w = [w] := by
  have hsplit : Text.split (· == '_') w = [w] :=
    Text.split_of_forall fun c hc => beq_eq_false_iff_ne.mpr fun heq => hw (heq ▸ hc)
  simp [pieces, hsplit, hne]

theorem join_ne_nil {ps : List Text} (hne : ps ≠ []) (h : ∀ u ∈ ps, u ≠ []) : Text.join ['_'] ps ≠ [] := by
  obtain ⟨u, us, rfl⟩ := List.exists_cons_of_ne_nil hne
  intro hnil
  have hin : u <:+: Text.join ['_'] (u :: us) := Text.infix_join_of_mem u List.mem_cons_self
  rw [hnil, List.infix_nil] at hin
  exact h u List.mem_cons_self hin

/-- Two runs of pieces are linked with one underscore, or with none if one of them is empty. -/
theorem join_append_eq_link {ps qs : List Text} (hps : ∀ u ∈ ps, u ≠ []) (hqs : ∀ u ∈ qs, u ≠ []) :
    Text.join ['_'] (ps ++ qs) = link [Text.join ['_'] ps, Text.join ['_'] qs] := by
  have hnil : Text.join ['_'] [] = [] := rfl
  rcases eq_or_ne ps [] with rfl | hp
  · rw [List.nil_append, hnil, link_pair, if_pos rfl]
  rcases eq_or_ne qs [] with rfl | hq
  · rw [List.append_nil, hnil, link_pair, if_neg (join_ne_nil hp hps), if_pos rfl]
  · rw [Text.join_append _ hp hq, link_pair, if_neg (join_ne_nil hp hps), if_neg (join_ne_nil hq hqs)]
    simp only [List.append_assoc, List.singleton_append]

/-- Collapsing leaves the pieces between underscores, with one underscore between two of them. -/
theorem collapse_eq_join (t : Text) : collapse t = Text.join ['_'] (pieces t) := by
  induction hlength : t.length using Nat.strongRecOn generalizing t with
  | _ n ih =>
    subst hlength
    -- `t` is a word and, unless this is all, an underscore and a rest
    obtain ⟨w, rest, rfl, hw, hrest⟩ := Text.exists_run (· != '_') t
    have hword : '_' ∉ w := fun hmem => by simpa using hw '_' hmem
    cases rest with
    | nil =>
      rw [List.append_nil, collapse_of_not_mem hword]
      rcases eq_or_ne w [] with rfl | hne
      · rfl
      · rw [pieces_of_not_mem hne hword, Text.join_singleton]
    | cons c rest =>
      obtain rfl : c = '_' := by simpa using hrest c rfl
      have hback := ih rest.length (by simp; omega) rest rfl
      rcases eq_or_ne w [] with rfl | hne
      · rw [pieces_append, List.nil_append, collapse_underscore, hback]
        rfl
      · rw [collapse_append hne hword, pieces_append, pieces_of_not_mem hne hword, hback,
          join_append_eq_link (by simpa using hne) fun u hu => (mem_pieces hu).1, Text.join_singleton]

theorem pieces_join {ps : List Text} (h : ∀ u ∈ ps, u ≠ [] ∧ '_' ∉ u) : pieces (Text.join ['_'] ps) = ps := by
  refine Text.filter_split_join rfl fun u hu => ?_
  obtain ⟨hne, hword⟩ := h u hu
  exact ⟨hne, fun _ hc => beq_eq_false_iff_ne.mpr fun heq => hword (heq ▸ hc)⟩

theorem collapse_collapse (t : Text) : collapse (collapse t) = collapse t := by
  rw [collapse_eq_join (collapse t), collapse_eq_join t, pieces_join fun u => mem_pieces]

theorem collapse_seam (a b : Text) : collapse (a ++ '_' :: b) = link [collapse a, collapse b] := by
  have hfull : ∀ t, ∀ u ∈ pieces t, u ≠ [] := fun t u hu => (mem_pieces hu).1
  rw [collapse_eq_join, pieces_append, join_append_eq_link (hfull a) (hfull b), ← collapse_eq_join, ← collapse_eq_join]

/-! ### Identifiers -/

theorem mask_of_forall {t : Text} (h : ∀ c ∈ t, isIdChar c = true) : mask t = t := by
  refine (List.map_congr_left fun c hc => ?_).trans (List.map_id t)
  rw [if_pos (h c hc), id]

/-- A character that does not last becomes an underscore. -/
theorem mask_seam {x : Char} (hx : isLasting x = false) (a b : Text) :
    mask (a ++ x :: b) = mask a ++ '_' :: mask b := by
  have hmark : (if isIdChar x then x else '_') = '_' := by
    split
    · next hid => exact (isIdChar_iff.mp hid).resolve_left (by simp [hx])
    · rfl
  rw [mask, List.map_append, List.map_cons, hmark, mask, mask]

/-- An identifier is its own identifier. -/
theorem ofSelector_ofSelector (collapsed : Bool) (selector : Text) :
    ofSelector collapsed (ofSelector collapsed selector) = ofSelector collapsed selector := by
  have hmask : mask (ofSelector collapsed selector) = ofSelector collapsed selector :=
    mask_of_forall fun c => isIdChar_of_mem_ofSelector
  cases collapsed with
  | false => exact hmask
  | true =>
    show collapse (mask (ofSelector true selector)) = collapse (mask selector)
    rw [hmask]
    exact collapse_collapse (mask selector)

/-- The identifier of a selector has characters of identifiers only, and is its own identifier. A collapsed one has no
    underscore at an end and no two side by side, and is what collapsing leaves of the identifier that is not collapsed;
    and the one of two selectors with a character between them that does not last is the link of theirs. -/
theorem ofSelector_canonical (a b : Text) :
    (∀ collapsed, (∀ c ∈ ofSelector collapsed a, isIdChar c = true) ∧
      ofSelector collapsed (ofSelector collapsed a) = ofSelector collapsed a) ∧
    IsCollapsed (ofSelector true a) ∧
    ofSelector true a = collapse (ofSelector false a) ∧
    ofSelector true a = ofSelector true (ofSelector false a) ∧
    ∀ x, isLasting x = false → ofSelector true (a ++ x :: b) = link [ofSelector true a, ofSelector true b] := by
  refine ⟨fun collapsed => ⟨fun c => isIdChar_of_mem_ofSelector, ofSelector_ofSelector collapsed a⟩,
    isCollapsed_collapse (mask a), rfl, ?_, fun x hx => ?_⟩
  · have hmask : mask (mask a) = mask a := ofSelector_ofSelector false a
    show collapse (mask a) = collapse (mask (mask a))
    rw [hmask]
  · show collapse (mask (a ++ x :: b)) = link [collapse (mask a), collapse (mask b)]
    rw [mask_seam hx, collapse_seam]

theorem ofSelector_canonical_icon :
    isLasting '>' = false ∧ ofSelector true ".btn__ ".text = "btn".text ∧ ofSelector true " ._icon".text = "icon".text ∧
      ofSelector true (".btn__ ".text ++ '>' :: " ._icon".text) = "btn_icon".text := by
  have hbutton : ofSelector true ".btn__ ".text = "btn".text := by decide
  have hicon : ofSelector true " ._icon".text = "icon".text := by decide
  obtain ⟨-, -, -, -, hseam⟩ := ofSelector_canonical ".btn__ ".text " ._icon".text
  refine ⟨by decide, hbutton, hicon, ?_⟩
  rw [hseam '>' (by decide), hbutton, hicon]
  decide

end Identifier
end Stylebook
