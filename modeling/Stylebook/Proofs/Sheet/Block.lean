import Stylebook.Proofs.Doc.Reading
import Stylebook.Sheet.Block

/-! Finding written comments in a sheet. A block goes up to the first closing mark behind a blank, and a
    written comment has none but its own; so it is found as a whole, whatever stands behind it, and reading
    it gives back its tags. -/

namespace Stylebook
namespace Sheet

/-! ### Closing marks -/

theorem afterMark?_eq_none {c : Char} {a after : Text} (h : ¬"*/".text <:+: a) :
    afterMark? (c :: (a ++ (" */".text ++ after))) = none := by
  cases a with
  | nil => rfl
  | cons d a =>
    cases a with
    | nil =>
      unfold afterMark?
      split
      · next heq => simp [String.text] at heq
      · rfl
    | cons e a =>
      unfold afterMark?
      split
      · next heq =>
        simp only [List.cons_append, List.cons.injEq] at heq
        obtain ⟨-, rfl, rfl, -⟩ := heq
        exact absurd ⟨[], a, rfl⟩ h
      · rfl

theorem closing?_append {a : Text} (h : ¬"*/".text <:+: a) (after : Text) :
    closing? (a ++ (" */".text ++ after)) = some (a ++ " */".text, after) := by
  induction a with
  | nil => rfl
  | cons c a ih =>
    have htail : ¬"*/".text <:+: a := fun hin => h (List.infix_cons hin)
    rw [List.cons_append, closing?, afterMark?_eq_none htail, ih htail]
    rfl

/-! ### Blocks -/

theorem blocks_of_blockTail? {t tail rest : Text} (h : blockTail? t = some (tail, rest)) :
    blocks ("/**".text ++ t) = ("/**".text ++ tail) :: blocks rest := by
  have hopen := Text.after?_append "/**".text t
  generalize hsheet : "/**".text ++ t = sheet at hopen ⊢
  rw [blocks.eq_def]
  split
  · simp [String.text] at hsheet
  · split
    · next hnone => simp [hopen] at hnone
    · next behind hsome =>
      obtain rfl := Option.some.inj (hopen.symm.trans hsome)
      split
      · next hblock =>
        obtain ⟨rfl, rfl⟩ := Prod.mk.inj (Option.some.inj (h.symm.trans hblock))
        rfl
      · next hblock => simp [h] at hblock

theorem blockTail?_starred {inside : Text} (h : ¬"*/".text <:+: inside) (after : Text) :
    blockTail? ('\n' :: ' ' :: '*' :: (inside ++ (" */".text ++ after))) =
      some ('\n' :: ' ' :: '*' :: (inside ++ " */".text), after) := by
  have hskip : Text.skipBlanks ('\n' :: ' ' :: '*' :: (inside ++ (" */".text ++ after))) =
      '*' :: (inside ++ (" */".text ++ after)) := rfl
  have htake : ('\n' :: ' ' :: '*' :: (inside ++ (" */".text ++ after))).takeWhile Text.isBlank = ['\n', ' '] := rfl
  unfold blockTail?
  rw [hskip, htake]
  dsimp only
  rw [closing?_append h]
  rfl

/-! ### Written comments -/

open Doc

variable {table : TagTable} {written : List (Tag × Text)}

theorem blocks_render (hne : commentLines table written ≠ []) (h : ∀ line ∈ commentLines table written, Unbroken line)
    (after : Text) : blocks (render table written ++ after) = render table written :: blocks after := by
  obtain ⟨line, ls, hlines⟩ := List.exists_cons_of_ne_nil hne
  obtain ⟨first, hfirst⟩ := star_prefix_marked line
  -- the text between the star of the first line and the closing mark
  let inside := Text.join ['\n'] (first :: ls.map marked) ++ ['\n']
  have hrender : render table written = "/**".text ++ '\n' :: ' ' :: '*' :: (inside ++ " */".text) := by
    have hstar : marked line = ' ' :: '*' :: first := hfirst.symm
    rw [render_eq, hlines, List.map_cons, hstar, Text.join_append _ (List.cons_ne_nil _ _) (List.cons_ne_nil _ _),
      Text.join_cons_cons, Text.join_cons_cons, Text.join_singleton]
    rfl
  have hinside : ¬"*/".text <:+: inside := by
    refine unclosed_separated (by decide) (unclosed_join fun t ht => ?_) (by decide)
    rcases List.mem_cons.mp ht with rfl | ht
    · have hmarked := (h line (hlines ▸ List.mem_cons_self)).marked.unclosed
      exact fun hin => hmarked (hfirst ▸ hin.trans (List.suffix_append _ _).isInfix)
    · obtain ⟨l, hl, rfl⟩ := List.mem_map.mp ht
      exact (h l (hlines ▸ List.mem_cons_of_mem line hl)).marked.unclosed
  have htail := blocks_of_blockTail? (blockTail?_starred hinside after)
  rw [hrender]
  simpa using htail

/-- A written comment is found in a sheet, in normal form and with the tags it was written from. -/
theorem comments_render {changes : List (Text × Bool)}
    (hchanges : ∀ change ∈ changes, change.1 ≠ titleName ∧ change.1 ≠ descriptionName)
    (h : WellFormed (TagTable.default.override changes) (written.map (·.1))) (hm : ∀ w ∈ written, Margin w.2)
    (after : Text) :
    comments (TagTable.default.override changes) (render (TagTable.default.override changes) written ++ after) =
      ⟨render (TagTable.default.override changes) written, written.map (·.1)⟩ ::
        comments (TagTable.default.override changes) after := by
  have hunbroken := h.unbroken hm
  have hparse := parse_render (TagTable.implicit_override hchanges) h hm
  rw [comments, blocks_render h.commentLines_ne_nil hunbroken, List.map_cons, Comment.ofBlock,
    normalize_render hunbroken, hparse]
  rfl

def buttonTags : List (Tag × Text) := [
  (⟨titleName, "Buttons".text⟩, []),
  (⟨descriptionName, "All of them:\n\n  - small".text⟩, "  ".text),
  (⟨"base".text, "button Normal".text⟩, []),
  (⟨"note".text, []⟩, []),
  (⟨"example".text, "<p>\n  $markup\n</p>".text⟩, "\t".text),
  (⟨"deprecated".text, []⟩, [])]

def buttonComment : Text :=
  "/**\n * Buttons\n *   All of them:\n *\n *     - small\n * @base button Normal\n * @note\n".text ++
    " * @example\n * \t<p>\n * \t  $markup\n * \t</p>\n * @deprecated \n */".text

theorem comments_buttons :
    comments (TagTable.default.override [("note".text, true)]) (buttonComment ++ "\nbutton".text) =
      [⟨buttonComment, buttonTags.map (·.1)⟩] := by
  have hrender : render (TagTable.default.override [("note".text, true)]) buttonTags = buttonComment := by
    decide +kernel
  have hafter : comments (TagTable.default.override [("note".text, true)]) "\nbutton".text = [] := by decide +kernel
  have h : WellFormed (TagTable.default.override [("note".text, true)]) (buttonTags.map (·.1)) := by
    refine ⟨List.cons_ne_nil _ _, (buttonTags.map (·.1)).take 2, (buttonTags.map (·.1)).drop 2, rfl, ?_,
      by decide +kernel⟩
    exact .description (List.cons_ne_nil _ _) (by decide +kernel) (by decide +kernel)
  rw [← hrender, comments_render (by decide +kernel) h (by decide +kernel), hafter]

end Sheet
end Stylebook
