import Stylebook.Proofs.Text.Lines
import Stylebook.Sheet.Block

/-! How far a block goes. A block ends at the first closing mark that has a blank before it and leaves the block some
    content. A comment with content and a blank before its own closing mark is therefore a block of its own. A comment
    that is closed without a blank, or has no content, goes on into what stands behind it, up to the next closing mark
    behind a blank, and takes rules and other comments with it. -/

namespace Stylebook
namespace Sheet

/-! ### Closing marks -/

/-- A closing mark with a blank before it stands in the text. -/
def HasClosing (t : Text) : Prop := ∃ c, Text.isBlank c = true ∧ c :: "*/".text <:+: t

/-- A closing mark stands at the end of the text and nowhere else. -/
def ClosesOnce (t : Text) : Prop := "*/".text <:+ t ∧ ¬"*/".text <:+: t.dropLast

instance : DecidablePred ClosesOnce := fun t =>
  inferInstanceAs (Decidable ("*/".text <:+ t ∧ ¬"*/".text <:+: t.dropLast))

theorem afterMark?_eq_some_iff {t r : Text} :
    afterMark? t = some r ↔ ∃ c, Text.isBlank c = true ∧ t = c :: ("*/".text ++ r) := by
  constructor
  · intro h
    unfold afterMark? at h
    split at h
    · rename_i c s
      split at h
      · rename_i hc
        cases h
        exact ⟨c, hc, rfl⟩
      · cases h
    · cases h
  · rintro ⟨c, hc, rfl⟩
    simp [afterMark?, String.text, hc]

theorem hasClosing_cons {c : Char} {t : Text} :
    HasClosing (c :: t) ↔ (∃ r, afterMark? (c :: t) = some r) ∨ HasClosing t := by
  constructor
  · rintro ⟨d, hd, hin⟩
    rcases List.infix_cons_iff.mp hin with ⟨r, hr⟩ | hin
    · exact .inl ⟨r, afterMark?_eq_some_iff.mpr ⟨d, hd, hr.symm⟩⟩
    · exact .inr ⟨d, hd, hin⟩
  · rintro (⟨r, hr⟩ | ⟨d, hd, hin⟩)
    · obtain ⟨d, hd, heq⟩ := afterMark?_eq_some_iff.mp hr
      exact ⟨d, hd, [], r, heq.symm⟩
    · exact ⟨d, hd, List.infix_cons hin⟩

theorem hasClosing_cons_of_not_blank {c : Char} (hc : Text.isBlank c = false) {t : Text} :
    HasClosing (c :: t) ↔ HasClosing t := by
  rw [hasClosing_cons]
  refine ⟨fun h => h.resolve_left ?_, .inr⟩
  rintro ⟨r, hr⟩
  obtain ⟨d, hd, heq⟩ := afterMark?_eq_some_iff.mp hr
  obtain ⟨rfl, -⟩ := List.cons.inj heq
  rw [hc] at hd
  cases hd

theorem HasClosing.mono {t u : Text} (h : HasClosing t) (hin : t <:+: u) : HasClosing u := by
  obtain ⟨c, hc, hmark⟩ := h
  exact ⟨c, hc, hmark.trans hin⟩

theorem closing?_eq_none_iff {t : Text} : closing? t = none ↔ ¬HasClosing t := by
  induction t with
  | nil =>
    refine ⟨fun _ => ?_, fun _ => rfl⟩
    rintro ⟨c, -, hin⟩
    simp at hin
  | cons c t ih =>
    rw [closing?, hasClosing_cons]
    cases hmark : afterMark? (c :: t) with
    | some r => simp
    | none => simp [ih]

/-- The text up to the closing mark that is found, which ends with the first one behind a blank. -/
theorem closing?_eq_some {t inside rest : Text} (h : closing? t = some (inside, rest)) :
    t = inside ++ rest ∧ ¬HasClosing inside.dropLast ∧
      ∃ body c, Text.isBlank c = true ∧ inside = body ++ c :: "*/".text := by
  induction t generalizing inside with
  | nil => cases h
  | cons d t ih =>
    rw [closing?] at h
    cases hmark : afterMark? (d :: t) with
    | some r =>
      rw [hmark] at h
      cases h
      obtain ⟨c, hc, heq⟩ := afterMark?_eq_some_iff.mp hmark
      obtain ⟨rfl, rfl⟩ := List.cons.inj heq
      refine ⟨rfl, ?_, [], d, hc, rfl⟩
      rintro ⟨c, -, hin⟩
      have hlength := hin.length_le
      simp [String.text] at hlength
    | none =>
      rw [hmark] at h
      simp only [Option.map_eq_some_iff, Prod.mk.injEq, Prod.exists] at h
      obtain ⟨inner, rest', hinner, rfl, rfl⟩ := h
      obtain ⟨rfl, hfirst, body, c, hc, rfl⟩ := ih hinner
      refine ⟨rfl, ?_, d :: body, c, hc, rfl⟩
      rw [List.dropLast_cons_of_ne_nil (by simp), hasClosing_cons]
      rintro (⟨r, hr⟩ | hrest)
      · -- a mark at the front of the inner text is one at the front of the whole
        obtain ⟨z, hz, heq⟩ := afterMark?_eq_some_iff.mp hr
        obtain ⟨last, hlast⟩ := List.dropLast_prefix (body ++ c :: "*/".text)
        rw [(List.cons.inj heq).2] at hlast
        have hsome : afterMark? (d :: (body ++ c :: "*/".text ++ rest')) = some (r ++ last ++ rest') := by
          refine afterMark?_eq_some_iff.mpr ⟨z, hz, ?_⟩
          rw [(List.cons.inj heq).1, ← hlast]
          simp
        rw [hmark] at hsome
        cases hsome
      · exact hfirst hrest

/-- Where a text has closing marks, there is a first one. -/
theorem exists_first_mark {t : Text} (h : "*/".text <:+: t) :
    ∃ front behind, t = front ++ ("*/".text ++ behind) ∧ ¬"*/".text <:+: front := by
  induction t with
  | nil => simp [String.text] at h
  | cons c t ih =>
    by_cases hhere : "*/".text <+: c :: t
    · obtain ⟨r, hr⟩ := hhere
      exact ⟨[], r, hr.symm, by simp [String.text]⟩
    · obtain ⟨front, behind, rfl, hfront⟩ := ih ((List.infix_cons_iff.mp h).resolve_left hhere)
      refine ⟨c :: front, behind, rfl, fun hin => ?_⟩
      rcases List.infix_cons_iff.mp hin with hfirst | hin
      · exact hhere (hfirst.trans ⟨"*/".text ++ behind, rfl⟩)
      · exact hfront hin

theorem closesOnce_iff {t front behind : Text} (hend : "*/".text <:+ t) (ht : t = front ++ ("*/".text ++ behind))
    (hfront : ¬"*/".text <:+: front) : ClosesOnce t ↔ behind = [] := by
  subst ht
  constructor
  · rintro ⟨-, honce⟩
    by_contra hne
    refine honce ⟨front, behind.dropLast, ?_⟩
    rw [List.dropLast_append_of_ne_nil (by simp [String.text]), List.dropLast_append_of_ne_nil hne, List.append_assoc]
  · rintro rfl
    have hlast : (front ++ ("*/".text ++ [])).dropLast = front ++ ['*'] := by
      rw [List.append_nil, List.dropLast_append_of_ne_nil (by simp [String.text])]
      rfl
    refine ⟨hend, ?_⟩
    rw [hlast, List.infix_concat_iff]
    rintro (⟨s, hs⟩ | hin)
    · have hchars := congrArg List.getLast? hs
      simp [String.text] at hchars
    · exact hfront hin

/-! ### Blocks -/

/-- What a block has behind its opening mark: blanks, and then content up to the first closing mark behind a blank; or
    at least three blanks up to a closing mark that no other one behind a blank follows. -/
inductive Tail : Text → Text → Prop
  | content {blanks inside rest : Text} {c : Char} (hne : blanks ≠ []) (hblanks : ∀ b ∈ blanks, Text.isBlank b = true)
      (hc : Text.isBlank c = false) (hclosing : closing? (inside ++ rest) = some (inside, rest)) :
      Tail (blanks ++ c :: inside) rest
  | bare {blanks rest : Text} (hlength : 3 ≤ blanks.length) (hblanks : ∀ b ∈ blanks, Text.isBlank b = true)
      (hrest : ¬HasClosing rest) : Tail (blanks ++ "*/".text) rest

theorem blanks_split (t : Text) : (∀ b ∈ t, Text.isBlank b = true) ∨
    ∃ blanks c r, t = blanks ++ c :: r ∧ (∀ b ∈ blanks, Text.isBlank b = true) ∧ Text.isBlank c = false := by
  obtain ⟨blanks, rest, rfl, hblanks, hrest⟩ := Text.exists_run Text.isBlank t
  rcases rest with _ | ⟨c, r⟩
  · rw [List.append_nil]
    exact .inl hblanks
  · exact .inr ⟨blanks, c, r, rfl, hblanks, hrest c rfl⟩

theorem blockTail?_blanks {t : Text} (h : ∀ b ∈ t, Text.isBlank b = true) : blockTail? t = none := by
  have hskip : Text.skipBlanks t = [] := List.dropWhile_eq_nil_iff.mpr h
  rw [blockTail?, hskip]

theorem blockTail?_behind {blanks : Text} {c : Char} (hblanks : ∀ b ∈ blanks, Text.isBlank b = true)
    (hc : Text.isBlank c = false) (r : Text) : blockTail? (blanks ++ c :: r) =
      if blanks.isEmpty then none
      else
        match closing? r with
        | some (inside, rest) => some (blanks ++ c :: inside, rest)
        | none =>
          match Text.after? "*/".text (c :: r) with
          | some rest => if 3 ≤ blanks.length then some (blanks ++ "*/".text, rest) else none
          | none => none := by
  have hhead : ∀ d ∈ (c :: r).head?, Text.isBlank d = false := by simpa using hc
  have hskip : Text.skipBlanks (blanks ++ c :: r) = c :: r := Text.trimLeftBy_append hblanks hhead
  rewrite [blockTail?, hskip, Text.takeWhile_append_of_head hblanks hhead]
  rfl

theorem tail_of_blockTail? {t tail rest : Text} (h : blockTail? t = some (tail, rest)) :
    t = tail ++ rest ∧ Tail tail rest := by
  rcases blanks_split t with hall | ⟨blanks, c, r, rfl, hblanks, hc⟩
  · rw [blockTail?_blanks hall] at h
    cases h
  rw [blockTail?_behind hblanks hc] at h
  split at h
  · cases h
  rename_i hne
  split at h
  · rename_i inside rest' hclosing
    cases h
    obtain ⟨hr, -⟩ := closing?_eq_some hclosing
    rw [hr] at hclosing ⊢
    exact ⟨by simp, .content (by simpa using hne) hblanks hc hclosing⟩
  rename_i hnone
  split at h
  · rename_i rest' hafter
    have hmark : c :: r = '*' :: '/' :: rest' := Text.eq_append_of_after? hafter
    split at h
    · rename_i hlength
      cases h
      obtain ⟨rfl, rfl⟩ := List.cons.inj hmark
      rw [closing?_eq_none_iff, hasClosing_cons_of_not_blank (by decide)] at hnone
      exact ⟨by rw [List.append_assoc]; rfl, .bare hlength hblanks hnone⟩
    · cases h
  · cases h

theorem mem_blocks {t b : Text} (h : b ∈ blocks t) : ∃ before tail after,
    t = before ++ ("/**".text ++ (tail ++ after)) ∧ b = "/**".text ++ tail ∧ Tail tail after := by
  fun_induction blocks t with
  | case1 => cases h
  | case2 c r _ ih =>
    obtain ⟨before, tail, after, rfl, hb⟩ := ih h
    exact ⟨c :: before, tail, after, rfl, hb⟩
  | case3 c r rest hopen tail after htail ih =>
    obtain ⟨rfl, hext⟩ := tail_of_blockTail? htail
    rw [Text.eq_append_of_after? hopen]
    rcases List.mem_cons.mp h with rfl | hin
    · exact ⟨[], tail, after, rfl, rfl, hext⟩
    · obtain ⟨before, tail', after', rfl, hb⟩ := ih hin
      exact ⟨"/**".text ++ (tail ++ before), tail', after', by simp, hb⟩
  | case4 c r rest _ _ ih =>
    obtain ⟨before, tail, after, rfl, hb⟩ := ih h
    exact ⟨c :: before, tail, after, rfl, hb⟩

/-! ### The comment that a block begins with -/

def HasContent (t : Text) : Prop := ∃ c ∈ t, Text.isBlank c = false

def EndsBlank (t : Text) : Prop := ∃ front c, t = front ++ [c] ∧ Text.isBlank c = true

/-- A closing mark behind blanks and a character that is not blank begins with this character or behind it. -/
theorem mark_behind_blanks {blanks inside front rest : Text} {c : Char}
    (hblanks : ∀ b ∈ blanks, Text.isBlank b = true) (h : blanks ++ c :: inside = front ++ '*' :: rest) :
    (∃ more, front = blanks ++ c :: more ∧ inside = more ++ '*' :: rest) ∨
      (front = blanks ∧ c = '*' ∧ inside = rest) := by
  rcases List.append_eq_append_iff.mp h with ⟨more, rfl, hmore⟩ | ⟨more, hmore, hrest⟩
  · cases more with
    | nil =>
      obtain ⟨rfl, rfl⟩ := List.cons.inj hmore
      exact .inr ⟨by simp, rfl, rfl⟩
    | cons d more =>
      obtain ⟨rfl, rfl⟩ := List.cons.inj hmore
      exact .inl ⟨more, rfl, rfl⟩
  · cases more with
    | nil =>
      obtain ⟨rfl, rfl⟩ := List.cons.inj hrest
      exact .inr ⟨by simpa using hmore.symm, rfl, rfl⟩
    | cons d more =>
      obtain ⟨rfl, -⟩ := List.cons.inj hrest
      have hstar := hblanks '*' (by simp [hmore])
      cases hstar

/-- A text that begins with a blank makes no closing mark with the opening mark before it. -/
theorem mark_not_infix_opening {inside : Text} (hhead : ∀ c ∈ inside.head?, Text.isBlank c = true)
    (h : ¬"*/".text <:+: inside) : ¬"*/".text <:+: "/**".text ++ inside := by
  cases inside with
  | nil => decide
  | cons b inside =>
    have hslash : '/' ≠ b := by
      rintro rfl
      cases hhead '/' rfl
    intro hin
    simp only [String.text, String.reduceToList, List.cons_append, List.nil_append, List.infix_cons_iff (a := '/'),
      List.infix_cons_iff (a := '*'), List.cons_prefix_cons] at hin
    simp only [hslash, Char.reduceEq, false_and, and_false, false_or] at hin
    exact h hin

theorem not_hasContent {blanks : Text} (h : ∀ b ∈ blanks, Text.isBlank b = true) : ¬HasContent blanks := by
  rintro ⟨c, hc, hcontent⟩
  rw [h c hc] at hcontent
  cases hcontent

theorem endsBlank_behind {front more : Text} {c : Char} (hc : Text.isBlank c = false) :
    EndsBlank (front ++ c :: more) ↔ EndsBlank more := by
  constructor
  · rintro ⟨most, z, hlast, hz⟩
    rcases List.eq_nil_or_concat more with rfl | ⟨init, z', rfl⟩
    · obtain ⟨-, rfl⟩ := List.append_inj' hlast rfl |>.imp id List.singleton_inj.mp
      rw [hc] at hz
      cases hz
    · have hsplit : (front ++ c :: init) ++ [z'] = most ++ [z] := by simpa using hlast
      obtain ⟨-, hlast⟩ := List.append_inj' hsplit rfl
      exact ⟨init, z', List.concat_eq_append, List.singleton_inj.mp hlast ▸ hz⟩
  · rintro ⟨init, z, rfl, hz⟩
    exact ⟨front ++ c :: init, z, by simp, hz⟩

/-- The first closing mark behind a blank is the first closing mark at all just if this one has a blank before it. -/
theorem behind_first_mark {inside more behind body : Text} {d : Char} (hfirst : ¬HasClosing inside.dropLast)
    (hd : Text.isBlank d = true) (hend : inside = body ++ d :: "*/".text)
    (h : inside = more ++ ("*/".text ++ behind)) : behind = [] ↔ EndsBlank more := by
  constructor
  · rintro rfl
    have hsplit : (body ++ [d]) ++ "*/".text = more ++ "*/".text := by simpa [hend] using h
    obtain ⟨hmore, -⟩ := List.append_inj' hsplit rfl
    exact ⟨body, d, hmore.symm, hd⟩
  · rintro ⟨most, z, rfl, hz⟩
    by_contra hne
    refine hfirst ⟨z, hz, most, behind.dropLast, ?_⟩
    rw [h, List.dropLast_append_of_ne_nil (by simp [String.text]), List.dropLast_append_of_ne_nil hne]
    simp

/-- The first closing mark behind the opening of a block, and whether the block ends at this mark. -/
theorem Tail.own {tail after : Text} (h : Tail tail after) : ∃ inside behind,
    tail = inside ++ ("*/".text ++ behind) ∧ "*/".text <:+ tail ∧ ¬"*/".text <:+: "/**".text ++ inside ∧
      (HasContent inside → (behind = [] ↔ EndsBlank inside)) ∧
      (¬HasContent inside → (behind = [] ↔ ¬HasClosing (behind ++ after))) := by
  cases h with
  | @bare blanks _ hlength hblanks hrest =>
    have hhead : ∀ c ∈ blanks.head?, Text.isBlank c = true := fun c hc => hblanks c (List.mem_of_mem_head? hc)
    have hmark : ¬"*/".text <:+: blanks := by
      intro hin
      cases hblanks '*' (hin.subset (by decide))
    refine ⟨blanks, [], by simp, List.suffix_append _ _, mark_not_infix_opening hhead hmark, ?_, ?_⟩
    · exact fun hcontent => absurd hcontent (not_hasContent hblanks)
    · exact fun _ => by simp [hrest]
  | @content blanks inner _ c hne hblanks hc hclosing =>
    obtain ⟨-, hfirst, body, d, hd, hinner⟩ := closing?_eq_some hclosing
    have hend : "*/".text <:+ blanks ++ c :: inner := ⟨blanks ++ c :: (body ++ [d]), by simp [hinner]⟩
    have hhead : ∀ more : Text, ∀ z ∈ (blanks ++ more).head?, Text.isBlank z = true := by
      intro more z hz
      rw [List.head?_append_of_ne_nil _ hne] at hz
      exact hblanks z (List.mem_of_mem_head? hz)
    obtain ⟨front, behind, htail, hfront⟩ := exists_first_mark hend.isInfix
    refine ⟨front, behind, htail, hend, ?_⟩
    rcases mark_behind_blanks hblanks htail with ⟨more, rfl, hmore⟩ | ⟨rfl, rfl, hmore⟩
    · -- the comment has content, so its last character decides
      have hcontent : HasContent (blanks ++ c :: more) := ⟨c, by simp, hc⟩
      refine ⟨mark_not_infix_opening (hhead _) hfront, fun _ => ?_, fun hnot => absurd hcontent hnot⟩
      rw [endsBlank_behind hc]
      exact behind_first_mark hfirst hd hinner hmore
    · -- the comment is blank, and its mark is the content with which the block goes on
      have hclosed : HasClosing behind := by
        have hinside : HasClosing inner := ⟨d, hd, body, [], by simp [hinner]⟩
        rw [hmore] at hinside
        exact (hasClosing_cons_of_not_blank (by decide)).mp hinside
      have hhead := hhead []
      rw [List.append_nil] at hhead
      refine ⟨mark_not_infix_opening hhead hfront, ?_, fun _ => ⟨?_, fun hnot => ?_⟩⟩
      · exact fun hcontent => absurd hcontent (not_hasContent hblanks)
      · rintro rfl
        exact absurd hclosed (closing?_eq_none_iff.mp rfl)
      · exact absurd (hclosed.mono (List.prefix_append _ _).isInfix) hnot

/-- How far a block goes that is found in a sheet. It begins with a comment, the text up to the first closing mark, and
    closes once where it is this comment. Where the comment has content, that is so if there is a blank before its
    closing mark; and where it has none, if no closing mark behind a blank follows in the sheet. -/
theorem blocks_extent {t b : Text} (h : b ∈ blocks t) : ∃ before after inside behind,
    t = before ++ (b ++ after) ∧ b = "/**".text ++ (inside ++ ("*/".text ++ behind)) ∧ ¬"*/".text <:+: inside ∧
      (ClosesOnce b ↔ behind = []) ∧ (HasContent inside → (ClosesOnce b ↔ EndsBlank inside)) ∧
      (¬HasContent inside → (ClosesOnce b ↔ ¬HasClosing (behind ++ after))) := by
  obtain ⟨before, tail, after, rfl, rfl, htail⟩ := mem_blocks h
  obtain ⟨inside, behind, rfl, hend, hopening, hcontent, hblank⟩ := htail.own
  have honce : ClosesOnce ("/**".text ++ (inside ++ ("*/".text ++ behind))) ↔ behind = [] :=
    closesOnce_iff (hend.trans (List.suffix_append _ _)) (List.append_assoc _ _ _).symm hopening
  refine ⟨before, after, inside, behind, by simp, rfl, ?_, honce, ?_, ?_⟩
  · exact fun hin => hopening (hin.trans (List.suffix_append _ _).isInfix)
  · exact fun hc => honce.trans (hcontent hc)
  · exact fun hc => honce.trans (hblank hc)

/-- A comment that is closed behind a blank, one that is not, and a third one that closes the second. -/
def threeComments : Text := "/** Links */\na { }\n/** Buttons*/\nb { }\n/** Lists */".text

theorem blocks_extent_links : "/** Links */".text ∈ blocks threeComments ∧ ∃ before after inside behind,
    threeComments = before ++ ("/** Links */".text ++ after) ∧
      "/** Links */".text = "/**".text ++ (inside ++ ("*/".text ++ behind)) ∧ ¬"*/".text <:+: inside ∧
      (ClosesOnce "/** Links */".text ↔ behind = []) ∧
      (HasContent inside → (ClosesOnce "/** Links */".text ↔ EndsBlank inside)) ∧
      (¬HasContent inside → (ClosesOnce "/** Links */".text ↔ ¬HasClosing (behind ++ after))) := by
  have hfound : "/** Links */".text ∈ blocks threeComments := by decide +kernel
  exact ⟨hfound, blocks_extent hfound⟩

/-- A comment that is closed without a blank goes on to the end of another one, and so does an empty one. -/
theorem blocks_run_on :
    (∃ b ∈ blocks threeComments, b = "/** Buttons*/\nb { }\n/** Lists */".text ∧ ¬ClosesOnce b) ∧
      ∃ b ∈ blocks "/** */\na { }\n/* Links */".text, b = "/** */\na { }\n/* Links */".text ∧ ¬ClosesOnce b := by
  refine ⟨⟨_, ?_, rfl, by decide +kernel⟩, _, ?_, rfl, by decide +kernel⟩
  · decide +kernel
  · decide +kernel

end Sheet
end Stylebook
