import Stylebook.Proofs.Doc.Margins
import Stylebook.Proofs.Doc.Sections
import Stylebook.Proofs.Sheet.Block
import Stylebook.Proofs.Sheet.Extent

/-! Line ends in a sheet. Blocks are found in the text as it is written, and only then are line ends unified. To find a
    block it does not matter which blanks there are, nor how many, with one exception: a comment without content is a
    block if it has three blanks. A line end of two characters counts as two of them, so with such line ends a sheet
    can have one comment more, an empty one at its end. -/

namespace Stylebook

namespace Text

/-! ### Other line ends -/

/-- Some blanks, to stand for a line feed. -/
structure LineEnd (e : Text) : Prop where
  ne_nil : e ≠ []
  blank : ∀ c ∈ e, isBlank c = true

theorem replaceChar_cons_self (c : Char) (e t : Text) : replaceChar c e (c :: t) = e ++ replaceChar c e t := by
  simp [replaceChar]

theorem replaceChar_cons_of_ne {c d : Char} (h : d ≠ c) (e t : Text) :
    replaceChar c e (d :: t) = d :: replaceChar c e t := by
  simp [replaceChar, h]

theorem replaceChar_append (c : Char) (e t u : Text) :
    replaceChar c e (t ++ u) = replaceChar c e t ++ replaceChar c e u := List.flatMap_append

theorem length_replaceChar (c : Char) (e t : Text) :
    (replaceChar c e t).length + t.count c = t.length + e.length * t.count c := by
  induction t with
  | nil => simp [replaceChar]
  | cons d t ih =>
    by_cases hd : d = c
    · subst hd
      rw [replaceChar_cons_self, List.count_cons_self, List.length_append, List.length_cons, Nat.mul_succ]
      omega
    · rw [replaceChar_cons_of_ne hd, List.count_cons_of_ne hd, List.length_cons, List.length_cons]
      omega

variable {e : Text}

/-- What a blank becomes. -/
theorem LineEnd.replaceChar_blank (he : LineEnd e) {c : Char} (hc : isBlank c = true) :
    ∃ front, LineEnd front ∧ ∀ t, replaceChar '\n' e (c :: t) = front ++ replaceChar '\n' e t := by
  by_cases hlf : c = '\n'
  · subst hlf
    exact ⟨e, he, replaceChar_cons_self _ e⟩
  · exact ⟨[c], ⟨by simp, by simpa using hc⟩, replaceChar_cons_of_ne hlf e⟩

theorem LineEnd.after?_replaceChar (he : LineEnd e) {p : Text} (hp : p.any isBlank = false) (t : Text) :
    after? p (replaceChar '\n' e t) = (after? p t).map (replaceChar '\n' e) := by
  induction p generalizing t with
  | nil => rfl
  | cons c p ih =>
    obtain ⟨hc, hrest⟩ := Bool.or_eq_false_iff.mp (List.any_cons ▸ hp)
    cases t with
    | nil => rfl
    | cons d t =>
      by_cases hd : d = '\n'
      · subst hd
        obtain ⟨z, e', rfl⟩ := List.exists_cons_of_ne_nil he.ne_nil
        have hz : c ≠ z := by
          rintro rfl
          rw [he.blank c List.mem_cons_self] at hc
          cases hc
        rw [replaceChar_cons_self, List.cons_append, after?, after?, if_neg hz, if_neg (ne_lineFeed hc)]
        rfl
      · rw [replaceChar_cons_of_ne hd, after?, after?]
        split
        · exact ih hrest t
        · rfl

theorem LineEnd.blanks (he : LineEnd e) {t : Text} (h : ∀ c ∈ t, isBlank c = true) :
    ∀ c ∈ replaceChar '\n' e t, isBlank c = true := by
  intro c hc
  obtain ⟨d, hd, hc⟩ := List.mem_flatMap.mp hc
  split at hc
  · exact he.blank c hc
  · rw [List.mem_singleton.mp hc]
    exact h d hd

theorem LineEnd.length_le (he : LineEnd e) (t : Text) : t.length ≤ (replaceChar '\n' e t).length := by
  have hlength := length_replaceChar '\n' e t
  have hcount := Nat.le_mul_of_pos_left (t.count '\n') (List.length_pos_iff.mpr he.ne_nil)
  omega

theorem LineEnd.replaceChar_eq_nil (he : LineEnd e) {t : Text} : replaceChar '\n' e t = [] ↔ t = [] := by
  constructor
  · intro h
    cases t with
    | nil => rfl
    | cons c t =>
      by_cases hlf : c = '\n'
      · rw [hlf, replaceChar_cons_self] at h
        exact absurd (List.append_eq_nil_iff.mp h).1 he.ne_nil
      · rw [replaceChar_cons_of_ne hlf] at h
        cases h
  · rintro rfl
    rfl

end Text

namespace Sheet

open Text (LineEnd replaceChar)

variable {e : Text}

/-! ### Blocks -/

theorem afterMark?_cons (c : Char) (t : Text) :
    afterMark? (c :: t) = if Text.isBlank c then Text.after? "*/".text t else none := by
  cases hr : Text.after? "*/".text t with
  | some r =>
    rw [Text.eq_append_of_after? hr]
    rfl
  | none =>
    rw [ite_self]
    cases hmark : afterMark? (c :: t) with
    | none => rfl
    | some r =>
      obtain ⟨d, -, heq⟩ := afterMark?_eq_some_iff.mp hmark
      rw [(List.cons.inj heq).2, Text.after?_append] at hr
      cases hr

/-- A closing mark behind some blanks, or the first one later on. -/
theorem closing?_blanks (he : LineEnd e) (t : Text) : closing? (e ++ t) =
    match Text.after? "*/".text t with
    | some r => some (e ++ "*/".text, r)
    | none => (closing? t).map (Prod.map (e ++ ·) id) := by
  obtain ⟨hne, hblank⟩ := he
  induction e with
  | nil => exact absurd rfl hne
  | cons z e ih =>
    have hz := hblank z List.mem_cons_self
    rw [List.cons_append, closing?, afterMark?_cons, if_pos hz]
    cases e with
    | nil =>
      rw [List.nil_append]
      cases Text.after? "*/".text t with
      | some r => rfl
      | none => rfl
    | cons y e =>
      have hstar : '*' ≠ y := by
        rintro rfl
        cases hblank '*' (by simp)
      have hnone : Text.after? "*/".text (y :: e ++ t) = none := if_neg hstar
      rw [hnone]
      dsimp only
      rw [ih (List.cons_ne_nil y e) fun c hc => hblank c (List.mem_cons_of_mem z hc)]
      cases Text.after? "*/".text t with
      | some r => rfl
      | none =>
        dsimp only
        rw [Option.map_map]
        rfl

theorem closing?_of_not_blank {c : Char} (hc : Text.isBlank c = false) (t : Text) :
    closing? (c :: t) = (closing? t).map (Prod.map (c :: ·) id) := by
  rw [closing?, afterMark?_cons, if_neg (by simp [hc])]
  rfl

theorem closing?_replaceChar (he : LineEnd e) (t : Text) :
    closing? (replaceChar '\n' e t) = (closing? t).map (Prod.map (replaceChar '\n' e) (replaceChar '\n' e)) := by
  have hmark := he.after?_replaceChar (p := "*/".text) (by decide)
  have hself : replaceChar '\n' e "*/".text = "*/".text := rfl
  induction t with
  | nil => rfl
  | cons c t ih =>
    cases hc : Text.isBlank c with
    | true =>
      -- a blank becomes some blanks, and a mark behind it is one behind the last of them
      obtain ⟨front, hfront, hcons⟩ := he.replaceChar_blank hc
      have hsingle := closing?_blanks (e := [c]) ⟨by simp, by simpa using hc⟩ t
      rw [List.singleton_append] at hsingle
      rw [hcons, closing?_blanks hfront, hsingle, hmark, ih]
      cases Text.after? "*/".text t with
      | some r => simp only [Option.map_some, Prod.map_apply, List.singleton_append, hcons, hself]
      | none =>
        cases closing? t with
        | none => rfl
        | some p =>
          obtain ⟨inside, rest⟩ := p
          simp [hcons]
    | false =>
      have hcons := Text.replaceChar_cons_of_ne (Text.ne_lineFeed hc) e
      rw [hcons, closing?_of_not_blank hc, closing?_of_not_blank hc, ih]
      cases closing? t with
      | none => rfl
      | some p =>
        obtain ⟨inside, rest⟩ := p
        simp [hcons]

theorem hasClosing_replaceChar (he : LineEnd e) {t : Text} : HasClosing (replaceChar '\n' e t) ↔ HasClosing t := by
  have hnone : closing? (replaceChar '\n' e t) = none ↔ closing? t = none := by
    rw [closing?_replaceChar he, Option.map_eq_none_iff]
  rwa [closing?_eq_none_iff, closing?_eq_none_iff, not_iff_not] at hnone

/-- Behind an opening mark stands a comment without content that has too few blanks to be a block, but enough of them
    with the other line end, and no closing mark follows that it could go on to. -/
structure ShortGap (e t gap rest : Text) : Prop where
  text : t = gap ++ ("*/".text ++ rest)
  blank : ∀ c ∈ gap, Text.isBlank c = true
  short : gap.length < 3
  long : 3 ≤ (replaceChar '\n' e gap).length
  last : ¬HasClosing rest

theorem blockTail?_replaceChar (he : LineEnd e) (t : Text) :
    blockTail? (replaceChar '\n' e t) = (blockTail? t).map (Prod.map (replaceChar '\n' e) (replaceChar '\n' e)) ∨
      ∃ gap rest, ShortGap e t gap rest ∧ blockTail? t = none ∧
        blockTail? (replaceChar '\n' e t) = some (replaceChar '\n' e gap ++ "*/".text, replaceChar '\n' e rest) := by
  rcases blanks_split t with hall | ⟨gap, c, r, rfl, hgap, hc⟩
  · rw [blockTail?_blanks hall, blockTail?_blanks (he.blanks hall)]
    exact .inl rfl
  have hself : replaceChar '\n' e "*/".text = "*/".text := rfl
  have hcons := Text.replaceChar_cons_of_ne (Text.ne_lineFeed hc) e
  have hmark := he.after?_replaceChar (p := "*/".text) (by decide) (c :: r)
  rw [hcons] at hmark
  rw [Text.replaceChar_append, hcons, blockTail?_behind hgap hc, blockTail?_behind (he.blanks hgap) hc,
    closing?_replaceChar he, hmark]
  by_cases hnil : gap = []
  · subst hnil
    exact .inl rfl
  have hne : gap.isEmpty = false := List.isEmpty_eq_false_iff.mpr hnil
  have hne' : (replaceChar '\n' e gap).isEmpty = false :=
    List.isEmpty_eq_false_iff.mpr fun heq => hnil (he.replaceChar_eq_nil.mp heq)
  rw [hne, hne']
  cases hclosing : closing? r with
  | some p =>
    obtain ⟨inside, rest⟩ := p
    refine .inl ?_
    simp [Text.replaceChar_append, hcons]
  | none =>
    cases hafter : Text.after? "*/".text (c :: r) with
    | none => exact .inl rfl
    | some rest =>
      by_cases hlong : 3 ≤ gap.length
      · refine .inl ?_
        simp [hlong, hlong.trans (he.length_le gap), Text.replaceChar_append, hself]
      · by_cases hlong' : 3 ≤ (replaceChar '\n' e gap).length
        · have htext := Text.eq_append_of_after? hafter
          have hlast : ¬HasClosing rest := by
            rw [closing?_eq_none_iff] at hclosing
            refine fun hin => hclosing (hin.mono ?_)
            rw [(List.cons.inj htext).2]
            exact (List.suffix_append _ _).isInfix
          refine .inr ⟨gap, rest, ⟨by rw [htext], hgap, by omega, hlong', hlast⟩, ?_, ?_⟩
          · simp [hlong]
          · simp [hlong']
        · refine .inl ?_
          simp [hlong, hlong']

/-! ### Sheets -/

theorem blocks_of_not_opening {c : Char} {t : Text} (h : Text.after? "/**".text (c :: t) = none) :
    blocks (c :: t) = blocks t := by
  rw [blocks]
  split
  · rfl
  · rename_i hsome
    rw [h] at hsome
    cases hsome

theorem blocks_of_no_tail {c : Char} {t rest : Text} (h : Text.after? "/**".text (c :: t) = some rest)
    (hnone : blockTail? rest = none) : blocks (c :: t) = blocks t := by
  rw [blocks]
  split
  · rfl
  · rename_i rest' hsome
    obtain rfl := Option.some.inj (h.symm.trans hsome)
    split
    · rename_i htail
      rw [hnone] at htail
      cases htail
    · rfl

theorem blocks_blanks {blanks : Text} (h : ∀ b ∈ blanks, Text.isBlank b = true) (t : Text) :
    blocks (blanks ++ t) = blocks t := by
  induction blanks with
  | nil => rfl
  | cons b blanks ih =>
    obtain ⟨hb, hrest⟩ := List.forall_mem_cons.mp h
    have hslash : '/' ≠ b := by
      rintro rfl
      cases hb
    rw [List.cons_append, blocks_of_not_opening (if_neg hslash), ih hrest]

theorem Tail.hasClosing {tail after : Text} (h : Tail tail after) : HasClosing tail := by
  cases h with
  | @content blanks _ _ c hne hblanks hc hclosing =>
    obtain ⟨-, -, body, d, hd, rfl⟩ := closing?_eq_some hclosing
    exact ⟨d, hd, blanks ++ c :: body, [], by simp⟩
  | @bare blanks _ hlength hblanks hrest =>
    rcases List.eq_nil_or_concat blanks with rfl | ⟨init, z, rfl⟩
    · cases hlength
    · exact ⟨z, hblanks z (by simp), init, [], by simp⟩

theorem blocks_eq_nil {t : Text} (h : ¬HasClosing t) : blocks t = [] := by
  by_contra hne
  obtain ⟨b, hb⟩ := List.exists_mem_of_ne_nil _ hne
  obtain ⟨before, tail, after, rfl, -, htail⟩ := mem_blocks hb
  exact h (htail.hasClosing.mono ⟨before ++ "/**".text, after, by simp⟩)

/-- Such a comment is no block, and there is none in it or behind it. -/
theorem ShortGap.blocks_eq_nil {t gap rest : Text} (h : ShortGap e t gap rest) : blocks ("**".text ++ t) = [] := by
  have hrest : blocks ('/' :: rest) = [] := by
    refine Sheet.blocks_eq_nil ?_
    rw [hasClosing_cons_of_not_blank (by decide)]
    exact h.last
  obtain rfl := h.text
  calc blocks ('*' :: '*' :: (gap ++ '*' :: '/' :: rest))
      = blocks (gap ++ '*' :: '/' :: rest) := by rw [blocks_of_not_opening rfl, blocks_of_not_opening rfl]
    _ = blocks ('/' :: rest) := by rw [blocks_blanks h.blank, blocks_of_not_opening rfl]
    _ = [] := hrest

/-- The blocks of a sheet with other line ends are those with its own, but for an empty comment at the end. -/
theorem blocks_replaceChar (he : LineEnd e) (t : Text) :
    blocks (replaceChar '\n' e t) = (blocks t).map (replaceChar '\n' e) ∨
      ∃ before gap rest, t = before ++ ("/**".text ++ (gap ++ ("*/".text ++ rest))) ∧
        ShortGap e (gap ++ ("*/".text ++ rest)) gap rest ∧
        blocks (replaceChar '\n' e t) =
          (blocks t).map (replaceChar '\n' e) ++ ["/**".text ++ (replaceChar '\n' e gap ++ "*/".text)] := by
  have hopening : ∀ u, replaceChar '\n' e ("/**".text ++ u) = "/**".text ++ replaceChar '\n' e u := fun _ => rfl
  fun_induction blocks t with
  | case1 => exact .inl (by simp [replaceChar, blocks])
  | case2 c r hopen ih =>
    have hstep : blocks (replaceChar '\n' e (c :: r)) = blocks (replaceChar '\n' e r) := by
      by_cases hlf : c = '\n'
      · rw [hlf, Text.replaceChar_cons_self, blocks_blanks he.blank]
      · have hnone := he.after?_replaceChar (p := "/**".text) (by decide) (c :: r)
        rw [hopen, Text.replaceChar_cons_of_ne hlf] at hnone
        rw [Text.replaceChar_cons_of_ne hlf, blocks_of_not_opening hnone]
    rw [hstep]
    rcases ih with heq | ⟨before, gap, rest, rfl, hgap, heq⟩
    · exact .inl heq
    · exact .inr ⟨c :: before, gap, rest, rfl, hgap, heq⟩
  | case3 c r rest hopen tail after htail ih =>
    have hsome : blockTail? (replaceChar '\n' e rest) = some (replaceChar '\n' e tail, replaceChar '\n' e after) := by
      rcases blockTail?_replaceChar he rest with heq | ⟨-, -, -, hnone, -⟩
      · rw [heq, htail]
        rfl
      · rw [htail] at hnone
        cases hnone
    obtain ⟨rfl, -⟩ := tail_of_blockTail? htail
    rw [Text.eq_append_of_after? hopen, hopening, blocks_of_blockTail? hsome, List.map_cons, hopening]
    rcases ih with heq | ⟨before, gap, rest, rfl, hgap, heq⟩
    · exact .inl (by rw [heq])
    · exact .inr ⟨"/**".text ++ (tail ++ before), gap, rest, by simp, hgap, by rw [heq]; rfl⟩
  | case4 c r rest hopen hnone ih =>
    have htext := Text.eq_append_of_after? hopen
    rcases blockTail?_replaceChar he rest with heq | ⟨gap, after, hgap, -, hsome⟩
    · rw [hnone] at heq
      obtain ⟨rfl, rfl⟩ := List.cons.inj htext
      have hstep := blocks_of_no_tail (Text.after?_append "/**".text (replaceChar '\n' e rest)) heq
      rcases ih with heq | ⟨before, gap, rest', hr, hgap, heq⟩
      · exact .inl (hstep.trans heq)
      · exact .inr ⟨'/' :: before, gap, rest', by rw [hr]; rfl, hgap, hstep.trans heq⟩
    · -- the empty comment is the last thing that could be a block
      obtain rfl := hgap.text
      have hlast : blocks (replaceChar '\n' e after) = [] := by
        refine blocks_eq_nil ?_
        rw [hasClosing_replaceChar he]
        exact hgap.last
      have hbare : blocks r = [] := by
        rw [(List.cons.inj htext).2]
        exact hgap.blocks_eq_nil
      refine .inr ⟨[], gap, after, htext, hgap, ?_⟩
      rw [htext, hopening, blocks_of_blockTail? hsome, hlast, hbare]
      rfl

/-! ### Comments -/

/-- The other line end is read as a line feed. -/
def ReadsAsFeed (e : Text) : Prop := ∀ t,
  Text.unifyLineEnds (e ++ replaceChar '\n' e t) = '\n' :: Text.unifyLineEnds (replaceChar '\n' e t)

theorem readsAsFeed_return : ReadsAsFeed "\r".text := by
  intro t
  refine Text.unifyLineEnds.eq_3 _ fun r hr => ?_
  have hfeed : '\n' ∈ replaceChar '\n' "\r".text t := List.mem_of_mem_head? (congrArg List.head? hr)
  obtain ⟨d, -, hd⟩ := List.mem_flatMap.mp hfeed
  split at hd
  · revert hd
    decide
  · rename_i hne
    exact hne (by simpa using (List.mem_singleton.mp hd).symm)

theorem readsAsFeed_returnFeed : ReadsAsFeed "\r\n".text := fun _ => rfl

theorem ReadsAsFeed.unifyLineEnds (he : ReadsAsFeed e) {t : Text} (h : '\r' ∉ t) :
    Text.unifyLineEnds (replaceChar '\n' e t) = t := by
  induction t with
  | nil => rfl
  | cons c t ih =>
    obtain ⟨hc, ht⟩ := not_or.mp (List.mem_cons.not.mp h)
    by_cases hlf : c = '\n'
    · rw [hlf, Text.replaceChar_cons_self, he, ih ht]
    · rw [Text.replaceChar_cons_of_ne hlf, Text.unifyLineEnds_cons (Ne.symm hc), ih ht]

theorem ReadsAsFeed.ofBlock (he : ReadsAsFeed e) {b : Text} (h : '\r' ∉ b) (table : Doc.TagTable) :
    Comment.ofBlock table (replaceChar '\n' e b) = Comment.ofBlock table b := by
  unfold Comment.ofBlock Doc.normalize
  rw [he.unifyLineEnds h, Text.unifyLineEnds_of_not_mem h]

theorem comments_replaceChar (he : LineEnd e) (hread : ReadsAsFeed e) {t : Text} (h : '\r' ∉ t) (table : Doc.TagTable) :
    comments table (replaceChar '\n' e t) = comments table t ∨
      ∃ before gap after, t = before ++ ("/**".text ++ (gap ++ ("*/".text ++ after))) ∧
        ShortGap e (gap ++ ("*/".text ++ after)) gap after ∧
        comments table (replaceChar '\n' e t) =
          comments table t ++ [Comment.ofBlock table ("/**".text ++ (gap ++ "*/".text))] := by
  have hsame : ((blocks t).map (replaceChar '\n' e)).map (Comment.ofBlock table) = comments table t := by
    rw [comments, List.map_map]
    refine List.map_congr_left fun b hb => ?_
    obtain ⟨before, tail, after, rfl, rfl, -⟩ := mem_blocks hb
    refine hread.ofBlock (fun hin => h ?_) table
    simp only [List.mem_append] at hin ⊢
    tauto
  rcases blocks_replaceChar he t with heq | ⟨before, gap, after, ht, hgap, heq⟩
  · exact .inl (by rw [comments, heq, hsame])
  · refine .inr ⟨before, gap, after, ht, hgap, ?_⟩
    have hreturn : '\r' ∉ "/**".text ++ (gap ++ "*/".text) := by
      intro hin
      refine h ?_
      rw [ht]
      simp only [List.mem_append] at hin ⊢
      tauto
    rw [comments, heq, List.map_append, hsame, List.map_singleton, ← hread.ofBlock hreturn]
    rw [Text.replaceChar_append, Text.replaceChar_append]
    rfl

theorem parseLines_empty (table : Doc.TagTable) {lines : List Text} (h : ∀ l ∈ lines, l = []) :
    Doc.parseLines table (Doc.begin? table Doc.titleName []) lines = [] := by
  -- the title stays open, and none of the lines gives it content
  have hopen : Doc.closed (Doc.begin? table Doc.titleName []) = [] ∧
      Doc.step table (Doc.begin? table Doc.titleName []) [] = ([], Doc.begin? table Doc.titleName []) := by
    cases hknown : table.isKnown Doc.titleName with
    | false =>
      have hnone : Doc.begin? table Doc.titleName [] = none := by simp [Doc.begin?, hknown]
      rw [hnone]
      exact ⟨rfl, rfl⟩
    | true =>
      rw [Doc.begin?_nil hknown]
      exact ⟨rfl, rfl⟩
  obtain ⟨hclosed, hstep⟩ := hopen
  induction lines with
  | nil => exact hclosed
  | cons l lines ih =>
    obtain ⟨rfl, hrest⟩ := List.forall_mem_cons.mp h
    rw [Doc.parseLines, hstep]
    exact ih hrest

theorem firstLine_blanks {blanks : Text} (h : ∀ b ∈ blanks, Text.isBlank b = true) :
    Doc.firstLine ("/**".text ++ blanks) = [] := by
  have hnil : Text.trimRightBy Text.isBlank blanks = [] := List.rdropWhile_eq_nil_iff.mpr h
  have htrim : Text.trimRight ("/**".text ++ blanks) = "/**".text := by
    rw [Text.trimRight, Text.trimRightBy_append, if_pos hnil]
    rfl
  rw [Doc.firstLine, Doc.dropLineEnd, htrim]
  rfl

/-- A comment of two lines without content is normal but for the margin of its second line. -/
theorem normalize_blank {first later : Text} (hfirst : '\n' ∉ first) (hlater : ∀ b ∈ later, Text.isBlank b = true)
    (hreturn : '\r' ∉ first ++ '\n' :: later) : ∃ last, (last = "*/".text ∨ last = " */".text) ∧
      Doc.normalize ("/**".text ++ (first ++ '\n' :: later ++ "*/".text)) = "/**".text ++ first ++ '\n' :: last := by
  have hfeed : '\n' ∉ "**".text ++ first := by
    rw [List.mem_append, not_or]
    exact ⟨by decide, hfirst⟩
  have hnone : '\r' ∉ "/**".text ++ (first ++ '\n' :: later ++ "*/".text) := by
    rw [List.mem_append, List.mem_append, not_or, not_or]
    exact ⟨by decide, hreturn, by decide⟩
  have hstart : Doc.unifyMargins .start ("/**".text ++ (first ++ '\n' :: later ++ "*/".text)) =
      '/' :: Doc.unifyMargins .body ("**".text ++ first ++ '\n' :: (later ++ "*/".text)) := by
    rw [List.append_assoc, List.append_assoc]
    rfl
  refine ⟨Doc.unifyMargins .start (later ++ "*/".text), ?_, ?_⟩
  · cases later with
    | nil => exact .inl rfl
    | cons b later =>
      obtain ⟨hb, hrest⟩ := List.forall_mem_cons.mp hlater
      refine .inr ?_
      rw [List.cons_append, Doc.unifyMargins, if_pos hb, Doc.unifyMargins_blank hrest]
      rfl
  · rw [Doc.normalize, Text.unifyLineEnds_of_not_mem hnone, hstart, Doc.unifyMargins_line hfeed]
    rfl

/-- A comment without content that goes over a line end has no tags. -/
theorem tags_of_blank {gap : Text} (hblank : ∀ c ∈ gap, Text.isBlank c = true) (hlf : '\n' ∈ gap) (hreturn : '\r' ∉ gap)
    (table : Doc.TagTable) : (Comment.ofBlock table ("/**".text ++ (gap ++ "*/".text))).tags = [] := by
  obtain ⟨first, later, rfl, hfirst⟩ := List.eq_append_cons_of_mem hlf
  have hempty := firstLine_blanks fun b hb => hblank b (List.mem_append_left _ hb)
  obtain ⟨last, hlast, hnormal⟩ := normalize_blank hfirst (fun b hb => hblank b (by simp [hb])) hreturn
  have hlines : Doc.contentLines ("/**".text ++ first ++ '\n' :: last) = [[], []] := by
    have hline : Text.lines ("/**".text ++ first) = ["/**".text ++ first] := by
      refine Text.split_of_forall fun c hc => beq_eq_false_iff_ne.mpr ?_
      rintro rfl
      rcases List.mem_append.mp hc with hc | hc
      · revert hc
        decide
      · exact hfirst hc
    have hfront : Doc.contentLines ("/**".text ++ first) = [[]] := by
      rw [Doc.contentLines, hline]
      exact congrArg (fun line => [line]) hempty
    rw [Doc.contentLines_append, hfront]
    rcases hlast with rfl | rfl
    · rfl
    · rfl
  rw [Comment.ofBlock, hnormal, Doc.parse, hlines]
  exact parseLines_empty table (by simp)

/-- With carriage returns in place of line feeds a sheet has the same comments. With both it has the same comments, too,
    unless there is a comment of just two blanks, one of them a line feed, without a closing mark behind a blank later
    on: then this is one comment more, behind all others, and it has no tags. -/
theorem comments_lineEnds {t : Text} (h : '\r' ∉ t) (table : Doc.TagTable) :
    comments table (replaceChar '\n' "\r".text t) = comments table t ∧
      (comments table (replaceChar '\n' "\r\n".text t) = comments table t ∨
        ∃ before gap after comment, t = before ++ ("/**".text ++ (gap ++ ("*/".text ++ after))) ∧ gap.length = 2 ∧
          '\n' ∈ gap ∧ (∀ c ∈ gap, Text.isBlank c = true) ∧ ¬HasClosing after ∧ comment.tags = [] ∧
          comments table (replaceChar '\n' "\r\n".text t) = comments table t ++ [comment]) := by
  constructor
  · rcases comments_replaceChar ⟨by decide, List.all_eq_true.mp (by decide)⟩ readsAsFeed_return h table with heq |
      ⟨_, gap, _, _, hgap, _⟩
    · exact heq
    · -- a line end of one character makes no gap longer
      have hlength := Text.length_replaceChar '\n' "\r".text gap
      have hshort := hgap.short
      have hlong := hgap.long
      simp only [String.text, String.reduceToList, List.length_singleton] at hlength hlong
      omega
  · rcases comments_replaceChar ⟨by decide, List.all_eq_true.mp (by decide)⟩ readsAsFeed_returnFeed h table with heq |
      ⟨before, gap, after, ht, hgap, heq⟩
    · exact .inl heq
    · have hlength := Text.length_replaceChar '\n' "\r\n".text gap
      have hcount : gap.count '\n' ≤ gap.length := List.count_le_length
      have hshort := hgap.short
      have hlong := hgap.long
      simp only [String.text, String.reduceToList, List.length_cons, List.length_nil] at hlength hlong
      have hlf : '\n' ∈ gap := List.count_pos_iff.mp (by omega)
      have hreturn : '\r' ∉ gap := fun hin => h (by rw [ht]; simp [hin])
      exact .inr ⟨before, gap, after, _, ht, by omega, hlf, hgap.blank, hgap.last,
        tags_of_blank hgap.blank hlf hreturn table, heq⟩

/-- A comment with tags, and an empty one behind it. -/
def linksSheet : Text := "/**\n * Links\n *\n * All of them.\n * @base a\n */\na { }\n/** \n*/\n".text

theorem comments_lineEnds_links :
    '\r' ∉ linksSheet ∧ comments .default (replaceChar '\n' "\r".text linksSheet) = comments .default linksSheet ∧
      (comments .default (replaceChar '\n' "\r\n".text linksSheet) = comments .default linksSheet ∨
        ∃ before gap after comment, linksSheet = before ++ ("/**".text ++ (gap ++ ("*/".text ++ after))) ∧
          gap.length = 2 ∧ '\n' ∈ gap ∧ (∀ c ∈ gap, Text.isBlank c = true) ∧ ¬HasClosing after ∧ comment.tags = [] ∧
          comments .default (replaceChar '\n' "\r\n".text linksSheet) = comments .default linksSheet ++ [comment]) := by
  have hreturn : '\r' ∉ linksSheet := by decide
  exact ⟨hreturn, comments_lineEnds hreturn .default⟩

/-- The two blanks of an empty comment are too few for a block, and the three that its line end makes of them are
    enough. -/
theorem comments_of_short_gap :
    '\r' ∉ "/** \n*/".text ∧ (comments .default "/** \n*/".text).map (·.tags) = [] ∧
      (comments .default (replaceChar '\n' "\r\n".text "/** \n*/".text)).map (·.tags) = [[]] := by
  decide +kernel

end Sheet
end Stylebook
