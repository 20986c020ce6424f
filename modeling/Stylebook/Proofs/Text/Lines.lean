import Mathlib.Data.List.DropRight
import Stylebook.Text.Basic

/-! Laws of text: reading a fixed beginning, trimming, taking a text apart into lines or words and putting it together
    again, and unifying its line ends. -/

namespace Stylebook
namespace Text

/-! ### Characters -/

theorem charOf_toNat (c : Char) : charOf c.toNat = c := by
  have hvalid : c.toNat.isValidChar := c.valid
  rw [charOf, if_pos hvalid, Char.ofNat_toNat]

theorem ne_lineFeed {c : Char} (hc : isBlank c = false) : c ≠ '\n' := by
  rintro rfl
  cases hc

/-! ### Beginnings and ends -/

theorem after?_append (p r : Text) : after? p (p ++ r) = some r := by
  induction p with
  | nil => rfl
  | cons c p ih => simpa [after?] using ih

theorem after?_eq_none {p t : Text} (h : ¬p <+: t) : after? p t = none := by
  cases hr : after? p t with
  | none => rfl
  | some r => exact absurd ⟨r, (eq_append_of_after? hr).symm⟩ h

theorem dropStart_append (p r : Text) : dropStart p (p ++ r) = r := by
  rw [dropStart, after?_append]
  rfl

theorem dropStart_of_not_prefix {p t : Text} (h : ¬p <+: t) : dropStart p t = t := by
  rw [dropStart, after?_eq_none h]
  rfl

theorem dropEnd_of_not_suffix {p t : Text} (h : ¬p <:+ t) : dropEnd p t = t := by
  rw [dropEnd, dropStart_of_not_prefix, List.reverse_reverse]
  rwa [List.reverse_prefix]

/-- What holds no `z` stands on one side of a `z`. -/
theorem infix_of_infix_separated {p a b : Text} {z : Char} (hz : z ∉ p) (h : p <:+: a ++ z :: b) :
    p <:+: a ∨ p <:+: b := by
  obtain ⟨s, t, hst⟩ := h
  rcases List.append_eq_append_iff.mp hst with ⟨u, rfl, -⟩ | ⟨u, hsp, hu⟩
  · exact .inl ⟨s, u, rfl⟩
  cases u with
  | nil => exact .inl ⟨s, [], by simpa using hsp⟩
  | cons c u =>
    obtain ⟨rfl, rfl⟩ := List.cons.inj hu
    rcases List.append_eq_append_iff.mp hsp with ⟨v, -, rfl⟩ | ⟨v, -, hv⟩
    · simp at hz
    cases v with
    | nil =>
      subst hv
      simp at hz
    | cons d v =>
      obtain ⟨-, rfl⟩ := List.cons.inj hv
      exact .inr ⟨v, t, by simp⟩

/-- A word that begins in `a` also ends there, unless what follows `a` could go on with it. -/
theorem prefix_of_prefix_append {p a b : Text} (ha : a ≠ []) (hb : ∀ c ∈ b.head?, c ∉ p.tail) (h : p <+: a ++ b) :
    p <+: a := by
  obtain ⟨rest, hrest⟩ := h
  rcases List.append_eq_append_iff.mp hrest with ⟨u, rfl, -⟩ | ⟨u, rfl, hu⟩
  · exact List.prefix_append p u
  · cases u with
    | nil => simp
    | cons c u =>
      have hc : c ∈ b.head? := by simp [hu]
      refine absurd ?_ (hb c hc)
      rw [List.tail_append_of_ne_nil ha]
      simp

/-! ### Trimming -/

/-- A text is a run of characters that satisfy `p` and what is behind it. -/
theorem exists_run (p : Char → Bool) (t : Text) :
    ∃ run rest, t = run ++ rest ∧ (∀ c ∈ run, p c = true) ∧ ∀ c ∈ rest.head?, p c = false := by
  refine ⟨t.takeWhile p, t.dropWhile p, List.takeWhile_append_dropWhile.symm, fun _ => List.mem_takeWhile_imp, ?_⟩
  intro c hc
  have hhead := List.head?_dropWhile_not p t
  rw [Option.mem_def.mp hc] at hhead
  exact hhead

theorem trimLeftBy_of_head {p : Char → Bool} {t : Text} (h : ∀ c ∈ t.head?, p c = false) : trimLeftBy p t = t := by
  cases t with
  | nil => rfl
  | cons c t =>
    have hc : p c = false := h c rfl
    simp [trimLeftBy, hc]

theorem takeWhile_append_of_head {p : Char → Bool} {a b : Text} (ha : ∀ c ∈ a, p c = true)
    (hb : ∀ c ∈ b.head?, p c = false) : (a ++ b).takeWhile p = a := by
  rw [List.takeWhile_append_of_pos ha]
  cases b with
  | nil => simp
  | cons c b => simp [hb c rfl]

theorem trimLeftBy_append {p : Char → Bool} {a b : Text} (ha : ∀ c ∈ a, p c = true)
    (hb : ∀ c ∈ b.head?, p c = false) : trimLeftBy p (a ++ b) = b := by
  rw [trimLeftBy, List.dropWhile_append_of_pos ha]
  exact trimLeftBy_of_head hb

section
variable {p : Char → Bool} {b : Text}

/-- A run ends at a character that is none of its own. -/
theorem run_append_stop (hb : ∀ c ∈ b.head?, p c = false) (t : Text) :
    (t ++ b).takeWhile p = t.takeWhile p ∧ (t ++ b).dropWhile p = t.dropWhile p ++ b := by
  obtain ⟨run, rest, rfl, hrun, hrest⟩ := exists_run p t
  have hstop : ∀ c ∈ (rest ++ b).head?, p c = false := by
    cases rest with
    | nil => exact hb
    | cons c rest => exact hrest
  have hdrop : ∀ {u : Text}, (∀ c ∈ u.head?, p c = false) → (run ++ u).dropWhile p = u := trimLeftBy_append hrun
  rw [List.append_assoc, takeWhile_append_of_head hrun hstop, takeWhile_append_of_head hrun hrest,
    hdrop hstop, hdrop hrest]
  exact ⟨rfl, rfl⟩

/-- A run goes on through characters of its own, unless it ends before. -/
theorem run_append_all (hb : ∀ c ∈ b, p c = true) (t : Text) :
    t.dropWhile p = [] ∧ (t ++ b).dropWhile p = [] ∨
    ∃ c r, t.dropWhile p = c :: r ∧ (t ++ b).dropWhile p = c :: (r ++ b) ∧ (t ++ b).takeWhile p = t.takeWhile p := by
  obtain ⟨run, rest, rfl, hrun, hrest⟩ := exists_run p t
  have hdrop : ∀ {u : Text}, (∀ c ∈ u.head?, p c = false) → (run ++ u).dropWhile p = u := trimLeftBy_append hrun
  cases rest with
  | nil =>
    refine .inl ⟨hdrop hrest, ?_⟩
    simpa [List.dropWhile_eq_nil_iff, or_imp, forall_and] using ⟨hrun, hb⟩
  | cons c rest =>
    have hstop : ∀ d ∈ (c :: rest ++ b).head?, p d = false := hrest
    refine .inr ⟨c, rest, hdrop hrest, ?_, ?_⟩
    · rw [List.append_assoc, hdrop hstop, List.cons_append]
    · rw [List.append_assoc, takeWhile_append_of_head hrun hstop, takeWhile_append_of_head hrun hrest]

end

theorem trimRightBy_of_last {p : Char → Bool} {t : Text} (h : ∀ c ∈ t.getLast?, p c = false) :
    trimRightBy p t = t := by
  have hrev : trimLeftBy p t.reverse = t.reverse := trimLeftBy_of_head (by simpa using h)
  rw [trimLeftBy] at hrev
  rw [trimRightBy, hrev, List.reverse_reverse]

theorem skipBlanks_suffix (t : Text) : skipBlanks t <:+ t := List.dropWhile_suffix _

theorem trimRightBy_prefix (p : Char → Bool) (t : Text) : trimRightBy p t <+: t :=
  List.rdropWhile_prefix p t

theorem trimBy_infix (p : Char → Bool) (t : Text) : trimBy p t <:+: t := by
  have hfront : trimBy p t <+: trimLeftBy p t := trimRightBy_prefix p _
  exact hfront.isInfix.trans (List.dropWhile_suffix p).isInfix

theorem trimRightBy_idempotent (p : Char → Bool) (t : Text) : trimRightBy p (trimRightBy p t) = trimRightBy p t :=
  List.rdropWhile_idempotent p t

theorem dropEnd_prefix (p t : Text) : dropEnd p t <+: t := by
  have hstart : dropStart p.reverse t.reverse <:+ t.reverse := by
    unfold dropStart
    cases hafter : after? p.reverse t.reverse with
    | none => exact List.suffix_refl _
    | some r => exact ⟨p.reverse, (eq_append_of_after? hafter).symm⟩
  rw [← List.reverse_reverse t]
  exact List.reverse_prefix.mpr (by simpa using hstart)

theorem trimRightBy_append (p : Char → Bool) (a b : Text) :
    trimRightBy p (a ++ b) = if trimRightBy p b = [] then trimRightBy p a else a ++ trimRightBy p b := by
  unfold trimRightBy
  rw [List.reverse_append, List.dropWhile_append, apply_ite List.reverse, List.reverse_append, List.reverse_reverse]
  simp only [List.isEmpty_iff, List.reverse_eq_nil_iff]

theorem trimBy_append {p : Char → Bool} {b : Text} (a : Text) (hb : ∀ c ∈ b, p c = true) :
    trimBy p (a ++ b) = trimBy p a := by
  have hnil : trimRightBy p b = [] := List.rdropWhile_eq_nil_iff.mpr hb
  have hleft : b.dropWhile p = [] := List.dropWhile_eq_nil_iff.mpr hb
  unfold trimBy trimLeftBy
  rw [List.dropWhile_append]
  split
  · next h => rw [hleft, List.isEmpty_iff.mp h]
  · rw [trimRightBy_append, if_pos hnil]

theorem trimBy_of_ends {p : Char → Bool} {t : Text} (hhead : ∀ c ∈ t.head?, p c = false)
    (hlast : ∀ c ∈ t.getLast?, p c = false) : trimBy p t = t := by
  rw [trimBy, trimLeftBy_of_head hhead, trimRightBy_of_last hlast]

theorem head?_trimBy (p : Char → Bool) (t : Text) : ∀ c ∈ (trimBy p t).head?, p c = false := by
  intro c hc
  obtain ⟨run, rest, rfl, hrun, hrest⟩ := exists_run p t
  rw [trimBy, trimLeftBy_append hrun hrest] at hc
  obtain ⟨cut, hcut⟩ := trimRightBy_prefix p rest
  refine hrest c ?_
  rw [← hcut, List.head?_append, Option.mem_def.mp hc]
  rfl

theorem getLast?_trimBy (p : Char → Bool) (t : Text) : ∀ c ∈ (trimBy p t).getLast?, p c = false := by
  intro c hc
  rw [trimBy, trimRightBy, List.getLast?_reverse] at hc
  have hhead := List.head?_dropWhile_not p (trimLeftBy p t).reverse
  rw [Option.mem_def.mp hc] at hhead
  exact hhead

theorem trimBy_eq_nil_iff {p : Char → Bool} {t : Text} : trimBy p t = [] ↔ ∀ c ∈ t, p c = true := by
  obtain ⟨run, rest, rfl, hrun, hrest⟩ := exists_run p t
  have htrim : trimBy p (run ++ rest) = [] ↔ ∀ c ∈ rest, p c = true := by
    rw [trimBy, trimLeftBy_append hrun hrest]
    exact List.rdropWhile_eq_nil_iff
  rw [htrim]
  exact ⟨fun h c hc => (List.mem_append.mp hc).elim (hrun c) (h c), fun h c hc => h c (List.mem_append_right run hc)⟩

/-! ### Lines -/

section
variable {p : Char → Bool}

theorem split_ne_nil (t : Text) : split p t ≠ [] := by
  fun_cases split p t <;> simp_all

theorem split_cons {c : Char} (hc : p c = false) (t : Text) :
    ∃ piece rest, split p t = piece :: rest ∧ split p (c :: t) = (c :: piece) :: rest := by
  obtain ⟨piece, rest, hpieces⟩ := List.exists_cons_of_ne_nil (split_ne_nil (p := p) t)
  exact ⟨piece, rest, hpieces, by simp [split, hc, hpieces]⟩

theorem split_append {sep : Char} (hsep : p sep = true) (a b : Text) :
    split p (a ++ sep :: b) = split p a ++ split p b := by
  induction a with
  | nil => simp [split, hsep]
  | cons c a ih =>
    by_cases hc : p c = true
    · simpa [split, hc] using ih
    · have hc : p c = false := by simpa using hc
      obtain ⟨piece, rest, hpiece, hcons⟩ := split_cons hc a
      obtain ⟨piece', rest', hpiece', hcons'⟩ := split_cons hc (a ++ sep :: b)
      rw [ih, hpiece] at hpiece'
      cases hpiece'
      rw [List.cons_append, hcons', hcons]
      rfl

theorem split_of_forall {t : Text} (h : ∀ c ∈ t, p c = false) : split p t = [t] := by
  induction t with
  | nil => rfl
  | cons c t ih =>
    obtain ⟨piece, rest, hpiece, hcons⟩ := split_cons (h c List.mem_cons_self) t
    rw [ih fun d hd => h d (List.mem_cons_of_mem c hd)] at hpiece
    cases hpiece
    exact hcons

end

theorem lines_ne_nil (t : Text) : lines t ≠ [] := split_ne_nil t

theorem lines_cons {c : Char} (hc : c ≠ '\n') (t : Text) :
    ∃ line rest, lines t = line :: rest ∧ lines (c :: t) = (c :: line) :: rest :=
  split_cons (p := (· == '\n')) (beq_eq_false_iff_ne.mpr hc) t

theorem lines_append (a b : Text) : lines (a ++ '\n' :: b) = lines a ++ lines b := split_append rfl a b

theorem join_singleton (sep t : Text) : join sep [t] = t := by simp [join]

theorem join_cons {ts : List Text} (sep t : Text) (h : ts ≠ []) : join sep (t :: ts) = t ++ sep ++ join sep ts := by
  cases ts with
  | nil => exact absurd rfl h
  | cons u us => simp [join, List.intercalate]

theorem join_append {ts us : List Text} (sep : Text) (ht : ts ≠ []) (hu : us ≠ []) :
    join sep (ts ++ us) = join sep ts ++ sep ++ join sep us := by
  induction ts with
  | nil => exact absurd rfl ht
  | cons t ts ih =>
    cases ts with
    | nil => rw [List.singleton_append, join_cons sep t hu, join_singleton]
    | cons v vs =>
      rw [List.cons_append, join_cons sep t (by simp), ih (List.cons_ne_nil v vs),
        join_cons sep t (List.cons_ne_nil v vs)]
      simp only [List.append_assoc]

theorem join_cons_cons (sep : Text) (c : Char) (t : Text) (ts : List Text) :
    join sep ((c :: t) :: ts) = c :: join sep (t :: ts) := by
  cases ts with
  | nil => rw [join_singleton, join_singleton]
  | cons u us =>
    rw [join_cons _ _ (List.cons_ne_nil u us), join_cons _ _ (List.cons_ne_nil u us)]
    rfl

theorem join_lineFeed (t : Text) (ts : List Text) : join ['\n'] (t :: ts) = t ++ ts.flatMap ('\n' :: ·) := by
  induction ts generalizing t with
  | nil => simp [join_singleton]
  | cons u us ih =>
    rw [join_cons _ _ (List.cons_ne_nil u us), ih, List.flatMap_cons, List.append_assoc]
    rfl

theorem not_mem_join {c : Char} {sep : Text} {ts : List Text} (hsep : c ∉ sep) (h : ∀ t ∈ ts, c ∉ t) :
    c ∉ join sep ts := by
  induction ts with
  | nil => simp [join]
  | cons t ts ih =>
    have ht := h t List.mem_cons_self
    have hrest := ih fun u hu => h u (List.mem_cons_of_mem t hu)
    cases ts with
    | nil => rwa [join_singleton]
    | cons u us =>
      rw [join_cons _ _ (List.cons_ne_nil u us)]
      simp only [List.mem_append, not_or]
      exact ⟨⟨ht, hsep⟩, hrest⟩

theorem split_join {p : Char → Bool} {sep : Char} (hsep : p sep = true) {ts : List Text} (hne : ts ≠ [])
    (h : ∀ t ∈ ts, ∀ c ∈ t, p c = false) : split p (join [sep] ts) = ts := by
  induction ts with
  | nil => exact absurd rfl hne
  | cons t ts ih =>
    have ht := split_of_forall (h t List.mem_cons_self)
    cases ts with
    | nil => rw [join_singleton, ht]
    | cons u us =>
      rw [join_cons _ _ (List.cons_ne_nil u us), List.append_assoc, List.singleton_append, split_append hsep, ht,
        ih (List.cons_ne_nil u us) fun v hv => h v (List.mem_cons_of_mem t hv)]
      rfl

theorem lines_join {ts : List Text} (hne : ts ≠ []) (h : ∀ t ∈ ts, '\n' ∉ t) : lines (join ['\n'] ts) = ts :=
  split_join rfl hne fun t ht _ hc => beq_eq_false_iff_ne.mpr fun heq => h t ht (heq ▸ hc)

/-- Pieces that are put side by side are found again, if none is empty. -/
theorem filter_split_join {p : Char → Bool} {sep : Char} (hsep : p sep = true) {ts : List Text}
    (h : ∀ t ∈ ts, t ≠ [] ∧ ∀ c ∈ t, p c = false) : (split p (join [sep] ts)).filter (!·.isEmpty) = ts := by
  rcases eq_or_ne ts [] with rfl | hne
  · rfl
  · rw [split_join hsep hne fun t ht => (h t ht).2, List.filter_eq_self]
    intro t ht
    simpa using (h t ht).1

theorem words_join {ts : List Text} (h : ∀ t ∈ ts, t ≠ [] ∧ ∀ c ∈ t, isBlank c = false) :
    words (join [' '] ts) = ts := filter_split_join rfl h

theorem join_lines (t : Text) : join ['\n'] (lines t) = t := by
  induction t with
  | nil => rfl
  | cons c t ih =>
    by_cases hc : c = '\n'
    · subst hc
      have hlines : lines ('\n' :: t) = [] :: lines t := by simp [lines, split]
      rw [hlines, join_cons _ _ (lines_ne_nil t), ih]
      rfl
    · obtain ⟨line, rest, hline, hcons⟩ := lines_cons hc t
      rw [hline] at ih
      rw [hcons]
      cases rest with
      | nil =>
        rw [join_singleton] at ih ⊢
        rw [ih]
      | cons u us =>
        rw [join_cons _ _ (List.cons_ne_nil u us)] at ih ⊢
        rw [List.cons_append, List.cons_append, ih]

/-! ### Line ends -/

theorem unifyLineEnds_of_not_mem {t : Text} (h : '\r' ∉ t) : unifyLineEnds t = t := by
  fun_induction unifyLineEnds t with
  | case1 => rfl
  | case2 => simp at h
  | case3 => simp at h
  | case4 c r _ _ ih => rw [ih fun hmem => h (List.mem_cons_of_mem c hmem)]

theorem not_mem_unifyLineEnds (t : Text) : '\r' ∉ unifyLineEnds t := by
  fun_induction unifyLineEnds t with
  | case1 => simp
  | case2 r ih => simpa using ih
  | case3 r _ ih => simpa using ih
  | case4 c r _ hreturn ih =>
    have hc : c ≠ '\r' := hreturn
    simpa [hc.symm] using ih

theorem filter_unifyLineEnds (t : Text) :
    (unifyLineEnds t).filter (!isBlank ·) = t.filter (!isBlank ·) := by
  have hfeed : isBlank '\n' = true := rfl
  have hreturn : isBlank '\r' = true := rfl
  fun_induction unifyLineEnds t with
  | case1 => rfl
  | case2 r ih => simpa [hfeed, hreturn] using ih
  | case3 r _ ih => simpa [hfeed, hreturn] using ih
  | case4 c r _ _ ih => simp only [List.filter_cons, ih]

theorem unifyLineEnds_cons {c : Char} (hc : c ≠ '\r') (t : Text) : unifyLineEnds (c :: t) = c :: unifyLineEnds t :=
  unifyLineEnds.eq_4 c t (fun _ hreturn _ => hc hreturn) hc

theorem unifyLineEnds_ne_nil {t : Text} (h : t ≠ []) : unifyLineEnds t ≠ [] := by
  fun_cases unifyLineEnds t <;> simp_all

/-- Texts are read one by one, unless a line end of two characters is cut in two. -/
theorem unifyLineEnds_append {a b : Text} (h : a.getLast? ≠ some '\r' ∨ b.head? ≠ some '\n') :
    unifyLineEnds (a ++ b) = unifyLineEnds a ++ unifyLineEnds b := by
  have hlast : ∀ {c : Char} {r : Text}, (c :: r).getLast? ≠ some '\r' → r.getLast? ≠ some '\r' := by
    intro c r hne heq
    exact hne (by rw [List.getLast?_cons, heq]; rfl)
  fun_induction unifyLineEnds a with
  | case1 => rfl
  | case2 r ih => exact congrArg ('\n' :: ·) (ih (h.imp_left fun hne => hlast (hlast hne)))
  | case3 r hfeed ih =>
    have hnext : ∀ r', r ++ b = '\n' :: r' → False := by
      intro r' heq
      cases r with
      | nil => simp_all
      | cons d r => exact hfeed r (congrArg (· :: r) (List.cons.inj heq).1)
    exact (unifyLineEnds.eq_3 _ hnext).trans (congrArg ('\n' :: ·) (ih (h.imp_left hlast)))
  | case4 c r _ hreturn ih =>
    rw [List.cons_append, unifyLineEnds_cons hreturn, ih (h.imp_left hlast)]
    rfl

/-- What stands in front of a line feed is read on its own, but for a carriage return right before it. -/
theorem unifyLineEnds_lineFeed (a : Text) :
    ∃ front, ∀ b, unifyLineEnds (a ++ '\n' :: b) = front ++ unifyLineEnds ('\n' :: b) := by
  by_cases hlast : a.getLast? = some '\r'
  · obtain ⟨a, rfl⟩ := List.getLast?_eq_some_iff.mp hlast
    refine ⟨unifyLineEnds a, fun b => ?_⟩
    rw [List.append_assoc, unifyLineEnds_append (.inr (by simp))]
    rfl
  · exact ⟨unifyLineEnds a, fun b => unifyLineEnds_append (.inl hlast)⟩

/-! ### Pieces -/

theorem infix_of_mem_split {p : Char → Bool} {t : Text} : ∀ u ∈ split p t, u <:+: t := by
  have hpieces : (∀ u ∈ (split p t).head?, u <+: t) ∧ ∀ u ∈ split p t, u <:+: t := by
    induction t with
    | nil => simp [split]
    | cons c t ih =>
      obtain ⟨hhead, hall⟩ := ih
      have hmore : ∀ u ∈ split p t, u <:+: c :: t := fun u hu => List.infix_cons (hall u hu)
      by_cases hc : p c = true
      · simp only [split, hc, if_true, List.head?_cons, Option.mem_def, Option.some.injEq, forall_eq', List.forall_mem_cons]
        exact ⟨List.nil_prefix, List.nil_infix, hmore⟩
      · obtain ⟨piece, pieces, hsplit, hcons⟩ := split_cons (p := p) (by simpa using hc) t
        rw [hsplit] at hhead hmore
        rw [hcons]
        have hfront : c :: piece <+: c :: t := (List.prefix_cons_inj c).mpr (hhead piece rfl)
        refine ⟨?_, List.forall_mem_cons.mpr ⟨hfront.isInfix, fun u hu => hmore u (List.mem_cons_of_mem _ hu)⟩⟩
        rintro _ ⟨⟩
        exact hfront
  exact hpieces.2

theorem not_mem_of_mem_split {p : Char → Bool} {t : Text} : ∀ u ∈ split p t, ∀ c ∈ u, p c = false := by
  induction t with
  | nil => simp [split]
  | cons c t ih =>
    by_cases hc : p c = true
    · simp only [split, hc, if_true, List.forall_mem_cons]
      exact ⟨fun d hd => absurd hd List.not_mem_nil, ih⟩
    · have hc : p c = false := by simpa using hc
      obtain ⟨piece, pieces, hsplit, hcons⟩ := split_cons hc t
      rw [hsplit, List.forall_mem_cons] at ih
      rw [hcons, List.forall_mem_cons, List.forall_mem_cons]
      exact ⟨⟨hc, ih.1⟩, ih.2⟩

theorem infix_of_mem_words {t : Text} : ∀ u ∈ words t, u <:+: t :=
  fun u hu => infix_of_mem_split u (List.mem_filter.mp hu).1

theorem infix_join_of_mem {sep : Text} {ts : List Text} : ∀ t ∈ ts, t <:+: join sep ts := by
  induction ts with
  | nil => simp
  | cons t ts ih =>
    cases ts with
    | nil => simp [join_singleton]
    | cons u ts =>
      rw [join_cons _ _ (List.cons_ne_nil u ts)]
      refine List.forall_mem_cons.mpr ⟨?_, fun v hv => (ih v hv).trans (List.suffix_append _ _).isInfix⟩
      exact ((List.prefix_append t sep).trans (List.prefix_append _ _)).isInfix

/-- What has no separator stands in one of the texts that are put together. -/
theorem infix_of_infix_join {p : Text} {z : Char} (hz : z ∉ p) (hp : p ≠ []) {ts : List Text} (h : p <:+: join [z] ts) :
    ∃ t ∈ ts, p <:+: t := by
  induction ts with
  | nil => exact absurd (List.infix_nil.mp h) hp
  | cons t ts ih =>
    cases ts with
    | nil =>
      rw [join_singleton] at h
      exact ⟨t, List.mem_cons_self, h⟩
    | cons u ts =>
      rw [join_cons _ _ (List.cons_ne_nil u ts), List.append_assoc, List.singleton_append] at h
      rcases infix_of_infix_separated hz h with hin | hin
      · exact ⟨t, List.mem_cons_self, hin⟩
      · obtain ⟨v, hv, hin⟩ := ih hin
        exact ⟨v, List.mem_cons_of_mem _ hv, hin⟩

theorem infix_of_holds {p t : Text} (h : holds p t = true) : p <:+: t := by
  induction t with
  | nil =>
    cases p with
    | nil => exact List.infix_refl []
    | cons c p => cases h
  | cons c t ih =>
    simp only [holds, cut?] at h
    split at h
    · next rest hafter =>
      exact ⟨[], rest, (eq_append_of_after? hafter).symm⟩
    · rw [Option.isSome_map] at h
      exact List.infix_cons (ih h)

end Text
end Stylebook
