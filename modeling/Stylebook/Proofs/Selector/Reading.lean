import Stylebook.Proofs.Selector.Writing

/-! Reading written selectors back. The lexemes of a text that is put together from written pieces are those of
    the pieces, as long as no name runs on into the next piece. Blanks count only between two compounds, so
    that the groups are put together again as they were. -/

namespace Stylebook
namespace Selector

/-! ### The ends of written texts -/

/-- A text that neither begins nor ends with a blank. -/
structure Solid (t : Text) : Prop where
  ne_nil : t ≠ []
  head : ∀ c ∈ t.head?, Text.isBlank c = false
  last : ∀ c ∈ t.getLast?, Text.isBlank c = false

theorem Solid.head_append {t : Text} (h : Solid t) (r : Text) : ∀ c ∈ (t ++ r).head?, Text.isBlank c = false := by
  rw [List.head?_append_of_ne_nil _ h.ne_nil]
  exact h.head

theorem Solid.append {t u : Text} (ht : Solid t) (s : Text) (hu : Solid u) : Solid (t ++ (s ++ u)) where
  ne_nil := by simp [ht.ne_nil]
  head := ht.head_append (s ++ u)
  last := by
    rw [← List.append_assoc, List.getLast?_append_of_ne_nil _ hu.ne_nil]
    exact hu.last

theorem Name.last_not_blank {n : Text} (h : Name n) (front : Text) :
    ∀ c ∈ (front ++ n).getLast?, Text.isBlank c = false := by
  intro c hc
  rw [List.getLast?_append_of_ne_nil _ h.1] at hc
  exact h.not_blank (List.mem_of_mem_getLast? hc)

/-- A part that begins with a mark and ends with a given character. -/
theorem Solid.marked {mark last : Char} (inner : Text) (hmark : Text.isBlank mark = false)
    (hlast : Text.isBlank last = false) : Solid (mark :: (inner ++ [last])) where
  ne_nil := List.cons_ne_nil _ _
  head := by
    rintro _ ⟨⟩
    exact hmark
  last := by
    intro c hc
    rw [← List.cons_append, List.getLast?_concat] at hc
    obtain rfl := Option.some.inj hc
    exact hlast

theorem Solid.named {mark : Char} {n : Text} (hmark : Text.isBlank mark = false) (hn : Name n) :
    Solid (mark :: n) where
  ne_nil := List.cons_ne_nil _ _
  head := by
    rintro _ ⟨⟩
    exact hmark
  last := hn.last_not_blank [mark]

theorem Part.Writes.solid {p : Part} {t : Text} (h : p.Writes t) : Solid t := by
  cases h with
  | tag hn _ =>
    have hhead := hn.head_not_blank []
    rw [List.append_nil] at hhead
    exact ⟨hn.1, hhead, hn.last_not_blank []⟩
  | universal => exact ⟨by simp, by rintro _ ⟨⟩; decide, by rintro _ ⟨⟩; decide⟩
  | id hn => exact .named (by decide) hn
  | className hn => exact .named (by decide) hn
  | @bare n a b _ _ _ =>
    have hsolid : Solid ('[' :: ((a ++ (n ++ b)) ++ [']'])) := .marked _ (by decide) (by decide)
    simpa using hsolid
  | @value n v a b c d q _ _ _ _ _ _ _ =>
    have hsolid : Solid ('[' :: ((a ++ (n ++ (b ++ '=' :: (c ++ q :: (v ++ q :: d))))) ++ [']'])) :=
      .marked _ (by decide) (by decide)
    simpa using hsolid
  | pseudo hn => exact .named (by decide) hn
  | @call n v _ _ _ =>
    have hsolid : Solid (':' :: ((n ++ '(' :: v) ++ [')'])) := .marked _ (by decide) (by decide)
    simpa using hsolid

theorem Compound.Writes.solid {c : Compound} {t : Text} (h : Compound.Writes c t) : Solid t := by
  induction h with
  | one hp => exact hp.solid
  | cons hp _ _ ih => exact hp.solid.append [] ih

theorem Listed.solid {α : Type} {Writes : α → Text → Prop} {Parts : Text → Prop} {xs : List α} {t : Text}
    (h : Listed Writes Parts xs t) (hsolid : ∀ x t, Writes x t → Solid t) : Solid t := by
  induction h with
  | one hx => exact hsolid _ _ hx
  | cons hx _ _ ih => exact (hsolid _ _ hx).append _ ih

theorem CompoundsWrite.solid {g : List Compound} {t : Text} (h : CompoundsWrite g t) : Solid t :=
  Listed.solid h fun _ _ hc => hc.solid

theorem GroupsWrite.solid {gs : List (List Compound)} {t : Text} (h : GroupsWrite gs t) : Solid t :=
  Listed.solid h fun _ _ hg => hg.solid

/-! ### Scanning -/

theorem scan_cons {t r : Text} {l : Lexeme} (h : lexeme? t = some (l, r)) :
    scan t = (l :: (scan r).1, (scan r).2) := by
  rw [scan]
  split
  · next hnone => rw [h] at hnone; cases hnone
  · next l' r' hsome =>
    rw [h] at hsome
    cases hsome
    rfl

/-- Only a tag lets the name in front of it run on. -/
theorem Part.Writes.ends {p : Part} {t : Text} (h : p.Writes t) (htag : p.isTag = false) (r : Text) :
    Ends (t ++ r) := by
  cases h with
  | tag => cases htag
  | _ => rintro _ ⟨⟩; decide

theorem Compound.Writes.ends {p : Part} {c : Compound} {t : Text} (h : Compound.Writes (p :: c) t)
    (htag : p.isTag = false) (r : Text) : Ends (t ++ r) := by
  cases h with
  | one hp => exact hp.ends htag r
  | cons hp _ _ =>
    rw [List.append_assoc]
    exact hp.ends htag _

theorem Compound.Writes.scan {c : Compound} {t r : Text} (h : Compound.Writes c t) (hr : Ends r) :
    scan (t ++ r) = (c.map .part ++ (scan r).1, (Selector.scan r).2) := by
  induction h with
  | one hp => exact scan_cons (hp.lexeme? (.inr hr))
  | @cons p next c t u hp htag hnext ih =>
    have hfollows : p.isClosed = true ∨ Ends (u ++ r) := by
      cases hkind : next.isTag with
      | true => exact .inl (htag hkind)
      | false => exact .inr (hnext.ends hkind r)
    rw [List.append_assoc, scan_cons (hp.lexeme? hfollows), ih]
    rfl

/-- The lexemes of blanks. -/
def gap (b : Text) : List Lexeme := if b.isEmpty then [] else [.blank]

theorem scan_blanks {b r : Text} (hb : Blanks b) (hr : ∀ c ∈ r.head?, Text.isBlank c = false) :
    scan (b ++ r) = (gap b ++ (scan r).1, (scan r).2) := by
  cases b with
  | nil => rfl
  | cons c b => exact scan_cons (lexeme?_blanks (List.cons_ne_nil c b) hb hr)

/-! ### Groups -/

theorem groups_parts {c : Compound} (hne : c ≠ []) (selector : Text) (fault : Option Error) (current : Group)
    (pending : Bool) (rest : List Lexeme) :
    groups selector fault current pending (c.map .part ++ rest) =
      groups selector fault (current ++ ((if pending then [.descendant] else []) ++ c)) false rest := by
  induction c generalizing current pending with
  | nil => exact absurd rfl hne
  | cons p c ih =>
    have hmark : (if pending then [Part.descendant, p] else [p]) =
        (if pending then [.descendant] else []) ++ [p] := by cases pending <;> rfl
    cases c with
    | nil => simp [groups, hmark]
    | cons q c =>
      rw [List.map_cons, List.cons_append, groups, ih (List.cons_ne_nil q c), hmark]
      simp

theorem Compound.Writes.ne_nil {c : Compound} {t : Text} (h : Compound.Writes c t) : c ≠ [] := by
  cases h <;> simp

theorem Listed.ne_nil {α : Type} {Writes : α → Text → Prop} {Parts : Text → Prop} {xs : List α} {t : Text}
    (h : Listed Writes Parts xs t) : xs ≠ [] := by
  cases h <;> simp

theorem joined_cons {cs : List Compound} (c : Compound) (h : cs ≠ []) :
    joined (c :: cs) = c ++ .descendant :: joined cs := by
  obtain ⟨d, ds, rfl⟩ := List.exists_cons_of_ne_nil h
  simp [joined]

/-- The lexemes of a group add its compounds to the group that is begun. -/
theorem CompoundsWrite.read {g : List Compound} {t r : Text} (h : CompoundsWrite g t) (hr : Ends r) :
    ∃ lexemes, scan (t ++ r) = (lexemes ++ (scan r).1, (scan r).2) ∧
      ∀ selector fault current pending rest, groups selector fault current pending (lexemes ++ rest) =
        groups selector fault (current ++ ((if pending then [.descendant] else []) ++ joined g)) false rest := by
  induction h with
  | @one c t hc =>
    refine ⟨c.map .part, hc.scan hr, fun selector fault current pending rest => ?_⟩
    rw [groups_parts hc.ne_nil]
    simp [joined]
  | @cons c cs t s u hc hs hcs ih =>
    obtain ⟨lexemes, hscan, hgroups⟩ := ih
    have hsolid : Solid u := CompoundsWrite.solid hcs
    have hends : Ends (s ++ (u ++ r)) := by
      obtain ⟨d, s, rfl⟩ := List.exists_cons_of_ne_nil hs.1
      exact fun e he => hs.2.ends (r := []) (by simp [Ends]) e (by simpa using he)
    refine ⟨c.map .part ++ .blank :: lexemes, ?_, fun selector fault current pending rest => ?_⟩
    · rw [List.append_assoc, List.append_assoc, hc.scan hends, scan_blanks hs.2 (hsolid.head_append r), hscan]
      simp [gap, hs.1]
    · have hbegun : (current ++ ((if pending then [Part.descendant] else []) ++ c)).isEmpty = false := by
        simp [hc.ne_nil]
      rw [List.append_assoc, groups_parts hc.ne_nil, List.cons_append, groups, hbegun, hgroups,
        joined_cons c hcs.ne_nil]
      simp

theorem joined_ne_nil {g : List Compound} {t : Text} (h : CompoundsWrite g t) : joined g ≠ [] := by
  cases h with
  | one hc => simpa [joined] using hc.ne_nil
  | cons hc _ hcs => simp [joined_cons _ hcs.ne_nil]

/-- Blanks where no group is begun mean nothing. -/
theorem groups_gap (selector : Text) (fault : Option Error) (b : Text) (rest : List Lexeme) :
    groups selector fault [] false (gap b ++ rest) = groups selector fault [] false rest := by
  unfold gap
  split <;> rfl

/-- Neither do blanks in front of a comma. -/
theorem groups_comma {current : Group} (hne : current ≠ []) (selector : Text) (fault : Option Error) (pending : Bool)
    (a : Text) (rest : List Lexeme) :
    groups selector fault current pending (gap a ++ .comma :: rest) =
      (groups selector fault [] false rest).map (current :: ·) := by
  have hbegun : current.isEmpty = false := List.isEmpty_eq_false_iff.mpr hne
  unfold gap
  split <;> simp [groups, hbegun]

theorem scan_nil : scan [] = ([], []) := by
  rw [scan]
  rfl

theorem GroupsWrite.read {gs : List (List Compound)} {t : Text} (h : GroupsWrite gs t) (selector : Text) :
    ∃ lexemes, scan t = (lexemes, []) ∧ groups selector none [] false lexemes = .ok (gs.map joined) := by
  induction h with
  | @one g t hg =>
    obtain ⟨lexemes, hscan, hgroups⟩ := hg.read (r := []) (by simp [Ends])
    rw [List.append_nil, scan_nil, List.append_nil] at hscan
    refine ⟨lexemes, hscan, ?_⟩
    have hread := hgroups selector none [] false []
    rw [List.append_nil] at hread
    simp [hread, groups, joined_ne_nil hg]
  | @cons g gs t s u hg hs hgs ih =>
    obtain ⟨lexemes, hscan, hgroups⟩ := ih
    obtain ⟨a, b, ha, hb, rfl⟩ := hs
    have hcomma : Ends (',' :: (b ++ u)) := by rintro _ ⟨⟩; decide
    have hlexeme : lexeme? (',' :: (b ++ u)) = some (.comma, b ++ u) := rfl
    obtain ⟨front, hfront, hread⟩ := hg.read (ha.ends hcomma)
    have hbehind := scan_blanks hb (GroupsWrite.solid hgs).head
    have hbetween := scan_blanks (r := ',' :: (b ++ u)) ha (by rintro _ ⟨⟩; decide)
    rw [scan_cons hlexeme, hbehind, hscan] at hbetween
    refine ⟨front ++ (gap a ++ .comma :: (gap b ++ lexemes)), ?_, ?_⟩
    · rw [List.append_assoc, List.cons_append, hfront, hbetween]
    · rw [hread, groups_comma (by simp [joined_ne_nil hg]), groups_gap, hgroups]
      simp [Except.map]

/-! ### Selectors -/

theorem trim_blanks {t : Text} (h : Blanks t) : Text.trim t = [] := Text.trimBy_append [] h

theorem Solid.trim {front inner back : Text} (h : Solid inner) (hfront : Blanks front) (hback : Blanks back) :
    Text.trim (front ++ (inner ++ back)) = inner := by
  have hright : Text.trim (front ++ (inner ++ back)) = Text.trim (front ++ inner) := by
    rw [← List.append_assoc]
    exact Text.trimBy_append _ hback
  rw [hright, Text.trim, Text.trimBy, Text.trimLeftBy_append hfront h.head, Text.trimRightBy_of_last h.last]

/-- However groups of compounds are written, they are read back, with one descendant mark between two
    compounds. -/
theorem parse_written {gs : List (List Compound)} {t : Text} (h : Written gs t) : parse t = .ok (gs.map joined) := by
  obtain ⟨front, inner, back, hfront, hback, rfl, ⟨rfl, rfl⟩ | hgroups⟩ := h
  · have hblank : Blanks (front ++ ([] ++ back)) := by
      intro c hc
      rcases List.mem_append.mp hc with hc | hc
      · exact hfront c hc
      · exact hback c hc
    rw [parse, trim_blanks hblank]
    rfl
  · obtain ⟨lexemes, hscan, hread⟩ := hgroups.read (front ++ (inner ++ back))
    have hne : inner.isEmpty = false := List.isEmpty_eq_false_iff.mpr hgroups.solid.ne_nil
    simp only [parse, hgroups.solid.trim hfront hback, hne, hscan, Bool.false_eq_true, if_false, List.isEmpty_nil,
      if_true, hread]

/-- Two groups, the first of two compounds. -/
def mixedGroups : List (List Compound) :=
  [[[.tag "nav".text, .id "top".text], [.universal, .attribute "title".text (some "a'] b".text)]],
    [[.pseudo "not".text (some ".x, y".text), .tag "li".text]]]

theorem parse_written_mixed :
    Written mixedGroups " nav#top\t*[ title = \"a'] b\"] , :not(.x, y)li\n".text ∧
      parse " nav#top\t*[ title = \"a'] b\"] , :not(.x, y)li\n".text =
        .ok [[.tag "nav".text, .id "top".text, .descendant, .universal, .attribute "title".text (some "a'] b".text)],
          [.pseudo "not".text (some ".x, y".text), .tag "li".text]] := by
  have hnav : Compound.Writes [.tag "nav".text, .id "top".text] "nav#top".text :=
    .cons (t := "nav".text) (.tag (by decide) (by decide)) (by decide) (.one (.id (n := "top".text) (by decide)))
  have hany : Compound.Writes [.universal, .attribute "title".text (some "a'] b".text)]
      "*[ title = \"a'] b\"]".text :=
    .cons (t := ['*']) .universal (by decide)
      (.one (.value (n := "title".text) (v := "a'] b".text) (a := [' ']) (b := [' ']) (c := [' ']) (d := [])
        (by decide) (.inl rfl) (by decide) (by decide) (by decide) (by decide) (by decide)))
  have hitem : Compound.Writes [.pseudo "not".text (some ".x, y".text), .tag "li".text] ":not(.x, y)li".text :=
    .cons (t := ":not(.x, y)".text) (.call (n := "not".text) (v := ".x, y".text) (by decide) (by decide) (by decide))
      (by decide) (.one (.tag (n := "li".text) (by decide) (by decide)))
  have hwritten : Written mixedGroups " nav#top\t*[ title = \"a'] b\"] , :not(.x, y)li\n".text :=
    ⟨[' '], _, ['\n'], by decide, by decide, rfl,
      .inr (.cons (.cons hnav (s := ['\t']) (by decide) (.one hany))
        ⟨[' '], [' '], by decide, by decide, rfl⟩ (.one (.one hitem)))⟩
  exact ⟨hwritten, parse_written hwritten⟩

end Selector
end Stylebook
