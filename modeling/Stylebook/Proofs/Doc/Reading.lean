import Stylebook.Proofs.Doc.Writing

/-! Reading tags back from a comment. The implicit tags belong to every table that the defaults are turned
    into without a change to them. A tag written by its lines ends whatever tag is open before it, and is
    itself left open with all of its content; so a comment gives back the tags it was written from. -/

namespace Stylebook
namespace Doc

/-! ### The implicit tags of a table -/

namespace TagTable

theorem lookup_put {name other : Text} (h : other ≠ name) (multiline : Bool) (entries : List (Text × Bool)) :
    (put name multiline entries).lookup other = entries.lookup other := by
  fun_induction put name multiline entries with
  | case1 => simp [List.lookup_cons, beq_false_of_ne h]
  | case2 => simp [List.lookup_cons, beq_false_of_ne h]
  | case3 n m rest _ ih => rw [List.lookup_cons, List.lookup_cons, ih]

theorem lookup_override {other : Text} {changes : List (Text × Bool)} (h : ∀ change ∈ changes, change.1 ≠ other)
    (table : TagTable) : (table.override changes).entries.lookup other = table.entries.lookup other := by
  unfold override
  induction changes generalizing table with
  | nil => rfl
  | cons change changes ih =>
    have hput := lookup_put (h change List.mem_cons_self).symm change.2 table.entries
    have hrest := ih (fun d hd => h d (List.mem_cons_of_mem change hd)) ⟨put change.1 change.2 table.entries⟩
    exact hrest.trans hput

theorem isKnown_eq (table : TagTable) (name : Text) : table.isKnown name = (table.entries.lookup name).isSome := by
  unfold isKnown
  induction table.entries with
  | nil => rfl
  | cons entry entries ih =>
    rw [List.any_cons, List.lookup_cons, ih, BEq.comm]
    cases name == entry.1 <;> simp

/-- The table has the implicit tags, and the description may go on over several lines. -/
structure Implicit (table : TagTable) : Prop where
  title : table.isKnown titleName = true
  description : table.isKnown descriptionName = true
  multiline : table.isMultiline descriptionName = true

theorem implicit_override {changes : List (Text × Bool)}
    (h : ∀ change ∈ changes, change.1 ≠ titleName ∧ change.1 ≠ descriptionName) :
    (default.override changes).Implicit where
  title := by
    rw [isKnown_eq, lookup_override fun change hchange => (h change hchange).1]
    decide
  description := by
    rw [isKnown_eq, lookup_override fun change hchange => (h change hchange).2]
    decide
  multiline := by
    rw [isMultiline, lookup_override fun change hchange => (h change hchange).2]
    decide

end TagTable

/-! ### Lines that begin a tag -/

theorem tagLine?_moved {margin : Text} (hm : Margin margin) (line : Text) : tagLine? (margin ++ line) = tagLine? line := by
  have hskip : Text.skipBlanks (margin ++ line) = Text.skipBlanks line :=
    List.dropWhile_append_of_pos fun c hc => (hm c hc).1
  rw [tagLine?, tagLine?, hskip]

theorem isNameChar_of_small {c : Char} (h : isSmallNameChar c = true) : isNameChar c = true := by
  unfold isSmallNameChar at h
  unfold isNameChar Text.isAnyCaseLetter Text.isLetter
  simp only [Bool.or_eq_true] at h ⊢
  tauto

theorem tagLine?_at {r : Text} (h : r.takeWhile isNameChar ≠ []) :
    tagLine? ('@' :: r) = some (r.takeWhile isNameChar,
      if (r.dropWhile isNameChar).head?.any Text.isBlank then Text.skipBlanks (r.dropWhile isNameChar) else []) := by
  have hskip : Text.skipBlanks ('@' :: r) = '@' :: r := rfl
  cases htake : r.takeWhile isNameChar with
  | nil => contradiction
  | cons c name => simp only [tagLine?, hskip, htake]

theorem tagLine?_name {name rest : Text} (hne : name ≠ []) (hname : ∀ c ∈ name, isSmallNameChar c = true)
    (hrest : ∀ c ∈ rest.head?, c = ' ') : tagLine? ('@' :: (name ++ rest)) = some (name, Text.skipBlanks rest) := by
  have hinside : ∀ c ∈ name, isNameChar c = true := fun c hc => isNameChar_of_small (hname c hc)
  have hboundary : ∀ c ∈ rest.head?, isNameChar c = false := by
    intro c hc
    rw [hrest c hc]
    decide
  have htake := Text.takeWhile_append_of_head hinside hboundary
  have hdrop : (name ++ rest).dropWhile isNameChar = rest := Text.trimLeftBy_append hinside hboundary
  have hcontent : (if rest.head?.any Text.isBlank then Text.skipBlanks rest else []) = Text.skipBlanks rest := by
    cases rest with
    | nil => rfl
    | cons c rest =>
      rw [hrest c rfl]
      rfl
  rw [tagLine?_at (by rwa [htake]), htake, hdrop, hcontent]

/-! ### Lines of content -/

theorem Open.append_movedIn {o : Open} {margin : Text} (h : o.margin = some margin) (line : Text) :
    o.append (movedIn margin line) = { o with content := o.content ++ '\n' :: line } := by
  have hline : Text.dropStart margin (movedIn margin line) = line := by
    unfold movedIn
    split
    · next hnil =>
      rw [List.isEmpty_iff.mp hnil]
      cases margin <;> rfl
    · exact Text.dropStart_append margin line
  simp [Open.append, h, hline]

theorem Open.append_nil (o : Open) : o.append [] = { o with content := o.content ++ ['\n'] } := by
  cases hmargin : o.margin with
  | none => simp [Open.append, hmargin]
  | some margin =>
    have hdrop : Text.dropStart margin [] = [] := by cases margin <;> rfl
    simp [Open.append, hmargin, hdrop]

theorem Open.append_first {o : Open} {margin line : Text} {c : Char} (h : o.margin = none) (hm : Margin margin)
    (hc : Text.isBlank c = false) :
    o.append (movedIn margin (c :: line)) =
      { o with margin := some margin, content := o.content ++ '\n' :: c :: line } := by
  have hmoved : movedIn margin (c :: line) = margin ++ c :: line := rfl
  have hmargin : marginOf (margin ++ c :: line) = margin :=
    Text.takeWhile_append_of_head (fun d hd => (hm d hd).1) (by simpa using hc)
  simp [Open.append, h, hmoved, hmargin, Text.dropStart_append]

theorem parseLines_append {table : TagTable} {o : Open} {line : Text} (hline : tagLine? line = none)
    (hname : o.name ≠ titleName) (hmulti : o.multiline = true) (rest : List Text) :
    parseLines table (some o) (line :: rest) = parseLines table (some (o.append line)) rest := by
  simp [parseLines, step, hline, hname, hmulti]

theorem tagLine?_movedIn {margin line : Text} (hm : Margin margin) (h : tagLine? line = none) :
    tagLine? (movedIn margin line) = none := by
  unfold movedIn
  split
  · rfl
  · rwa [tagLine?_moved hm]

theorem parseLines_movedIn {table : TagTable} {o : Open} {margin : Text} {ls : List Text} (hm : Margin margin)
    (hls : ∀ line ∈ ls, tagLine? line = none) (hname : o.name ≠ titleName) (hmulti : o.multiline = true)
    (hmargin : o.margin = some margin) (rest : List Text) :
    parseLines table (some o) (ls.map (movedIn margin) ++ rest) =
      parseLines table (some { o with content := o.content ++ ls.flatMap ('\n' :: ·) }) rest := by
  induction ls generalizing o with
  | nil => simp
  | cons line ls ih =>
    have hline := tagLine?_movedIn hm (hls line List.mem_cons_self)
    rw [List.map_cons, List.cons_append, parseLines_append hline hname hmulti, Open.append_movedIn hmargin,
      ih (o := { o with content := o.content ++ '\n' :: line }) (fun l hl => hls l (List.mem_cons_of_mem line hl))
        hname hmulti hmargin]
    simp

theorem Body.content_eq {content : Text} (h : Body content) :
    ∃ c first others, Text.isBlank c = false ∧ Text.lines content = (c :: first) :: others ∧
      content = c :: (first ++ others.flatMap ('\n' :: ·)) := by
  obtain ⟨line, hline, c, hhead, hc⟩ := h.first
  obtain ⟨others, hlines⟩ := List.head?_eq_some_iff.mp hline
  obtain ⟨first, rfl⟩ := List.head?_eq_some_iff.mp hhead
  refine ⟨c, first, others, hc, hlines, ?_⟩
  rw [← List.cons_append, ← Text.join_lineFeed, ← hlines, Text.join_lines]

theorem Body.ne_nil {content : Text} (h : Body content) : content ≠ [] := by
  obtain ⟨c, first, others, -, -, heq⟩ := h.content_eq
  rw [heq]
  exact List.cons_ne_nil _ _

/-- The lines of a body are put behind the open tag, without the margin they were moved in by. -/
theorem parseLines_body {table : TagTable} {o : Open} {margin content : Text} (hm : Margin margin)
    (h : Body content) (hname : o.name ≠ titleName) (hmulti : o.multiline = true) (hmargin : o.margin = none)
    (rest : List Text) :
    parseLines table (some o) (bodyLines margin content ++ rest) =
      parseLines table (some { o with margin := some margin, content := o.content ++ '\n' :: content }) rest := by
  obtain ⟨c, first, others, hc, hlines, hcontent⟩ := h.content_eq
  have hplain : ∀ line ∈ (c :: first) :: others, tagLine? line = none := fun line hline =>
    (h.plain line (hlines ▸ hline)).noTag
  have hline := tagLine?_movedIn hm (hplain _ List.mem_cons_self)
  rw [bodyLines, hlines, List.map_cons, List.cons_append, parseLines_append hline hname hmulti,
    Open.append_first hmargin hm hc,
    parseLines_movedIn (o := { o with margin := some margin, content := o.content ++ '\n' :: c :: first }) hm
      (fun l hl => hplain l (List.mem_cons_of_mem _ hl)) hname hmulti rfl]
  simp [hcontent]

/-! ### The end of a tag -/

theorem Body.trim {content : Text} (h : Body content) : Text.trimBy (· == '\n') content = content := by
  apply Text.trimBy_of_ends
  · obtain ⟨c, first, others, hc, -, heq⟩ := h.content_eq
    intro d hd
    rw [heq] at hd
    obtain rfl := Option.some.inj hd
    exact beq_false_of_ne (by rintro rfl; exact absurd hc (by decide))
  · intro d hd
    obtain ⟨front, rfl⟩ := List.getLast?_eq_some_iff.mp hd
    apply beq_false_of_ne
    rintro rfl
    -- a line feed at the end would leave an empty line behind it
    apply h.last
    rw [Text.lines_append]
    exact List.getLast?_concat

theorem Unbroken.trim {line : Text} (h : Unbroken line) : Text.trimBy (· == '\n') line = line := by
  apply Text.trimBy_of_ends
  · intro c hc
    exact beq_false_of_ne (h.onLine c (List.mem_of_mem_head? hc)).1
  · intro c hc
    exact beq_false_of_ne (h.onLine c (List.mem_of_mem_getLast? hc)).1

/-- An empty line at the end of a comment adds nothing to it. -/
theorem parseLines_blank (table : TagTable) (current : Option Open) :
    parseLines table current [[]] = closed current := by
  have hnone : tagLine? [] = none := rfl
  cases current with
  | none => rfl
  | some o =>
    by_cases hname : o.name = titleName
    · simp [parseLines, step, hnone, hname]
    · cases hmulti : o.multiline with
      | false => simp [parseLines, step, hnone, hname, hmulti, closed]
      | true =>
        rw [parseLines_append hnone hname hmulti, Open.append_nil]
        simp [parseLines, closed, Open.close, Text.trimBy_append]

/-! ### Tags -/

theorem Body.trimRight {margin content : Text} (h : Body content) :
    (bodyLines margin content).map Text.trimRight = bodyLines margin content := by
  have hlines : ∀ line ∈ Text.lines content, (Text.trimRight ∘ movedIn margin) line = movedIn margin line := by
    intro line hline
    have htrimmed := (h.plain line hline).trimmed
    apply Text.trimRightBy_of_last
    unfold movedIn
    split
    · simp
    · next hne =>
      rw [List.getLast?_append_of_ne_nil _ (fun heq => hne (by simp [heq]))]
      exact htrimmed
  rw [bodyLines, List.map_map, List.map_congr_left hlines]

theorem Explicit.trimRight_name {table : TagTable} {t : Tag} (h : Explicit table t) :
    Text.trimRight ('@' :: t.name) = '@' :: t.name := by
  apply Text.trimRightBy_of_last
  intro c hc
  rcases List.mem_cons.mp (List.mem_of_mem_getLast? hc) with rfl | hc
  · decide
  · have hbounds := h.name_bounds hc
    simp [Text.isBlank]
    omega

/-- What is left behind the name of a tag, once the blanks at the end of its line are gone. -/
theorem Inline.behind_name {content : Text} (h : Inline content) :
    (∀ c ∈ (Text.trimRight (' ' :: content)).head?, c = ' ') ∧
      Text.skipBlanks (Text.trimRight (' ' :: content)) = content := by
  cases content with
  | nil =>
    have hnil : Text.trimRight [' '] = [] := rfl
    simp [hnil, Text.skipBlanks, Text.trimLeftBy]
  | cons c content =>
    have hlast : ∀ d ∈ (' ' :: c :: content).getLast?, Text.isBlank d = false := by
      rw [List.getLast?_cons_cons]
      exact h.trimmed
    have htrim : Text.trimRight (' ' :: c :: content) = ' ' :: c :: content := Text.trimRightBy_of_last hlast
    rw [htrim]
    refine ⟨fun d hd => (Option.some.inj hd).symm, ?_⟩
    exact Text.trimLeftBy_append (a := [' ']) (by simp [Text.isBlank]) h.flush

theorem Explicit.tagLine?_single {table : TagTable} {t : Tag} (h : Explicit table t) (hcontent : Inline t.content) :
    tagLine? (Text.trimRight ('@' :: t.name ++ ' ' :: t.content)) = some (t.name, t.content) := by
  have hline : Text.trimRight ('@' :: t.name ++ ' ' :: t.content) =
      '@' :: (t.name ++ Text.trimRight (' ' :: t.content)) := by
    have hname := h.trimRight_name
    unfold Text.trimRight at hname ⊢
    rw [Text.trimRightBy_append]
    split
    · next hnil => rw [hname, hnil, List.append_nil]
    · rfl
  obtain ⟨hhead, hskip⟩ := hcontent.behind_name
  rw [hline, tagLine?_name h.named.1 h.named.2 hhead, hskip]

theorem Explicit.tagLine?_bare {table : TagTable} {t : Tag} (h : Explicit table t) :
    tagLine? ('@' :: t.name) = some (t.name, []) := by
  have hbare : tagLine? ('@' :: (t.name ++ [])) = some (t.name, []) := tagLine?_name h.named.1 h.named.2 (by simp)
  rwa [List.append_nil] at hbare

theorem parseLines_tag {table : TagTable} {line name content : Text} (h : tagLine? line = some (name, content))
    (current : Option Open) (rest : List Text) :
    parseLines table current (line :: rest) = closed current ++ parseLines table (begin? table name content) rest := by
  simp [parseLines, step, h]

theorem begin?_nil {table : TagTable} {name : Text} (h : table.isKnown name = true) :
    begin? table name [] = some ⟨name, [], table.isMultiline name, none⟩ := by
  simp [begin?, h]

theorem Explicit.close {table : TagTable} {t : Tag} (h : Explicit table t) {content : Text} (multiline : Bool)
    (margin : Option Text) (hcontent : Text.trimBy (· == '\n') content = t.content) :
    Open.close ⟨t.name, content, multiline, margin⟩ = [t] := by
  simp [Open.close, h.not_implicit, hcontent]

/-- The lines of a tag end the tag that is open before them and leave open what closes to the tag itself. -/
theorem Explicit.parseLines {table : TagTable} {t : Tag} {margin : Text} (h : Explicit table t) (hm : Margin margin) :
    ∃ o : Open, o.close = [t] ∧ ∀ current rest,
      parseLines table current ((tagLines table margin t).map Text.trimRight ++ rest) =
        closed current ++ Doc.parseLines table (some o) rest := by
  have hcontent := h.content
  rw [tagLines_explicit h]
  cases hmulti : table.isMultiline t.name with
  | false =>
    simp only [hmulti, Bool.false_eq_true, if_false] at hcontent ⊢
    refine ⟨⟨t.name, t.content, false, none⟩, h.close false none hcontent.toUnbroken.trim, fun current rest => ?_⟩
    rw [List.map_singleton, List.singleton_append, parseLines_tag (h.tagLine?_single hcontent)]
    simp [begin?, h.known, hmulti]
  | true =>
    simp only [hmulti, if_true] at hcontent ⊢
    have hbegin : begin? table t.name [] = some ⟨t.name, [], true, none⟩ := by rw [begin?_nil h.known, hmulti]
    rcases hcontent with hnil | hbody
    · refine ⟨⟨t.name, [], true, none⟩, h.close true none hnil.symm, fun current rest => ?_⟩
      simp only [hnil, List.isEmpty_nil, if_true, List.map_singleton, List.singleton_append]
      rw [h.trimRight_name, parseLines_tag h.tagLine?_bare, hbegin]
    · have hne : t.content.isEmpty = false := List.isEmpty_eq_false_iff.mpr hbody.ne_nil
      have htrim : Text.trimBy (· == '\n') ('\n' :: t.content) = t.content := hbody.trim
      refine ⟨⟨t.name, '\n' :: t.content, true, some margin⟩, h.close true (some margin) htrim,
        fun current rest => ?_⟩
      simp only [hne, Bool.false_eq_true, if_false, List.map_cons, List.cons_append]
      rw [h.trimRight_name, parseLines_tag h.tagLine?_bare, hbegin, hbody.trimRight,
        parseLines_body hm hbody h.name_ne.1 rfl rfl]
      rfl

/-! ### Comments -/

theorem commentLines_append (table : TagTable) (a b : List (Tag × Text)) :
    commentLines table (a ++ b) = commentLines table a ++ commentLines table b := List.flatMap_append

theorem parseLines_explicit {table : TagTable} {written : List (Tag × Text)}
    (h : ∀ w ∈ written, Explicit table w.1 ∧ Margin w.2) (current : Option Open) :
    parseLines table current ((commentLines table written).map Text.trimRight ++ [[]]) =
      closed current ++ written.map (·.1) := by
  induction written generalizing current with
  | nil => exact (parseLines_blank table current).trans (List.append_nil _).symm
  | cons w written ih =>
    obtain ⟨hw, hm⟩ := h w List.mem_cons_self
    obtain ⟨o, hclose, hparse⟩ := hw.parseLines hm
    have hrest := ih (fun v hv => h v (List.mem_cons_of_mem w hv)) (some o)
    have hcons : commentLines table (w :: written) = tagLines table w.2 w.1 ++ commentLines table written := rfl
    rw [hcons, List.map_append, List.append_assoc, hparse, hrest, closed, hclose]
    rfl

theorem parseLines_title {table : TagTable} {title : Text} (hne : title ≠ []) (h : Plain title) (multiline : Bool)
    (rest : List Text) :
    parseLines table (some ⟨titleName, [], multiline, none⟩) (title :: rest) =
      ⟨titleName, title⟩ :: parseLines table (begin? table descriptionName []) rest := by
  simp [parseLines, step, h.noTag, hne, Open.close, h.toUnbroken.trim]

/-- The implicit tags, up to the one that is still open behind them. -/
theorem Front.parseLines {table : TagTable} {written : List (Tag × Text)} (himplicit : table.Implicit)
    (h : Front (written.map (·.1))) (hm : ∀ w ∈ written, Margin w.2) :
    ∃ tags current, tags ++ closed current = written.map (·.1) ∧ ∀ rest,
      parseLines table (begin? table titleName []) ((commentLines table written).map Text.trimRight ++ rest) =
        tags ++ Doc.parseLines table current rest := by
  have htitle : begin? table titleName [] = some ⟨titleName, [], table.isMultiline titleName, none⟩ :=
    begin?_nil himplicit.title
  have hdescription : begin? table descriptionName [] = some ⟨descriptionName, [], true, none⟩ := by
    rw [begin?_nil himplicit.description, himplicit.multiline]
  generalize hfront : written.map (·.1) = front at h
  cases h with
  | absent =>
    obtain rfl := List.map_eq_nil_iff.mp hfront
    refine ⟨[], begin? table titleName [], ?_, fun rest => rfl⟩
    rw [htitle]
    rfl
  | @title title hne hplain =>
    obtain ⟨w, rfl, hw⟩ := List.map_eq_singleton_iff.mp hfront
    have htrim : Text.trimRight title = title := Text.trimRightBy_of_last hplain.trimmed
    refine ⟨[⟨titleName, title⟩], begin? table descriptionName [], ?_, fun rest => ?_⟩
    · rw [hdescription]
      rfl
    · have hlines : commentLines table [w] = [title] := by
        rw [commentLines, List.flatMap_singleton, hw, tagLines_title]
      rw [hlines, List.map_singleton, htrim, List.singleton_append, htitle, parseLines_title hne hplain]
      rfl
  | @description title description hne hplain hbody =>
    obtain ⟨w, ws, rfl, hw, hws⟩ := List.map_eq_cons_iff.mp hfront
    obtain ⟨v, rfl, hv⟩ := List.map_eq_singleton_iff.mp hws
    have htrim : Text.trimRight title = title := Text.trimRightBy_of_last hplain.trimmed
    have hclosed : Text.trimBy (· == '\n') ('\n' :: description) = description := hbody.trim
    refine ⟨[⟨titleName, title⟩], some ⟨descriptionName, '\n' :: description, true, some v.2⟩, ?_, fun rest => ?_⟩
    · simp [closed, Open.close, hclosed, hbody.ne_nil]
    · have hlines : commentLines table [w, v] = title :: bodyLines v.2 description := by
        rw [commentLines, List.flatMap_cons, List.flatMap_singleton, hw, hv, tagLines_title, tagLines_description]
        rfl
      rw [hlines, List.map_cons, htrim, hbody.trimRight, List.cons_append, htitle, parseLines_title hne hplain,
        hdescription, parseLines_body (hm v (by simp)) hbody (by decide) rfl rfl]
      rfl

/-- A comment gives back the tags that it was written from. -/
theorem parse_render {table : TagTable} {written : List (Tag × Text)} (himplicit : table.Implicit)
    (h : WellFormed table (written.map (·.1))) (hm : ∀ w ∈ written, Margin w.2) :
    parse table (render table written) = written.map (·.1) := by
  have hlines := contentLines_render (h.unbroken hm)
  obtain ⟨-, front, rest, heq, hfront, hrest⟩ := h
  obtain ⟨a, b, rfl, rfl, rfl⟩ := List.map_eq_append_iff.mp heq
  obtain ⟨tags, current, htags, hparse⟩ := hfront.parseLines himplicit fun w hw => hm w (List.mem_append_left b hw)
  have hexplicit : ∀ w ∈ b, Explicit table w.1 ∧ Margin w.2 := fun w hw =>
    ⟨hrest w.1 (List.mem_map_of_mem hw), hm w (List.mem_append_right a hw)⟩
  have hopening : ∀ ls, parseLines table (begin? table titleName []) ([] :: ls) =
      parseLines table (begin? table titleName []) ls := by
    intro ls
    rw [begin?_nil himplicit.title]
    rfl
  rw [parse, hlines, hopening, commentLines_append, List.map_append, List.append_assoc, hparse,
    parseLines_explicit hexplicit, ← List.append_assoc, htags, List.map_append]

end Doc
end Stylebook
