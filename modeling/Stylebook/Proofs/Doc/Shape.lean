import Stylebook.Doc.Comment
import Stylebook.Proofs.Text.Lines

/-! The shape of what is read from a comment. Whatever the text and the table of tags are, a tag that is read has a known
    name, its content stays on one line unless the table lets it go on, and no line feed stands around it. The title and
    the description can only stand in front, in this order, and only with content: no line that begins a tag can name
    them, the title is looked for until the first tag, and the description is open right behind the title only. -/

namespace Stylebook
namespace Doc

variable {table : TagTable}

/-! ### Lines -/

theorem dropLineEnd_isPrefix (line : Text) : dropLineEnd line <+: line :=
  (Text.trimRightBy_prefix _ _).trans ((Text.dropEnd_prefix _ _).trans (Text.trimRightBy_prefix _ line))

theorem dropMark_suffix (mark line : Text) : dropMark mark line <:+ line := by
  unfold dropMark
  split
  · rename_i c r hafter
    have hline := Text.eq_append_of_after? hafter
    split
    · exact ⟨mark ++ [c], by rw [hline]; simp⟩
    · exact ⟨mark, hline.symm⟩
  · exact List.nil_suffix
  · exact List.suffix_refl line

theorem lineFeed_not_mem_contentLines (t : Text) : ∀ line ∈ contentLines t, '\n' ∉ line := by
  have hlines : ∀ line ∈ Text.lines t, '\n' ∉ line := fun line hline hfeed => by
    have hno := Text.not_mem_of_mem_split line hline '\n' hfeed
    cases hno
  have hkept : ∀ mark, ∀ line ∈ Text.lines t, '\n' ∉ dropMark mark (dropLineEnd line) := fun mark line hline hfeed =>
    hlines line hline ((dropLineEnd_isPrefix line).subset ((dropMark_suffix mark _).subset hfeed))
  unfold contentLines
  split
  · simp
  · rename_i line rest heq
    rw [heq] at hkept
    intro l hl
    rcases List.mem_cons.mp hl with rfl | hl
    · exact hkept _ line List.mem_cons_self
    · obtain ⟨raw, hraw, rfl⟩ := List.mem_map.mp hl
      exact hkept _ raw (List.mem_cons_of_mem line hraw)

/-- A name of one of the two tags that no line begins. -/
def IsImplicit (name : Text) : Prop := name = titleName ∨ name = descriptionName

/-- A line that begins a tag names no implicit one, and the content is a part of the line. -/
theorem tagLine?_eq_some {line name content : Text} (h : tagLine? line = some (name, content)) :
    ¬IsImplicit name ∧ content <:+: line := by
  unfold tagLine? at h
  split at h
  · rename_i r hskip
    split at h
    · cases h
    · rename_i hname
      obtain ⟨rfl, rfl⟩ := Prod.mk.inj (Option.some.inj h)
      have hrest : r.dropWhile isNameChar <:+ line :=
        (List.dropWhile_suffix _).trans ((List.suffix_cons '@' r).trans (hskip ▸ Text.skipBlanks_suffix line))
      constructor
      · have hdollar : '$' ∉ r.takeWhile isNameChar := fun hmem => by
          have hchar := List.mem_takeWhile_imp hmem
          cases hchar
        rintro (heq | heq)
        · exact hdollar (heq ▸ by decide)
        · exact hdollar (heq ▸ by decide)
      · split
        · exact ((Text.skipBlanks_suffix _).trans hrest).isInfix
        · exact List.nil_infix
  · cases h

/-! ### Steps -/

theorem mem_begin? {name content : Text} {o : Open} (h : o ∈ begin? table name content) :
    table.isKnown name = true ∧ o.name = name ∧ o.multiline = table.isMultiline name ∧ o.content <:+ content := by
  unfold begin? at h
  split at h
  · rename_i hknown
    dsimp only at h
    split at h
    · cases h
      exact ⟨hknown, rfl, rfl, List.drop_suffix _ content⟩
    · cases h
      exact ⟨hknown, rfl, rfl, List.suffix_refl content⟩
  · cases h

/-- What a line can do to the open tag: the tags that it finishes, and the tag that is open behind it. -/
inductive Steps (table : TagTable) (line : Text) : Option Open → List Tag → Option Open → Prop
  | tag {current : Option Open} {name content : Text} (htag : tagLine? line = some (name, content)) :
      Steps table line current (closed current) (begin? table name content)
  | passed : Steps table line none [] none
  | waiting {o : Open} (hname : o.name = titleName) : Steps table line (some o) [] (some o)
  | titled {o : Open} (hname : o.name = titleName) (hne : line ≠ []) :
      Steps table line (some o) (Open.close { o with content := line }) (begin? table descriptionName [])
  | appended {o : Open} (hname : o.name ≠ titleName) (hmulti : o.multiline = true) :
      Steps table line (some o) [] (some (o.append line))
  | ended {o : Open} (hname : o.name ≠ titleName) : Steps table line (some o) o.close none

theorem step_steps (table : TagTable) (current : Option Open) (line : Text) :
    Steps table line current (step table current line).1 (step table current line).2 := by
  unfold step
  split
  · rename_i htag
    exact .tag htag
  · cases current with
    | none => exact .passed
    | some o =>
      dsimp only
      split
      · rename_i hname
        split
        · exact .waiting hname
        · rename_i hne
          exact .titled hname fun heq => hne (by rw [heq]; rfl)
      · rename_i hname
        split
        · rename_i hmulti
          exact .appended hname hmulti
        · exact .ended hname

/-- Reading the lines is one step after the other. -/
theorem parseLines_cons (table : TagTable) (current : Option Open) (line : Text) (rest : List Text) :
    ∃ finished next, Steps table line current finished next ∧
      parseLines table current (line :: rest) = finished ++ parseLines table next rest :=
  ⟨_, _, step_steps table current line, rfl⟩

/-! ### Regular tags -/

/-- A tag as it can come out of a comment. -/
structure Regular (table : TagTable) (t : Tag) : Prop where
  known : table.isKnown t.name = true
  oneLine : table.isMultiline t.name = false → '\n' ∉ t.content
  starts : t.content.head? ≠ some '\n'
  ends : t.content.getLast? ≠ some '\n'

/-- What a tag that is being read keeps, so that it is regular when it is finished. -/
structure Open.Regular (table : TagTable) (o : Open) : Prop where
  known : table.isKnown o.name = true
  multiline : o.multiline = table.isMultiline o.name
  oneLine : o.multiline = false → '\n' ∉ o.content

theorem mem_close {o : Open} {t : Tag} (h : t ∈ o.close) :
    t = ⟨o.name, Text.trimBy (· == '\n') o.content⟩ ∧ ¬(o.name.head? = some '$' ∧ t.content = []) := by
  rw [Open.close] at h
  split at h
  · cases h
  · rename_i hkept
    obtain rfl := List.mem_singleton.mp h
    exact ⟨rfl, hkept⟩

theorem Open.Regular.close {o : Open} (h : o.Regular table) : ∀ t ∈ o.close, Doc.Regular table t := by
  intro t ht
  obtain ⟨rfl, -⟩ := mem_close ht
  refine ⟨h.known, fun hsingle hfeed => ?_, fun hfeed => ?_, fun hfeed => ?_⟩
  · exact h.oneLine (h.multiline.trans hsingle) ((Text.trimBy_infix _ _).subset hfeed)
  · cases Text.head?_trimBy _ _ _ hfeed
  · cases Text.getLast?_trimBy _ _ _ hfeed

theorem closed_regular {current : Option Open} (h : ∀ o ∈ current, o.Regular table) :
    ∀ t ∈ closed current, Regular table t := by
  cases current with
  | none => exact List.forall_mem_nil _
  | some o => exact (h o rfl).close

theorem begin?_regular {name content : Text} (hcontent : '\n' ∉ content) :
    ∀ o ∈ begin? table name content, o.Regular table := by
  intro o ho
  obtain ⟨hknown, hname, hmulti, hsuffix⟩ := mem_begin? ho
  exact ⟨hname ▸ hknown, hname ▸ hmulti, fun _ hfeed => hcontent (hsuffix.subset hfeed)⟩

/-- A line finishes regular tags only, and the tag that is open behind it goes on to be one. -/
theorem Steps.regular {line : Text} {current next : Option Open} {finished : List Tag}
    (h : Steps table line current finished next) (hline : '\n' ∉ line) (hopen : ∀ o ∈ current, o.Regular table) :
    (∀ t ∈ finished, Regular table t) ∧ ∀ o ∈ next, o.Regular table := by
  cases h with
  | tag htag =>
    have hcontent := (tagLine?_eq_some htag).2
    exact ⟨closed_regular hopen, begin?_regular fun hfeed => hline (hcontent.subset hfeed)⟩
  | passed => exact ⟨List.forall_mem_nil _, hopen⟩
  | waiting => exact ⟨List.forall_mem_nil _, hopen⟩
  | @titled o =>
    have ho := hopen o rfl
    have htitle : Open.Regular table { o with content := line } := ⟨ho.known, ho.multiline, fun _ => hline⟩
    exact ⟨htitle.close, begin?_regular List.not_mem_nil⟩
  | @appended o hname hmulti =>
    have ho := hopen o rfl
    refine ⟨List.forall_mem_nil _, ?_⟩
    rintro _ ⟨⟩
    exact ⟨ho.known, ho.multiline, fun hsingle => absurd (hmulti.symm.trans hsingle) (by decide)⟩
  | @ended o => exact ⟨(hopen o rfl).close, fun _ hnone => nomatch hnone⟩

theorem parseLines_regular {current : Option Open} {ls : List Text} (hls : ∀ line ∈ ls, '\n' ∉ line)
    (h : ∀ o ∈ current, o.Regular table) : ∀ t ∈ parseLines table current ls, Regular table t := by
  induction ls generalizing current with
  | nil => exact closed_regular h
  | cons line ls ih =>
    obtain ⟨hline, hrest⟩ := List.forall_mem_cons.mp hls
    obtain ⟨finished, next, hstep, hparse⟩ := parseLines_cons table current line ls
    obtain ⟨hfinished, hnext⟩ := hstep.regular hline h
    rw [hparse, List.forall_mem_append]
    exact ⟨hfinished, ih hrest hnext⟩

/-! ### Implicit tags -/

/-- No tag is an implicit one. -/
def Explicits (tags : List Tag) : Prop := ∀ t ∈ tags, ¬IsImplicit t.name

theorem closed_explicits {current : Option Open} (h : ∀ o ∈ current, ¬IsImplicit o.name) : Explicits (closed current) := by
  cases current with
  | none => exact List.forall_mem_nil _
  | some o =>
    intro t ht
    obtain ⟨rfl, -⟩ := mem_close ht
    exact h o rfl

/-- Where no implicit tag is open, a line finishes none and opens none. -/
theorem Steps.explicits {line : Text} {current next : Option Open} {finished : List Tag}
    (h : Steps table line current finished next) (hopen : ∀ o ∈ current, ¬IsImplicit o.name) :
    Explicits finished ∧ ∀ o ∈ next, ¬IsImplicit o.name := by
  cases h with
  | tag htag =>
    refine ⟨closed_explicits hopen, fun o ho => ?_⟩
    rw [(mem_begin? ho).2.1]
    exact (tagLine?_eq_some htag).1
  | passed => exact ⟨List.forall_mem_nil _, hopen⟩
  | waiting => exact ⟨List.forall_mem_nil _, hopen⟩
  | titled hname => exact absurd (.inl hname) (hopen _ rfl)
  | @appended o =>
    refine ⟨List.forall_mem_nil _, ?_⟩
    rintro _ ⟨⟩
    exact hopen o rfl
  | ended => exact ⟨closed_explicits hopen, fun _ hnone => nomatch hnone⟩

theorem parseLines_explicits {current : Option Open} (h : ∀ o ∈ current, ¬IsImplicit o.name) (ls : List Text) :
    Explicits (parseLines table current ls) := by
  induction ls generalizing current with
  | nil => exact closed_explicits h
  | cons line ls ih =>
    obtain ⟨finished, next, hstep, hparse⟩ := parseLines_cons table current line ls
    obtain ⟨hfinished, hnext⟩ := hstep.explicits h
    rw [hparse]
    exact List.forall_mem_append.mpr ⟨hfinished, ih hnext⟩

theorem parseLines_tag_explicits {line name content : Text} (htag : tagLine? line = some (name, content))
    (ls : List Text) : Explicits (parseLines table (begin? table name content) ls) :=
  parseLines_explicits (fun _ ho => (mem_begin? ho).2.1 ▸ (tagLine?_eq_some htag).1) ls

/-- A description with content, or nothing. -/
def MayDescribe (front : List Tag) : Prop :=
  front = [] ∨ ∃ description, description ≠ [] ∧ front = [⟨descriptionName, description⟩]

theorem closed_mayDescribe {current : Option Open} (h : ∀ o ∈ current, o.name = descriptionName) :
    MayDescribe (closed current) := by
  cases current with
  | none => exact .inl rfl
  | some o =>
    have hname := h o rfl
    rw [closed, Open.close, hname]
    split
    · exact .inl rfl
    · rename_i hkept
      exact .inr ⟨_, fun hnil => hkept ⟨rfl, hnil⟩, rfl⟩

/-- Behind the title at most the description is read that is open there. -/
theorem parseLines_description {current : Option Open} (h : ∀ o ∈ current, o.name = descriptionName) (ls : List Text) :
    ∃ front rest, parseLines table current ls = front ++ rest ∧ MayDescribe front ∧ Explicits rest := by
  induction ls generalizing current with
  | nil => exact ⟨closed current, [], (List.append_nil _).symm, closed_mayDescribe h, List.forall_mem_nil _⟩
  | cons line ls ih =>
    obtain ⟨finished, next, hstep, hparse⟩ := parseLines_cons table current line ls
    rw [hparse]
    cases hstep with
    | tag htag => exact ⟨_, _, rfl, closed_mayDescribe h, parseLines_tag_explicits htag ls⟩
    | passed => exact ih h
    | waiting hname => exact absurd ((h _ rfl).symm.trans hname) (by decide)
    | titled hname => exact absurd ((h _ rfl).symm.trans hname) (by decide)
    | @appended o =>
      refine ih ?_
      rintro _ ⟨⟩
      exact h o rfl
    | ended =>
      have hnone : ∀ o ∈ (none : Option Open), ¬IsImplicit o.name := by simp
      exact ⟨_, _, rfl, closed_mayDescribe h, parseLines_explicits hnone ls⟩

/-- The implicit tags that can stand in front: a title, and behind it a description, both with content. -/
inductive Opening : List Tag → Prop
  | none : Opening []
  | title {title : Text} (hne : title ≠ []) : Opening [⟨titleName, title⟩]
  | description {title description : Text} (hne : title ≠ []) (hne' : description ≠ []) :
      Opening [⟨titleName, title⟩, ⟨descriptionName, description⟩]

theorem closed_title {current : Option Open} (h : ∀ o ∈ current, o.name = titleName ∧ o.content = []) :
    closed current = [] := by
  cases current with
  | none => rfl
  | some o =>
    obtain ⟨hname, hcontent⟩ := h o rfl
    rw [closed, Open.close, hname, hcontent]
    rfl

theorem close_titled {o : Open} (hname : o.name = titleName) {line : Text} (hline : '\n' ∉ line) (hne : line ≠ []) :
    Open.close { o with content := line } = [⟨titleName, line⟩] := by
  have hplain : ∀ c ∈ line, (c == '\n') = false := fun c hc => beq_false_of_ne fun heq => hline (heq ▸ hc)
  have htrim : Text.trimBy (· == '\n') line = line :=
    Text.trimBy_of_ends (fun c hc => hplain c (List.mem_of_mem_head? hc)) fun c hc => hplain c (List.mem_of_mem_getLast? hc)
  rw [Open.close]
  simp only [htrim, hname, hne, and_false, if_false]

/-- While the title is looked for, the implicit tags can still come, in their order. -/
theorem parseLines_opening_title {current : Option Open} (h : ∀ o ∈ current, o.name = titleName ∧ o.content = [])
    {ls : List Text} (hls : ∀ line ∈ ls, '\n' ∉ line) :
    ∃ front rest, parseLines table current ls = front ++ rest ∧ Opening front ∧ Explicits rest := by
  induction ls generalizing current with
  | nil => exact ⟨[], [], closed_title h, .none, List.forall_mem_nil _⟩
  | cons line ls ih =>
    obtain ⟨hline, hrest⟩ := List.forall_mem_cons.mp hls
    obtain ⟨finished, next, hstep, hparse⟩ := parseLines_cons table current line ls
    rw [hparse]
    cases hstep with
    | tag htag =>
      rw [closed_title h]
      exact ⟨[], _, rfl, .none, parseLines_tag_explicits htag ls⟩
    | passed => exact ih h hrest
    | waiting => exact ih h hrest
    | titled hname hne =>
      have hopen : ∀ o ∈ begin? table descriptionName [], o.name = descriptionName := fun o ho => (mem_begin? ho).2.1
      obtain ⟨front, rest, hfront, hdescription, hexplicit⟩ := parseLines_description hopen ls
      rw [close_titled hname hline hne, hfront]
      rcases hdescription with rfl | ⟨description, hne', rfl⟩
      · exact ⟨_, rest, rfl, .title hne, hexplicit⟩
      · exact ⟨_, rest, rfl, .description hne hne', hexplicit⟩
    | appended hname => exact absurd (h _ rfl).1 hname
    | ended hname => exact absurd (h _ rfl).1 hname

/-! ### Comments -/

/-- What is read from a comment has the implicit tags in front and no others, and every tag is regular. -/
theorem parse_shape (table : TagTable) (t : Text) :
    (∃ front rest, parse table t = front ++ rest ∧ Opening front ∧ ∀ tag ∈ rest, ¬IsImplicit tag.name) ∧
      ∀ tag ∈ parse table t, Regular table tag := by
  have hlines := lineFeed_not_mem_contentLines t
  constructor
  · refine parseLines_opening_title (fun o ho => ?_) hlines
    obtain ⟨-, hname, -, hcontent⟩ := mem_begin? ho
    exact ⟨hname, List.suffix_nil.mp hcontent⟩
  · exact parseLines_regular hlines (begin?_regular List.not_mem_nil)

/-- A comment with blank lines around its parts and a tag that the table does not have. -/
def unevenComment : Text :=
  "/**\n *\n * Buttons\n *\n * All of them.\n *\n * @example\n *\n *   One\n *\n * @unknown x\n *   Two\n * @base .b */".text

theorem parse_shape_uneven :
    parse .default unevenComment = [⟨titleName, "Buttons".text⟩, ⟨descriptionName, "All of them.".text⟩,
      ⟨"example".text, "One".text⟩, ⟨"base".text, ".b".text⟩] ∧
    (∃ front rest, parse .default unevenComment = front ++ rest ∧ Opening front ∧ ∀ tag ∈ rest, ¬IsImplicit tag.name) ∧
      ∀ tag ∈ parse .default unevenComment, Regular .default tag :=
  ⟨by decide +kernel, parse_shape .default unevenComment⟩

end Doc
end Stylebook
