import Stylebook.Proofs.Doc.Reading

/-! Comments in sections. A line that begins a tag ends whatever is open before it, just as the end of the
    comment does. So what stands before such a line and what stands from it on are read apart from each
    other, and a tag of unknown name leaves no trace, nor do the lines behind it. -/

namespace Stylebook
namespace Doc

/-! ### Sections -/

/-- The first line of the text, as a later line of a comment, begins a tag. -/
def BeginsTag (t : Text) : Prop := ∃ line rest, Text.lines t = line :: rest ∧ (tagLine? (laterLine line)).isSome

/-- The text is a tag whose name the table does not have, with lines behind it that begin no tag. -/
def Unknown (table : TagTable) (t : Text) : Prop :=
  ∃ line rest name content, Text.lines t = line :: rest ∧ tagLine? (laterLine line) = some (name, content) ∧
    table.isKnown name = false ∧ ∀ l ∈ rest, tagLine? (laterLine l) = none

variable {table : TagTable}

theorem Unknown.beginsTag {t : Text} (h : Unknown table t) : BeginsTag t := by
  obtain ⟨line, rest, name, content, hlines, hline, -, -⟩ := h
  exact ⟨line, rest, hlines, by rw [hline]; rfl⟩

/-! ### Lines -/

theorem contentLines_append (p s : Text) :
    contentLines (p ++ '\n' :: s) = contentLines p ++ (Text.lines s).map laterLine := by
  obtain ⟨line, rest, hlines⟩ := List.exists_cons_of_ne_nil (Text.lines_ne_nil p)
  simp only [contentLines, Text.lines_append, hlines, List.cons_append, List.map_append]

theorem contentLines_opening (s : Text) :
    contentLines ("/**".text ++ '\n' :: s) = [] :: (Text.lines s).map laterLine := by
  have hopening : contentLines "/**".text = [[]] := by decide
  rw [contentLines_append, hopening, List.singleton_append]

/-- A tag line ends the tag that is open before it, as the end of the lines does. -/
theorem parseLines_split {line : Text} (h : (tagLine? line).isSome) (current : Option Open)
    (before rest : List Text) :
    parseLines table current (before ++ line :: rest) =
      parseLines table current before ++ parseLines table none (line :: rest) := by
  obtain ⟨⟨name, content⟩, htag⟩ := Option.isSome_iff_exists.mp h
  induction before generalizing current with
  | nil =>
    rw [List.nil_append, parseLines_tag htag, parseLines_tag htag]
    rfl
  | cons first before ih =>
    rw [List.cons_append, parseLines, parseLines]
    simp only [ih, List.append_assoc]

/-- Where no tag is open, lines that begin none are passed over. -/
theorem parseLines_none {ls : List Text} (h : ∀ l ∈ ls, tagLine? l = none) : parseLines table none ls = [] := by
  induction ls with
  | nil => rfl
  | cons line ls ih =>
    have hline := h line List.mem_cons_self
    have hrest := ih fun l hl => h l (List.mem_cons_of_mem line hl)
    simp [parseLines, step, hline, hrest]

/-- Nothing has been read of the title when a comment opens, so a line without content changes nothing. -/
theorem parseLines_opening (line : Text) (rest : List Text) (h : (tagLine? line).isSome) :
    parseLines table (begin? table titleName []) ([] :: line :: rest) = parseLines table none (line :: rest) := by
  have htitle : parseLines table (begin? table titleName []) [[]] = [] := by
    rw [parseLines_blank]
    cases hknown : table.isKnown titleName with
    | false => simp [begin?, hknown, closed]
    | true =>
      rw [begin?_nil hknown]
      rfl
  have hsplit := @parseLines_split table line h (begin? table titleName []) [[]] rest
  rw [htitle] at hsplit
  exact hsplit

/-! ### Comments -/

theorem parse_split {s : Text} (h : BeginsTag s) (p : Text) :
    parse table (p ++ '\n' :: s) = parse table p ++ parse table ("/**".text ++ '\n' :: s) := by
  obtain ⟨line, rest, hlines, htag⟩ := h
  unfold parse
  rw [contentLines_append, contentLines_opening, hlines, List.map_cons, parseLines_split htag,
    parseLines_opening _ _ htag]

theorem Unknown.parse_opening {u : Text} (h : Unknown table u) : parse table ("/**".text ++ '\n' :: u) = [] := by
  obtain ⟨line, rest, name, content, hlines, hline, hname, hrest⟩ := h
  have hbegin : begin? table name content = none := by simp [begin?, hname]
  have hpassed : ∀ l ∈ rest.map laterLine, tagLine? l = none := by
    intro l hl
    obtain ⟨raw, hraw, rfl⟩ := List.mem_map.mp hl
    exact hrest raw hraw
  rw [parse, contentLines_opening, hlines, List.map_cons, parseLines_opening _ _ (by rw [hline]; rfl),
    parseLines_tag hline, hbegin, parseLines_none hpassed]
  rfl

theorem BeginsTag.append {u : Text} (h : BeginsTag u) (s : Text) : BeginsTag (u ++ '\n' :: s) := by
  obtain ⟨line, rest, hlines, htag⟩ := h
  exact ⟨line, rest ++ Text.lines s, by rw [Text.lines_append, hlines, List.cons_append], htag⟩

/-- What is read before a line that begins a tag and what is read from it on do not depend on each other; a
    tag of unknown name with the lines behind it adds nothing, be it in front of such a line or at the end. -/
theorem parse_sections (table : TagTable) :
    (∀ p s, BeginsTag s → parse table (p ++ '\n' :: s) = parse table p ++ parse table ("/**".text ++ '\n' :: s)) ∧
    (∀ p u s, Unknown table u → BeginsTag s →
      parse table (p ++ '\n' :: (u ++ '\n' :: s)) = parse table (p ++ '\n' :: s)) ∧
    (∀ p u, Unknown table u → parse table (p ++ '\n' :: u) = parse table p) := by
  refine ⟨fun p s hs => parse_split hs p, ?_, ?_⟩
  · intro p u s hu hs
    have hbehind : parse table ("/**".text ++ '\n' :: (u ++ '\n' :: s)) = parse table ("/**".text ++ '\n' :: s) := by
      have hopening : "/**".text ++ '\n' :: (u ++ '\n' :: s) = ("/**".text ++ '\n' :: u) ++ '\n' :: s := by simp
      rw [hopening, parse_split hs, hu.parse_opening, List.nil_append]
    rw [parse_split (hu.beginsTag.append s), parse_split hs, hbehind]
  · intro p u hu
    rw [parse_split hu.beginsTag, hu.parse_opening, List.append_nil]

/-- A comment with a base, and an unknown tag of two lines in front of it. -/
theorem parse_sections_base :
    BeginsTag " * @base a".text ∧ Unknown TagTable.default " * @colour red\n * dark".text ∧
    parse TagTable.default ("/** Links".text ++ '\n' :: " * @base a".text) =
      parse TagTable.default "/** Links".text ++ parse TagTable.default ("/**".text ++ '\n' :: " * @base a".text) ∧
    parse TagTable.default
        ("/** Links".text ++ '\n' :: (" * @colour red\n * dark".text ++ '\n' :: " * @base a".text)) =
      parse TagTable.default ("/** Links".text ++ '\n' :: " * @base a".text) := by
  have hbase : BeginsTag " * @base a".text := ⟨" * @base a".text, [], by decide, by decide⟩
  have hunknown : Unknown TagTable.default " * @colour red\n * dark".text :=
    ⟨" * @colour red".text, [" * dark".text], "colour".text, "red".text, by decide, by decide, by decide, by decide⟩
  obtain ⟨hsplit, hinsert, -⟩ := parse_sections TagTable.default
  exact ⟨hbase, hunknown, hsplit _ _ hbase, hinsert _ _ _ hunknown hbase⟩

end Doc
end Stylebook
