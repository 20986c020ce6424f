import Stylebook.Markup.Tree
import Stylebook.Markup.Writer
import Stylebook.Proofs.Text.Lines

/-! Reading written markup token by token. A character that means something in markup is written as a reference,
    and every such reference is read as its character; so a written text is read as texts that make up the
    text, a written opening tag as an opening tag with the same attributes, a closing tag as a closing tag.
    Each of them is read with the rest of the markup present. -/

namespace Stylebook
namespace Markup

/-! ### Names -/

def isPlainNameChar (c : Char) : Bool := ('a' ≤ c && c ≤ 'z') || Text.isDigit c || c == '-'

/-- Small letters, digits and hyphens, and first a letter. -/
structure PlainName (t : Text) : Prop where
  head : ∀ c ∈ t.head?, 'a' ≤ c ∧ c ≤ 'z'
  ne_nil : t ≠ []
  all : ∀ c ∈ t, isPlainNameChar c = true

instance : DecidablePred PlainName := fun t =>
  decidable_of_iff ((t.head?.all fun c => 'a' ≤ c && c ≤ 'z') = true ∧ t ≠ [] ∧ t.all isPlainNameChar = true)
    ⟨fun ⟨hhead, hne, hall⟩ => ⟨by simpa [Option.all_eq_true] using hhead, hne, List.all_eq_true.mp hall⟩,
      fun h => ⟨by simpa [Option.all_eq_true] using h.head, h.ne_nil, List.all_eq_true.mpr h.all⟩⟩

/-- What is true of the first 128 characters is true of those in plain names. -/
theorem of_isPlainNameChar {P : Char → Prop} (h : ∀ n < 128, isPlainNameChar (Char.ofNat n) = true → P (Char.ofNat n))
    {c : Char} (hc : isPlainNameChar c = true) : P c := by
  have hlt : c.toNat < 128 := by
    simp only [isPlainNameChar, Text.isDigit, Bool.or_eq_true, Bool.and_eq_true, decide_eq_true_eq, beq_iff_eq,
      Char.le_def, UInt32.le_iff_toNat_le] at hc
    rcases hc with (⟨-, hc⟩ | ⟨-, hc⟩) | rfl
    · exact Nat.lt_of_le_of_lt hc (by decide)
    · exact Nat.lt_of_le_of_lt hc (by decide)
    · decide
  have hp := h c.toNat hlt
  rw [Char.ofNat_toNat] at hp
  exact hp hc

/-- How the readers see a character of a plain name. -/
theorem plain_char {c : Char} (h : isPlainNameChar c = true) :
    isTagNameChar c = true ∧ isAttributeChar c = true ∧ isClosingNameChar c = true ∧ Text.isBlank c = false ∧ c ≠ '/' ∧
      c ≠ '>' ∧ c.toNat < 128 ∧ c.toLower = c ∧ c ≠ 'Σ' := by
  refine of_isPlainNameChar (P := fun c => isTagNameChar c = true ∧ isAttributeChar c = true ∧
    isClosingNameChar c = true ∧ Text.isBlank c = false ∧ c ≠ '/' ∧ c ≠ '>' ∧ c.toNat < 128 ∧ c.toLower = c ∧
    c ≠ 'Σ') ?_ h
  decide +kernel

theorem PlainName.lower {t : Text} (h : PlainName t) : Text.lower t = t := by
  have hafter : ∀ before u : Text, (∀ c ∈ u, isPlainNameChar c = true) → Text.lowerAfter before u = u := by
    intro before u hu
    induction u generalizing before with
    | nil => rfl
    | cons c u ih =>
      obtain ⟨-, -, -, -, -, -, hlt, hlower, hsigma⟩ := plain_char (hu c List.mem_cons_self)
      have hchar : Text.lowerChar c = [c] := by rw [Text.lowerChar, if_pos hlt, hlower]
      rw [Text.lowerAfter, ih _ fun d hd => hu d (List.mem_cons_of_mem _ hd)]
      simp [hsigma, hchar]
  exact hafter [] t h.all

/-! ### References -/

/-- The name of a written reference as the readers see it. -/
theorem written_name {name cs : Text} (h : (name, cs) ∈ writtenNames) : named? name = some cs ∧ name ≠ [] ∧
    name.length < 32 ∧ (∀ c ∈ name, isReferenceChar c = true ∧ isEntityChar c = true) ∧
    ∀ c ∈ name.head?, Text.isLetter c = true ∧ c ≠ '#' := by
  have hlookup : writtenNames.lookup name = some cs := by
    have hall : ∀ x ∈ writtenNames, writtenNames.lookup x.1 = some x.2 := by decide +kernel
    exact hall _ h
  have hall : ∀ x ∈ writtenNames, x.1 ≠ [] ∧ x.1.length < 32 ∧
      (x.1.all fun c => isReferenceChar c && isEntityChar c) = true ∧
      (x.1.head?.all fun c => Text.isLetter c && c != '#') = true := by
    decide +kernel
  obtain ⟨hne, hlen, hchars, hhead⟩ := hall _ h
  exact ⟨by rw [named?, hlookup], hne, hlen, by simpa using hchars, by simpa [Option.all_eq_true] using hhead⟩

/-- Each character is written as it is or as a reference. -/
def WritesChars (f : Char → Text) : Prop :=
  ∀ c, f c = [c] ∧ c ≠ '&' ∨ ∃ name, (name, [c]) ∈ writtenNames ∧ f c = '&' :: (name ++ [';'])

theorem writesChars_escapeChar : WritesChars escapeChar := by
  intro c
  unfold escapeChar
  split
  · rename_i hc
    subst hc
    exact .inr ⟨"amp".text, by decide +kernel, rfl⟩
  split
  · rename_i hc
    subst hc
    exact .inr ⟨"lt".text, by decide +kernel, rfl⟩
  split
  · rename_i hc
    subst hc
    exact .inr ⟨"gt".text, by decide +kernel, rfl⟩
  split
  · rename_i hc
    subst hc
    exact .inr ⟨"nbsp".text, by decide +kernel, rfl⟩
  · rename_i hamp _ _ _
    exact .inl ⟨rfl, hamp⟩

theorem writesChars_quoted : WritesChars fun c => if c = '"' then "&quot;".text else escapeChar c := by
  intro c
  dsimp only
  split
  · rename_i hc
    subst hc
    exact .inr ⟨"quot".text, by decide +kernel, rfl⟩
  · exact writesChars_escapeChar c

theorem reference?_written {name cs : Text} (h : (name, cs) ∈ writtenNames) (rest : Text) :
    reference? (name ++ ';' :: rest) = some (cs, rest) := by
  obtain ⟨hnamed, hne, hlen, hall, hhead⟩ := written_name h
  have htake : ((name ++ ';' :: rest).take 32).takeWhile isReferenceChar = name := by
    rw [List.take_append, List.take_of_length_le (Nat.le_of_lt hlen)]
    obtain ⟨k, hk⟩ : ∃ k, 32 - name.length = k + 1 := ⟨31 - name.length, by omega⟩
    rw [hk, List.take_succ_cons]
    exact Text.takeWhile_append_of_head (fun c hc => (hall c hc).1) (by simp [isReferenceChar])
  obtain ⟨c, r, rfl⟩ := List.exists_cons_of_ne_nil hne
  have hhash : c ≠ '#' := (hhead c rfl).2
  unfold reference?
  split
  · rename_i heq
    cases heq
    exact absurd rfl hhash
  · rw [htake]
    have hrest : dropSemicolon ((c :: r ++ ';' :: rest).drop (c :: r).length) = (true, rest) := by
      rw [List.drop_left]
      rfl
    simp only [hrest, referenceText, if_true, hnamed]

theorem unescape_cons {c : Char} (hc : c ≠ '&') (r : Text) : unescape (c :: r) = c :: unescape r := by
  rw [unescape, if_neg hc]

theorem unescape_written {name cs : Text} (h : (name, cs) ∈ writtenNames) (rest : Text) :
    unescape ('&' :: (name ++ ';' :: rest)) = cs ++ unescape rest := by
  rw [unescape, if_pos rfl]
  split
  · rename_i cs' rest' href
    cases (reference?_written h rest).symm.trans href
    rfl
  · rename_i href
    exact absurd ((reference?_written h rest).symm.trans href) (by simp)

/-- What is written is read back. -/
theorem unescape_flatMap {f : Char → Text} (hf : WritesChars f) (t : Text) : unescape (t.flatMap f) = t := by
  induction t with
  | nil => rw [List.flatMap_nil, unescape]
  | cons c t ih =>
    rw [List.flatMap_cons]
    rcases hf c with ⟨hself, hamp⟩ | ⟨name, hname, href⟩
    · rw [hself, List.singleton_append, unescape_cons hamp, ih]
    · rw [href, List.cons_append, List.append_assoc, List.singleton_append, unescape_written hname, ih]
      rfl

/-- No numeric reference is written. -/
theorem longReference?_flatMap {f : Char → Text} (hf : WritesChars f) (t : Text) :
    longReference? (t.flatMap f) = none := by
  have hplain : ∀ u v : Text, (∀ c ∈ u, c ≠ '&') → longReference? v = none → longReference? (u ++ v) = none := by
    intro u v hu hv
    induction u with
    | nil => exact hv
    | cons c u ih =>
      have hc := hu c List.mem_cons_self
      rw [List.cons_append, longReference?]
      simp only [hc, false_and, if_false]
      exact ih fun d hd => hu d (List.mem_cons_of_mem _ hd)
  induction t with
  | nil => rfl
  | cons c t ih =>
    rw [List.flatMap_cons]
    rcases hf c with ⟨hself, hamp⟩ | ⟨name, hname, href⟩
    · rw [hself]
      exact hplain [c] _ (by simpa using hamp) ih
    · obtain ⟨-, hne, -, hall, hhead⟩ := written_name hname
      have hhash : ((name ++ [';']) ++ t.flatMap f).head? ≠ some '#' := by
        rw [List.append_assoc, List.head?_append_of_ne_nil _ hne]
        exact fun hc => (hhead '#' hc).2 rfl
      rw [href, List.cons_append, longReference?]
      simp only [hhash, and_false, if_false]
      refine hplain _ _ (fun d hd => ?_) ih
      rcases List.mem_append.mp hd with hd | hd
      · rintro rfl
        exact absurd (hall _ hd).1 (by decide)
      · rintro rfl
        simp at hd

/-! ### Values -/

theorem quote_not_mem_escapeChar {c : Char} (hc : c ≠ '"') : '"' ∉ escapeChar c := by
  rcases writesChars_escapeChar c with ⟨hself, -⟩ | ⟨name, hname, href⟩
  · rw [hself]
    simpa using hc.symm
  · rw [href]
    simp only [List.mem_cons, List.mem_append, List.not_mem_nil, or_false]
    rintro (h | h | h)
    · cases h
    · exact absurd ((written_name hname).2.2.2.1 _ h).2 (by decide)
    · cases h

theorem replaceChar_of_not_mem {c : Char} {by_ t : Text} (h : c ∉ t) : Text.replaceChar c by_ t = t := by
  have hself : ∀ d ∈ t, (if d == c then by_ else [d]) = [d] := by
    intro d hd
    have hne : d ≠ c := fun hdc => h (hdc ▸ hd)
    simp [hne]
  rw [Text.replaceChar, List.flatMap_congr hself, List.flatMap_singleton']

theorem replaceChar_escape (t : Text) : Text.replaceChar '"' "&quot;".text (escape t) =
    t.flatMap fun c => if c = '"' then "&quot;".text else escapeChar c := by
  rw [Text.replaceChar, escape, List.flatMap_assoc]
  refine List.flatMap_congr fun c _ => ?_
  split
  · rename_i hc
    subst hc
    rfl
  · rename_i hc
    exact replaceChar_of_not_mem (quote_not_mem_escapeChar hc)

theorem quote_not_mem (t : Text) : '"' ∉ t.flatMap fun c => if c = '"' then "&quot;".text else escapeChar c := by
  rw [List.mem_flatMap]
  rintro ⟨c, -, hc⟩
  split at hc
  · exact absurd hc (by decide)
  · rename_i hne
    exact quote_not_mem_escapeChar hne hc

/-- A value is written between quotes that do not occur in it, and is read back from there. -/
theorem writeValue_escape (t : Text) : ∃ q w, isQuote q = true ∧ q ∉ w ∧ writeValue (escape t) = q :: (w ++ [q]) ∧
    unescape w = t ∧ longReference? w = none := by
  unfold writeValue
  split
  · split
    · rw [replaceChar_escape]
      exact ⟨'"', _, rfl, quote_not_mem t, rfl, unescape_flatMap writesChars_quoted t,
        longReference?_flatMap writesChars_quoted t⟩
    · rename_i hsingle
      exact ⟨'\'', escape t, rfl, by simpa using hsingle, rfl, unescape_flatMap writesChars_escapeChar t,
        longReference?_flatMap writesChars_escapeChar t⟩
  · rename_i hdouble
    exact ⟨'"', escape t, rfl, by simpa using hdouble, rfl, unescape_flatMap writesChars_escapeChar t,
      longReference?_flatMap writesChars_escapeChar t⟩

theorem isQuote_iff {q : Char} : isQuote q = true ↔ q = '"' ∨ q = '\'' := by
  simp [isQuote]

theorem attributeValue?_quoted {q : Char} {w : Text} (hq : isQuote q = true) (hw : q ∉ w) (rest : Text) :
    attributeValue? ('=' :: q :: (w ++ q :: rest)) = some (w, q, rest) := by
  have hsigns : Text.skipBlanks ('=' :: q :: (w ++ q :: rest)) = '=' :: q :: (w ++ q :: rest) :=
    Text.trimLeftBy_of_head (by simp [Text.isBlank])
  have hquote : q ≠ '=' ∧ Text.isBlank q = false := by
    rcases isQuote_iff.mp hq with rfl | rfl <;> decide
  have hvalue : Text.skipBlanks (q :: (w ++ q :: rest)) = q :: (w ++ q :: rest) :=
    Text.trimLeftBy_of_head (by simpa using hquote.2)
  have hother : ∀ c ∈ w, (c != q) = true := fun c hc => bne_iff_ne.mpr fun h => hw (h ▸ hc)
  have htake : (w ++ q :: rest).takeWhile (· != q) = w := Text.takeWhile_append_of_head hother (by simp)
  have hdrop : (w ++ q :: rest).dropWhile (· != q) = q :: rest := Text.trimLeftBy_append hother (by simp)
  unfold attributeValue?
  rw [hsigns]
  simp only [List.takeWhile_cons, List.dropWhile_cons, beq_eq_false_iff_ne.mpr hquote.1, Bool.false_eq_true, if_false,
    hvalue, hq, if_true, hdrop, htake]

/-! ### Attributes -/

theorem skipGap_name {name : Text} (h : PlainName name) (last : Char) (rest : Text) :
    skipGap last (' ' :: (name ++ rest)) = (' ', name ++ rest) := by
  obtain ⟨c, r, rfl⟩ := List.exists_cons_of_ne_nil h.ne_nil
  obtain ⟨-, -, -, hblank, hslash, -⟩ := plain_char (h.all c List.mem_cons_self)
  have hspace : Text.isBlank ' ' = true := rfl
  simp [skipGap, hspace, hblank, hslash]

theorem attributes_cons {name w : Text} {q : Char} (hname : PlainName name) (hq : isQuote q = true) (hw : q ∉ w)
    (tail : Text) : attributes ' ' (name ++ '=' :: q :: (w ++ q :: tail)) =
      ((name, w) :: (attributes (skipGap q tail).1 (skipGap q tail).2).1,
        (attributes (skipGap q tail).1 (skipGap q tail).2).2) := by
  have hlower := hname.lower
  obtain ⟨c, r, rfl⟩ := List.exists_cons_of_ne_nil hname.ne_nil
  have hall : ∀ d ∈ r, isAttributeChar d = true := fun d hd =>
    (plain_char (hname.all d (List.mem_cons_of_mem _ hd))).2.1
  have htake : (r ++ '=' :: q :: (w ++ q :: tail)).takeWhile isAttributeChar = r :=
    Text.takeWhile_append_of_head hall (by simp [isAttributeChar])
  have hdrop : (r ++ '=' :: q :: (w ++ q :: tail)).dropWhile isAttributeChar = '=' :: q :: (w ++ q :: tail) :=
    Text.trimLeftBy_append hall (by simp [isAttributeChar])
  have hstarts : startsAttribute c = true := by
    have hc := (plain_char (hname.all c List.mem_cons_self)).2.1
    rw [isAttributeChar, Bool.and_eq_true] at hc
    exact hc.1
  have hspace : allowsAttribute ' ' = true := rfl
  rw [List.cons_append, attributes, hspace, hstarts]
  simp only [Bool.and_self, if_true, htake, hdrop, hlower, valueAndGap, attributeValue?_quoted hq hw]

theorem unescapeValues_cons (name w : Text) (read : List (Text × Text)) :
    unescapeValues ((name, w) :: read) = (name, unescape w) :: unescapeValues read := rfl

/-- Written attributes are read as a list with the same names, whose values stand for the same texts. -/
theorem attributes_written {attrs : Attributes} (h : ∀ a ∈ attrs, PlainName a.1) (last : Char) (rest : Text) :
    ∃ read : List (Text × Text),
      attributes (skipGap last (attrs.flatMap writeAttribute ++ '>' :: rest)).1
        (skipGap last (attrs.flatMap writeAttribute ++ '>' :: rest)).2 = (read, '>' :: rest) ∧
      unescapeValues read = attrs.map (fun a => (a.1, a.2.written)) ∧
      ∀ a ∈ read, longReference? a.2 = none := by
  induction attrs generalizing last with
  | nil =>
    refine ⟨[], ?_, rfl, by simp⟩
    have hgap : skipGap last ('>' :: rest) = (last, '>' :: rest) := by simp [skipGap, Text.isBlank]
    rw [List.flatMap_nil, List.nil_append, hgap, attributes]
    simp [startsAttribute]
  | cons a attrs ih =>
    have hname := h a List.mem_cons_self
    obtain ⟨q, w, hq, hw, hwrite, hvalue, hshort⟩ := writeValue_escape a.2.written
    obtain ⟨read, hread, hvalues, hall⟩ := ih (fun b hb => h b (List.mem_cons_of_mem _ hb)) q
    refine ⟨(a.1, w) :: read, ?_, ?_, ?_⟩
    · have htext : (a :: attrs).flatMap writeAttribute ++ '>' :: rest =
          ' ' :: (a.1 ++ '=' :: q :: (w ++ q :: (attrs.flatMap writeAttribute ++ '>' :: rest))) := by
        simp [writeAttribute, hwrite]
      rw [htext, skipGap_name hname, attributes_cons hname hq hw, hread]
    · rw [unescapeValues_cons, hvalue, hvalues]
      rfl
    · intro b hb
      rcases List.mem_cons.mp hb with rfl | hb
      · exact hshort
      · exact hall b hb

/-! ### Steps -/

/-- What a pass answers when it has read tokens in front. -/
def consume (ts : List Token) (answer : Except Rejected (List Token × Text)) : Except Rejected (List Token × Text) :=
  answer.map fun read => (ts ++ read.1, read.2)

theorem consume_consume (ts us : List Token) (answer : Except Rejected (List Token × Text)) :
    consume ts (consume us answer) = consume (ts ++ us) answer := by
  cases answer with
  | error e => rfl
  | ok read => simp [consume, Except.map]

theorem consume_nil (answer : Except Rejected (List Token × Text)) : consume [] answer = answer := by
  cases answer <;> rfl

theorem pass_read {final : Bool} {c : Char} {r rest : Text} {ts : List Token} (h : step final c r = .read ts rest) :
    pass final (c :: r) = consume ts (pass final rest) := by
  rw [pass]
  split
  · rename_i hstep
    cases h.symm.trans hstep
  · rename_i hstep
    cases h.symm.trans hstep
  · rename_i hstep
    cases h.symm.trans hstep
    cases pass final rest <;> rfl

theorem PlainName.isLetter_head {name : Text} (h : PlainName name) : ∀ c ∈ name.head?, Text.isLetter c = true := by
  intro c hc
  have hbounds := h.head c hc
  simp [Text.isLetter, hbounds.1, hbounds.2]

theorem angleStep_name {final : Bool} {name : Text} (h : PlainName name) (rest : Text) :
    angleStep final (name ++ rest) = openingStep final (name ++ rest) := by
  have hletter := h.isLetter_head
  obtain ⟨c, r, rfl⟩ := List.exists_cons_of_ne_nil h.ne_nil
  have hc : Text.isLetter c = true := hletter c rfl
  rw [List.cons_append]
  unfold angleStep
  split
  · rename_i heq
    cases heq
  · rename_i heq
    cases heq
    cases hc
  · rename_i heq
    cases heq
    cases hc
  · rename_i heq
    cases heq
    cases hc
  · rename_i heq
    cases heq
    rw [if_pos hc]

theorem tagParts_written {e : Element} (hname : PlainName e.name) (hattrs : ∀ a ∈ e.attributes, PlainName a.1)
    (rest : Text) : ∃ read : List (Text × Text),
      tagParts (e.name ++ (e.attributes.flatMap writeAttribute ++ '>' :: rest)) = (e.name, read, '>' :: rest) ∧
      unescapeValues read = e.attributes.map (fun a => (a.1, a.2.written)) ∧ ∀ a ∈ read, longReference? a.2 = none := by
  have hall : ∀ c ∈ e.name, isTagNameChar c = true := fun c hc => (plain_char (hname.all c hc)).1
  have hends : ∀ c ∈ (e.attributes.flatMap writeAttribute ++ '>' :: rest).head?, isTagNameChar c = false := by
    cases e.attributes with
    | nil => simp [isTagNameChar, endsTagName]
    | cons a attrs => simp [writeAttribute, isTagNameChar, endsTagName]
  obtain ⟨read, hread, hvalues, hshort⟩ := attributes_written hattrs (e.name.getLast?.getD '<') rest
  refine ⟨read, ?_, hvalues, hshort⟩
  have htake := Text.takeWhile_append_of_head hall hends
  have hdrop := Text.trimLeftBy_append hall hends
  rw [Text.trimLeftBy] at hdrop
  simp only [tagParts, htake, hdrop, hname.lower, hread]

theorem unlessLong_of_short {read : List (Text × Text)} (h : ∀ a ∈ read, longReference? a.2 = none) (s : Step) :
    unlessLong read s = s := by
  have hnone : read.findSome? (fun x => longReference? x.2) = none := List.findSome?_eq_none_iff.mpr h
  rw [unlessLong, hnone]

/-- A written opening tag is read as the tag of its element. -/
theorem pass_opening {final : Bool} {e : Element} (hname : PlainName e.name) (hraw : isRaw e.name = false)
    (hattrs : ∀ a ∈ e.attributes, PlainName a.1) (rest : Text) : pass final (writeOpening e ++ rest) =
      consume [.opening e.name (e.attributes.map fun a => (a.1, a.2.written)) false] (pass final rest) := by
  obtain ⟨read, hparts, hvalues, hshort⟩ := tagParts_written hname hattrs rest
  have htext : writeOpening e ++ rest = '<' :: (e.name ++ (e.attributes.flatMap writeAttribute ++ '>' :: rest)) := by
    simp [writeOpening]
  rw [htext]
  refine pass_read ?_
  have hraw' : isRawName e.name = false := hraw
  rw [step, if_pos rfl, angleStep_name hname, openingStep, hparts]
  simp only [hraw', hvalues, unlessLong_of_short hshort, Bool.false_eq_true, if_false]

theorem cut?_angle {t : Text} (h : '>' ∉ t) (rest : Text) : Text.cut? ['>'] (t ++ '>' :: rest) = some (t, rest) := by
  induction t with
  | nil => rfl
  | cons c t ih =>
    have hc : '>' ≠ c := fun hc => h (hc ▸ List.mem_cons_self)
    rw [List.cons_append, Text.cut?]
    simp [Text.after?, hc, ih fun ht => h (List.mem_cons_of_mem _ ht)]

theorem plainClosing?_name {name : Text} (h : PlainName name) (rest : Text) :
    plainClosing? (name ++ '>' :: rest) = some (name, rest) := by
  have hletter := h.isLetter_head
  obtain ⟨c, r, rfl⟩ := List.exists_cons_of_ne_nil h.ne_nil
  obtain ⟨-, -, -, hblank, -⟩ := plain_char (h.all c List.mem_cons_self)
  have hall : ∀ d ∈ r, isClosingNameChar d = true := fun d hd =>
    (plain_char (h.all d (List.mem_cons_of_mem _ hd))).2.2.1
  have hskip : Text.skipBlanks (c :: (r ++ '>' :: rest)) = c :: (r ++ '>' :: rest) :=
    Text.trimLeftBy_of_head (by simpa using hblank)
  have htake : (r ++ '>' :: rest).takeWhile isClosingNameChar = r :=
    Text.takeWhile_append_of_head hall (by simp [isClosingNameChar, Text.isLetter, Text.isDigit])
  have hdrop : (r ++ '>' :: rest).dropWhile isClosingNameChar = '>' :: rest :=
    Text.trimLeftBy_append hall (by simp [isClosingNameChar, Text.isLetter, Text.isDigit])
  have hangle : Text.skipBlanks ('>' :: rest) = '>' :: rest := Text.trimLeftBy_of_head (by simp [Text.isBlank])
  have hafter : Text.after? ['>'] ('>' :: rest) = some rest := Text.after?_append ['>'] rest
  rw [List.cons_append, plainClosing?, hskip]
  simp only [hletter c rfl, if_true, htake, hdrop, hangle, hafter, Option.map_some]

theorem pass_closing {final : Bool} {e : Element} (hname : PlainName e.name) (rest : Text) :
    pass final (writeClosing e ++ rest) = consume [.closing e.name] (pass final rest) := by
  have htext : writeClosing e ++ rest = '<' :: '/' :: (e.name ++ '>' :: rest) := by
    simp [writeClosing, String.text]
  have hangle : '>' ∉ e.name := fun hin => (plain_char (hname.all _ hin)).2.2.2.2.2.1 rfl
  rw [htext]
  refine pass_read ?_
  rw [step, if_pos rfl, angleStep, closingStep, untilAngle?, cut?_angle hangle]
  simp only [plainClosing?_name hname, hname.lower]

/-! ### Text -/

theorem pass_reference {final : Bool} {name cs : Text} (h : (name, cs) ∈ writtenNames) (rest : Text) :
    pass final ('&' :: (name ++ ';' :: rest)) = consume [.text cs] (pass final rest) := by
  obtain ⟨hnamed, hne, -, hall, hhead⟩ := written_name h
  have htake : (name ++ ';' :: rest).takeWhile isEntityChar = name :=
    Text.takeWhile_append_of_head (fun c hc => (hall c hc).2) (by simp [isEntityChar, Text.isLetter, Text.isDigit])
  have hdrop : (name ++ ';' :: rest).dropWhile isEntityChar = ';' :: rest :=
    Text.trimLeftBy_append (fun c hc => (hall c hc).2) (by simp [isEntityChar, Text.isLetter, Text.isDigit])
  refine pass_read ?_
  obtain ⟨c, r, rfl⟩ := List.exists_cons_of_ne_nil hne
  obtain ⟨hletter, hhash⟩ := hhead c rfl
  rw [step, if_neg (by decide), if_pos rfl]
  unfold ampersandStep
  split
  · rename_i heq
    cases heq
  · rename_i heq
    cases heq
    exact absurd rfl hhash
  · rename_i heq
    cases heq
    rw [if_pos hletter, ← List.cons_append, htake, hdrop]
    simp only [hnamed, Option.getD_some, dropSemicolon]

/-- What is not text behind a text: a tag, or the end. -/
def EndsText (rest : Text) : Prop := ∀ c ∈ rest.head?, c = '<'

/-- Whether a character is written as it is. -/
def isSelf (c : Char) : Bool := escapeChar c == [c]

theorem isTextChar_of_isSelf {c : Char} (h : isSelf c = true) : isTextChar c = true := by
  have hself : escapeChar c = [c] := beq_iff_eq.mp h
  have hangle : c ≠ '<' := by
    rintro rfl
    exact absurd hself (by decide)
  have hamp : c ≠ '&' := by
    rintro rfl
    exact absurd hself (by decide)
  simp [isTextChar, hangle, hamp]

theorem escape_of_isSelf {t : Text} (h : ∀ c ∈ t, isSelf c = true) : escape t = t := by
  have hself : ∀ c ∈ t, escapeChar c = [c] := fun c hc => beq_iff_eq.mp (h c hc)
  rw [escape, List.flatMap_congr hself, List.flatMap_singleton']

theorem escape_append (t u : Text) : escape (t ++ u) = escape t ++ escape u := List.flatMap_append

/-- What is behind the characters that are written as they are is no text to a reader. -/
theorem head_not_text {t rest : Text} (ht : ∀ c ∈ t.head?, isSelf c = false) (hrest : EndsText rest) :
    ∀ c ∈ (escape t ++ rest).head?, isTextChar c = false := by
  cases t with
  | nil =>
    intro c hc
    rw [hrest c hc]
    rfl
  | cons d t =>
    have hd : isSelf d = false := ht d rfl
    rcases writesChars_escapeChar d with ⟨hself, -⟩ | ⟨name, -, href⟩
    · rw [isSelf, hself, beq_self_eq_true] at hd
      cases hd
    · intro c hc
      rw [escape, List.flatMap_cons, href] at hc
      cases hc
      rfl

/-- A character that is written as it is, with those behind it that are, too. -/
theorem pass_plain {final : Bool} {c : Char} (hself : escapeChar c = [c]) {t rest : Text} (hrest : EndsText rest) :
    pass final (escape (c :: t) ++ rest) =
      consume [.text (c :: t.takeWhile isSelf)] (pass final (escape (t.dropWhile isSelf) ++ rest)) := by
  have hc : isSelf c = true := by rw [isSelf, hself, beq_self_eq_true]
  have hrun : ∀ d ∈ t.takeWhile isSelf, isSelf d = true := fun d hd => List.mem_takeWhile_imp hd
  have hbehind : ∀ d ∈ (t.dropWhile isSelf).head?, isSelf d = false := by
    intro d hd
    have hnot := List.head?_dropWhile_not isSelf t
    rw [Option.mem_def.mp hd] at hnot
    exact hnot
  have htext : escape (c :: t) ++ rest = c :: (t.takeWhile isSelf ++ (escape (t.dropWhile isSelf) ++ rest)) := by
    conv_lhs => rw [← List.takeWhile_append_dropWhile (p := isSelf) (l := t)]
    rw [← List.cons_append, escape_append, escape_of_isSelf (List.forall_mem_cons.mpr ⟨hc, hrun⟩)]
    simp
  have htake := Text.takeWhile_append_of_head (fun d hd => isTextChar_of_isSelf (hrun d hd))
    (head_not_text hbehind hrest)
  have hdrop := Text.trimLeftBy_append (fun d hd => isTextChar_of_isSelf (hrun d hd)) (head_not_text hbehind hrest)
  obtain ⟨hangle, hamp⟩ : c ≠ '<' ∧ c ≠ '&' := by simpa [isTextChar] using isTextChar_of_isSelf hc
  rw [htext]
  refine pass_read ?_
  rw [step, if_neg hangle, if_neg hamp, htake]
  exact congrArg (Step.read _) hdrop

/-- A written text is read as texts that make it up. -/
theorem pass_text (final : Bool) (t : Text) {rest : Text} (hrest : EndsText rest) : ∃ us : List Text,
    us.flatten = t ∧ pass final (escape t ++ rest) = consume (us.map .text) (pass final rest) := by
  induction hn : t.length using Nat.strong_induction_on generalizing t with
  | _ n ih =>
    cases t with
    | nil => exact ⟨[], rfl, (consume_nil _).symm⟩
    | cons c t =>
      rcases writesChars_escapeChar c with ⟨hself, -⟩ | ⟨name, hname, href⟩
      · -- the characters behind it that are written as they are, too, are read with it
        have hshorter : (t.dropWhile isSelf).length < n := by
          rw [← hn, List.length_cons]
          exact Nat.lt_succ_of_le (Text.length_dropWhile_le isSelf t)
        obtain ⟨us, hus, hpass⟩ := ih _ hshorter (t.dropWhile isSelf) rfl
        refine ⟨(c :: t.takeWhile isSelf) :: us, ?_, ?_⟩
        · rw [List.flatten_cons, hus, List.cons_append, List.takeWhile_append_dropWhile]
        · rw [pass_plain hself hrest, hpass, consume_consume]
          rfl
      · have hshorter : t.length < n := by
          rw [← hn, List.length_cons]
          exact Nat.lt_succ_self _
        obtain ⟨us, hus, hpass⟩ := ih _ hshorter t rfl
        refine ⟨[c] :: us, ?_, ?_⟩
        · rw [List.flatten_cons, hus, List.singleton_append]
        · have htext : escape (c :: t) ++ rest = '&' :: (name ++ ';' :: (escape t ++ rest)) := by
            simp [escape, href]
          rw [htext, pass_reference hname, hpass, consume_consume]
          rfl

end Markup
end Stylebook
