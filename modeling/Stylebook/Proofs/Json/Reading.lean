import Mathlib.Data.List.Nodup
import Stylebook.Json.Reader
import Stylebook.Json.Writer
import Stylebook.Proofs.Text.Decimal
import Stylebook.Proofs.Text.Lines

/-! Reading undoes writing. A string is read back character by character, an integer by its digits, and a list or a
    mapping part by part, whatever space the layout puts around the parts; so the document of some data is read as
    that data, if its integers are short enough to be read and no mapping has a key twice. -/

namespace Stylebook

/-! ### Characters -/

namespace Text

theorem isHighSurrogate_toNat (c : Char) : isHighSurrogate c.toNat = false := by
  have hvalid : c.toNat.isValidChar := c.valid
  simp only [isHighSurrogate, Bool.and_eq_false_iff, decide_eq_false_iff_not, Nat.isValidChar] at hvalid ⊢
  omega

/-- The code units of whole characters are those characters. -/
theorem ofUnits_toUnits (t : Text) : ofUnits (toUnits t) = t := by
  induction t with
  | nil => rfl
  | cons c t ih =>
    cases t with
    | nil => simp [toUnits, ofUnits, charOf_toNat]
    | cons d t =>
      simp only [toUnits, List.map_cons] at ih ⊢
      rw [ofUnits, isHighSurrogate_toNat, Bool.false_and, if_neg (by simp), ih, charOf_toNat]

end Text

namespace Json

/-! ### Strings -/

/-- What is read behind a character that was read as `c`. -/
def behind (c : Char) (read : Step Units) : Step Units := read.map fun answer => (c.toNat :: answer.1, answer.2)

theorem units_simple (start r : Text) {e c : Char} (h : simpleEscape? e = some c) :
    units start ('\\' :: e :: r) = behind c (units start r) := by
  have hcode : e ≠ 'u' := by
    rintro rfl
    cases h
  rw [units.eq_def]
  split <;> grind [behind]

/-- The code of a control has two zeros in front, and two digits behind them. -/
theorem hex_control : ∀ n < 32, ∃ a b, Text.hex 4 n = ['0', '0', a, b] ∧ hex4? '0' '0' a b = some n ∧
    (a ≠ '"' ∧ a ≠ '\\') ∧ b ≠ '"' ∧ b ≠ '\\' := by
  have hall : ∀ n < 32, Text.hex 4 n = ['0', '0', Nat.digitChar (n / 16), Nat.digitChar (n % 16)] ∧
      hex4? '0' '0' (Nat.digitChar (n / 16)) (Nat.digitChar (n % 16)) = some n ∧
      (Nat.digitChar (n / 16) ≠ '"' ∧ Nat.digitChar (n / 16) ≠ '\\') ∧
      Nat.digitChar (n % 16) ≠ '"' ∧ Nat.digitChar (n % 16) ≠ '\\' := by
    decide
  exact fun n hn => ⟨_, _, hall n hn⟩

theorem units_code (start r : Text) (e : Char) {c : Char} (h : c.toNat < 32) :
    units start ('\\' :: 'u' :: Text.hex 4 c.toNat ++ e :: r) = behind c (units start (e :: r)) := by
  obtain ⟨a, b, hhex, hread, -⟩ := hex_control c.toNat h
  rw [hhex]
  show units start ('\\' :: 'u' :: '0' :: '0' :: a :: b :: e :: r) = _
  rw [units, hread]
  rfl

theorem units_self (start r : Text) {c : Char} (hquote : c ≠ '"') (hslash : c ≠ '\\') (hcontrol : ¬c.toNat < 32) :
    units start (c :: r) = behind c (units start r) := by
  rw [units.eq_def]
  split <;> grind [behind]

theorem units_escapeChar (start : Text) (c e : Char) (r : Text) :
    units start (escapeChar c ++ e :: r) = behind c (units start (e :: r)) := by
  unfold escapeChar
  split_ifs with h1 h2 h3 h4 h5 h6 h7 h8
  · exact units_simple start _ (by rw [beq_iff_eq.mp h1]; rfl)
  · exact units_simple start _ (by rw [beq_iff_eq.mp h2]; rfl)
  · exact units_simple start _ (by rw [beq_iff_eq.mp h3]; rfl)
  · exact units_simple start _ (by rw [beq_iff_eq.mp h4]; rfl)
  · exact units_simple start _ (by rw [beq_iff_eq.mp h5]; rfl)
  · exact units_simple start _ (by rw [beq_iff_eq.mp h6]; rfl)
  · exact units_simple start _ (by rw [beq_iff_eq.mp h7]; rfl)
  · exact units_code start r e h8
  · exact units_self start _ (by simpa using h1) (by simpa using h2) h8

theorem units_flatMap (start t rest : Text) :
    units start (t.flatMap escapeChar ++ '"' :: rest) = .ok (Text.toUnits t, rest) := by
  induction t with
  | nil => simp [units, Text.toUnits]
  | cons c t ih =>
    obtain ⟨e, r, hnext⟩ : ∃ e r, t.flatMap escapeChar ++ '"' :: rest = e :: r :=
      List.exists_cons_of_ne_nil (by simp)
    rw [List.flatMap_cons, List.append_assoc, hnext, units_escapeChar, ← hnext, ih]
    rfl

/-- A written string is read back, whatever stands behind it. -/
theorem string_written (start t rest : Text) :
    string start (t.flatMap escapeChar ++ '"' :: rest) = .ok (t, rest) := by
  rw [string, units_flatMap]
  exact congrArg (fun read => Except.ok (read, rest)) (Text.ofUnits_toUnits t)

/-! ### Numbers -/

/-- What can stand behind a value: nothing, a comma, a closing bracket or a line end. -/
def EndsValue (rest : Text) : Prop := ∀ c ∈ rest.head?, c ∈ [',', ']', '\x7d', '\n']

theorem EndsValue.not_digit {rest : Text} (h : EndsValue rest) : ∀ c ∈ rest.head?, Text.isDigit c = false := by
  have hall : ([',', ']', '\x7d', '\n'].all fun c => !Text.isDigit c) = true := rfl
  exact fun c hc => by simpa using List.all_eq_true.mp hall c (h c hc)

theorem EndsValue.fraction {rest : Text} (h : EndsValue rest) : fraction rest = ([], rest) := by
  unfold Json.fraction
  split
  · rename_i r
    exact absurd (h '.' rfl) (by decide)
  · rfl

theorem EndsValue.exponent? {rest : Text} (h : EndsValue rest) : exponent? rest = none := by
  cases rest with
  | nil => rfl
  | cons c r =>
    have hall : ([',', ']', '\x7d', '\n'].all fun c => !(c == 'e' || c == 'E')) = true := rfl
    have hc : (c == 'e' || c == 'E') = false := by
      simpa only [Bool.not_eq_true'] using List.all_eq_true.mp hall c (h c rfl)
    rw [Json.exponent?, hc]
    rfl

theorem whole?_decimal (n : Nat) {rest : Text} (h : EndsValue rest) :
    whole? (Text.decimal n ++ rest) = some (Text.decimal n, rest) := by
  have hdigits : digits (Text.decimal n ++ rest) = (Text.decimal n, rest) := by
    have hinside : ∀ c ∈ Text.decimal n, Text.isDigit c = true := fun _ hc => Text.isDigit_of_mem_decimal hc
    rw [digits, Text.takeWhile_append_of_head hinside h.not_digit]
    exact congrArg (Text.decimal n, ·) (Text.trimLeftBy_append hinside h.not_digit)
  obtain ⟨c, ds, hcons, hc⟩ := Text.decimal_front n
  by_cases hzero : c = '0'
  · subst hzero
    have hn := Text.decimal_zero_front hcons
    subst hn
    rfl
  · rw [hcons, List.cons_append] at hdigits ⊢
    rw [whole?, if_pos hc, hdigits]
    exact fun hfront => hzero hfront

theorem unsigned?_decimal {limit n : Nat} (negative : Bool) {rest : Text} (hn : (Text.decimal n).length ≤ limit)
    (h : EndsValue rest) :
    unsigned? limit negative (Text.decimal n ++ rest) = some (.ok (.int (Numeral.withSign negative n)), rest) := by
  simp only [unsigned?, whole?_decimal n h, h.fraction, h.exponent?, integer, if_neg (Nat.not_lt.mpr hn),
    Text.ofDecimal_decimal]
  rfl

theorem number?_decimal (limit n : Nat) (rest : Text) :
    number? limit (Text.decimal n ++ rest) = unsigned? limit false (Text.decimal n ++ rest) := by
  obtain ⟨c, ds, hcons, hc⟩ := Text.decimal_front n
  rw [hcons, List.cons_append, number?]
  intro r hdash
  rw [(List.cons.inj hdash).1] at hc
  exact absurd hc (by decide)

theorem number?_int {limit : Nat} {n : Int} {rest : Text} (hn : (Text.decimal n.natAbs).length ≤ limit)
    (h : EndsValue rest) :
    number? limit ((if n < 0 then ['-'] else []) ++ Text.decimal n.natAbs ++ rest) = some (.ok (.int n), rest) := by
  by_cases hsign : n < 0
  · have hneg : -Int.ofNat n.natAbs = n := by simp only [Int.ofNat_eq_natCast]; omega
    rw [if_pos hsign]
    exact (unsigned?_decimal true hn h).trans (by rw [Numeral.withSign, if_pos rfl, hneg])
  · have hpos : Int.ofNat n.natAbs = n := by simp only [Int.ofNat_eq_natCast]; omega
    rw [if_neg hsign, List.nil_append, number?_decimal]
    exact (unsigned?_decimal false hn h).trans (by rw [Numeral.withSign, if_neg (by simp), hpos])

/-! ### Leaves -/

section
variable {limit fuel room : Nat} {rest : Text}

theorem value_null : value limit (fuel + 1) room ("null".text ++ rest) = .ok (.null, rest) := by
  simp [value, literal?, literals, String.text, Text.after?]

theorem value_bool (b : Bool) :
    value limit (fuel + 1) room ((if b then "true" else "false").text ++ rest) = .ok (.bool b, rest) := by
  cases b <;> simp [value, literal?, literals, String.text, Text.after?]

theorem value_string (t : Text) : value limit (fuel + 1) room (writeString t ++ rest) = .ok (.str t, rest) := by
  have hopen : writeString t ++ rest = '"' :: (t.flatMap escapeChar ++ '"' :: rest) := by simp [writeString]
  rw [hopen]
  simp [value, string_written, Except.map]

theorem value_number {c : Char} {r : Text} {d : Data} (hquote : c ≠ '"') (hbrace : c ≠ '\x7b') (hbracket : c ≠ '[')
    (hliteral : literal? (c :: r) = none) (hread : number? limit (c :: r) = some (.ok d, rest)) :
    value limit (fuel + 1) room (c :: r) = .ok (d, rest) := by
  rw [value, hliteral, hread]
  · exact fun _ hfront => hquote (List.cons.inj hfront).1
  · exact fun _ hfront => hbrace (List.cons.inj hfront).1
  · exact fun _ hfront => hbracket (List.cons.inj hfront).1

theorem value_int {n : Int} (hn : (Text.decimal n.natAbs).length ≤ limit) (h : EndsValue rest) :
    value limit (fuel + 1) room ((if n < 0 then ['-'] else []) ++ Text.decimal n.natAbs ++ rest) = .ok (.int n, rest) := by
  have hread := number?_int hn h
  obtain ⟨c, ds, hcons, hc⟩ := Text.decimal_front n.natAbs
  have hnot : ∀ d : Char, Text.isDigit d = false → d ≠ c := by
    rintro d hd rfl
    rw [hc] at hd
    cases hd
  -- No literal begins with a digit, or with a dash and a digit.
  rw [hcons] at hread ⊢
  by_cases hsign : n < 0
  · rw [if_pos hsign] at hread ⊢
    refine value_number (by decide) (by decide) (by decide) ?_ hread
    simp [literal?, literals, String.text, Text.after?, hnot 'I' (by decide)]
  · rw [if_neg hsign] at hread ⊢
    refine value_number (hnot _ (by decide)).symm (hnot _ (by decide)).symm (hnot _ (by decide)).symm ?_ hread
    simp [literal?, literals, String.text, Text.after?, hnot 'n' (by decide), hnot 't' (by decide),
      hnot 'f' (by decide), hnot 'N' (by decide), hnot 'I' (by decide), hnot '-' (by decide)]

end

/-! ### Space -/

theorem skipSpace_of_head {t : Text} (h : ∀ c ∈ t.head?, isSpace c = false) : skipSpace t = t :=
  Text.trimLeftBy_of_head h

theorem isSpace_of_isDigit {c : Char} (h : Text.isDigit c = true) : isSpace c = false := by
  by_contra hspace
  simp only [isSpace, Bool.not_eq_false, Bool.or_eq_true, beq_iff_eq] at hspace
  rcases hspace with ((rfl | rfl) | rfl) | rfl <;> cases h

theorem isSpace_newline {layout : Layout} {level : Nat} {c : Char} (h : c ∈ layout.newline level) :
    isSpace c = true := by
  cases layout with
  | compact => cases h
  | indented width =>
    rcases List.mem_cons.mp h with rfl | h
    · rfl
    · rw [List.eq_of_mem_replicate h]
      rfl

/-- The space of a layout is skipped. -/
theorem skipSpace_newline (layout : Layout) (level : Nat) {t : Text} (h : ∀ c ∈ t.head?, isSpace c = false) :
    skipSpace (layout.newline level ++ t) = t :=
  Text.trimLeftBy_append (fun _ hc => isSpace_newline hc) h

theorem endsValue_newline (layout : Layout) (level : Nat) {t : Text} (h : EndsValue t) :
    EndsValue (layout.newline level ++ t) := by
  cases layout with
  | compact => exact h
  | indented width => exact fun c hc => by simp [← Option.some.inj hc]

/-! ### Values -/

/-- Data by induction: what holds of the parts of a list or a mapping holds of it. -/
theorem data_induction {motive : Data → Prop} (null : motive .null) (bool : ∀ b, motive (.bool b))
    (int : ∀ n, motive (.int n)) (float : ∀ x, motive (.float x)) (str : ∀ t, motive (.str t))
    (list : ∀ items, (∀ d ∈ items, motive d) → motive (.list items))
    (map : ∀ entries, (∀ e ∈ entries, motive e.2) → motive (.map entries)) (d : Data) : motive d := by
  refine @Data.rec motive (fun items => ∀ d ∈ items, motive d) (fun entries => ∀ e ∈ entries, motive e.2)
    (fun e => motive e.2) null bool int float str list map ?_ ?_ ?_ ?_ ?_ d
  · exact fun _ h => nomatch h
  · intro d ds hd hds x hx
    rcases List.mem_cons.mp hx with rfl | hx
    · exact hd
    · exact hds x hx
  · exact fun _ h => nomatch h
  · intro e es he hes x hx
    rcases List.mem_cons.mp hx with rfl | hx
    · exact he
    · exact hes x hx
  · exact fun _ _ h => h

mutual

/-- Data that can be read back: its lists and mappings stand at most `room` deep, it has no floating-point number,
    every integer has at most `limit` digits, and no mapping has a key twice. -/
def Readable (limit room : Nat) : Data → Prop
  | .null => True
  | .bool _ => True
  | .int n => (Text.decimal n.natAbs).length ≤ limit
  | .float _ => False
  | .str _ => True
  | .list items => 0 < room ∧ ReadableItems limit (room - 1) items
  | .map entries => 0 < room ∧ (entries.map (·.1)).Nodup ∧ ReadableEntries limit (room - 1) entries

def ReadableItems (limit room : Nat) : List Data → Prop
  | [] => True
  | d :: ds => Readable limit room d ∧ ReadableItems limit room ds

def ReadableEntries (limit room : Nat) : List (Text × Data) → Prop
  | [] => True
  | (_, d) :: rest => Readable limit room d ∧ ReadableEntries limit room rest

end

section
variable {limit : Nat} {layout : Layout}

theorem readableItems_iff {room : Nat} {items : List Data} :
    ReadableItems limit room items ↔ ∀ d ∈ items, Readable limit room d := by
  induction items with
  | nil => simp [ReadableItems]
  | cons d ds ih => rw [ReadableItems, ih, List.forall_mem_cons]

theorem readableEntries_iff {room : Nat} {entries : List (Text × Data)} :
    ReadableEntries limit room entries ↔ ∀ e ∈ entries, Readable limit room e.2 := by
  induction entries with
  | nil => simp [ReadableEntries]
  | cons e es ih => rw [ReadableEntries, ih, List.forall_mem_cons]

theorem enclose_front (level : Nat) (opening closing : Char) (parts : List Text) :
    ∃ r, layout.enclose level opening closing parts = opening :: r := by
  cases parts with
  | nil => exact ⟨_, rfl⟩
  | cons part parts => exact ⟨_, rfl⟩

/-- What stands at the front of a value is no space, no closing bracket and no byte order mark. -/
theorem write_front {room : Nat} {d : Data} (h : Readable limit room d) (level : Nat) :
    ∃ c r, write layout level d = c :: r ∧ isSpace c = false ∧ c ≠ ']' ∧ c ≠ '\ufeff' := by
  cases d with
  | null => exact ⟨_, _, rfl, by decide⟩
  | bool b => cases b <;> exact ⟨_, _, rfl, by decide⟩
  | int n =>
    rw [write]
    by_cases hsign : n < 0
    · rw [if_pos hsign]
      exact ⟨_, _, rfl, by decide⟩
    · obtain ⟨c, ds, hcons, hc⟩ := Text.decimal_front n.natAbs
      rw [if_neg hsign, List.nil_append]
      refine ⟨c, ds, hcons, isSpace_of_isDigit hc, ?_, ?_⟩
      · rintro rfl
        cases hc
      · rintro rfl
        cases hc
  | float x => exact h.elim
  | str t => exact ⟨_, _, rfl, by decide⟩
  | list items =>
    obtain ⟨r, hr⟩ := @enclose_front layout level '[' ']' (writeItems layout (level + 1) items)
    exact ⟨'[', r, by rw [write, hr], by decide⟩
  | map entries =>
    obtain ⟨r, hr⟩ := @enclose_front layout level '\x7b' '\x7d' (writeEntries layout (level + 1) entries)
    exact ⟨'\x7b', r, by rw [write, hr], by decide⟩

end

/-! ### Steps -/

section
variable {limit fuel room : Nat} {t r r' rest : Text}

theorem elements_last {d : Data} (hd : value limit fuel room t = .ok (d, r)) (hr : skipSpace r = ']' :: rest) :
    elements limit (fuel + 1) room t = .ok ([d], rest) := by
  simp only [elements, hd, hr]

theorem elements_more {d : Data} {ds : List Data} (hd : value limit fuel room t = .ok (d, r))
    (hr : skipSpace r = ',' :: r') (hds : elements limit fuel room (skipSpace r') = .ok (ds, rest)) :
    elements limit (fuel + 1) room t = .ok (d :: ds, rest) := by
  simp only [elements, hd, hr, hds]
  rfl

variable {done : List (Text × Data)} {key after colon : Text} {v : Data}

theorem members_last (hkey : string ('"' :: t) t = .ok (key, after)) (hcolon : skipSpace after = ':' :: colon)
    (hv : value limit fuel room (skipSpace colon) = .ok (v, r)) (hr : skipSpace r = '\x7d' :: rest) :
    members limit (fuel + 1) room done ('"' :: t) = .ok (Data.put key v done, rest) := by
  simp only [members, hkey, hcolon, hv, hr]

theorem members_more (hkey : string ('"' :: t) t = .ok (key, after)) (hcolon : skipSpace after = ':' :: colon)
    (hv : value limit fuel room (skipSpace colon) = .ok (v, r)) (hr : skipSpace r = ',' :: r') :
    members limit (fuel + 1) room done ('"' :: t) = members limit fuel room (Data.put key v done) (skipSpace r') := by
  simp only [members, hkey, hcolon, hv, hr]

theorem value_list {ds : List Data} (hopen : ∀ x, skipSpace t ≠ ']' :: x)
    (hds : elements limit fuel room (skipSpace t) = .ok (ds, rest)) :
    value limit (fuel + 1) (room + 1) ('[' :: t) = .ok (.list ds, rest) := by
  simp only [value, hds]
  rfl

theorem value_map {entries : List (Text × Data)} (hopen : ∀ x, skipSpace t ≠ '\x7d' :: x)
    (hentries : members limit fuel room [] (skipSpace t) = .ok (entries, rest)) :
    value limit (fuel + 1) (room + 1) ('\x7b' :: t) = .ok (.map entries, rest) := by
  simp only [value, hentries]
  rfl

theorem put_of_not_mem (h : key ∉ done.map (·.1)) : Data.put key v done = done ++ [(key, v)] := by
  induction done with
  | nil => rfl
  | cons entry done ih =>
    rw [List.map_cons, List.mem_cons, not_or] at h
    rw [Data.put, if_neg (Ne.symm h.1), ih h.2, List.cons_append]

end

/-! ### Lists and mappings -/

/-- Parts with commas and the space of a layout between them. -/
def separated (layout : Layout) (level : Nat) (parts : List Text) : Text :=
  Text.join ([','] ++ layout.newline level) parts

section
variable {layout : Layout}

theorem separated_singleton (level : Nat) (part : Text) : separated layout level [part] = part :=
  Text.join_singleton _ part

theorem separated_cons (level : Nat) (part next : Text) (parts : List Text) :
    separated layout level (part :: next :: parts) =
      part ++ ',' :: (layout.newline level ++ separated layout level (next :: parts)) := by
  rw [separated, Text.join_cons _ _ (List.cons_ne_nil next parts)]
  simp [separated]

theorem separated_front (level : Nat) (part : Text) (parts : List Text) :
    ∃ r, separated layout level (part :: parts) = part ++ r := by
  cases parts with
  | nil => exact ⟨[], by rw [separated_singleton, List.append_nil]⟩
  | cons next parts => exact ⟨_, separated_cons level part next parts⟩

theorem enclose_cons (level : Nat) (opening closing : Char) (part : Text) (parts : List Text) :
    layout.enclose level opening closing (part :: parts) = opening :: (layout.newline (level + 1) ++
      (separated layout (level + 1) (part :: parts) ++ (layout.newline level ++ [closing]))) := by
  simp [Layout.enclose, separated]

end

/-- Written data is read back with fuel for twice its length. -/
def ReadsBack (limit : Nat) (layout : Layout) (d : Data) : Prop :=
  ∀ {room level fuel : Nat} {rest : Text}, Readable limit room d → EndsValue rest →
    2 * (write layout level d).length ≤ fuel → value limit fuel room (write layout level d ++ rest) = .ok (d, rest)

section
variable {limit room level fuel k : Nat} {layout : Layout} {rest : Text}

theorem length_write_pos {d : Data} (h : Readable limit room d) : 0 < (write layout level d).length := by
  obtain ⟨c, r, hfront, -⟩ := @write_front limit layout room d h level
  rw [hfront]
  exact Nat.zero_lt_succ _

theorem items_cons {d e : Data} {ds : List Data} :
    separated layout level (writeItems layout level (d :: e :: ds)) =
      write layout level d ++ ',' :: (layout.newline level ++ separated layout level (writeItems layout level (e :: ds))) := by
  rw [writeItems, writeItems, separated_cons]

theorem skipSpace_items {d : Data} {ds : List Data} (h : Readable limit room d) :
    skipSpace (layout.newline k ++ (separated layout level (writeItems layout level (d :: ds)) ++ rest)) =
      separated layout level (writeItems layout level (d :: ds)) ++ rest := by
  obtain ⟨c, r, hfront, hspace, -⟩ := @write_front limit layout room d h level
  obtain ⟨r', hparts⟩ := @separated_front layout level (write layout level d) (writeItems layout level ds)
  refine skipSpace_newline layout k fun e he => ?_
  rw [writeItems, hparts, hfront] at he
  rw [← Option.some.inj he, hspace]

/-- A closing bracket behind the space of a layout ends a value. -/
theorem endsValue_closing {closing : Char} (h : closing ∈ [',', ']', '\x7d', '\n']) :
    EndsValue (layout.newline k ++ closing :: rest) :=
  endsValue_newline layout k fun _ hc => Option.some.inj hc ▸ h

theorem elements_write {items : List Data} (hne : items ≠ []) (hall : ∀ d ∈ items, ReadsBack limit layout d)
    (h : ReadableItems limit room items)
    (hfuel : 2 * (separated layout level (writeItems layout level items)).length + 1 ≤ fuel) :
    elements limit fuel room
        (separated layout level (writeItems layout level items) ++ (layout.newline k ++ ']' :: rest)) =
      .ok (items, rest) := by
  induction items generalizing fuel with
  | nil => exact absurd rfl hne
  | cons d ds ih =>
    obtain ⟨hd, hds⟩ := h
    obtain ⟨fuel, rfl⟩ : ∃ n, fuel = n + 1 := ⟨fuel - 1, by omega⟩
    have hread := @hall d List.mem_cons_self room level fuel
    cases ds with
    | nil =>
      rw [writeItems, writeItems, separated_singleton] at hfuel ⊢
      exact elements_last (hread hd (endsValue_closing (by simp)) (by omega))
        (skipSpace_newline layout k (by simp [isSpace]))
    | cons e es =>
      rw [items_cons, List.length_append, List.length_cons, List.length_append] at hfuel
      have hrest := @ih fuel (List.cons_ne_nil e es) (fun x hx => hall x (List.mem_cons_of_mem d hx)) hds (by omega)
      rw [← skipSpace_items hds.1] at hrest
      rw [items_cons, List.append_assoc, List.cons_append, List.append_assoc]
      exact elements_more (hread hd (by simp [EndsValue]) (by omega)) (skipSpace_of_head (by simp [isSpace])) hrest

/-- A colon of a layout, and the value behind it. -/
theorem skipSpace_colon {d : Data} (h : Readable limit room d) :
    ∃ r, skipSpace (layout.colon ++ (write layout level d ++ rest)) = ':' :: r ∧
      skipSpace r = write layout level d ++ rest := by
  obtain ⟨c, r, hfront, hspace, -⟩ := @write_front limit layout room d h level
  have hvalue : skipSpace (write layout level d ++ rest) = write layout level d ++ rest :=
    skipSpace_of_head fun e he => by
      rw [hfront] at he
      rw [← Option.some.inj he, hspace]
  cases layout with
  | compact => exact ⟨_, skipSpace_of_head (by simp [Layout.colon, isSpace]), hvalue⟩
  | indented width =>
    refine ⟨' ' :: (write _ level d ++ rest), skipSpace_of_head (by simp [Layout.colon, isSpace]), ?_⟩
    rw [skipSpace, List.dropWhile_cons_of_pos (by simp [isSpace])]
    exact hvalue

theorem writeString_append (key after : Text) :
    writeString key ++ after = '"' :: (key.flatMap escapeChar ++ '"' :: after) := by
  simp [writeString]

theorem entries_cons {key : Text} {v : Data} {next : Text × Data} {es : List (Text × Data)} :
    separated layout level (writeEntries layout level ((key, v) :: next :: es)) =
      writeString key ++ (layout.colon ++ (write layout level v ++
        ',' :: (layout.newline level ++ separated layout level (writeEntries layout level (next :: es))))) := by
  simp [writeEntries, separated_cons]

theorem skipSpace_entries {entry : Text × Data} {es : List (Text × Data)} :
    skipSpace (layout.newline k ++ (separated layout level (writeEntries layout level (entry :: es)) ++ rest)) =
      separated layout level (writeEntries layout level (entry :: es)) ++ rest := by
  obtain ⟨key, v⟩ := entry
  obtain ⟨r, hparts⟩ := @separated_front layout level (writeString key ++ layout.colon ++ write layout level v)
    (writeEntries layout level es)
  refine skipSpace_newline layout k fun c hc => ?_
  rw [writeEntries, hparts, List.append_assoc, List.append_assoc, List.append_assoc, writeString_append] at hc
  rw [← Option.some.inj hc]
  rfl

theorem members_write {entries done : List (Text × Data)} (hne : entries ≠ [])
    (hall : ∀ e ∈ entries, ReadsBack limit layout e.2) (h : ReadableEntries limit room entries)
    (hkeys : ((done ++ entries).map (·.1)).Nodup)
    (hfuel : 2 * (separated layout level (writeEntries layout level entries)).length + 1 ≤ fuel) :
    members limit fuel room done
        (separated layout level (writeEntries layout level entries) ++ (layout.newline k ++ '\x7d' :: rest)) =
      .ok (done ++ entries, rest) := by
  induction entries generalizing fuel done with
  | nil => exact absurd rfl hne
  | cons entry es ih =>
    obtain ⟨key, v⟩ := entry
    obtain ⟨hv, hes⟩ := h
    obtain ⟨fuel, rfl⟩ : ∃ n, fuel = n + 1 := ⟨fuel - 1, by omega⟩
    have hread : ∀ {rest}, EndsValue rest → 2 * (write layout level v).length ≤ fuel →
        value limit fuel room (write layout level v ++ rest) = .ok (v, rest) :=
      fun hrest hle => hall (key, v) List.mem_cons_self hv hrest hle
    have hput : Data.put key v done = done ++ [(key, v)] := by
      refine put_of_not_mem fun hmem => ?_
      rw [List.map_append, List.map_cons] at hkeys
      exact (List.nodup_append.mp hkeys).2.2 key hmem key List.mem_cons_self rfl
    cases es with
    | nil =>
      rw [writeEntries, writeEntries, separated_singleton] at hfuel ⊢
      simp only [List.length_append] at hfuel
      obtain ⟨r, hcolon, hskip⟩ := @skipSpace_colon limit room level layout (layout.newline k ++ '\x7d' :: rest) v hv
      have hvalue := @hread (layout.newline k ++ '\x7d' :: rest) (endsValue_closing (by simp)) (by omega)
      rw [← hskip] at hvalue
      rw [List.append_assoc, List.append_assoc, writeString_append, ← hput]
      exact members_last (string_written _ key _) hcolon hvalue (skipSpace_newline layout k (by simp [isSpace]))
    | cons next es =>
      rw [entries_cons, List.length_append, List.length_append, List.length_append, List.length_cons,
        List.length_append] at hfuel
      have hrest := @ih fuel (done ++ [(key, v)]) (List.cons_ne_nil next es)
        (fun e he => hall e (List.mem_cons_of_mem _ he)) hes (by rwa [List.append_assoc]) (by omega)
      rw [← @skipSpace_entries level level, ← hput] at hrest
      rw [entries_cons]
      simp only [List.append_assoc, List.cons_append]
      generalize layout.newline level ++ _ = tail at hrest ⊢
      obtain ⟨r, hcolon, hskip⟩ := @skipSpace_colon limit room level layout (',' :: tail) v hv
      have hvalue := @hread (',' :: tail) (by simp [EndsValue]) (by omega)
      rw [← hskip] at hvalue
      rw [writeString_append, members_more (string_written _ key _) hcolon hvalue
        (skipSpace_of_head (by simp [isSpace])), hrest, hput, List.append_assoc]
      rfl

/-- Fuel for a value is not used up at its start. -/
theorem readsBack_of_succ {d : Data} (h : ∀ {room level fuel : Nat} {rest : Text}, Readable limit room d →
    EndsValue rest → 2 * (write layout level d).length ≤ fuel + 1 →
      value limit (fuel + 1) room (write layout level d ++ rest) = .ok (d, rest)) : ReadsBack limit layout d := by
  intro room level fuel rest hd hrest hfuel
  have hpos := @length_write_pos limit room level layout d hd
  cases fuel with
  | zero => omega
  | succ fuel => exact h hd hrest hfuel

theorem readsBack_list {items : List Data} (hall : ∀ d ∈ items, ReadsBack limit layout d) :
    ReadsBack limit layout (.list items) := by
  refine readsBack_of_succ fun {room level fuel rest} h hrest hfuel => ?_
  obtain ⟨hroom, hitems⟩ := h
  obtain ⟨room, rfl⟩ := Nat.exists_eq_succ_of_ne_zero hroom.ne'
  cases items with
  | nil => simp [value, write, writeItems, Layout.enclose, skipSpace, isSpace]
  | cons d ds =>
    obtain ⟨c, r, hfront, -, hbracket, -⟩ := @write_front limit layout room d hitems.1 (level + 1)
    obtain ⟨r', hparts⟩ := @separated_front layout (level + 1) (write layout (level + 1) d)
      (writeItems layout (level + 1) ds)
    rw [write, writeItems, enclose_cons, ← writeItems] at hfuel ⊢
    simp only [List.length_cons, List.length_append, List.length_nil] at hfuel
    have hread := @elements_write limit room (level + 1) fuel level layout rest (d :: ds) (List.cons_ne_nil d ds) hall
      hitems (by omega)
    rw [← skipSpace_items hitems.1] at hread
    simp only [List.cons_append, List.append_assoc, List.nil_append]
    refine value_list (fun x hx => hbracket ?_) hread
    rw [skipSpace_items hitems.1, writeItems, hparts, hfront] at hx
    exact (List.cons.inj hx).1

theorem readsBack_map {entries : List (Text × Data)} (hall : ∀ e ∈ entries, ReadsBack limit layout e.2) :
    ReadsBack limit layout (.map entries) := by
  refine readsBack_of_succ fun {room level fuel rest} h hrest hfuel => ?_
  obtain ⟨hroom, hkeys, hentries⟩ := h
  obtain ⟨room, rfl⟩ := Nat.exists_eq_succ_of_ne_zero hroom.ne'
  cases entries with
  | nil => simp [value, write, writeEntries, Layout.enclose, skipSpace, isSpace]
  | cons entry es =>
    obtain ⟨key, v⟩ := entry
    obtain ⟨r, hparts⟩ := @separated_front layout (level + 1)
      (writeString key ++ layout.colon ++ write layout (level + 1) v) (writeEntries layout (level + 1) es)
    rw [write, writeEntries, enclose_cons, ← writeEntries] at hfuel ⊢
    simp only [List.length_cons, List.length_append, List.length_nil] at hfuel
    have hread := @members_write limit room (level + 1) fuel level layout rest ((key, v) :: es) []
      (List.cons_ne_nil _ es) hall hentries hkeys (by omega)
    rw [← @skipSpace_entries (level + 1) (level + 1)] at hread
    simp only [List.cons_append, List.append_assoc, List.nil_append] at hread ⊢
    refine value_map (fun x hx => ?_) hread
    rw [skipSpace_entries, writeEntries, hparts, List.append_assoc, List.append_assoc, List.append_assoc,
      writeString_append] at hx
    exact absurd (List.cons.inj hx).1 (by decide)

theorem readsBack (limit : Nat) (layout : Layout) (d : Data) : ReadsBack limit layout d := by
  induction d using data_induction with
  | null => exact readsBack_of_succ fun _ _ _ => value_null
  | bool b => exact readsBack_of_succ fun _ _ _ => value_bool b
  | int n => exact readsBack_of_succ fun h hrest _ => value_int h hrest
  | float x => exact fun h => h.elim
  | str t => exact readsBack_of_succ fun _ _ _ => value_string t
  | list items ih => exact readsBack_list ih
  | map entries ih => exact readsBack_map ih

end

/-- A document is read as the data it was written from. -/
theorem parseWithin_render {limit : Nat} (layout : Layout) {d : Data} (h : Readable limit maxDepth d) :
    parseWithin limit (render layout d) = .ok d := by
  obtain ⟨c, r, hfront, hspace, -, hmark⟩ := @write_front limit layout maxDepth d h 0
  have hskip : skipSpace (render layout d) = render layout d := skipSpace_of_head fun e he => by
    rw [render, hfront] at he
    rw [← Option.some.inj he, hspace]
  have hread : value limit (2 * (render layout d).length + 2) maxDepth (render layout d ++ []) = .ok (d, []) :=
    readsBack limit layout d h (fun _ hc => nomatch hc) (Nat.le_add_right _ 2)
  rw [List.append_nil] at hread
  have hdocument : document limit (render layout d) = .ok d := by
    unfold document
    split
    · rename_i heq
      rw [render, hfront] at heq
      exact absurd (List.cons.inj heq).1 hmark
    · rw [hskip, hread]
      rfl
  rw [parseWithin, hdocument]

end Json
end Stylebook
