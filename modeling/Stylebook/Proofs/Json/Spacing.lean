import Mathlib.Data.List.Forall2
import Stylebook.Proofs.Json.Reading

/-! The space of a layout is insignificant: all of it stands outside of strings, and without it every layout of some
    data is the compact one. -/

namespace Stylebook
namespace Json

/-- A text without the space outside of its strings; `inside` says whether a string is open at its front. -/
def tight : Bool → Text → Text
  | _, [] => []
  | false, '"' :: r => '"' :: tight true r
  | false, c :: r => if isSpace c then tight false r else c :: tight false r
  | true, '"' :: r => '"' :: tight false r
  | true, '\\' :: c :: r => '\\' :: c :: tight true r
  | true, c :: r => c :: tight true r

/-- Outside of strings, `a` becomes `b` when the space is taken out. -/
def Tightens (a b : Text) : Prop := ∀ r, tight false (a ++ r) = b ++ tight false r

theorem Tightens.nil : Tightens [] [] := fun _ => rfl

theorem Tightens.append {a b a' b' : Text} (h : Tightens a b) (h' : Tightens a' b') :
    Tightens (a ++ a') (b ++ b') := by
  intro r
  rw [List.append_assoc, h, h', List.append_assoc]

theorem Tightens.space {a : Text} (h : ∀ c ∈ a, isSpace c = true) : Tightens a [] := by
  intro r
  induction a with
  | nil => rfl
  | cons c a ih =>
    have hc := h c List.mem_cons_self
    have hquote : c ≠ '"' := by
      rintro rfl
      cases hc
    rw [List.cons_append, tight, if_pos hc]
    · exact ih fun d hd => h d (List.mem_cons_of_mem c hd)
    · exact hquote

/-- What has neither space nor a quote stays as it is. -/
theorem Tightens.plain {a : Text} (h : ∀ c ∈ a, isSpace c = false ∧ c ≠ '"') : Tightens a a := by
  intro r
  induction a with
  | nil => rfl
  | cons c a ih =>
    obtain ⟨hspace, hquote⟩ := h c List.mem_cons_self
    rw [List.cons_append, tight, if_neg (by simp [hspace]), ih fun d hd => h d (List.mem_cons_of_mem c hd)]
    · rfl
    · exact hquote

theorem Tightens.signs {a : Text} (h : (a.all fun c => !isSpace c && c != '"') = true) : Tightens a a :=
  .plain fun c hc => by simpa using List.all_eq_true.mp h c hc

/-! ### Strings -/

theorem tight_self {c : Char} (hquote : c ≠ '"') (hslash : c ≠ '\\') (r : Text) :
    tight true (c :: r) = c :: tight true r := by
  rw [tight.eq_def]
  split <;> simp_all

theorem tight_escapeChar (c : Char) (r : Text) : tight true (escapeChar c ++ r) = escapeChar c ++ tight true r := by
  unfold escapeChar
  split_ifs with h1 h2 h3 h4 h5 h6 h7 h8
  · rfl
  · rfl
  · rfl
  · rfl
  · rfl
  · rfl
  · rfl
  · obtain ⟨a, b, hhex, -, ha, hb⟩ := hex_control c.toNat h8
    rw [hhex]
    show tight true ('\\' :: 'u' :: '0' :: '0' :: a :: b :: r) = '\\' :: 'u' :: '0' :: '0' :: a :: b :: tight true r
    rw [← tight_self hb.1 hb.2, ← tight_self ha.1 ha.2]
    rfl
  · exact tight_self (by simpa using h1) (by simpa using h2) r

theorem Tightens.writeString (t : Text) : Tightens (writeString t) (Json.writeString t) := by
  intro r
  have hinside : ∀ t : Text, tight true (t.flatMap escapeChar ++ '"' :: r) = t.flatMap escapeChar ++ '"' :: tight false r := by
    intro t
    induction t with
    | nil => rfl
    | cons c t ih => rw [List.flatMap_cons, List.append_assoc, tight_escapeChar, ih, List.append_assoc]
  rw [writeString_append, writeString_append, ← hinside]
  rfl

/-! ### Layouts -/

theorem Tightens.newline (layout : Layout) (level : Nat) : Tightens (layout.newline level) [] :=
  .space fun _ hc => isSpace_newline hc

theorem Tightens.colon (layout : Layout) : Tightens layout.colon [':'] := by
  cases layout with
  | compact => exact .signs rfl
  | indented width => exact @Tightens.append [':'] [':'] [' '] [] (.signs rfl) (.space fun _ hc => List.mem_singleton.mp hc ▸ rfl)

theorem Tightens.separated (layout : Layout) (level : Nat) {parts parts' : List Text}
    (h : List.Forall₂ Tightens parts parts') :
    Tightens (separated layout level parts) (Json.separated .compact level parts') := by
  induction h with
  | nil => exact .nil
  | cons hfirst hrest ih =>
    cases hrest with
    | nil =>
      rw [separated_singleton, separated_singleton]
      exact hfirst
    | cons hnext hmore =>
      rw [separated_cons, separated_cons]
      have hcomma : Tightens [','] [','] := .signs rfl
      exact hfirst.append (hcomma.append ((Tightens.newline layout level).append ih))

theorem Tightens.enclose (layout : Layout) (level : Nat) {opening closing : Char} {parts parts' : List Text}
    (hopening : Tightens [opening] [opening]) (hclosing : Tightens [closing] [closing])
    (h : List.Forall₂ Tightens parts parts') :
    Tightens (layout.enclose level opening closing parts) (Layout.compact.enclose level opening closing parts') := by
  cases h with
  | nil => exact hopening.append hclosing
  | cons hfirst hrest =>
    rw [enclose_cons, enclose_cons]
    exact hopening.append ((Tightens.newline layout (level + 1)).append
      ((Tightens.separated layout (level + 1) (.cons hfirst hrest)).append
        ((Tightens.newline layout level).append hclosing)))

/-! ### Documents -/

theorem Tightens.int (n : Int) : Tightens ((if n < 0 then ['-'] else []) ++ Text.decimal n.natAbs)
    ((if n < 0 then ['-'] else []) ++ Text.decimal n.natAbs) := by
  refine .append (.signs ?_) (.plain fun c hc => ?_)
  · split <;> rfl
  · have hdigit := Text.isDigit_of_mem_decimal hc
    refine ⟨isSpace_of_isDigit hdigit, ?_⟩
    rintro rfl
    cases hdigit

section
variable {limit : Nat} {layout : Layout}

theorem tightens_items {items : List Data} {room level : Nat} (h : ReadableItems limit room items)
    (hall : ∀ d ∈ items, ∀ {room level : Nat}, Readable limit room d →
      Tightens (write layout level d) (write .compact level d)) :
    List.Forall₂ Tightens (writeItems layout level items) (writeItems .compact level items) := by
  induction items with
  | nil => exact .nil
  | cons d ds ih =>
    obtain ⟨hd, hds⟩ := h
    exact .cons (hall d List.mem_cons_self hd) (ih hds fun e he => hall e (List.mem_cons_of_mem d he))

theorem tightens_entries {entries : List (Text × Data)} {room level : Nat} (h : ReadableEntries limit room entries)
    (hall : ∀ e ∈ entries, ∀ {room level : Nat}, Readable limit room e.2 →
      Tightens (write layout level e.2) (write .compact level e.2)) :
    List.Forall₂ Tightens (writeEntries layout level entries) (writeEntries .compact level entries) := by
  induction entries with
  | nil => exact .nil
  | cons entry es ih =>
    obtain ⟨hv, hes⟩ := h
    have hvalue := @hall entry List.mem_cons_self room level hv
    exact .cons (((Tightens.writeString entry.1).append (.colon layout)).append hvalue)
      (ih hes fun e he => hall e (List.mem_cons_of_mem entry he))

theorem Tightens.write (d : Data) {room level : Nat} (h : Readable limit room d) :
    Tightens (write layout level d) (Json.write .compact level d) := by
  induction d using data_induction generalizing room level with
  | null => exact .plain (by simp [Json.write, String.text, isSpace])
  | bool b => cases b <;> exact .plain (by simp [Json.write, String.text, isSpace])
  | int n => exact .int n
  | float x => exact h.elim
  | str t => exact .writeString t
  | list items ih => exact .enclose layout level (.signs rfl) (.signs rfl) (tightens_items h.2 ih)
  | map entries ih => exact .enclose layout level (.signs rfl) (.signs rfl) (tightens_entries h.2.2 ih)

/-- Without its space a document has the compact layout. -/
theorem tight_render {room : Nat} {d : Data} (h : Readable limit room d) :
    tight false (render layout d) = render .compact d := by
  have htight := @Tightens.write limit layout d room 0 h []
  rwa [List.append_nil, tight, List.append_nil] at htight

end

end Json
end Stylebook
