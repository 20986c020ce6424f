import Mathlib.Data.List.Basic
import Stylebook.Proofs.Json.Spacing
import Stylebook.Showcase.Build
import Stylebook.Showcase.Export

/-! The JSON text of a showcase says all of it: in every layout it is read as the plain data of the items, the layouts
    differ in nothing but space outside of strings, and different items have different texts. -/

namespace Stylebook
namespace Showcase

open Json (Readable)
open Variant (State)

/-! ### Plain data that can be read back -/

section
variable {limit room : Nat}

theorem readable_optional (t : Option Text) : Readable limit room (optional t) := by
  cases t <;> trivial

theorem readable_texts (ts : List Text) : Readable limit (room + 1) (texts ts) := by
  refine ⟨Nat.zero_lt_succ room, Json.readableItems_iff.mpr fun d hd => ?_⟩
  obtain ⟨t, -, rfl⟩ := List.mem_map.mp hd
  trivial

theorem readable_list {α : Type} {toData : α → Data} {xs : List α} (h : ∀ x ∈ xs, Readable limit room (toData x)) :
    Readable limit (room + 1) (.list (xs.map toData)) := by
  refine ⟨Nat.zero_lt_succ room, Json.readableItems_iff.mpr fun d hd => ?_⟩
  obtain ⟨x, hx, rfl⟩ := List.mem_map.mp hd
  exact h x hx

theorem readable_record {fields : List (String × Data)} (hkeys : (fields.map (·.1)).Nodup)
    (h : ∀ f ∈ fields, Readable limit room f.2) : Readable limit (room + 1) (record fields) := by
  refine ⟨Nat.zero_lt_succ room, ?_, Json.readableEntries_iff.mpr fun e he => ?_⟩
  · have htexts := hkeys.map fun _ _ => String.text_inj.mp
    rw [List.map_map] at htexts ⊢
    exact htexts
  · obtain ⟨f, hf, rfl⟩ := List.mem_map.mp he
    exact h f hf

theorem readable_state (s : State) : Readable limit (room + 1) (State.toData s) :=
  readable_record (by simp) (by simp [readable_optional])

theorem readable_subitem (s : Subitem) : Readable limit (room + 1) s.toData :=
  readable_record (by simp) (by simp [readable_optional, Readable])

theorem readable_item {i : Item} (h : (Text.decimal i.id).length ≤ limit) : Readable limit (room + 3) i.toData := by
  have hid : Readable limit (room + 2) (.int i.id) := h
  have hstates : Readable limit (room + 2) (.list (i.states.map State.toData)) :=
    readable_list fun s _ => readable_state s
  have hsubitems : Readable limit (room + 2) (.list (i.subitems.map Subitem.toData)) :=
    readable_list fun s _ => readable_subitem s
  refine readable_record (by simp) ?_
  simp only [List.forall_mem_cons, readable_optional, readable_texts, hid, hstates, hsubitems, true_and]
  simp [Readable]

/-- Items can be read back wherever their numbers can. -/
theorem readable_toData {items : List Item} (h : ∀ i ∈ items, (Text.decimal i.id).length ≤ limit) :
    Readable limit Json.maxDepth (toData items) :=
  @readable_list limit 979 Item Item.toData items fun i hi => @readable_item limit 976 i (h i hi)

end

/-! ### Items by their data -/

theorem optional_inj {a b : Option Text} : optional a = optional b ↔ a = b := by
  cases a <;> cases b <;> simp [optional]

theorem texts_inj {a b : List Text} : texts a = texts b ↔ a = b := by
  rw [texts, texts, Data.list.injEq]
  exact (List.map_injective_iff.mpr fun _ _ h => Data.str.inj h).eq_iff

theorem State.toData_injective : Function.Injective State.toData := by
  intro a b h
  simp only [State.toData, record, List.map, Data.map.injEq, List.cons.injEq, Prod.mk.injEq, optional_inj, true_and,
    and_true] at h
  cases a
  cases b
  simp_all

theorem Subitem.toData_injective : Function.Injective Subitem.toData := by
  intro a b h
  simp only [Subitem.toData, record, List.map, Data.map.injEq, List.cons.injEq, Prod.mk.injEq, optional_inj,
    Data.str.injEq, true_and, and_true] at h
  cases a
  cases b
  simp_all

theorem Item.toData_injective : Function.Injective Item.toData := by
  intro a b h
  simp only [Item.toData, record, List.map, Data.map.injEq, List.cons.injEq, Prod.mk.injEq, optional_inj, texts_inj,
    Data.str.injEq, Data.int.injEq, Data.bool.injEq, Data.list.injEq, true_and, and_true, Int.natCast_inj,
    (List.map_injective_iff.mpr State.toData_injective).eq_iff,
    (List.map_injective_iff.mpr Subitem.toData_injective).eq_iff] at h
  cases a
  cases b
  simp_all

theorem toData_injective : Function.Injective toData := fun _ _ h =>
  List.map_injective_iff.mpr Item.toData_injective (Data.list.inj h)

/-! ### Texts -/

/-- Enough digits for the numbers of some items. -/
def digitsIn (items : List Item) : Nat := (items.map fun i => (Text.decimal i.id).length).foldr max 0

theorem length_le_digitsIn {items : List Item} {i : Item} (h : i ∈ items) :
    (Text.decimal i.id).length ≤ digitsIn items := by
  induction items with
  | nil => cases h
  | cons j items ih =>
    rw [digitsIn, List.map_cons, List.foldr_cons]
    rcases List.mem_cons.mp h with rfl | h
    · exact Nat.le_max_left _ _
    · exact Nat.le_trans (ih h) (Nat.le_max_right _ _)

theorem parseWithin_toJson (indent : Int) {items : List Item} {limit : Nat}
    (h : ∀ i ∈ items, (Text.decimal i.id).length ≤ limit) :
    Json.parseWithin limit (toJson indent items) = .ok (toData items) :=
  Json.parseWithin_render _ (readable_toData h)

theorem tight_toJson (indent : Int) (items : List Item) : Json.tight false (toJson indent items) = toJson 0 items :=
  Json.tight_render (readable_toData fun _ hi => length_le_digitsIn hi)

/-- The text of items, with any indentation, is read as their plain data by every reader that takes numbers as long as
    theirs; without the space outside of its strings it is the compact text; and the items are the only ones with it. -/
theorem toJson_reads (indent : Int) (items : List Item) :
    (∀ limit, (∀ i ∈ items, (Text.decimal i.id).length ≤ limit) →
      Json.parseWithin limit (toJson indent items) = .ok (toData items)) ∧
    Json.tight false (toJson indent items) = toJson 0 items ∧
    ∀ indent' items', toJson indent items = toJson indent' items' → items = items' := by
  refine ⟨fun limit h => parseWithin_toJson indent h, tight_toJson indent items, fun indent' items' hsame => ?_⟩
  have hitems : ∀ i ∈ items, (Text.decimal i.id).length ≤ max (digitsIn items) (digitsIn items') := fun i hi =>
    Nat.le_trans (length_le_digitsIn hi) (Nat.le_max_left _ _)
  have hitems' : ∀ i ∈ items', (Text.decimal i.id).length ≤ max (digitsIn items) (digitsIn items') := fun i hi =>
    Nat.le_trans (length_le_digitsIn hi) (Nat.le_max_right _ _)
  have hread := parseWithin_toJson indent hitems
  rw [hsame, parseWithin_toJson indent' hitems'] at hread
  exact (toData_injective (Except.ok.inj hread)).symm

/-- An item with texts that have to be escaped, and with an empty and a full list. -/
def oddItem : Item :=
  { describe 7 [⟨"base".text, ".b A \"quoted\" base".text⟩, ⟨"see".text, "C:\\x".text⟩, ⟨"see".text, "\x01\t\n é".text⟩] with
    anchor := "a".text }

theorem toJson_reads_odd : (Text.decimal oddItem.id).length ≤ Numeral.maxDigits ∧
    Json.parse (toJson 2 [oddItem]) = .ok (toData [oddItem]) := by
  have hdigits : ∀ i ∈ [oddItem], (Text.decimal i.id).length ≤ Numeral.maxDigits := by decide
  exact ⟨hdigits oddItem List.mem_cons_self, (toJson_reads 2 [oddItem]).1 Numeral.maxDigits hdigits⟩

end Showcase
end Stylebook
