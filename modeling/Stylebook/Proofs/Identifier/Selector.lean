import Stylebook.Proofs.Identifier.Registry
import Stylebook.Proofs.Text.Lines

/-! The characters of identifiers. An identifier that is made from a selector has letters, digits, underscores and
    hyphens only, and a number behind it changes nothing in this. It is as long as the selector unless underscores are
    collapsed; then nothing is left of a selector without letters, digits and hyphens. -/

namespace Stylebook
namespace Identifier

/-- Characters that stay in an identifier even where underscores are collapsed. -/
def isLasting (c : Char) : Bool := Text.isLetter c || Text.isDigit c || c == '-'

theorem isIdChar_iff {c : Char} : isIdChar c = true ↔ isLasting c = true ∨ c = '_' := by
  simp only [isIdChar, isLasting, Bool.or_eq_true, beq_iff_eq]
  tauto

/-! ### Masking -/

theorem isIdChar_of_mem_mask {t : Text} {c : Char} (h : c ∈ mask t) : isIdChar c = true := by
  obtain ⟨d, -, rfl⟩ := List.mem_map.mp h
  split
  · assumption
  · rfl

/-- Only characters that do not last become underscores. -/
theorem forall_mask_iff {t : Text} : (∀ c ∈ mask t, c = '_') ↔ ∀ c ∈ t, isLasting c = false := by
  simp only [mask, List.forall_mem_map]
  refine forall₂_congr fun c _ => ?_
  by_cases hid : isIdChar c = true
  · rw [if_pos hid]
    rcases isIdChar_iff.mp hid with hlasting | rfl
    · refine iff_of_false ?_ (by simp [hlasting])
      rintro rfl
      cases hlasting
    · exact iff_of_true rfl rfl
  · rw [if_neg hid]
    rw [isIdChar_iff, not_or] at hid
    exact iff_of_true rfl (by simpa using hid.1)

/-! ### Collapsing -/

theorem squeeze_subset (t : Text) : squeeze t ⊆ t := by
  fun_induction squeeze t with
  | case1 => exact List.Subset.refl _
  | case2 => exact List.Subset.refl _
  | case3 c d r hboth ih => exact fun x hx => List.mem_cons_of_mem c (ih hx)
  | case4 c d r hnot ih => exact List.cons_subset_cons c ih

theorem mem_squeeze {t : Text} {c : Char} (h : c ∈ t) : c ∈ squeeze t := by
  fun_induction squeeze t with
  | case1 => exact h
  | case2 => exact h
  | case3 d e r hboth ih =>
    apply ih
    rcases List.mem_cons.mp h with rfl | h
    · rw [hboth.1, hboth.2]
      exact List.mem_cons_self
    · exact h
  | case4 d e r hnot ih =>
    rcases List.mem_cons.mp h with rfl | h
    · exact List.mem_cons_self
    · exact List.mem_cons_of_mem d (ih h)

theorem collapse_eq_nil_iff {t : Text} : collapse t = [] ↔ ∀ c ∈ t, c = '_' := by
  rw [collapse, Text.trimBy_eq_nil_iff]
  simp only [beq_iff_eq]
  exact ⟨fun h c hc => h c (mem_squeeze hc), fun h c hc => h c (squeeze_subset t hc)⟩

/-! ### Identifiers -/

theorem isIdChar_of_mem_ofSelector {collapsed : Bool} {selector : Text} {c : Char} (h : c ∈ ofSelector collapsed selector) :
    isIdChar c = true := by
  unfold ofSelector at h
  split at h
  · exact isIdChar_of_mem_mask (squeeze_subset _ ((Text.trimBy_infix _ _).subset h))
  · exact isIdChar_of_mem_mask h

/-- Nothing is left of a selector only if there was nothing, or nothing that lasts. -/
theorem ofSelector_eq_nil_iff {collapsed : Bool} {selector : Text} : ofSelector collapsed selector = [] ↔
    selector = [] ∨ collapsed = true ∧ ∀ c ∈ selector, isLasting c = false := by
  cases collapsed with
  | false => simp [ofSelector, mask]
  | true =>
    rw [ofSelector, if_pos rfl, collapse_eq_nil_iff, forall_mask_iff]
    refine ⟨fun h => .inr ⟨rfl, h⟩, ?_⟩
    rintro (rfl | ⟨-, h⟩)
    · simp
    · exact h

theorem isIdChar_of_mem_decimal {n : Nat} {c : Char} (h : c ∈ Text.decimal n) : isIdChar c = true := by
  simp [isIdChar, Text.isDigit_of_mem_decimal h]

theorem Registry.isIdChar_of_mem_numbered {base : Text} (hbase : ∀ c ∈ base, isIdChar c = true) (k : Nat) :
    ∀ c ∈ numbered base k, isIdChar c = true := by
  intro c hc
  unfold numbered at hc
  split at hc
  · exact hbase c hc
  · rcases List.mem_append.mp hc with hc | hc
    · exact hbase c hc
    · rcases List.mem_cons.mp hc with rfl | hc
      · rfl
      · exact isIdChar_of_mem_decimal hc

end Identifier
end Stylebook
