import Mathlib.Data.List.Nodup
import Stylebook.Identifier
import Stylebook.Proofs.Text.Decimal

/-! What a registry hands out. The names with numbers are all different, so that one of the first `n + 1` is
    free when `n` are in use: a claim always finds one, and it was not handed out before. Over any number of
    claims the names handed out stay different (`Registry.Hands`). -/

namespace Stylebook
namespace Identifier
namespace Registry

/-! ### One claim -/

theorem numbered_injective (base : Text) {j k : Nat} (h : numbered base j = numbered base k) : j = k := by
  unfold numbered at h
  split at h <;> split at h
  · omega
  · simp at h
  · simp at h
  · simp only [List.append_cancel_left_eq, List.cons.injEq, true_and] at h
    exact Text.decimal_injective h

/-- Some number up to the count of names in use is free. -/
theorem exists_free (r : Registry) (base : Text) : ∃ k ≤ r.used.length, numbered base k ∉ r.used := by
  by_contra hnone
  have hsub : (List.range (r.used.length + 1)).map (numbered base) ⊆ r.used := by
    intro name hname
    obtain ⟨k, hk, rfl⟩ := List.mem_map.mp hname
    by_contra hfree
    exact hnone ⟨k, Nat.le_of_lt_succ (List.mem_range.mp hk), hfree⟩
  have hnodup : ((List.range (r.used.length + 1)).map (numbered base)).Nodup :=
    List.nodup_range.map fun _ _ h => numbered_injective base h
  have hle := hnodup.length_le_of_subset hsub
  simp only [List.length_map, List.length_range] at hle
  omega

/-- A claim answers the name with the least free number. -/
theorem claim_least (r : Registry) (base : Text) :
    ∃ k, (r.claim base).1 = numbered base k ∧ numbered base k ∉ r.used ∧
      ∀ j < k, numbered base j ∈ r.used := by
  have hfind : ∃ k, ((List.range (r.used.length + 1)).find? fun k => !r.has (numbered base k)) = some k := by
    obtain ⟨k, hk, hfree⟩ := r.exists_free base
    rw [← Option.isSome_iff_exists, List.find?_isSome]
    exact ⟨k, List.mem_range.mpr (Nat.lt_succ_of_le hk), by simpa [has] using hfree⟩
  obtain ⟨k, hk⟩ := hfind
  have hfree : r.free base = numbered base k := by
    rw [free, List.find?_map]
    show ((Option.map (numbered base)
      ((List.range (r.used.length + 1)).find? fun k => !r.has (numbered base k))).getD base) = _
    rw [hk]
    rfl
  obtain ⟨hnew, -, hused⟩ := List.find?_range_eq_some.mp hk
  refine ⟨k, hfree, ?_, fun j hj => ?_⟩
  · simpa [has] using hnew
  · simpa [has] using hused j hj

theorem claim_not_mem (r : Registry) (base : Text) : (r.claim base).1 ∉ r.used := by
  obtain ⟨k, hk, hnew, -⟩ := r.claim_least base
  rw [hk]
  exact hnew

/-- A name that is free is handed out as it is. -/
theorem claim_of_not_mem {r : Registry} {base : Text} (h : base ∉ r.used) : r.claim base = (base, ⟨base :: r.used⟩) := by
  obtain ⟨k, hname, -, hless⟩ := r.claim_least base
  have hzero : k = 0 := Nat.eq_zero_of_not_pos fun hpos => h (hless 0 hpos)
  have hfree : r.free base = base := by
    rw [hzero] at hname
    exact hname
  rw [claim, hfree]

/-! ### Names -/

theorem numbered_eq_nil_iff {base : Text} {k : Nat} : numbered base k = [] ↔ base = [] ∧ k = 0 := by
  unfold numbered
  split
  · rename_i hk
    simp [hk]
  · rename_i hk
    simp [hk]

/-- After a claim the empty name is in use if it was claimed, or was in use before. -/
theorem nil_mem_claim (r : Registry) (base : Text) : [] ∈ (r.claim base).2.used ↔ base = [] ∨ [] ∈ r.used := by
  obtain ⟨k, hname, -, hless⟩ := r.claim_least base
  have hused : (r.claim base).2.used = (r.claim base).1 :: r.used := rfl
  rw [hused, hname, List.mem_cons, eq_comm, numbered_eq_nil_iff]
  constructor
  · rintro (⟨hbase, -⟩ | hmem)
    · exact .inl hbase
    · exact .inr hmem
  · rintro (rfl | hmem)
    · rcases Nat.eq_zero_or_pos k with hzero | hpos
      · exact .inl ⟨rfl, hzero⟩
      · exact .inr (hless 0 hpos)
    · exact .inr hmem

/-! ### Many claims -/

/-- From `r` to `r'` the given names were handed out, and no name twice. -/
structure Hands (r : Registry) (names : List Text) (r' : Registry) : Prop where
  used : (names ++ r.used).Perm r'.used
  nodup : r.used.Nodup → r'.used.Nodup

namespace Hands
variable {r r₁ r₂ : Registry} {names names₁ names₂ : List Text}

theorem refl (r : Registry) : Hands r [] r := ⟨.refl _, id⟩

theorem claim (r : Registry) (base : Text) : Hands r [(r.claim base).1] (r.claim base).2 where
  used := .refl _
  nodup h := List.nodup_cons.mpr ⟨r.claim_not_mem base, h⟩

theorem trans (h₁ : Hands r names₁ r₁) (h₂ : Hands r₁ names₂ r₂) : Hands r (names₁ ++ names₂) r₂ where
  used := by
    have hfront : (names₁ ++ names₂ ++ r.used).Perm (names₂ ++ (names₁ ++ r.used)) := by
      rw [← List.append_assoc]
      exact List.perm_append_comm.append_right _
    exact hfront.trans ((h₁.used.append_left names₂).trans h₂.used)
  nodup := h₂.nodup ∘ h₁.nodup

theorem perm (h : Hands r names₁ r₁) (hperm : names₁.Perm names₂) : Hands r names₂ r₁ where
  used := (hperm.symm.append_right _).trans h.used
  nodup := h.nodup

/-- The names handed out by a registry that was empty at first are all different. -/
theorem nodup_names (h : Hands {} names r₁) : names.Nodup := by
  have hall : (names ++ []).Nodup := h.used.nodup_iff.mpr (h.nodup List.nodup_nil)
  rwa [List.append_nil] at hall

end Hands
end Registry
end Identifier
end Stylebook
