import Mathlib.Data.List.Basic
import Stylebook.Data.Value
import Stylebook.Proofs.Basic

/-! Which values can be shown. Only an integer with too many digits somewhere inside keeps a value from being shown, and
    whatever is found in the entries of a mapping has such an integer only if the mapping has it. -/

namespace Stylebook
namespace Value

/-! ### Parts -/

/-- What a value is made of. -/
def parts : Value → List Value
  | .list items => items
  | .tuple items => items
  | .set items => items
  | .map entries => entries.flatMap fun entry => [entry.1, entry.2]
  | .orderedMap entries => entries.flatMap fun entry => [entry.1, entry.2]
  | .named _ v => [v]
  | _ => []

/-- The value `u` stands somewhere in a value. -/
inductive Within (u : Value) : Value → Prop
  | self : Within u u
  | part {v w : Value} (hmem : w ∈ v.parts) (h : Within u w) : Within u v

/-- An integer with too many digits to be shown stands somewhere in the value. -/
def HasLong (v : Value) : Prop := ∃ n : Int, Within (.int n) v ∧ Numeral.maxDigits < (Text.decimal n.natAbs).length

theorem HasLong.part {v w : Value} (h : w.HasLong) (hmem : w ∈ v.parts) : v.HasLong := by
  obtain ⟨n, hn, hlong⟩ := h
  exact ⟨n, .part hmem hn, hlong⟩

theorem HasLong.exists_part {v : Value} (h : v.HasLong) (hint : ∀ n, v ≠ .int n) : ∃ w ∈ v.parts, w.HasLong := by
  obtain ⟨n, hn, hlong⟩ := h
  cases hn with
  | self => exact absurd rfl (hint n)
  | part hmem hn => exact ⟨_, hmem, n, hn, hlong⟩

theorem sizeOf_lt_entries {w : Value} {entries : Entries} (h : w ∈ entries.flatMap fun entry => [entry.1, entry.2]) :
    sizeOf w < sizeOf entries := by
  obtain ⟨⟨k, v⟩, hentry, hw⟩ := List.mem_flatMap.mp h
  have hlt := List.sizeOf_lt_of_mem hentry
  have hpair : sizeOf (k, v) = 1 + sizeOf k + sizeOf v := rfl
  rcases List.mem_pair.mp hw with rfl | rfl <;> omega

theorem sizeOf_lt_of_mem_parts {v w : Value} (h : w ∈ v.parts) : sizeOf w < sizeOf v := by
  cases v with
  | list items | tuple items | set items =>
    have hlt : sizeOf w < sizeOf items := List.sizeOf_lt_of_mem h
    simp only [list.sizeOf_spec, tuple.sizeOf_spec, set.sizeOf_spec]
    omega
  | map entries | orderedMap entries =>
    have hlt := sizeOf_lt_entries h
    simp only [map.sizeOf_spec, orderedMap.sizeOf_spec]
    omega
  | named name v =>
    rw [List.mem_singleton.mp h, named.sizeOf_spec]
    omega
  | _ => cases h

/-- What holds of a value if it holds of its parts, holds of all values. -/
theorem parts_induction {P : Value → Prop} (step : ∀ v, (∀ w ∈ v.parts, P w) → P v) (v : Value) : P v :=
  step v fun w _ => parts_induction step w
termination_by sizeOf v
decreasing_by exact sizeOf_lt_of_mem_parts ‹_›

/-! ### Display -/

theorem write_error {n : Int} {e : Numeral.Error} (h : Numeral.write n = .error e) :
    e = .unwritable ∧ (Value.int n).HasLong := by
  simp only [Numeral.write] at h
  by_cases hlong : Numeral.maxDigits < (Text.decimal n.natAbs).length
  · rw [if_pos hlong] at h
    exact ⟨(Except.error.inj h).symm, n, .self, hlong⟩
  · rw [if_neg hlong] at h
    cases h

theorem displayItems_error {around : List Nat} {items : List Value} {e : Numeral.Error}
    (h : displayItems around items = .error e) : ∃ v ∈ items, displayIn around v = .error e := by
  induction items with
  | nil => cases h
  | cons v items ih =>
    rw [displayItems] at h
    rcases error_of_bind h with hv | ⟨shown, -, h⟩
    · exact ⟨v, List.mem_cons_self, hv⟩
    · obtain ⟨w, hw, hfault⟩ := ih (error_of_bind_pure h)
      exact ⟨w, List.mem_cons_of_mem v hw, hfault⟩

/-- Entries that are shown one after the other, key before value, in whatever form. -/
theorem entries_error {around : List Nat} {form : Text → Text → Text} {show_ : Entries → Except Numeral.Error (List Text)}
    (hnil : show_ [] = .ok []) (hcons : ∀ k v rest, show_ ((k, v) :: rest) = (do
      return form (← displayIn around k) (← displayIn around v) :: (← show_ rest)))
    {entries : Entries} {e : Numeral.Error} (h : show_ entries = .error e) :
    ∃ v ∈ entries.flatMap fun entry => [entry.1, entry.2], displayIn around v = .error e := by
  induction entries with
  | nil => rw [hnil] at h; cases h
  | cons entry entries ih =>
    rw [hcons] at h
    rcases error_of_bind h with hk | ⟨_, -, h⟩
    · exact ⟨entry.1, by simp, hk⟩
    rcases error_of_bind h with hv | ⟨_, -, h⟩
    · exact ⟨entry.2, by simp, hv⟩
    obtain ⟨w, hw, hfault⟩ := ih (error_of_bind_pure h)
    exact ⟨w, List.mem_append_right _ hw, hfault⟩

theorem displayEntries_error {around : List Nat} {entries : Entries} {e : Numeral.Error}
    (h : displayEntries around entries = .error e) :
    ∃ v ∈ entries.flatMap fun entry => [entry.1, entry.2], displayIn around v = .error e :=
  entries_error (displayEntries.eq_1 around) (displayEntries.eq_2 around) h

theorem displayPairs_error {around : List Nat} {entries : Entries} {e : Numeral.Error}
    (h : displayPairs around entries = .error e) :
    ∃ v ∈ entries.flatMap fun entry => [entry.1, entry.2], displayIn around v = .error e :=
  entries_error (displayPairs.eq_1 around) (displayPairs.eq_2 around) h

/-- A value that is not an integer is shown if its parts are. -/
theorem displayIn_error_part {around : List Nat} {v : Value} {e : Numeral.Error} (h : displayIn around v = .error e)
    (hint : ∀ n, v ≠ .int n) : ∃ w ∈ v.parts, ∃ inside, displayIn inside w = .error e := by
  cases v with
  | int n => exact absurd rfl (hint n)
  | list items | tuple items =>
    rw [displayIn] at h
    obtain ⟨w, hw, hfault⟩ := displayItems_error (error_of_bind_pure h)
    exact ⟨w, hw, around, hfault⟩
  | set items =>
    cases items with
    | nil => cases h
    | cons item items =>
      rw [displayIn] at h
      · obtain ⟨w, hw, hfault⟩ := displayItems_error (error_of_bind_pure h)
        exact ⟨w, hw, around, hfault⟩
      · exact List.cons_ne_nil item items
  | map entries =>
    rw [displayIn] at h
    obtain ⟨w, hw, hfault⟩ := displayEntries_error (error_of_bind_pure h)
    exact ⟨w, hw, around, hfault⟩
  | orderedMap entries =>
    cases entries with
    | nil => cases h
    | cons entry entries =>
      rw [displayIn] at h
      · obtain ⟨w, hw, hfault⟩ := displayPairs_error (error_of_bind_pure h)
        exact ⟨w, hw, around, hfault⟩
      · exact List.cons_ne_nil entry entries
  | named name v =>
    rw [displayIn] at h
    split at h
    · cases h
    · exact ⟨v, List.mem_singleton_self v, _, h⟩
  | _ => cases h

/-- Only an integer that is too long keeps a value from being shown. -/
theorem displayIn_error {v : Value} {around : List Nat} {e : Numeral.Error} (h : displayIn around v = .error e) :
    e = .unwritable ∧ v.HasLong := by
  induction v using parts_induction generalizing around with
  | step v ih =>
    by_cases hint : ∃ n, v = .int n
    · obtain ⟨n, rfl⟩ := hint
      exact write_error h
    · obtain ⟨w, hw, inside, hfault⟩ := displayIn_error_part h (not_exists.mp hint)
      obtain ⟨he, hlong⟩ := ih w hw hfault
      exact ⟨he, hlong.part hw⟩

theorem plainText_error {v : Value} {e : Numeral.Error} (h : v.plainText = .error e) : e = .unwritable ∧ v.HasLong := by
  unfold plainText at h
  split at h
  · cases h
  · cases h
  · cases h
  · exact displayIn_error h

/-! ### Looking inside -/

theorem expandItems_eq (name : Nat) (whole : Value) (items : List Value) :
    expandItems name whole items = items.map (expand name whole) := by
  induction items with
  | nil => rfl
  | cons v items ih => rw [expandItems, ih, List.map_cons]

theorem expandEntries_eq (name : Nat) (whole : Value) (entries : Entries) :
    expandEntries name whole entries =
      entries.map fun entry => (expand name whole entry.1, expand name whole entry.2) := by
  induction entries with
  | nil => rfl
  | cons entry entries ih => rw [expandEntries, ih, List.map_cons]

/-- What is put in place of a name changes a value as a whole, or leaves it, or changes its parts. -/
theorem expand_cases (name : Nat) (whole v : Value) :
    expand name whole v = whole ∨ expand name whole v = v ∨
      (∀ n, expand name whole v ≠ .int n) ∧ (expand name whole v).parts = v.parts.map (expand name whole) := by
  cases v with
  | again other shape =>
    rw [expand]
    split
    · exact .inl rfl
    · exact .inr (.inl rfl)
  | named other v =>
    rw [expand]
    split
    · exact .inr (.inl rfl)
    · exact .inr (.inr ⟨by simp, rfl⟩)
  | list items | tuple items | set items =>
    refine .inr (.inr ⟨by simp [expand], ?_⟩)
    rw [expand]
    exact expandItems_eq name whole items
  | map entries | orderedMap entries =>
    refine .inr (.inr ⟨by simp [expand], ?_⟩)
    rw [expand]
    simp only [parts, expandEntries_eq, List.flatMap_map, List.map_flatMap, List.map_cons, List.map_nil]
  | _ => exact .inr (.inl rfl)

theorem HasLong.of_expand {name : Nat} {whole v : Value} (h : (expand name whole v).HasLong) :
    v.HasLong ∨ whole.HasLong := by
  induction v using parts_induction with
  | step v ih =>
    rcases expand_cases name whole v with heq | heq | ⟨hint, hparts⟩
    · exact .inr (heq ▸ h)
    · exact .inl (heq ▸ h)
    · obtain ⟨_, hmem, hlong⟩ := h.exists_part hint
      obtain ⟨w, hw, rfl⟩ := List.mem_map.mp (hparts ▸ hmem)
      rcases ih w hw hlong with hlong | hlong
      · exact .inl (hlong.part hw)
      · exact .inr hlong

theorem HasLong.ordered {entries : Entries} (h : (Value.map entries).HasLong) : (Value.orderedMap entries).HasLong := by
  obtain ⟨w, hw, hlong⟩ := h.exists_part (by simp)
  exact hlong.part hw

theorem HasLong.of_named {name : Nat} {v : Value} (h : (expand name (.named name v) v).HasLong) :
    (Value.named name v).HasLong := by
  rcases h.of_expand with hlong | hlong
  · exact hlong.part (List.mem_singleton_self v)
  · exact hlong

theorem HasLong.of_entries? {v : Value} {entries : Entries} (h : v.entries? = some entries)
    (hlong : (Value.map entries).HasLong) : v.HasLong := by
  unfold entries? at h
  split at h <;> cases h
  · exact hlong
  · exact hlong.ordered
  · exact HasLong.of_named hlong
  · exact HasLong.of_named hlong.ordered

theorem HasLong.of_field? {key : Text} {entries : Entries} {v : Value} (h : field? key entries = some v)
    (hlong : v.HasLong) : (Value.map entries).HasLong := by
  obtain ⟨entry, hmem, hentry⟩ := List.exists_of_findSome?_eq_some h
  have hv : v = entry.2 := by
    dsimp only at hentry
    grind
  exact hlong.part (List.mem_flatMap.mpr ⟨entry, hmem, by simp [hv]⟩)

end Value
end Stylebook
