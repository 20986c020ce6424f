import Mathlib.Data.List.Dedup
import Stylebook.Proofs.Sheet.Fault

/-! Following imports comes to an end. No place occurs twice in a chain, and all its places but the last can be loaded,
    so that the number of places which can be loaded bounds its length; imports that lead in circles do not matter.
    Hence no chain goes on without end, in whatever order the branches are worked off, and they are all over after five
    events for each chain. The limit on the depth of a graph never cuts a chain off. -/

namespace Stylebook
namespace Sheet

/-! ### Places that can be loaded -/

/-- The places in memory that hold a text, each of them once. -/
def loadable (entries : List (Text × Entry)) : List Text :=
  (entries.map (·.1)).dedup.filter fun url => (loadEntry entries url).isOk

/-- No place occurs twice in the chain. It has at most as many places as can be loaded, and one more if its last
    cannot. -/
structure Chain.Bounded (entries : List (Text × Entry)) (c : Chain) : Prop where
  nodup : c.places.Nodup
  loads : (loadEntry entries c.url).isOk = true → c.places.length ≤ (loadable entries).length
  fails : (loadEntry entries c.url).isOk = false → c.places.length ≤ (loadable entries).length + 1

section
variable {tags : Doc.TagTable} {entries : List (Text × Entry)} {root : Text}

theorem mem_loadable {url : Text} : url ∈ loadable entries ↔ (loadEntry entries url).isOk = true := by
  rw [loadable, List.mem_filter, List.mem_dedup]
  refine and_iff_right_of_imp fun hok => ?_
  cases hload : loadEntry entries url with
  | ok content => exact mem_entries_of_load hload
  | error f =>
    rw [hload] at hok
    cases hok

theorem length_loadable_le (entries : List (Text × Entry)) : (loadable entries).length ≤ entries.length := by
  calc (loadable entries).length ≤ (entries.map (·.1)).dedup.length := List.length_filter_le _ _
    _ ≤ (entries.map (·.1)).length := (List.dedup_sublist _).length_le
    _ = entries.length := List.length_map _

theorem Reader.Leads.above_subset {ρ : Route} (h : Reader.Leads ⟨loadEntry entries, tags⟩ root ρ) :
    ρ.chain.above ⊆ loadable entries := by
  intro u hu
  obtain ⟨refs, content, hload, -⟩ := h.reads_above u hu
  have hload : loadEntry entries u = .ok content := hload
  rw [mem_loadable, hload]
  rfl

theorem Reader.Leads.length_above_le {ρ : Route} (h : Reader.Leads ⟨loadEntry entries, tags⟩ root ρ) :
    ρ.chain.above.length ≤ (loadable entries).length :=
  (List.nodup_cons.mp h.nodup_places).2.length_le_of_subset h.above_subset

theorem Reader.Leads.bounded {ρ : Route} (h : Reader.Leads ⟨loadEntry entries, tags⟩ root ρ) :
    ρ.chain.Bounded entries where
  nodup := h.nodup_places
  loads hok := h.nodup_places.length_le_of_subset (List.cons_subset.mpr ⟨mem_loadable.mpr hok, h.above_subset⟩)
  fails _ := Nat.succ_le_succ h.length_above_le

end

/-! ### Bounded routes -/

section
variable {r : Reader} {root : Text} {n : Nat}

theorem Reader.Leads.length_above {ρ : Route} (h : r.Leads root ρ) : ρ.chain.above.length = ρ.positions.length :=
  Nat.succ_injective h.length_places

/-- Where the routes have a bound, no chain goes on without end. -/
theorem Reader.Leads.acc (hdeep : ∀ ρ, r.Leads root ρ → ρ.positions.length ≤ n) {ρ : Route} (h : r.Leads root ρ) :
    Acc (fun next c => next ∈ (r.visit c).next) ρ.chain := by
  -- each import takes up one of the places that are left up to the bound
  induction hleft : n - ρ.chain.above.length using Nat.strong_induction_on generalizing ρ with
  | _ left ih =>
    refine ⟨_, fun next hnext => ?_⟩
    obtain ⟨σ, hσ, rfl⟩ := Schedule.leads_next h hnext
    have habove : σ.chain.above.length = ρ.chain.above.length + 1 := Schedule.above_next hnext
    have hle : σ.chain.above.length ≤ n := hσ.length_above ▸ hdeep σ hσ
    exact ih _ (by omega) hσ rfl

/-- Where the routes have a bound, there are no more of them beyond it. -/
theorem Reader.routes_of_lt (hdeep : ∀ ρ, r.Leads root ρ → ρ.positions.length ≤ n) {depth : Nat} (h : n < depth) :
    r.routes root depth = r.routes root (n + 1) := by
  induction depth, h using Nat.le_induction with
  | base => rfl
  | succ depth hlt ih =>
    have hlevel : r.level root depth = [] := by
      refine List.eq_nil_iff_forall_not_mem.mpr fun ρ hρ => ?_
      obtain ⟨hlead, hlen⟩ := mem_level.mp hρ
      have hle := hdeep ρ hlead
      omega
    rw [← ih, Reader.routes, List.range_succ, List.flatMap_append, List.flatMap_singleton, hlevel, List.append_nil]
    rfl

theorem Reader.resolve_of_lt (hdeep : ∀ ρ, r.Leads root ρ → ρ.positions.length ≤ n) {depth : Nat} (h : n < depth) :
    r.resolve depth root = r.resolve (n + 1) root := by
  have hexplore : r.explore depth [⟨root, []⟩] = r.explore (n + 1) [⟨root, []⟩] := by
    rw [explore_root, explore_root, routes_of_lt hdeep h]
  rw [Reader.resolve, Reader.resolve, hexplore]

theorem Schedule.tree_live_run (r : Reader) (root : Text) (m : Nat) :
    (run r m (start root)).Tree r root ∧ (run r m (start root)).Live := by
  refine run_keeps (P := fun s => s.Tree r root ∧ s.Live) (fun h hm => ?_) m ?_
  · exact ⟨h.1.moves hm, h.2.moves hm⟩
  · exact ⟨(regular_start r root).tree, (regular_start r root).live⟩

/-- Five events for each chain are enough for all branches to be over. -/
theorem Schedule.run_ended (hdeep : ∀ ρ, r.Leads root ρ → ρ.positions.length ≤ n) {m : Nat}
    (hm : 5 * (r.explore (n + 1) [⟨root, []⟩]).length ≤ m) :
    (run r m (start root)).queue = [] ∧ ∀ b ∈ (run r m (start root)).branches, ∃ x, b.phase = .ended x := by
  obtain ⟨htree, hlive⟩ := tree_live_run r root m
  have hqueue : (run r m (start root)).queue = [] :=
    queue_run m (regular_start r root).tree (regular_start r root).live hdeep (Nat.le_trans (cost_start n) hm)
  refine ⟨hqueue, fun b hb => ?_⟩
  obtain ⟨k, hk⟩ := List.mem_iff_getElem?.mp hb
  exact hlive.ended htree hqueue hk

end

/-! ### Sheets in memory -/

/-- Following the imports of sheets in memory ends, whatever imports whatever: no chain goes on without end; after five
    events for each chain nothing is left to be worked off and every branch is over; and resolving with a greater depth
    gives the same graph. No place occurs twice in the chain of a branch or of a visit. It has at most as many places as
    can be loaded, and one more if the last cannot be loaded. -/
theorem traversal_ends (tags : Doc.TagTable) (entries : List (Text × Entry)) (root : Text) :
    let r : Reader := ⟨loadEntry entries, tags⟩
    Acc (fun next c => next ∈ (r.visit c).next) ⟨root, []⟩ ∧
    (∀ m, 5 * (r.explore ((loadable entries).length + 1) [⟨root, []⟩]).length ≤ m →
      (Schedule.run r m (.start root)).queue = [] ∧
      ∀ b ∈ (Schedule.run r m (.start root)).branches, ∃ x, b.phase = .ended x) ∧
    (∀ depth, (loadable entries).length < depth → r.resolve depth root = resolveEntries tags entries root) ∧
    (∀ m, ∀ b ∈ (Schedule.run r m (.start root)).branches, b.chain.Bounded entries) ∧
    ∀ depth, ∀ v ∈ r.explore depth [⟨root, []⟩], v.chain.Bounded entries := by
  intro r
  have hdeep : ∀ ρ, r.Leads root ρ → ρ.positions.length ≤ (loadable entries).length :=
    fun ρ hρ => hρ.length_above ▸ hρ.length_above_le
  have hwhole : (loadable entries).length < entries.length + 1 := Nat.lt_succ_of_le (length_loadable_le entries)
  refine ⟨Reader.Leads.acc hdeep .root, fun m hm => Schedule.run_ended hdeep hm, fun depth hlt => ?_,
    fun m b hb => ?_, fun depth v hv => ?_⟩
  · calc r.resolve depth root = r.resolve ((loadable entries).length + 1) root := Reader.resolve_of_lt hdeep hlt
      _ = r.resolve (entries.length + 1) root := (Reader.resolve_of_lt hdeep hwhole).symm
  · obtain ⟨k, hk⟩ := List.mem_iff_getElem?.mp hb
    obtain ⟨ρ, hρ, hchain⟩ := (Schedule.tree_live_run r root m).1.lead hk
    exact hchain ▸ hρ.bounded
  · rw [Reader.explore_root] at hv
    obtain ⟨ρ, hρ, rfl⟩ := List.mem_map.mp hv
    exact (Reader.mem_routes.mp hρ).1.bounded

-- Two sheets that import each other, one of them twice, and a place that cannot be loaded: both bounds are reached.
example :
    let entries : List (Text × Entry) :=
      [("a".text, .text "@import 'a'; @import 'b'; @import 'b';".text),
        ("b".text, .text "@import 'a'; @import 'c';".text), ("c".text, .fail "gone".text)]
    loadable entries = ["a".text, "b".text] ∧
    (Reader.explore ⟨loadEntry entries, Doc.TagTable.default⟩ 9 [⟨"a".text, []⟩]).map (·.chain.places) =
      [["a".text], ["b".text, "a".text], ["b".text, "a".text], ["c".text, "b".text, "a".text],
        ["c".text, "b".text, "a".text]] := by
  decide +kernel

end Sheet
end Stylebook
