import Mathlib.Data.List.Shortlex
import Stylebook.Sheet.Graph

/-! Import chains as routes. A route is a chain together with the positions of the imports it follows, so
    that two directives with one place make two routes. The routes of one length are listed level by level
    (`Reader.level`); a level holds every route of its length once, in the order of the positions, and
    exploring visits one level after the other. A route never comes to a place twice and leaves only places
    that can be loaded, hence the number of sheets bounds its length. -/

namespace Stylebook
namespace Sheet

/-! ### Routes -/

/-- A chain and the positions of the imports that it follows from the root on. -/
structure Route where
  positions : List Nat
  chain : Chain
  deriving DecidableEq, Repr

/-- The sheet at `url` can be loaded, and `refs` are its imports. -/
def Reader.Reads (r : Reader) (url : Text) (refs : List Import) : Prop :=
  ∃ content, r.load url = .ok content ∧ imports content (some url) = .ok refs

/-- The routes from `root`: a route goes on by an import of its last sheet to a place that it has not come
    to yet. -/
inductive Reader.Leads (r : Reader) (root : Text) : Route → Prop
  | root : r.Leads root ⟨[], ⟨root, []⟩⟩
  | follow {ρ : Route} {refs : List Import} {i : Nat} {ref : Import} (front : r.Leads root ρ)
      (reads : r.Reads ρ.chain.url refs) (at_ : refs[i]? = some ref) (new : ref.url ∉ ρ.chain.places) :
      r.Leads root ⟨ρ.positions ++ [i], ρ.chain.extend ref.url⟩

section
variable {r : Reader} {root : Text}

theorem Chain.places_extend (c : Chain) (url : Text) : (c.extend url).places = url :: c.places := rfl

theorem Reader.Leads.length_places {ρ : Route} (h : r.Leads root ρ) :
    ρ.chain.places.length = ρ.positions.length + 1 := by
  induction h with
  | root => rfl
  | follow _ _ _ _ ih => simp [Chain.places_extend, ih]

theorem Reader.Leads.nodup_places {ρ : Route} (h : r.Leads root ρ) : ρ.chain.places.Nodup := by
  induction h with
  | root => simp [Chain.places]
  | follow _ _ _ new ih => exact List.nodup_cons.mpr ⟨new, ih⟩

/-- All places of a route but the last can be loaded. -/
theorem Reader.Leads.reads_above {ρ : Route} (h : r.Leads root ρ) :
    ∀ u ∈ ρ.chain.above, ∃ refs, r.Reads u refs := by
  induction h with
  | root => simp
  | follow _ reads _ _ ih =>
    intro u hu
    rcases List.mem_cons.mp hu with rfl | hu
    · exact ⟨_, reads⟩
    · exact ih u hu

/-! ### What a visit finds -/

theorem Reader.source_eq_ok {url : Text} {parent : Option Text} {s : Source} (h : r.source url parent = .ok s) :
    s.url = url ∧ s.parent = parent ∧ r.load url = .ok s.content ∧ imports s.content (some url) = .ok s.imports ∧
      s.comments = comments r.tags s.content := by
  unfold Reader.source at h
  split at h
  · cases h
  · rename_i content hload
    split at h
    · cases h
    · rename_i refs hrefs
      cases h
      exact ⟨rfl, rfl, hload, hrefs, rfl⟩

theorem Reader.Reads.source {url : Text} {refs : List Import} (h : r.Reads url refs) (parent : Option Text) :
    ∃ s, r.source url parent = .ok s ∧ s.imports = refs := by
  obtain ⟨content, hload, hrefs⟩ := h
  refine ⟨⟨url, parent, content, refs, comments r.tags content⟩, ?_, rfl⟩
  simp only [Reader.source, hload, hrefs]

theorem Reader.getElem?_found {c : Chain} {i : Nat} {ref : Import} :
    (r.visit c).found[i]? = some ref ↔ ∃ refs, r.Reads c.url refs ∧ refs[i]? = some ref := by
  constructor
  · intro h
    unfold Visit.found at h
    split at h
    · rename_i s hs
      obtain ⟨-, -, hload, hrefs, -⟩ := source_eq_ok hs
      exact ⟨_, ⟨_, hload, hrefs⟩, h⟩
    · simp at h
  · rintro ⟨refs, hreads, h⟩
    obtain ⟨s, hs, rfl⟩ := hreads.source c.above.head?
    simp only [Visit.found, Reader.visit, hs, h]

end

/-! ### Levels -/

/-- The routes that go on from `ρ` by one import, in the order of the imports. -/
def Reader.onward (r : Reader) (ρ : Route) : List Route :=
  ((r.visit ρ.chain).found.zipIdx.filter fun x => !ρ.chain.places.contains x.1.url).map fun x =>
    ⟨ρ.positions ++ [x.2], ρ.chain.extend x.1.url⟩

/-- The routes that follow `n` imports. -/
def Reader.level (r : Reader) (root : Text) : Nat → List Route
  | 0 => [⟨[], ⟨root, []⟩⟩]
  | n + 1 => (r.level root n).flatMap r.onward

section
variable {r : Reader} {root : Text}

theorem Reader.mem_onward {ρ σ : Route} : σ ∈ r.onward ρ ↔
    ∃ refs i ref, r.Reads ρ.chain.url refs ∧ refs[i]? = some ref ∧ ref.url ∉ ρ.chain.places ∧
      σ = ⟨ρ.positions ++ [i], ρ.chain.extend ref.url⟩ := by
  simp only [Reader.onward, List.mem_map, List.mem_filter, List.mem_zipIdx_iff_getElem?, getElem?_found,
    Bool.not_eq_true', List.contains_eq_mem, decide_eq_false_iff_not, Prod.exists]
  constructor
  · rintro ⟨ref, i, ⟨⟨refs, hreads, hi⟩, hnew⟩, rfl⟩
    exact ⟨refs, i, ref, hreads, hi, hnew, rfl⟩
  · rintro ⟨refs, i, ref, hreads, hi, hnew, rfl⟩
    exact ⟨ref, i, ⟨⟨refs, hreads, hi⟩, hnew⟩, rfl⟩

theorem Reader.mem_level {n : Nat} {ρ : Route} :
    ρ ∈ r.level root n ↔ r.Leads root ρ ∧ ρ.positions.length = n := by
  induction n generalizing ρ with
  | zero =>
    simp only [Reader.level, List.mem_singleton, List.length_eq_zero_iff]
    constructor
    · rintro rfl
      exact ⟨.root, rfl⟩
    · rintro ⟨h, hnil⟩
      cases h with
      | root => rfl
      | follow => simp at hnil
  | succ n ih =>
    simp only [Reader.level, List.mem_flatMap, mem_onward, ih]
    constructor
    · rintro ⟨ρ, ⟨hρ, rfl⟩, refs, i, ref, hreads, hi, hnew, rfl⟩
      exact ⟨.follow hρ hreads hi hnew, by simp⟩
    · rintro ⟨h, hlen⟩
      cases h with
      | root => simp at hlen
      | @follow ρ refs i ref front reads at_ new =>
        exact ⟨ρ, ⟨front, by simpa using hlen⟩, refs, i, ref, reads, at_, new, rfl⟩

/-! ### The order of a level -/

theorem lex_append_of_length {s t : List Nat} (h : List.Lex (· < ·) s t) (hlen : s.length = t.length)
    (s' t' : List Nat) : List.Lex (· < ·) (s ++ s') (t ++ t') := by
  induction h with
  | nil => simp at hlen
  | cons _ ih => exact .cons (ih (by simpa using hlen))
  | rel hlt => exact .rel hlt

theorem Reader.pairwise_onward (ρ : Route) :
    (r.onward ρ).Pairwise fun a b => List.Lex (· < ·) a.positions b.positions := by
  have hidx : ((r.visit ρ.chain).found.zipIdx.map Prod.snd).Pairwise (· < ·) := by
    rw [List.zipIdx_map_snd]
    exact List.pairwise_lt_range'
  rw [Reader.onward, List.pairwise_map]
  refine List.Pairwise.filter _ ((List.pairwise_map.mp hidx).imp fun hlt => ?_)
  exact List.Lex.append_left _ (.rel hlt) _

theorem Reader.pairwise_level (n : Nat) :
    (r.level root n).Pairwise fun a b => List.Lex (· < ·) a.positions b.positions := by
  induction n with
  | zero => exact List.pairwise_singleton _ _
  | succ n ih =>
    refine List.pairwise_flatMap.mpr ⟨fun ρ _ => pairwise_onward ρ, ih.imp_of_mem ?_⟩
    intro a b ha hb hlex x hx y hy
    obtain ⟨-, i, -, -, -, -, rfl⟩ := mem_onward.mp hx
    obtain ⟨-, j, -, -, -, -, rfl⟩ := mem_onward.mp hy
    have hlen : a.positions.length = b.positions.length := by rw [(mem_level.mp ha).2, (mem_level.mp hb).2]
    exact lex_append_of_length hlex hlen [i] [j]

/-! ### Exploring -/

theorem Reader.next_visit (ρ : Route) : (r.visit ρ.chain).next = (r.onward ρ).map (·.chain) := by
  have hfst : (r.visit ρ.chain).found = (r.visit ρ.chain).found.zipIdx.map Prod.fst := by simp
  rw [Visit.next, Reader.onward, List.map_map]
  conv_lhs => rw [hfst, List.filter_map, List.map_map]
  rfl

/-- The routes that follow less than `depth` imports in visiting order. -/
def Reader.routes (r : Reader) (root : Text) (depth : Nat) : List Route :=
  (List.range depth).flatMap (r.level root)

theorem Reader.level_eq_nil {n : Nat} (h : r.level root n = []) (k : Nat) : r.level root (n + k) = [] := by
  induction k with
  | zero => exact h
  | succ k ih => rw [← Nat.add_assoc, Reader.level, ih, List.flatMap_nil]

theorem Reader.explore_level (depth n : Nat) :
    r.explore depth ((r.level root n).map (·.chain)) =
      (List.range depth).flatMap fun k => (r.level root (n + k)).map fun ρ => r.visit ρ.chain := by
  induction depth generalizing n with
  | zero => rfl
  | succ depth ih =>
    rw [Reader.explore]
    split
    · rename_i hnil
      have hlevel : r.level root n = [] := by simpa using hnil
      simp [level_eq_nil hlevel]
    · have hnext : ((r.level root n).map fun ρ => r.visit ρ.chain).flatMap Visit.next =
          (r.level root (n + 1)).map (·.chain) := by
        rw [Reader.level, List.map_flatMap, List.flatMap_map]
        simp only [next_visit]
      rw [List.map_map]
      simp only [Function.comp_def, hnext, ih, List.range_succ_eq_map, List.flatMap_cons, List.flatMap_map,
        Nat.add_zero, Nat.add_succ, Nat.succ_add]

/-- Exploring from the root visits the routes in order. -/
theorem Reader.explore_root (depth : Nat) :
    r.explore depth [⟨root, []⟩] = (r.routes root depth).map fun ρ => r.visit ρ.chain := by
  have hlevel : [(⟨root, []⟩ : Chain)] = (r.level root 0).map (·.chain) := rfl
  rw [hlevel, explore_level, Reader.routes, List.map_flatMap]
  simp only [Nat.zero_add]

theorem Reader.mem_routes {depth : Nat} {ρ : Route} :
    ρ ∈ r.routes root depth ↔ r.Leads root ρ ∧ ρ.positions.length < depth := by
  simp only [Reader.routes, List.mem_flatMap, List.mem_range, mem_level]
  constructor
  · rintro ⟨n, hn, hρ, rfl⟩
    exact ⟨hρ, hn⟩
  · rintro ⟨hρ, hn⟩
    exact ⟨_, hn, hρ, rfl⟩

theorem Reader.pairwise_routes (depth : Nat) :
    (r.routes root depth).Pairwise fun a b => List.Shortlex (· < ·) a.positions b.positions := by
  refine List.pairwise_flatMap.mpr ⟨fun n _ => (pairwise_level n).imp_of_mem ?_, ?_⟩
  · intro a b ha hb hlex
    exact .of_lex (by rw [(mem_level.mp ha).2, (mem_level.mp hb).2]) hlex
  · refine List.pairwise_lt_range.imp fun {m n} hlt a ha b hb => .of_length_lt ?_
    rw [(mem_level.mp ha).2, (mem_level.mp hb).2]
    exact hlt

end
end Sheet
end Stylebook
