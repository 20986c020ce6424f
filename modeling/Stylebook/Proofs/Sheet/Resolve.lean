import Stylebook.Proofs.Sheet.Route

/-! Resolving sheets in memory. The chains of a graph are bounded by the number of entries, so that resolving
    visits every route; where every visited sheet can be read, the graph holds the sheets of all routes in
    visiting order, and the imports that lead back, each with the sheet where it stands. -/

namespace Stylebook
namespace Sheet

/-! ### Lengths of routes -/

section
variable {tags : Doc.TagTable} {entries : List (Text × Entry)} {root : Text}

theorem mem_entries_of_load {url content : Text} (h : loadEntry entries url = .ok content) :
    url ∈ entries.map (·.1) := by
  unfold loadEntry at h
  split at h
  · cases h
  · rename_i hlookup
    obtain ⟨front, back, rfl, -⟩ := List.lookup_eq_some_iff.mp hlookup
    simp
  all_goals cases h

/-- All places of a route but the last are entries, and none of them occurs twice. -/
theorem Reader.Leads.length_positions_le {ρ : Route} (h : Reader.Leads ⟨loadEntry entries, tags⟩ root ρ) :
    ρ.positions.length ≤ entries.length := by
  have hlen := h.length_places
  have hnodup : ρ.chain.above.Nodup := (List.nodup_cons.mp h.nodup_places).2
  have hsub : ρ.chain.above ⊆ entries.map (·.1) := by
    intro u hu
    obtain ⟨refs, content, hload, -⟩ := h.reads_above u hu
    exact mem_entries_of_load hload
  have hle := hnodup.length_le_of_subset hsub
  rw [List.length_map] at hle
  simp only [Chain.places, List.length_cons] at hlen
  omega

theorem mem_routes_entries {ρ : Route} :
    ρ ∈ Reader.routes ⟨loadEntry entries, tags⟩ root (entries.length + 1) ↔
      Reader.Leads ⟨loadEntry entries, tags⟩ root ρ := by
  rw [Reader.mem_routes]
  exact ⟨fun h => h.1, fun h => ⟨h, Nat.lt_succ_of_le h.length_positions_le⟩⟩

end

/-! ### Graphs without a fault -/

/-- `s` is the sheet at the end of the route `ρ`. -/
structure Reader.Ends (r : Reader) (ρ : Route) (s : Source) : Prop where
  url : s.url = ρ.chain.url
  parent : s.parent = ρ.chain.above.head?
  content : r.load s.url = .ok s.content
  imports : Sheet.imports s.content (some s.url) = .ok s.imports
  comments : s.comments = Sheet.comments r.tags s.content

/-- The imports of `s` that lead to one of the places, each with the place of `s`. -/
def Source.backTo (s : Source) (places : List Text) : List (Text × Text) :=
  (s.imports.filter fun i => places.contains i.url).map fun i => (i.url, s.url)

section
variable {r : Reader} {root : Text}

theorem Reader.Reads.ends {ρ : Route} {refs : List Import} (h : r.Reads ρ.chain.url refs) :
    ∃ s, r.visit ρ.chain = ⟨ρ.chain, .ok s⟩ ∧ r.Ends ρ s := by
  obtain ⟨s, hs, -⟩ := h.source ρ.chain.above.head?
  obtain ⟨hurl, hparent, hload, himports, hcomments⟩ := source_eq_ok hs
  refine ⟨s, by rw [Reader.visit, hs], hurl, hparent, ?_, ?_, hcomments⟩
  · rw [hurl, hload]
  · rw [hurl, himports]

theorem Reader.fault?_eq_none {visits : List Visit} (h : ∀ v ∈ visits, v.failure? = none) :
    r.fault? root visits = none := by
  have hall : visits.all (·.failure?.isNone) = true := by
    rw [List.all_eq_true]
    intro v hv
    rw [h v hv]
    rfl
  rw [Reader.fault?, if_pos hall]

/-- Where every route ends at a sheet, the graph holds these sheets in the order of the routes. -/
theorem Reader.resolve_of_reads (depth : Nat) (h : ∀ ρ, r.Leads root ρ → ∃ refs, r.Reads ρ.chain.url refs) :
    ∃ visited : List (Route × Source), visited.map (·.1) = r.routes root depth ∧
      (∀ x ∈ visited, r.Ends x.1 x.2) ∧
      r.resolve depth root =
        .ok ⟨visited.map (·.2), visited.flatMap fun x => x.2.backTo x.1.chain.places⟩ := by
  have hvisit : ∀ ρ, ∃ s, ρ ∈ r.routes root depth → r.visit ρ.chain = ⟨ρ.chain, .ok s⟩ ∧ r.Ends ρ s := by
    intro ρ
    by_cases hρ : ρ ∈ r.routes root depth
    · obtain ⟨refs, hreads⟩ := h ρ (mem_routes.mp hρ).1
      obtain ⟨s, hs⟩ := hreads.ends
      exact ⟨s, fun _ => hs⟩
    · exact ⟨⟨[], none, [], [], []⟩, fun hin => absurd hin hρ⟩
  choose find hfind using hvisit
  refine ⟨(r.routes root depth).map fun ρ => (ρ, find ρ), ?_, ?_, ?_⟩
  · rw [List.map_map]
    exact List.map_id _
  · intro x hx
    obtain ⟨ρ, hρ, rfl⟩ := List.mem_map.mp hx
    exact (hfind ρ hρ).2
  · have hvisits : r.explore depth [⟨root, []⟩] =
        (r.routes root depth).map fun ρ => ⟨ρ.chain, .ok (find ρ)⟩ := by
      rw [explore_root]
      exact List.map_congr_left fun ρ hρ => (hfind ρ hρ).1
    have hfault : r.fault? root (r.explore depth [⟨root, []⟩]) = none := by
      refine Reader.fault?_eq_none fun v hv => ?_
      rw [hvisits] at hv
      obtain ⟨ρ, -, rfl⟩ := List.mem_map.mp hv
      rfl
    have hback : ∀ ρ ∈ r.routes root depth,
        Visit.skipped ⟨ρ.chain, .ok (find ρ)⟩ = (find ρ).backTo ρ.chain.places := by
      intro ρ hρ
      rw [Source.backTo, (hfind ρ hρ).2.url]
      rfl
    simp only [Reader.resolve, hfault]
    rw [hvisits, List.filterMap_map, List.map_map, List.flatMap_map, List.flatMap_map]
    congr 2
    · exact congrFun List.filterMap_eq_map _
    · exact List.flatMap_congr hback

end

/-! ### Closed sets of places -/

/-- Whether all the places can be read and import only one another. -/
def Reader.closed (r : Reader) (places : List Text) : Bool :=
  places.all fun u =>
    match r.source u none with
    | .ok s => s.imports.all fun i => places.contains i.url
    | .error _ => false

section
variable {r : Reader} {root : Text} {places : List Text}

theorem Reader.reads_of_closed (h : r.closed places = true) {u : Text} (hu : u ∈ places) :
    ∃ refs, r.Reads u refs ∧ ∀ ref ∈ refs, ref.url ∈ places := by
  have hall := List.all_eq_true.mp h u hu
  split at hall
  · rename_i s hs
    obtain ⟨-, -, hload, himports, -⟩ := source_eq_ok hs
    exact ⟨s.imports, ⟨s.content, hload, himports⟩, by simpa using hall⟩
  · cases hall

theorem Reader.Reads.unique {u : Text} {refs refs' : List Import} (h : r.Reads u refs) (h' : r.Reads u refs') :
    refs = refs' := by
  obtain ⟨content, hload, hrefs⟩ := h
  obtain ⟨content', hload', hrefs'⟩ := h'
  cases hload.symm.trans hload'
  cases hrefs.symm.trans hrefs'
  rfl

/-- No route leaves a closed set of places. -/
theorem Reader.Leads.mem_of_closed (hclosed : r.closed places = true) (hroot : root ∈ places) {ρ : Route}
    (h : r.Leads root ρ) : ρ.chain.url ∈ places := by
  induction h with
  | root => exact hroot
  | follow _ reads at_ _ ih =>
    obtain ⟨refs, hreads, hin⟩ := reads_of_closed hclosed ih
    rw [reads.unique hreads] at at_
    exact hin _ (List.mem_of_getElem? at_)

end

/-! ### The sheets of a graph -/

/-- Where every place that is reached can be read, resolving gives one sheet for each route from the root: the
    shorter routes first, those of one length in the order of the positions of their imports. The imports
    that are skipped are those that lead back on their route, in the same order. -/
theorem resolveEntries_eq_routes (tags : Doc.TagTable) (entries : List (Text × Entry)) (root : Text)
    (h : ∀ ρ, Reader.Leads ⟨loadEntry entries, tags⟩ root ρ →
      ∃ refs, Reader.Reads ⟨loadEntry entries, tags⟩ ρ.chain.url refs) :
    ∃ visited : List (Route × Source),
      (visited.map (·.1)).Pairwise (fun a b => List.Shortlex (· < ·) a.positions b.positions) ∧
      (∀ ρ, ρ ∈ visited.map (·.1) ↔ Reader.Leads ⟨loadEntry entries, tags⟩ root ρ) ∧
      (∀ x ∈ visited, Reader.Ends ⟨loadEntry entries, tags⟩ x.1 x.2) ∧
      resolveEntries tags entries root =
        .ok ⟨visited.map (·.2), visited.flatMap fun x => x.2.backTo x.1.chain.places⟩ := by
  obtain ⟨visited, hroutes, hends, hresolve⟩ := Reader.resolve_of_reads (entries.length + 1) h
  refine ⟨visited, ?_, ?_, hends, hresolve⟩
  · rw [hroutes]
    exact Reader.pairwise_routes _
  · intro ρ
    rw [hroutes]
    exact mem_routes_entries

/-- A sheet with two imports of another, which imports it back. -/
def twoWayEntries : List (Text × Entry) :=
  [("a".text, .text "@import 'b'; @import url(b);".text), ("b".text, .text "@import 'a';".text)]

theorem twoWayEntries_closed :
    Reader.closed ⟨loadEntry twoWayEntries, Doc.TagTable.default⟩ ["a".text, "b".text] = true := by
  decide +kernel

theorem resolveEntries_twoWay :
    (∀ ρ, Reader.Leads ⟨loadEntry twoWayEntries, Doc.TagTable.default⟩ "a".text ρ →
      ∃ refs, Reader.Reads ⟨loadEntry twoWayEntries, Doc.TagTable.default⟩ ρ.chain.url refs) ∧
    ∃ visited : List (Route × Source),
      (visited.map (·.1)).Pairwise (fun a b => List.Shortlex (· < ·) a.positions b.positions) ∧
      (∀ ρ, ρ ∈ visited.map (·.1) ↔ Reader.Leads ⟨loadEntry twoWayEntries, Doc.TagTable.default⟩ "a".text ρ) ∧
      (∀ x ∈ visited, Reader.Ends ⟨loadEntry twoWayEntries, Doc.TagTable.default⟩ x.1 x.2) ∧
      resolveEntries Doc.TagTable.default twoWayEntries "a".text =
        .ok ⟨visited.map (·.2), visited.flatMap fun x => x.2.backTo x.1.chain.places⟩ := by
  have hreads : ∀ ρ, Reader.Leads ⟨loadEntry twoWayEntries, Doc.TagTable.default⟩ "a".text ρ →
      ∃ refs, Reader.Reads ⟨loadEntry twoWayEntries, Doc.TagTable.default⟩ ρ.chain.url refs := by
    intro ρ hρ
    have hin := hρ.mem_of_closed twoWayEntries_closed (by simp)
    obtain ⟨refs, hrefs, -⟩ := Reader.reads_of_closed twoWayEntries_closed hin
    exact ⟨refs, hrefs⟩
  exact ⟨hreads, resolveEntries_eq_routes _ _ _ hreads⟩

end Sheet
end Stylebook
