import Stylebook.Proofs.Sheet.Resolve
import Stylebook.Proofs.Sheet.Verdict

/-! The fault of a graph. Resolving sheets in memory fails exactly where a route ends at a place that cannot be
    loaded, and then with the load error of such a route. It is the first in visiting order of those that follow
    it up to their own last import, though not of all. -/

namespace Stylebook
namespace Sheet

open Loading (LoadError)

/-! ### Routes by their positions -/

section
variable {r : Reader} {root : Text}

theorem Reader.Leads.unique {ρ σ : Route} (hρ : r.Leads root ρ) (hσ : r.Leads root σ)
    (h : ρ.positions = σ.positions) : ρ = σ := by
  induction hρ generalizing σ with
  | root =>
    cases hσ with
    | root => rfl
    | follow => simp at h
  | @follow ρ refs i ref front reads at_ new ih =>
    cases hσ with
    | root => simp at h
    | @follow σ refs' i' ref' front' reads' at_' new' =>
      obtain ⟨hfront, hlast⟩ := List.append_inj' h rfl
      obtain rfl := ih front' hfront
      cases hlast
      obtain rfl := reads.unique reads'
      cases at_.symm.trans at_'
      rfl

theorem Reader.Leads.mem_onward {σ τ : Route} (hσ : r.Leads root σ) (hτ : r.Leads root τ) {n : Nat}
    (h : τ.positions = σ.positions ++ [n]) : τ ∈ r.onward σ := by
  cases hτ with
  | root => simp at h
  | @follow ρ refs i ref front reads at_ new =>
    obtain ⟨hfront, -⟩ := List.append_inj' h rfl
    obtain rfl := front.unique hσ hfront
    exact Reader.mem_onward.mpr ⟨refs, i, ref, reads, at_, new, rfl⟩

/-- A route that goes on by one import of another, or the root. -/
theorem Reader.Leads.eq_nil_or_mem_onward {σ τ : Route} (hσ : r.Leads root σ) (hτ : r.Leads root τ)
    (h : τ.positions.dropLast = σ.positions) : τ = σ ∨ τ ∈ r.onward σ := by
  rcases List.eq_nil_or_concat τ.positions with hnil | ⟨front, n, hτn⟩
  · refine .inl (hτ.unique hσ ?_)
    rw [← h, hnil, List.dropLast_nil]
  · rw [hτn, List.concat_eq_append, List.dropLast_concat] at h
    exact .inr (hσ.mem_onward hτ (by rw [hτn, List.concat_eq_append, h]))

/-! ### The route of a report -/

/-- No failing route that follows `ρ` up to its own last import, and at least as far as `σ` goes, comes before
    `ρ`. -/
def Reader.FirstFrom (r : Reader) (root : Text) (σ ρ : Route) : Prop :=
  ∀ {τ}, r.Leads root τ → (r.visit τ.chain).failure? ≠ none → τ.positions.dropLast <+: ρ.positions →
    σ.positions.length ≤ τ.positions.dropLast.length → ¬List.Shortlex (· < ·) τ.positions ρ.positions

theorem not_shortlex_of_length {s t : List Nat} (h : t.length < s.length) : ¬List.Shortlex (· < ·) s t := by
  rw [List.shortlex_def]
  omega

theorem not_shortlex_self (s : List Nat) : ¬List.Shortlex (· < ·) s s := by
  rw [List.shortlex_def]
  rintro (h | ⟨-, h⟩)
  · omega
  · exact List.lt_irrefl s h

theorem Reader.intact_of_onward {σ τ : Route} (h : τ ∈ r.onward σ) : (r.visit σ.chain).failure? = none := by
  by_contra hfails
  obtain ⟨f, hf⟩ := Option.ne_none_iff_exists'.mp hfails
  have hnil : (r.onward σ).map (·.chain) = [] := next_visit σ ▸ Schedule.next_eq_nil hf
  simp [List.map_eq_nil_iff.mp hnil] at h

theorem Reader.positions_onward {σ τ : Route} (h : τ ∈ r.onward σ) : ∃ n, τ.positions = σ.positions ++ [n] := by
  obtain ⟨-, n, -, -, -, -, rfl⟩ := Reader.mem_onward.mp h
  exact ⟨n, rfl⟩

/-- A failing route that leaves `ρ` where `σ` ends goes on from `σ`. -/
theorem Reader.Leads.mem_onward_of_leaves {σ ρ τ : Route} (hσ : r.Leads root σ) (hτ : r.Leads root τ)
    (hfails : (r.visit τ.chain).failure? ≠ none) (hintact : (r.visit σ.chain).failure? = none)
    (hσρ : σ.positions <+: ρ.positions) (hτρ : τ.positions.dropLast <+: ρ.positions)
    (hlen : τ.positions.dropLast.length = σ.positions.length) : τ ∈ r.onward σ := by
  have hfollows := List.prefix_of_prefix_length_le hτρ hσρ (Nat.le_of_eq hlen)
  rcases hσ.eq_nil_or_mem_onward hτ (hfollows.eq_of_length hlen) with rfl | hon
  · exact absurd hintact hfails
  · exact hon

/-- The first failing route of those that go on from `σ`. -/
theorem Reader.firstFrom_of_find? {σ ρ : Route} (hσ : r.Leads root σ)
    (h : (r.onward σ).find? (fun τ => (r.visit τ.chain).failure?.isSome) = some ρ) : r.FirstFrom root σ ρ := by
  obtain ⟨-, before, behind, hsplit, hbefore⟩ := List.find?_eq_some_iff_append.mp h
  have hρ : ρ ∈ r.onward σ := List.mem_of_find?_eq_some h
  obtain ⟨n, hn⟩ := positions_onward hρ
  intro τ hτ hfails hfollows hlen
  by_cases hdeeper : σ.positions.length < τ.positions.dropLast.length
  · refine not_shortlex_of_length ?_
    rw [List.length_dropLast] at hdeeper
    rw [hn, List.length_append, List.length_singleton]
    omega
  · have hon := hσ.mem_onward_of_leaves hτ hfails (intact_of_onward hρ) (hn ▸ List.prefix_append _ _) hfollows (by omega)
    obtain ⟨m, hm⟩ := positions_onward hon
    have hpairwise := pairwise_onward (r := r) σ
    rw [hsplit] at hon hpairwise
    rcases List.mem_append.mp hon with hbef | hbeh
    · have hnot := hbefore τ hbef
      rw [Bool.not_eq_true', Option.isSome_eq_false_iff, Option.isNone_iff_eq_none] at hnot
      exact absurd hnot hfails
    · rcases List.mem_cons.mp hbeh with rfl | hbeh
      · exact not_shortlex_self _
      · have hlt := (List.pairwise_cons.mp (List.pairwise_append.mp hpairwise).2.1).1 τ hbeh
        rw [List.shortlex_iff_lex (by rw [hm, hn, List.length_append, List.length_append]; rfl)]
        exact List.lt_asymm hlt

theorem Reader.Reports.route {σ : Route} {x : LoadError} (h : r.Reports σ.chain x) (hσ : r.Leads root σ) :
    ∃ ρ, r.Leads root ρ ∧ σ.positions <+: ρ.positions ∧ (r.visit ρ.chain).failure? = some (.load x) ∧
      r.FirstFrom root σ ρ := by
  generalize hc : σ.chain = c at h
  induction h generalizing σ with
  | here fails =>
    refine ⟨σ, hσ, List.prefix_refl _, hc ▸ fails, fun {τ} hτ _ hfollows hlen => ?_⟩
    rcases hσ.eq_nil_or_mem_onward hτ (hfollows.eq_of_length_le hlen) with rfl | hon
    · exact not_shortlex_self _
    · obtain ⟨-, n, -, -, -, -, rfl⟩ := Reader.mem_onward.mp hon
      exact not_shortlex_of_length (by simp)
  | first first fails =>
    subst hc
    rw [Reader.next_visit, List.find?_map, Option.map_eq_some_iff] at first
    obtain ⟨ρ, hfind, rfl⟩ := first
    obtain ⟨refs, i, ref, hreads, hi, hnew, hρ⟩ := Reader.mem_onward.mp (List.mem_of_find?_eq_some hfind)
    refine ⟨ρ, hρ ▸ .follow hσ hreads hi hnew, hρ ▸ List.prefix_append _ _, fails, firstFrom_of_find? hσ hfind⟩
  | beyond intact next deeper ih =>
    subst hc
    rw [Reader.next_visit] at intact next
    obtain ⟨σ', hσ', rfl⟩ := List.mem_map.mp next
    obtain ⟨refs, i, ref, hreads, hi, hnew, hpos⟩ := Reader.mem_onward.mp hσ'
    obtain ⟨ρ, hρ, hfollows, hfails, hfirst⟩ := ih (hpos ▸ .follow hσ hreads hi hnew) rfl
    have hσρ : σ.positions <+: ρ.positions := (hpos ▸ List.prefix_append _ _ : σ.positions <+: σ'.positions).trans hfollows
    refine ⟨ρ, hρ, hσρ, hfails, fun {τ} hτ hτfails hτρ hlen => ?_⟩
    by_cases hdeeper : σ.positions.length < τ.positions.dropLast.length
    · refine hfirst hτ hτfails hτρ ?_
      rw [hpos, List.length_append, List.length_singleton]
      omega
    · have hon := hσ.mem_onward_of_leaves hτ hτfails (intact_of_onward hσ') hσρ hτρ (by omega)
      exact absurd (intact _ (List.mem_map.mpr ⟨τ, hon, rfl⟩)) hτfails

/-! ### The fault of a graph -/

theorem cost_start (n : Nat) :
    (Schedule.start root).cost r n ≤ 5 * (r.explore (n + 1) [⟨root, []⟩]).length := by
  have hcost : (Schedule.start root).cost r n = 4 + 5 * r.beneath n ⟨root, []⟩ := by
    simp only [Schedule.cost, Schedule.start, List.map_singleton, List.sum_singleton, List.length_singleton,
      Branch.cost_ready, List.length_nil, Nat.sub_zero]
    omega
  rw [hcost, Reader.length_explore, List.map_singleton, List.sum_singleton]
  omega

/-- Where no visit fails, every route ends at a sheet. -/
theorem Reader.intact_of_all {n : Nat} (hdeep : ∀ ρ, r.Leads root ρ → ρ.positions.length ≤ n)
    (hall : (r.explore (n + 1) [⟨root, []⟩]).all (·.failure?.isNone) = true) {ρ : Route} (hρ : r.Leads root ρ) :
    (r.visit ρ.chain).failure? = none := by
  rw [explore_root, List.all_map, List.all_eq_true] at hall
  simpa using hall ρ (mem_routes.mpr ⟨hρ, Nat.lt_succ_of_le (hdeep ρ hρ)⟩)

/-- Where sheets fail with load errors only, the graph has no fault and every route ends at a sheet, or the fault
    is the load error of a route. -/
theorem Reader.fault?_explore {n : Nat}
    (hload : ∀ {ρ f}, r.Leads root ρ → (r.visit ρ.chain).failure? = some f → ∃ x, f = .load x)
    (hdeep : ∀ ρ, r.Leads root ρ → ρ.positions.length ≤ n) :
    (∀ {ρ}, r.Leads root ρ → (r.visit ρ.chain).failure? = none) ∧
        r.fault? root (r.explore (n + 1) [⟨root, []⟩]) = none ∨
      ∃ ρ x, r.Leads root ρ ∧ (r.visit ρ.chain).failure? = some (.load x) ∧
        r.FirstFrom root ⟨[], ⟨root, []⟩⟩ ρ ∧
        r.fault? root (r.explore (n + 1) [⟨root, []⟩]) = some (.failure (.load x)) := by
  unfold Reader.fault?
  split
  · rename_i hall
    exact .inl ⟨intact_of_all hdeep hall, rfl⟩
  · rcases Schedule.run_start _ hload hdeep (cost_start n) with hnone | ⟨x, hfault, hreports⟩
    · exact .inl hnone
    · obtain ⟨ρ, hρ, -, hfails, hfirst⟩ := Reader.Reports.route (σ := ⟨[], ⟨root, []⟩⟩) hreports .root
      exact .inr ⟨ρ, x, hρ, hfails, hfirst, hfault⟩

end

/-! ### Sheets in memory -/

/-- Why a place cannot be loaded: it is not listed, or it is listed with the reason. -/
inductive FailsFor (entries : List (Text × Entry)) (url : Text) : Text → Prop
  | missing (unlisted : entries.lookup url = none) : FailsFor entries url "not found".text
  | listed {reason : Text} (listed : entries.lookup url = some (.fail reason)) : FailsFor entries url reason

section
variable {tags : Doc.TagTable} {entries : List (Text × Entry)} {root : Text}

theorem FailsFor.load {url reason : Text} (h : FailsFor entries url reason) :
    loadEntry entries url = .error (.load ⟨url, .note reason⟩) := by
  cases h with
  | missing unlisted => simp [loadEntry, unlisted]
  | listed listed => simp [loadEntry, listed]

theorem failure?_of_failsFor {c : Chain} {reason : Text} (h : FailsFor entries c.url reason) :
    (Reader.visit ⟨loadEntry entries, tags⟩ c).failure? = some (.load ⟨c.url, .note reason⟩) := by
  simp [Visit.failure?, Reader.visit, Reader.source, h.load]

/-- With texts and failing places only, a sheet whose imports resolve fails for a reason. -/
theorem failsFor_of_failure? {c : Chain} {f : Loading.Failure}
    (hplain : ∀ x ∈ entries, (∃ t, x.2 = .text t) ∨ ∃ reason, x.2 = .fail reason)
    (himports : ∀ {content}, loadEntry entries c.url = .ok content → ∃ refs, imports content (some c.url) = .ok refs)
    (h : (Reader.visit ⟨loadEntry entries, tags⟩ c).failure? = some f) :
    ∃ reason, FailsFor entries c.url reason ∧ f = .load ⟨c.url, .note reason⟩ := by
  have hreason : ∀ {reason}, FailsFor entries c.url reason → f = .load ⟨c.url, .note reason⟩ :=
    fun hfails => Option.some.inj (h.symm.trans (failure?_of_failsFor hfails))
  cases hlookup : entries.lookup c.url with
  | none => exact ⟨_, .missing hlookup, hreason (.missing hlookup)⟩
  | some entry =>
    have hmem : (c.url, entry) ∈ entries := by
      obtain ⟨front, back, rfl, -⟩ := List.lookup_eq_some_iff.mp hlookup
      simp
    rcases hplain _ hmem with ⟨t, rfl⟩ | ⟨reason, rfl⟩
    · have hload : loadEntry entries c.url = .ok t := by simp [loadEntry, hlookup]
      obtain ⟨refs, hrefs⟩ := himports hload
      simp [Visit.failure?, Reader.visit, Reader.source, hload, hrefs] at h
    · exact ⟨reason, .listed hlookup, hreason (.listed hlookup)⟩

end

/-- Resolving sheets in memory, where places fail with load errors only and all imports of the sheets that are
    reached resolve, fails exactly if a route from the root ends at a place that fails. It fails with the load
    error of one such route, and no failing route that follows this one up to its own last import comes
    before it in visiting order. -/
theorem resolveEntries_fault (tags : Doc.TagTable) (entries : List (Text × Entry)) (root : Text)
    (hplain : ∀ x ∈ entries, (∃ t, x.2 = .text t) ∨ ∃ reason, x.2 = .fail reason)
    (himports : ∀ ρ, Reader.Leads ⟨loadEntry entries, tags⟩ root ρ → ∀ content,
      loadEntry entries ρ.chain.url = .ok content → ∃ refs, imports content (some ρ.chain.url) = .ok refs) :
    ((∃ e, resolveEntries tags entries root = .error e) ↔
      ∃ ρ reason, Reader.Leads ⟨loadEntry entries, tags⟩ root ρ ∧ FailsFor entries ρ.chain.url reason) ∧
    ∀ e, resolveEntries tags entries root = .error e →
      ∃ ρ reason, Reader.Leads ⟨loadEntry entries, tags⟩ root ρ ∧ FailsFor entries ρ.chain.url reason ∧
        e = .failure (.load ⟨ρ.chain.url, .note reason⟩) ∧
        ∀ τ reason', Reader.Leads ⟨loadEntry entries, tags⟩ root τ → FailsFor entries τ.chain.url reason' →
          τ.positions.dropLast <+: ρ.positions → ¬List.Shortlex (· < ·) τ.positions ρ.positions := by
  have hreason : ∀ {ρ f}, Reader.Leads ⟨loadEntry entries, tags⟩ root ρ →
      (Reader.visit ⟨loadEntry entries, tags⟩ ρ.chain).failure? = some f →
      ∃ reason, FailsFor entries ρ.chain.url reason ∧ f = .load ⟨ρ.chain.url, .note reason⟩ :=
    fun {ρ f} hρ hf => failsFor_of_failure? hplain (fun {content} => himports ρ hρ content) hf
  have hcases := Reader.fault?_explore (r := ⟨loadEntry entries, tags⟩) (n := entries.length)
    (fun hρ hf => by
      obtain ⟨reason, -, rfl⟩ := hreason hρ hf
      exact ⟨_, rfl⟩)
    (fun ρ hρ => hρ.length_positions_le)
  simp only [resolveEntries, Reader.resolve]
  rcases hcases with ⟨hok, hnone⟩ | ⟨ρ, x, hρ, hfails, hfirst, hfault⟩
  · rw [hnone]
    refine ⟨⟨fun hfault => ?_, fun hroute => ?_⟩, fun e he => by cases he⟩
    · obtain ⟨e, he⟩ := hfault
      cases he
    · obtain ⟨ρ, reason, hρ, hfails⟩ := hroute
      exact absurd ((hok hρ).symm.trans (failure?_of_failsFor hfails)) (by simp)
  · rw [hfault]
    obtain ⟨reason, hfor, hx⟩ := hreason hρ hfails
    cases hx
    refine ⟨⟨fun _ => ⟨ρ, reason, hρ, hfor⟩, fun _ => ⟨_, rfl⟩⟩, fun e he => ?_⟩
    cases he
    refine ⟨ρ, reason, hρ, hfor, rfl, fun τ reason' hτ hτfor hfollows => hfirst hτ ?_ hfollows (Nat.zero_le _)⟩
    rw [failure?_of_failsFor hτfor]
    simp

/-- Two sheets with a missing import each. The first of them has another import, below which more is loaded, so that it
    is over later than the second. -/
def delayedEntries : List (Text × Entry) :=
  [("r".text, .text "@import 'A'; @import 'B';".text), ("A".text, .text "@import 'X'; @import 'C';".text),
    ("B".text, .text "@import 'Y';".text), ("C".text, .text "@import 'D';".text), ("D".text, .text [])]

theorem delayedEntries_plain :
    ∀ x ∈ delayedEntries, (∃ t, x.2 = .text t) ∨ ∃ reason, x.2 = .fail reason := by
  simp [delayedEntries]

/-- Whether the imports of the sheet at a place resolve, if it can be loaded. -/
def resolvesAt (entries : List (Text × Entry)) (url : Text) : Bool :=
  match loadEntry entries url with
  | .ok content => (imports content (some url)).isOk
  | .error _ => true

theorem delayedEntries_imports :
    ∀ ρ, Reader.Leads ⟨loadEntry delayedEntries, Doc.TagTable.default⟩ "r".text ρ → ∀ content,
      loadEntry delayedEntries ρ.chain.url = .ok content → ∃ refs, imports content (some ρ.chain.url) = .ok refs := by
  have hall : ∀ ρ ∈ Reader.routes ⟨loadEntry delayedEntries, Doc.TagTable.default⟩ "r".text (delayedEntries.length + 1),
      resolvesAt delayedEntries ρ.chain.url = true := by
    decide +kernel
  intro ρ hρ content hload
  have hok := hall ρ (mem_routes_entries.mpr hρ)
  simp only [resolvesAt, hload] at hok
  cases hrefs : imports content (some ρ.chain.url) with
  | ok refs => exact ⟨refs, rfl⟩
  | error e => simp [hrefs, Except.isOk, Except.toBool] at hok

theorem resolveEntries_fault_delayed :
    (∀ x ∈ delayedEntries, (∃ t, x.2 = .text t) ∨ ∃ reason, x.2 = .fail reason) ∧
    (∀ ρ, Reader.Leads ⟨loadEntry delayedEntries, Doc.TagTable.default⟩ "r".text ρ → ∀ content,
      loadEntry delayedEntries ρ.chain.url = .ok content → ∃ refs, imports content (some ρ.chain.url) = .ok refs) ∧
    ∃ ρ reason, Reader.Leads ⟨loadEntry delayedEntries, Doc.TagTable.default⟩ "r".text ρ ∧
      FailsFor delayedEntries ρ.chain.url reason ∧
      resolveEntries Doc.TagTable.default delayedEntries "r".text =
        .error (.failure (.load ⟨ρ.chain.url, .note reason⟩)) := by
  refine ⟨delayedEntries_plain, delayedEntries_imports, ?_⟩
  obtain ⟨hiff, hreported⟩ := resolveEntries_fault Doc.TagTable.default delayedEntries "r".text delayedEntries_plain
    delayedEntries_imports
  obtain ⟨e, he⟩ := hiff.mpr ⟨⟨[0, 0], ⟨"X".text, ["A".text, "r".text]⟩⟩, _,
    mem_routes_entries.mp (by decide +kernel), .missing (by decide +kernel)⟩
  obtain ⟨ρ, reason, hρ, hfails, rfl, -⟩ := hreported e he
  exact ⟨ρ, reason, hρ, hfails, he⟩

/-- The failing route that comes first in visiting order need not be the one that is reported. -/
theorem resolveEntries_fault_not_first :
    (∀ x ∈ delayedEntries, (∃ t, x.2 = .text t) ∨ ∃ reason, x.2 = .fail reason) ∧
    (∀ ρ, Reader.Leads ⟨loadEntry delayedEntries, Doc.TagTable.default⟩ "r".text ρ → ∀ content,
      loadEntry delayedEntries ρ.chain.url = .ok content → ∃ refs, imports content (some ρ.chain.url) = .ok refs) ∧
    ¬∀ e, resolveEntries Doc.TagTable.default delayedEntries "r".text = .error e →
      ∃ ρ reason, Reader.Leads ⟨loadEntry delayedEntries, Doc.TagTable.default⟩ "r".text ρ ∧
        FailsFor delayedEntries ρ.chain.url reason ∧ e = .failure (.load ⟨ρ.chain.url, .note reason⟩) ∧
        ∀ τ reason', Reader.Leads ⟨loadEntry delayedEntries, Doc.TagTable.default⟩ "r".text τ →
          FailsFor delayedEntries τ.chain.url reason' → ¬List.Shortlex (· < ·) τ.positions ρ.positions := by
  refine ⟨delayedEntries_plain, delayedEntries_imports, fun hclaim => ?_⟩
  have hfault : Reader.fault? ⟨loadEntry delayedEntries, Doc.TagTable.default⟩ "r".text
      (Reader.explore ⟨loadEntry delayedEntries, Doc.TagTable.default⟩ (delayedEntries.length + 1) [⟨"r".text, []⟩]) =
        some (.failure (.load ⟨"Y".text, .note "not found".text⟩)) := by
    decide +kernel
  have hresolve : resolveEntries Doc.TagTable.default delayedEntries "r".text =
      .error (.failure (.load ⟨"Y".text, .note "not found".text⟩)) := by
    simp only [resolveEntries, Reader.resolve, hfault]
  obtain ⟨ρ, reason, hρ, -, he, hfirst⟩ := hclaim _ hresolve
  have hurl : ρ.chain.url = "Y".text := by
    simp only [GraphError.failure.injEq, Loading.Failure.load.injEq, LoadError.mk.injEq] at he
    exact he.1.symm
  have hpositions : ∀ ρ ∈ Reader.routes ⟨loadEntry delayedEntries, Doc.TagTable.default⟩ "r".text
      (delayedEntries.length + 1), ρ.chain.url = "Y".text → ρ.positions = [1, 0] := by
    decide +kernel
  refine hfirst ⟨[0, 0], ⟨"X".text, ["A".text, "r".text]⟩⟩ _ (mem_routes_entries.mp (by decide +kernel))
    (.missing (by decide +kernel)) ?_
  rw [hpositions ρ (mem_routes_entries.mpr hρ) hurl]
  exact .of_lex rfl (.rel (by decide))

end Sheet
end Stylebook
