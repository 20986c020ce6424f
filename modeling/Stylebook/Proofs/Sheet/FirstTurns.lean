import Mathlib.Data.List.Count
import Stylebook.Proofs.Sheet.Bounds

/-! The order of the first turns. A branch loads its sheet when it gets its first turn. The branches that have not begun
    stand in the queue like in a list of work: the first of them is taken out, and those that it begins come behind all
    others (`upcoming_moves`). So the first turns come in the order in which the chains are explored level by level,
    whatever else is worked off in between and whichever sheets fail, and a graph holds what the branches load in this
    order (`resolveEntries_eq_inTurns`). -/

namespace Stylebook
namespace Sheet
namespace Schedule

/-! ### Branches that have not begun -/

/-- The chain of the branch that gets its first turn with an event. -/
def first? (s : Schedule) : Event → Option Chain
  | .turn i => (s.branches[i]?.filter fun b => b.phase == .ready).map (·.chain)
  | .closed _ => none

/-- The chains of the branches that are to get their first turn, in the order of the queue. -/
def upcoming (s : Schedule) : List Chain := s.queue.filterMap s.first?

/-- The chains of the branches that get their first turn within the next `m` events, one after the other. -/
def firstTurns (r : Reader) : Nat → Schedule → List Chain
  | 0, _ => []
  | m + 1, s => (s.queue.take 1).filterMap s.first? ++ firstTurns r m (s.step r)

/-- A branch that has not begun has no more than one turn coming, and every turn is that of a branch. -/
structure InLine (s : Schedule) : Prop where
  once : ∀ {k b}, s.At k b → b.phase = .ready → s.queue.count (.turn k) ≤ 1
  known : ∀ {k}, .turn k ∈ s.queue → k < s.branches.length

section
variable {r : Reader} {root : Text} {s t : Schedule} {e : Event} {i k : Nat} {b b' c : Branch} {ids : List Nat}
  {es : List Event}

theorem first?_ready (h : s.At k b) (hready : b.phase = .ready) : s.first? (.turn k) = some b.chain := by
  simp [first?, show s.branches[k]? = some b from h, hready]

theorem first?_begun (h : s.At k b) (hbegun : b.phase ≠ .ready) : s.first? (.turn k) = none := by
  simp [first?, show s.branches[k]? = some b from h, hbegun]

theorem first?_alike (hs : s.At k b) (ht : t.At k c) (h : b.Alike c) : t.first? (.turn k) = s.first? (.turn k) := by
  by_cases hready : b.phase = .ready
  · rw [first?_ready hs hready, first?_ready ht (h.ready.mpr hready), h.chain]
  · rw [first?_begun hs hready, first?_begun ht fun hc => hready (h.ready.mp hc)]

theorem upcoming_due : (s.due e).upcoming = (s.first? e).toList ++ s.upcoming := by
  have hfirst : (s.due e).first? = s.first? := rfl
  rw [upcoming, hfirst, due, List.filterMap_cons]
  cases s.first? e <;> rfl

theorem firstTurns_due (m : Nat) :
    firstTurns r (m + 1) (s.due e) = (s.first? e).toList ++ firstTurns r m ((s.due e).step r) := by
  have hfirst : (s.due e).first? = s.first? := rfl
  rw [firstTurns, hfirst, due, List.take_succ_cons, List.take_zero, List.filterMap_cons]
  cases s.first? e <;> rfl

theorem InLine.of_due (h : (s.due e).InLine) : s.InLine :=
  ⟨fun hb hready => Nat.le_trans (List.count_le_count_cons ..) (h.once hb hready),
    fun hk => h.known (List.mem_cons_of_mem e hk)⟩

/-- A branch that gets its first turn has no other one coming. -/
theorem InLine.not_mem (h : (s.due (.turn i)).InLine) (here : s.At i b) (ready : b.phase = .ready) :
    .turn i ∉ s.queue := by
  have honce : (Event.turn i :: s.queue).count (.turn i) ≤ 1 := h.once here ready
  rw [List.count_cons_self] at honce
  exact List.count_eq_zero.mp (by omega)

/-! ### What a move does to them -/

/-- Where a branch moves on without beginning others, those that have not begun stay in line. -/
theorem upcoming_becomes (here : s.At i b) (turn : Turn r s e i b b' ids es) (hbegun : b'.phase ≠ .ready)
    (hleft : b.phase = .ready → .turn i ∉ s.queue) : (s.becomes i b' ids es).upcoming = s.upcoming := by
  have hthere : (s.becomes i b' ids es).At i b' := (at_becomes here).mpr (.inl ⟨rfl, rfl⟩)
  have hother : ∀ {k}, k ≠ i → (s.becomes i b' ids es).first? (.turn k) = s.first? (.turn k) := by
    intro k hk
    cases hat : s.branches[k]? with
    | some a =>
      have ha : s.At k a := hat
      exact first?_alike ha ((at_becomes here).mpr (.inr ⟨hk, a, ha, rfl⟩)) (a.alike_ite _)
    | none =>
      have hout : (s.becomes i b' ids es).branches[k]? = none := by
        rw [List.getElem?_eq_none_iff, length_becomes]
        exact List.getElem?_eq_none_iff.mp hat
      simp [first?, hat, hout]
  have hqueue : ∀ x ∈ s.queue, (s.becomes i b' ids es).first? x = s.first? x := by
    intro x hx
    cases x with
    | closed => rfl
    | turn k =>
      by_cases hk : k = i
      · subst hk
        rw [first?_begun hthere hbegun, first?_begun here fun hready => hleft hready hx]
      · exact hother hk
  have hposted : es.filterMap (s.becomes i b' ids es).first? = [] := by
    rw [List.filterMap_eq_nil_iff]
    intro x hx
    cases x with
    | closed => rfl
    | turn k =>
      obtain ⟨a, ha, hidle⟩ := turn.mem_es here hx
      by_cases hk : k = i
      · subst hk
        exact first?_begun hthere hbegun
      · rw [hother hk, first?_begun ha (by simp [hidle])]
  calc (s.queue ++ es).filterMap (s.becomes i b' ids es).first?
      = s.queue.filterMap (s.becomes i b' ids es).first? := by rw [List.filterMap_append, hposted, List.append_nil]
    _ = s.queue.filterMap s.first? := List.filterMap_congr hqueue

/-- The branches that were just begun get their first turns in the order of their chains. -/
theorem first?_fork (here : s.At i b) (chains : List Chain) :
    (List.range' s.branches.length chains.length).map (fun k => (s.fork i b chains).first? (.turn k)) =
      chains.map some := by
  refine List.ext_getElem (by simp) fun n hn hn' => ?_
  rw [List.length_map] at hn'
  have hat : (s.fork i b chains).At (s.branches.length + n) (fresh i chains[n]) :=
    (at_fork here).mpr (.inr (.inr ⟨n, _, List.getElem?_eq_getElem hn', rfl, rfl⟩))
  rw [List.getElem_map, List.getElem_range', Nat.one_mul, first?_ready hat rfl, List.getElem_map]
  rfl

/-- The branches that begin come behind all that stand in the queue. -/
theorem upcoming_fork (h : s.InLine) (here : s.At i b) (hleft : .turn i ∉ s.queue) (chains : List Chain) :
    (s.fork i b chains).upcoming = s.upcoming ++ chains := by
  have hqueue : ∀ x ∈ s.queue, (s.fork i b chains).first? x = s.first? x := by
    intro x hx
    cases x with
    | closed => rfl
    | turn k =>
      have hk : k ≠ i := by
        rintro rfl
        exact hleft hx
      have hlt : k < s.branches.length := h.known hx
      have ha : s.At k s.branches[k] := List.getElem?_eq_getElem hlt
      exact first?_alike ha ((at_fork here).mpr (.inr (.inl ⟨hk, ha⟩))) (.refl _)
  have hfresh : ((List.range' s.branches.length chains.length).map Event.turn).filterMap (s.fork i b chains).first? =
      chains := by
    calc _ = ((List.range' s.branches.length chains.length).map fun k =>
            (s.fork i b chains).first? (.turn k)).filterMap id := by rw [List.filterMap_map, List.filterMap_map]; rfl
      _ = (chains.map some).filterMap id := by rw [first?_fork here]
      _ = chains := by rw [List.filterMap_map]; exact List.filterMap_some
  calc (s.queue ++ (List.range' s.branches.length chains.length).map Event.turn).filterMap (s.fork i b chains).first?
      = s.queue.filterMap (s.fork i b chains).first? ++ chains := by rw [List.filterMap_append, hfresh]
    _ = s.queue.filterMap s.first? ++ chains := by rw [List.filterMap_congr hqueue]

/-- The branches that have not begun are a list of work: where the first of them gets its turn, those that it begins
    come behind the others; and nothing else changes them. -/
theorem upcoming_moves (htree : (s.due e).Tree r root) (hline : (s.due e).InLine) (hm : Moves r s e t) :
    t.upcoming = s.upcoming ++ (s.first? e).toList.flatMap fun c => (r.visit c).next := by
  cases hm with
  | passes unready =>
    have hnone : s.first? e = none := by
      cases e with
      | closed => rfl
      | turn k =>
        cases hat : s.branches[k]? with
        | none => simp [first?, hat]
        | some b => exact first?_begun hat (unready rfl hat).1
    simp [hnone]
  | @forks i b here event ready =>
    subst event
    rw [upcoming_fork hline.of_due here (hline.not_mem here ready), first?_ready here ready]
    simp
  | @turns i b b' ids es here turn =>
    have hleft : b.phase = .ready → .turn i ∉ s.queue := by
      intro hready
      obtain ⟨rfl, -⟩ := turn.of_ready htree.of_due here hready
      exact hline.not_mem here hready
    rw [upcoming_becomes here turn (turn.begun htree.of_due here) hleft]
    by_cases hready : b.phase = .ready
    · obtain ⟨rfl, hnext, -⟩ := turn.of_ready htree.of_due here hready
      simp [first?_ready here hready, hnext]
    · have hnone : s.first? e = none := by
        rcases turn.event with rfl | ⟨j, c, rfl, -⟩
        · exact first?_begun here hready
        · rfl
      simp [hnone]

theorem InLine.turns (h : s.InLine) (here : s.At i b) (turn : Turn r s e i b b' ids es) (hbegun : b'.phase ≠ .ready) :
    (s.becomes i b' ids es).InLine := by
  refine ⟨fun {k c} hc hready => ?_, fun {k} hk => ?_⟩
  · obtain ⟨a, ha, hready⟩ := isReady_iff.mp (isReady_becomes here hbegun (isReady_iff.mpr ⟨c, hc, hready⟩)).1
    have hposted : es.count (.turn k) = 0 := by
      rw [List.count_eq_zero]
      intro hk
      obtain ⟨d, hd, hidle⟩ := turn.mem_es here hk
      obtain rfl := ha.unique hd
      exact absurd (hready.symm.trans hidle) (by simp)
    calc (s.queue ++ es).count (.turn k) = s.queue.count (.turn k) := by rw [List.count_append, hposted, Nat.add_zero]
      _ ≤ 1 := h.once ha hready
  · rw [length_becomes]
    rcases List.mem_append.mp hk with hk | hk
    · exact h.known hk
    · obtain ⟨a, ha, -⟩ := turn.mem_es here hk
      exact ha.lt

theorem InLine.forks (h : s.InLine) (here : s.At i b) (chains : List Chain) : (s.fork i b chains).InLine := by
  have hlen : (s.fork i b chains).branches.length = s.branches.length + chains.length := by simp [fork, put]
  have hcount : ∀ k, (s.fork i b chains).queue.count (.turn k) =
      s.queue.count (.turn k) + (List.range' s.branches.length chains.length).count k := by
    intro k
    have hinj : Function.Injective Event.turn := fun _ _ => Event.turn.inj
    exact List.count_append.trans (congrArg _ (List.count_map_of_injective _ _ hinj _))
  refine ⟨fun {k c} hc hready => ?_, fun {k} hk => ?_⟩
  · rw [hcount]
    rcases (at_fork here).mp hc with ⟨-, rfl⟩ | ⟨-, hc⟩ | ⟨n, x, -, rfl, -⟩
    · simp [Branch.awaiting] at hready
    · have hlt := hc.lt
      have hout : (List.range' s.branches.length chains.length).count k = 0 := by
        rw [List.count_eq_zero, List.mem_range'_1]
        omega
      rw [hout]
      exact h.once hc hready
    · have hout : s.queue.count (.turn (s.branches.length + n)) = 0 := by
        rw [List.count_eq_zero]
        intro hk
        have hlt := h.known hk
        omega
      rw [hout, Nat.zero_add]
      exact List.nodup_iff_count_le_one.mp List.nodup_range' _
  · rw [hlen]
    rcases List.mem_append.mp hk with hk | hk
    · exact Nat.lt_add_right _ (h.known hk)
    · obtain ⟨j, hj, hjk⟩ := List.mem_map.mp hk
      cases hjk
      exact (List.mem_range'_1.mp hj).2

theorem InLine.moves (htree : (s.due e).Tree r root) (h : (s.due e).InLine) (hm : Moves r s e t) : t.InLine := by
  cases hm with
  | passes => exact h.of_due
  | forks here => exact h.of_due.forks here _
  | turns here turn => exact h.of_due.turns here turn (turn.begun htree.of_due here)

theorem inLine_start (root : Text) : (start root).InLine := by
  refine ⟨fun {k b} _ _ => List.count_le_length, fun {k} hk => ?_⟩
  obtain rfl : k = 0 := by simpa [start] using hk
  exact Nat.one_pos

/-! ### The whole run -/

/-- The chains of one level, and then those that are explored behind them. -/
theorem chains_explore_succ (depth : Nat) (chains : List Chain) : (r.explore (depth + 1) chains).map (·.chain) =
    chains ++ (r.explore depth (chains.flatMap fun c => (r.visit c).next)).map (·.chain) := by
  have hchains : (chains.map r.visit).map (·.chain) = chains := by
    rw [List.map_map]
    exact List.map_id _
  rw [Reader.explore]
  split
  · rename_i hnil
    obtain rfl := List.isEmpty_iff.mp hnil
    cases depth <;> rfl
  · rw [List.map_append, hchains, List.flatMap_map]

/-- A run that works everything off gives first turns to the branches in the queue, of which those in `front` belong to
    one level and those in `back` to the next, and then level by level to the branches behind them. -/
theorem firstTurns_eq {front back : List Chain} {m depth : Nat} (htree : s.Tree r root) (hline : s.InLine)
    (hupcoming : s.upcoming = front ++ back) (hover : (run r m s).queue = []) (hdepth : m ≤ depth) :
    firstTurns r m s =
      front ++ (r.explore depth (back ++ front.flatMap fun c => (r.visit c).next)).map (·.chain) := by
  induction m generalizing s front back depth with
  | zero =>
    rw [upcoming, show s.queue = [] from hover, List.filterMap_nil] at hupcoming
    obtain ⟨rfl, rfl⟩ := List.append_eq_nil_iff.mp hupcoming.symm
    cases depth <;> rfl
  | succ m ih =>
    rcases s.due_or_nil with ⟨u, e, rfl⟩ | hnil
    · have hmove := moves_step r u e
      have htree' := htree.moves hmove
      have hline' := hline.moves htree hmove
      have hmoved := upcoming_moves htree hline hmove
      rw [upcoming_due] at hupcoming
      rw [firstTurns_due]
      cases hfirst : u.first? e with
      | none =>
        rw [hfirst] at hupcoming hmoved
        exact ih htree' hline' (by rw [hmoved, ← hupcoming]; simp) hover (by omega)
      | some c =>
        rw [hfirst] at hupcoming hmoved
        have hmoved : ((u.due e).step r).upcoming = u.upcoming ++ (r.visit c).next := by simpa using hmoved
        cases front with
        | nil =>
          -- the branch is the first of the next level
          obtain rfl : c :: u.upcoming = back := hupcoming
          obtain ⟨depth, rfl⟩ : ∃ d, depth = d + 1 := ⟨depth - 1, by omega⟩
          rw [ih htree' hline' hmoved hover (by omega : m ≤ depth), List.flatMap_nil, List.append_nil,
            chains_explore_succ]
          rfl
        | cons c' front =>
          obtain ⟨rfl, hrest⟩ : c = c' ∧ u.upcoming = front ++ back := List.cons.inj hupcoming
          rw [hrest, List.append_assoc] at hmoved
          rw [ih htree' hline' hmoved hover (by omega : m ≤ depth), List.flatMap_cons, List.append_assoc]
          rfl
    · have hstep : s.step r = s := step_of_nil hnil
      have hhead : (s.queue.take 1).filterMap s.first? = [] := by rw [hnil]; rfl
      rw [firstTurns, hhead, hstep]
      exact ih htree hline hupcoming (by rw [run_of_nil hnil, hnil]) (by omega)

/-- The branches get their first turns in the order in which their chains are explored, whichever sheets fail. -/
theorem firstTurns_start {n m : Nat} (hdeep : ∀ ρ, r.Leads root ρ → ρ.positions.length ≤ n)
    (hm : 5 * (r.explore (n + 1) [⟨root, []⟩]).length ≤ m) :
    firstTurns r m (start root) = (r.explore (n + 1) [⟨root, []⟩]).map (·.chain) := by
  have hover := (run_ended hdeep hm).1
  have hwhole : r.explore (m + n + 1) [⟨root, []⟩] = r.explore (n + 1) [⟨root, []⟩] := by
    rw [Reader.explore_root, Reader.explore_root, Reader.routes_of_lt hdeep (by omega)]
  have hupcoming : (start root).upcoming = [] ++ [⟨root, []⟩] := rfl
  have hdepth : m ≤ m + n + 1 := by omega
  rw [← hwhole]
  exact firstTurns_eq (regular_start r root).tree (inLine_start root) hupcoming hover hdepth

end
end Schedule

/-! ### Graphs from first turns -/

/-- The graph that the branches bring about within `m` events: the sheets in the order in which they are loaded, unless
    the first branch fails. -/
def Reader.resolveInTurns (r : Reader) (m : Nat) (root : Text) : Except GraphError Graph :=
  let visits := (Schedule.firstTurns r m (.start root)).map r.visit
  match (Schedule.run r m (.start root)).fault? with
  | some e => .error e
  | none => .ok ⟨visits.filterMap sourceOf?, visits.flatMap Visit.skipped⟩

section
variable {r : Reader} {root : Text} {n m : Nat}

theorem Schedule.run_add (m k : Nat) (s : Schedule) : run r (m + k) s = run r k (run r m s) := by
  induction m generalizing s with
  | zero => rw [Nat.zero_add, run]
  | succ m ih => rw [Nat.add_right_comm, run, ih, run]

/-- With enough events, the fault of the first branch is that of the graph. -/
theorem Reader.fault?_run (hdeep : ∀ ρ, r.Leads root ρ → ρ.positions.length ≤ n)
    (hm : 5 * (r.explore (n + 1) [⟨root, []⟩]).length ≤ m) :
    r.fault? root (r.explore (n + 1) [⟨root, []⟩]) = (Schedule.run r m (.start root)).fault? := by
  unfold Reader.fault?
  split
  · rename_i hall
    have hintact : ∀ {ρ}, r.Leads root ρ → (r.visit ρ.chain).failure? = none := intact_of_all hdeep hall
    have hload : ∀ {ρ f}, r.Leads root ρ → (r.visit ρ.chain).failure? = some f → ∃ x, f = .load x := by
      intro ρ f hρ hf
      cases (hintact hρ).symm.trans hf
    rcases Schedule.run_start m hload hdeep (Nat.le_trans (cost_start n) hm) with ⟨-, hnone⟩ | ⟨x, -, hreports⟩
    · exact hnone.symm
    · obtain ⟨ρ, hρ, -, hfails, -⟩ := Reader.Reports.route (σ := ⟨[], ⟨root, []⟩⟩) hreports .root
      cases (hintact hρ).symm.trans hfails
  · obtain ⟨k, rfl⟩ := Nat.exists_eq_add_of_le hm
    rw [Schedule.run_add, Schedule.run_of_nil (Schedule.run_ended hdeep (Nat.le_refl _)).1]

theorem Reader.resolve_eq_inTurns (hdeep : ∀ ρ, r.Leads root ρ → ρ.positions.length ≤ n)
    (hm : 5 * (r.explore (n + 1) [⟨root, []⟩]).length ≤ m) : r.resolve (n + 1) root = r.resolveInTurns m root := by
  have hvisits : (Schedule.firstTurns r m (.start root)).map r.visit = r.explore (n + 1) [⟨root, []⟩] := by
    rw [Schedule.firstTurns_start hdeep hm, explore_root, List.map_map, List.map_map]
    rfl
  have hfault := fault?_run hdeep hm
  cases hrun : (Schedule.run r m (.start root)).fault? with
  | none => simp only [Reader.resolve, Reader.resolveInTurns, hvisits, hfault, hrun]
  | some e => simp only [Reader.resolve, Reader.resolveInTurns, hfault, hrun]

end

/-- Resolving sheets in memory gives what the branches bring about when everything is worked off: their sheets, each
    added when its branch gets its first turn, or the failure of the first branch. -/
theorem resolveEntries_eq_inTurns (tags : Doc.TagTable) (entries : List (Text × Entry)) (root : Text) {m : Nat}
    (hm : 5 * (Reader.explore ⟨loadEntry entries, tags⟩ (entries.length + 1) [⟨root, []⟩]).length ≤ m) :
    resolveEntries tags entries root = Reader.resolveInTurns ⟨loadEntry entries, tags⟩ m root :=
  Reader.resolve_eq_inTurns (fun _ hρ => hρ.length_positions_le) hm

end Sheet
end Stylebook
