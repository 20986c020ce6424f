import Stylebook.Proofs.Sheet.Turns

/-! A run comes to its end. Every branch that is not over is waiting for a turn that is coming or for a branch
    below it that is not over (`Live`), so that with an empty queue all of them are over. What is still to be done
    (`cost`) becomes less with each event, and at the start it is less than five for each chain. -/

namespace Stylebook
namespace Sheet

/-! ### Nothing waits in vain -/

/-- Only a branch that waits has branches left to wait for, and without a turn coming it has. -/
structure Branch.Steady (b : Branch) : Prop where
  busy : b.phase = .waiting none → b.left ≠ []
  waits : b.left ≠ [] → ∃ t, b.phase = .waiting t

/-- The branch needs a turn. -/
def Branch.Due (b : Branch) : Prop := b.phase = .ready ∨ ∃ stop, b.phase = .waiting (some stop)

theorem Branch.Steady.halted {b : Branch} (h : b.Steady) : b.halted.Steady := by
  rcases b.phase_halted with ⟨t, ht, hhalted⟩ | ⟨-, hsame⟩
  · exact ⟨fun hnone => absurd (hhalted.symm.trans hnone) (by simp), fun _ => ⟨_, hhalted⟩⟩
  · rwa [hsame]

theorem Branch.due_halted {b : Branch} (h : b.halted.Due) : b.Due ∨ b.phase = .waiting none := by
  rcases b.phase_halted with ⟨t, ht, -⟩ | ⟨-, hsame⟩
  · cases t with
    | none => exact .inr ht
    | some stop => exact .inl (.inr ⟨stop, ht⟩)
  · exact .inl (hsame ▸ h)

namespace Schedule

structure Live (s : Schedule) : Prop where
  steady : ∀ {k b}, s.At k b → b.Steady
  turn : ∀ {k b}, s.At k b → b.Due → .turn k ∈ s.queue
  closed : ∀ {k b j}, s.At k b → j ∈ b.left →
    ∃ a, s.At j a ∧ a.parent = some k ∧ ∀ {x}, a.phase = .ended x → .closed j ∈ s.queue

section
variable {r : Reader} {root : Text} {s t : Schedule} {e : Event} {i j k : Nat} {a b b' c : Branch} {ids : List Nat}
  {es : List Event}

theorem Turn.steady (h : Turn r s e i b b' ids es) (hb : b.Steady) : b'.Steady := by
  cases h with
  | fails ready =>
    refine ⟨by simp, fun hmore => ?_⟩
    obtain ⟨t, ht⟩ := hb.waits hmore
    exact absurd (ready.symm.trans ht) (by simp)
  | loads ready =>
    refine ⟨by simp, fun hmore => ?_⟩
    obtain ⟨t, ht⟩ := hb.waits hmore
    exact absurd (ready.symm.trans ht) (by simp)
  | ends _ done => exact ⟨by simp, fun hmore => absurd (by simpa using done) hmore⟩
  | waits _ more => exact ⟨fun _ => more, fun _ => ⟨_, rfl⟩⟩
  | wakes => exact ⟨by simp, fun _ => ⟨_, rfl⟩⟩
  | minds _ _ _ _ busy =>
    refine ⟨by simpa using busy, fun hmore => ?_⟩
    simpa using hb.waits fun hnil => hmore (by simp [hnil])
  | @stops _ _ j _ x =>
    rcases (b.without j x).phase_halted with ⟨t, ht, hhalted⟩ | ⟨hnot, hsame⟩
    · exact ⟨fun hnone => absurd (hhalted.symm.trans hnone) (by simp), fun _ => ⟨_, hhalted⟩⟩
    · rw [hsame]
      refine ⟨fun hnone => absurd hnone (hnot _), fun hmore => ?_⟩
      simpa using hb.waits fun hnil => hmore (by simp [hnil])

theorem Turn.left (h : Turn r s e i b b' ids es) (hj : j ∈ b'.left) : j ∈ b.left ∧ e ≠ .closed j := by
  cases h <;> simp_all [Branch.awaiting, Ne.symm]

theorem Turn.event (h : Turn r s e i b b' ids es) :
    e = .turn i ∨ ∃ j c, e = .closed j ∧ s.At j c ∧ c.parent = some i := by
  cases h with
  | fails | loads | ends | waits => exact .inl rfl
  | wakes below parent | minds below parent | stops below parent => exact .inr ⟨_, _, rfl, below, parent⟩

theorem Turn.due (h : Turn r s e i b b' ids es) (here : s.At i b) (hdue : b'.Due) :
    .turn i ∈ es ∨ b.Due ∧ e ≠ .turn i := by
  cases h with
  | fails | loads | ends => simp [Branch.Due] at hdue
  | waits => simp [Branch.Due, Branch.awaiting] at hdue
  | wakes => simp
  | minds => exact .inr ⟨by simpa [Branch.Due] using hdue, by simp⟩
  | @stops _ _ j _ x =>
    rcases (b.without j x).phase_halted with ⟨t, ht, -⟩ | ⟨-, hsame⟩
    · rw [Branch.phase_without] at ht
      cases t with
      | none =>
        have hidle : s.isIdle i = true := isIdle_iff.mpr ⟨b, here, ht⟩
        exact .inl (List.mem_map.mpr ⟨i, List.mem_filter.mpr ⟨by simp, hidle⟩, rfl⟩)
      | some stop => exact .inr ⟨.inr ⟨stop, ht⟩, by simp⟩
    · rw [hsame] at hdue
      exact .inr ⟨by simpa [Branch.Due] using hdue, by simp⟩

theorem Turn.closed (h : Turn r s e i b b' ids es) {x : Ending} (hend : b'.phase = .ended x) :
    .closed i ∈ es ∨ b.phase = .ended x := by
  cases h <;> simp_all [Branch.awaiting]

theorem Turn.told (h : Turn r s e i b b' ids es) (hk : k ∈ ids) (hidle : s.isIdle k = true) : .turn k ∈ es := by
  cases h <;> simp_all

theorem Live.passes (h : (s.due e).Live)
    (unready : ∀ {i b}, e = .turn i → s.At i b → b.phase ≠ .ready ∧ ∀ stop, b.phase ≠ .waiting (some stop))
    (unheard : ∀ {i b x p a}, e = .closed i → s.At i b → b.phase = .ended x → b.parent = some p → ¬s.At p a) :
    s.Live := by
  refine ⟨h.steady, fun {k b} hb hdue => ?_, fun {k b j} hb hj => ?_⟩
  · rcases List.mem_cons.mp (h.turn hb hdue) with hevent | hin
    · obtain ⟨hready, hwaiting⟩ := unready hevent.symm hb
      rcases hdue with hb' | ⟨stop, hb'⟩
      · exact absurd hb' hready
      · exact absurd hb' (hwaiting stop)
    · exact hin
  · obtain ⟨a, ha, hparent, hclosed⟩ := h.closed hb hj
    refine ⟨a, ha, hparent, fun hend => ?_⟩
    rcases List.mem_cons.mp (hclosed hend) with hevent | hin
    · exact absurd hb (unheard hevent.symm ha hend hparent)
    · exact hin

theorem Live.forks (h : (s.due (.turn i)).Live) (here : s.At i b) {chains : List Chain} (more : chains ≠ []) :
    (s.fork i b chains).Live := by
  have hkeep : ∀ {x}, x ∈ Event.turn i :: s.queue → x ≠ .turn i → x ∈ (s.fork i b chains).queue := by
    intro x hx hne
    exact List.mem_append_left _ ((List.mem_cons.mp hx).resolve_left hne)
  refine ⟨fun {k c} hc => ?_, fun {k c} hc hdue => ?_, fun {k c j} hc hj => ?_⟩
  · rcases (at_fork here).mp hc with ⟨rfl, rfl⟩ | ⟨-, hc⟩ | ⟨n, x, -, -, rfl⟩
    · exact ⟨fun _ => by simpa [Branch.awaiting, List.range'_eq_nil_iff] using more, fun _ => ⟨_, rfl⟩⟩
    · exact h.steady hc
    · exact ⟨by simp [fresh], by simp [fresh]⟩
  · rcases (at_fork here).mp hc with ⟨rfl, rfl⟩ | ⟨hk, hc⟩ | ⟨n, x, hx, rfl, rfl⟩
    · simp [Branch.Due, Branch.awaiting] at hdue
    · exact hkeep (h.turn hc hdue) (by simpa using hk)
    · have hn : n < chains.length := (List.getElem?_eq_some_iff.mp hx).1
      refine List.mem_append_right _ (List.mem_map.mpr ⟨_, List.mem_range'_1.mpr ?_, rfl⟩)
      omega
  · rcases (at_fork here).mp hc with ⟨rfl, rfl⟩ | ⟨hk, hc⟩ | ⟨n, x, -, -, rfl⟩
    · have hj' : s.branches.length ≤ j ∧ j < s.branches.length + chains.length := List.mem_range'_1.mp hj
      obtain ⟨n, rfl⟩ := Nat.exists_eq_add_of_le hj'.1
      have hn : n < chains.length := by omega
      refine ⟨fresh k chains[n], (at_fork here).mpr (.inr (.inr ⟨n, _, List.getElem?_eq_getElem hn, rfl, rfl⟩)), rfl, ?_⟩
      simp [fresh]
    · obtain ⟨d, hd, hparent, hclosed⟩ := h.closed hc hj
      by_cases hji : j = i
      · subst hji
        obtain rfl := here.unique hd
        exact ⟨_, (at_fork here).mpr (.inl ⟨rfl, rfl⟩), hparent, by simp [Branch.awaiting]⟩
      · exact ⟨d, (at_fork here).mpr (.inr (.inl ⟨hji, hd⟩)), hparent, fun hend => hkeep (hclosed hend) (by simp)⟩
    · simp [fresh] at hj

theorem mem_queue_becomes {x : Event} (hx : x ∈ (s.due e).queue) (hne : x ≠ e) :
    x ∈ (s.becomes i b' ids es).queue := List.mem_append_left _ ((List.mem_cons.mp hx).resolve_left hne)

theorem Live.turn_turns (h : (s.due e).Live) (here : s.At i b) (turn : Turn r s e i b b' ids es)
    (hc : (s.becomes i b' ids es).At k c) (hdue : c.Due) : .turn k ∈ (s.becomes i b' ids es).queue := by
  rcases (at_becomes here).mp hc with ⟨rfl, rfl⟩ | ⟨hk, a, ha, rfl⟩
  · rcases turn.due here hdue with hin | ⟨hb, hne⟩
    · exact List.mem_append_right _ hin
    · exact mem_queue_becomes (h.turn here hb) hne.symm
  · have hother : Event.turn k ≠ e := by
      rcases turn.event with rfl | ⟨j, c, rfl, -, -⟩
      · simpa using hk
      · simp
    split at hdue
    · rename_i hids
      rcases Branch.due_halted hdue with hdue | hidle
      · exact mem_queue_becomes (h.turn ha hdue) hother
      · exact List.mem_append_right _ (turn.told hids (isIdle_iff.mpr ⟨a, ha, hidle⟩))
    · exact mem_queue_becomes (h.turn ha hdue) hother

/-- A branch that is waited for was waited for before, and it is not the one that is just heard of. -/
theorem Live.left_turns (h : (s.due e).Live) (here : s.At i b) (turn : Turn r s e i b b' ids es)
    (hc : (s.becomes i b' ids es).At k c) (hj : j ∈ c.left) : ∃ a, s.At k a ∧ j ∈ a.left ∧ Event.closed j ≠ e := by
  rcases (at_becomes here).mp hc with ⟨rfl, rfl⟩ | ⟨hk, a, ha, rfl⟩
  · exact ⟨b, here, (turn.left hj).1, (turn.left hj).2.symm⟩
  · have hja : j ∈ a.left := by
      split at hj
      · simpa using hj
      · exact hj
    refine ⟨a, ha, hja, ?_⟩
    rcases turn.event with rfl | ⟨j', c, rfl, hc', hparent⟩
    · simp
    · rintro ⟨⟩
      obtain ⟨d, hd, hparent', -⟩ := h.closed ha hja
      cases At.unique hd hc'
      exact hk (Option.some.inj (hparent'.symm.trans hparent))

theorem Live.closed_turns (h : (s.due e).Live) (here : s.At i b) (turn : Turn r s e i b b' ids es)
    (hc : (s.becomes i b' ids es).At k c) (hj : j ∈ c.left) : ∃ a, (s.becomes i b' ids es).At j a ∧
      a.parent = some k ∧ ∀ {x}, a.phase = .ended x → .closed j ∈ (s.becomes i b' ids es).queue := by
  obtain ⟨a, ha, hja, hother⟩ := h.left_turns here turn hc hj
  obtain ⟨d, hd, hparent, hclosed⟩ := h.closed ha hja
  by_cases hji : j = i
  · subst hji
    obtain rfl := here.unique hd
    refine ⟨b', (at_becomes here).mpr (.inl ⟨rfl, rfl⟩), turn.kept.2.trans hparent, fun hend => ?_⟩
    rcases turn.closed hend with hin | hend
    · exact List.mem_append_right _ hin
    · exact mem_queue_becomes (hclosed hend) hother
  · refine ⟨_, (at_becomes here).mpr (.inr ⟨hji, d, hd, rfl⟩), ?_, fun {x} hend => ?_⟩
    · split <;> simpa using hparent
    · have hend' : d.phase = .ended x := by
        split at hend
        · exact d.halted_ended.mp hend
        · exact hend
      exact mem_queue_becomes (hclosed hend') hother

theorem Live.turns (h : (s.due e).Live) (here : s.At i b) (turn : Turn r s e i b b' ids es) :
    (s.becomes i b' ids es).Live := by
  refine ⟨fun {k c} hc => ?_, h.turn_turns here turn, h.closed_turns here turn⟩
  rcases (at_becomes here).mp hc with ⟨rfl, rfl⟩ | ⟨-, a, ha, rfl⟩
  · exact turn.steady (h.steady here)
  · split
    · exact (h.steady ha).halted
    · exact h.steady ha

/-- The branches and events that are left after a move keep one another going. -/
theorem Live.moves (h : (s.due e).Live) (hm : Moves r s e t) : t.Live := by
  cases hm with
  | passes unready unheard => exact h.passes unready unheard
  | forks here event _ _ more =>
    subst event
    exact h.forks here more
  | turns here turn => exact h.turns here turn

/-- Where nothing is to be worked off any more, every branch is over. -/
theorem Live.ended (h : s.Live) (htree : s.Tree r root) (hqueue : s.queue = []) (hb : s.At k b) :
    ∃ x, b.phase = .ended x := by
  -- a branch that waits does so for one with a higher number
  induction hn : s.branches.length - k using Nat.strong_induction_on generalizing k b with
  | _ n ih =>
    cases hphase : b.phase with
    | ready => exact absurd (h.turn hb (.inl hphase)) (by simp [hqueue])
    | ended x => exact ⟨x, rfl⟩
    | waiting t =>
      cases t with
      | some stop => exact absurd (h.turn hb (.inr ⟨stop, hphase⟩)) (by simp [hqueue])
      | none =>
        obtain ⟨j, hj⟩ := List.exists_mem_of_ne_nil _ ((h.steady hb).busy hphase)
        obtain ⟨a, ha, hparent, hclosed⟩ := h.closed hb hj
        have hlt := htree.parent_lt ha hparent
        have hlen := ha.lt
        obtain ⟨x, hx⟩ := ih (s.branches.length - j) (by omega) ha rfl
        exact absurd (hclosed hx) (by simp [hqueue])

end

/-! ### What is still to be done -/

end Schedule

/-- The number of chains that go on from the given one by at most `n` imports. -/
def Reader.beneath (r : Reader) : Nat → Chain → Nat
  | 0, _ => 0
  | n + 1, c => ((r.visit c).next.map fun x => 1 + r.beneath n x).sum

theorem Reader.length_explore_succ (r : Reader) (n : Nat) (chains : List Chain) :
    (r.explore (n + 1) chains).length =
      chains.length + (r.explore n (chains.flatMap fun c => (r.visit c).next)).length := by
  rw [Reader.explore]
  split
  · rename_i hnil
    obtain rfl := List.isEmpty_iff.mp hnil
    cases n <;> rfl
  · simp [List.flatMap_map]

theorem Reader.length_explore (r : Reader) (n : Nat) (chains : List Chain) :
    (r.explore (n + 1) chains).length = (chains.map fun c => 1 + r.beneath n c).sum := by
  induction n generalizing chains with
  | zero =>
    rw [length_explore_succ]
    simp [Reader.explore, Reader.beneath]
  | succ n ih =>
    rw [length_explore_succ, ih]
    induction chains with
    | nil => rfl
    | cons c chains ihc =>
      simp only [List.length_cons, List.flatMap_cons, List.map_append, List.sum_append, List.map_cons, List.sum_cons,
        Reader.beneath] at ihc ⊢
      omega

/-- How many events a branch can still bring about, those of the branches to come below it included. -/
def Branch.cost (r : Reader) (n : Nat) (b : Branch) : Nat :=
  match b.phase with
  | .ready => 3 + 5 * r.beneath (n - b.chain.above.length) b.chain
  | .waiting _ => 1 + min 1 b.left.length + (if b.stopping then 0 else 1 + b.left.length)
  | .ended _ => 0

theorem Branch.cost_ready {r : Reader} {n : Nat} {b : Branch} (h : b.phase = .ready) :
    b.cost r n = 3 + 5 * r.beneath (n - b.chain.above.length) b.chain := by
  rw [Branch.cost, h]

theorem Branch.cost_waiting {r : Reader} {n : Nat} {b : Branch} {t : Option Bool} (h : b.phase = .waiting t) :
    b.cost r n = 1 + min 1 b.left.length + (if b.stopping then 0 else 1 + b.left.length) := by
  rw [Branch.cost, h]

theorem Branch.cost_ended {r : Reader} {n : Nat} {b : Branch} {x : Ending} (h : b.phase = .ended x) :
    b.cost r n = 0 := by
  rw [Branch.cost, h]

theorem Branch.cost_halted (r : Reader) (n : Nat) (b : Branch) : b.halted.cost r n = b.cost r n := by
  rcases b.phase_halted with ⟨t, ht, hhalted⟩ | ⟨-, hsame⟩
  · simp [Branch.cost_waiting ht, Branch.cost_waiting hhalted]
  · rw [hsame]

theorem Branch.cost_without (r : Reader) (n j : Nat) (x : Ending) (b : Branch) :
    (b.without j x).cost r n ≤ b.cost r n := by
  have hphase := b.phase_without j x
  have hlen := List.length_filter_le (· != j) b.left
  cases hb : b.phase with
  | ready => rw [Branch.cost_ready hb, Branch.cost_ready (hphase.trans hb), Branch.chain_without]
  | ended =>
    rw [Branch.cost_ended (hphase.trans hb)]
    exact Nat.zero_le _
  | waiting t =>
    rw [Branch.cost_waiting hb, Branch.cost_waiting (hphase.trans hb), Branch.left_without]
    rcases b.errors_without j x with ⟨y, -, -, hstop⟩ | ⟨-, -, hstop⟩
    · rw [hstop, if_pos rfl]
      omega
    · rw [hstop]
      split <;> omega

namespace Schedule

def cost (r : Reader) (n : Nat) (s : Schedule) : Nat := (s.branches.map (Branch.cost r n)).sum + s.queue.length

section
variable {r : Reader} {root : Text} {s t : Schedule} {e : Event} {i n : Nat} {b b' : Branch} {ids : List Nat}
  {es : List Event}

theorem Turn.cost_le (h : Turn r s e i b b' ids es) (here : s.At i b) (hb : b.Steady) : b'.cost r n + es.length ≤ b.cost r n := by
  have hidle : ∀ l : List Nat, ((l.filter s.isIdle).map Event.turn).length ≤ l.length := by
    intro l
    rw [List.length_map]
    exact List.length_filter_le _ _
  cases h with
  | fails ready =>
    rw [Branch.cost_ready ready, Branch.cost_ended rfl, List.length_singleton]
    omega
  | loads ready =>
    rw [Branch.cost_ready ready, Branch.cost_ended rfl, List.length_singleton]
    omega
  | ends turn =>
    rw [Branch.cost_waiting turn, Branch.cost_ended rfl, List.length_singleton]
    omega
  | @waits _ _ stop turn =>
    have hle := hidle (b.toldOn stop)
    rw [Branch.cost_waiting turn, Branch.cost_waiting (t := none) rfl]
    rcases b.heard_cases stop with ⟨-, hnot, htold, hheard⟩ | ⟨-, htold, hheard⟩
    · rw [htold] at hle ⊢
      simp only [hheard, Branch.awaiting, hnot, if_true, Bool.false_eq_true, if_false]
      omega
    · rw [htold, hheard]
      exact Nat.le_refl _
  | @wakes _ _ j _ x _ _ _ calm done idle =>
    have hmore := List.length_pos_iff.mpr (hb.busy idle)
    rw [Branch.cost_waiting idle, Branch.cost_waiting (t := some false) rfl]
    simp only [done, calm, List.length_nil, List.length_singleton]
    split <;> omega
  | @minds _ _ j _ x => exact Branch.cost_without r n j x b
  | @stops _ _ j _ x _ _ _ first now =>
    rw [Branch.cost_halted]
    by_cases hwaits : ∃ t, b.phase = .waiting t
    · obtain ⟨t, ht⟩ := hwaits
      have hle := hidle ((b.without j x).left ++ [i])
      have hlen := List.length_filter_le (· != j) b.left
      rw [Branch.cost_waiting ht, Branch.cost_waiting ((b.phase_without j x).trans ht), now, first]
      simp only [List.length_append, List.length_singleton, Branch.left_without, if_true, Bool.false_eq_true,
        if_false] at hle ⊢
      omega
    · have hnil : b.left = [] := by
        by_contra hmore
        exact hwaits (hb.waits hmore)
      have hidle : s.isIdle i = false := by
        rw [Bool.eq_false_iff, Ne, isIdle_iff]
        rintro ⟨c, hc, hphase⟩
        exact hwaits ⟨none, here.unique hc ▸ hphase⟩
      simp only [Branch.left_without, hnil, List.filter_nil, List.nil_append, List.filter_cons, hidle, List.map_nil,
        Bool.false_eq_true, if_false, List.length_nil, Nat.add_zero]
      exact Branch.cost_without r n j x b

theorem sum_set {l : List Nat} {k x : Nat} (h : l[k]? = some x) (y : Nat) : (l.set k y).sum + x = l.sum + y := by
  induction l generalizing k with
  | nil => simp at h
  | cons z l ih =>
    cases k with
    | zero =>
      obtain rfl : z = x := by simpa using h
      simp only [List.set_cons_zero, List.sum_cons]
      omega
    | succ k =>
      have := ih (k := k) (by simpa using h)
      simp only [List.set_cons_succ, List.sum_cons]
      omega

theorem cost_becomes (here : s.At i b) : (s.becomes i b' ids es).cost r n + b.cost r n =
    s.cost r n + b'.cost r n + es.length := by
  have hhalt : (s.halt ids).branches.map (Branch.cost r n) = s.branches.map (Branch.cost r n) := by
    refine List.ext_getElem? fun k => ?_
    simp only [halt, List.getElem?_map, List.getElem?_mapIdx, Option.map_map]
    congr 1
    funext c
    simp only [Function.comp_apply]
    split
    · exact Branch.cost_halted r n c
    · rfl
  have hget : (s.branches.map (Branch.cost r n))[i]? = some (b.cost r n) := by
    rw [List.getElem?_map, show s.branches[i]? = some b from here, Option.map_some]
  have hset := sum_set hget (b'.cost r n)
  simp only [cost, becomes, put, List.map_set, hhalt, List.length_append]
  omega

theorem sum_fresh (chains : List Chain) (f : Chain → Nat) :
    (chains.map fun x => 3 + 5 * f x).sum + 2 * chains.length = 5 * (chains.map fun x => 1 + f x).sum := by
  induction chains with
  | nil => rfl
  | cons x chains ih =>
    simp only [List.map_cons, List.sum_cons, List.length_cons]
    omega

theorem above_next {c x : Chain} (h : x ∈ (r.visit c).next) : x.above.length = c.above.length + 1 := by
  obtain ⟨ref, -, rfl⟩ := List.mem_map.mp h
  rfl

theorem cost_fork (here : s.At i b) (ready : b.phase = .ready) (hdeep : b.chain.above.length < n) :
    (s.fork i b (r.visit b.chain).next).cost r n ≤ s.cost r n := by
  obtain ⟨m, hm⟩ : ∃ m, n - b.chain.above.length = m + 1 := ⟨n - b.chain.above.length - 1, by omega⟩
  have hfresh : ((r.visit b.chain).next.map (fresh i)).map (Branch.cost r n) =
      (r.visit b.chain).next.map fun x => 3 + 5 * r.beneath m x := by
    rw [List.map_map]
    refine List.map_congr_left fun x hx => ?_
    have hx' := above_next hx
    rw [Function.comp_apply, Branch.cost_ready rfl]
    simp only [fresh, hx']
    rw [show n - (b.chain.above.length + 1) = m by omega]
  have hsum := sum_fresh (r.visit b.chain).next (r.beneath m)
  have hready := Branch.cost_ready (r := r) (n := n) ready
  rw [hm, Reader.beneath] at hready
  have hget : (s.branches.map (Branch.cost r n))[i]? = some (b.cost r n) := by
    rw [List.getElem?_map, show s.branches[i]? = some b from here, Option.map_some]
  have hwaiting : (b.awaiting (List.range' s.branches.length (r.visit b.chain).next.length)).cost r n ≤
      3 + (r.visit b.chain).next.length := by
    rw [Branch.cost_waiting (t := none) rfl]
    simp only [Branch.awaiting, List.length_range']
    split <;> omega
  have hset := sum_set hget
    ((b.awaiting (List.range' s.branches.length (r.visit b.chain).next.length)).cost r n)
  have hbranches : (s.fork i b (r.visit b.chain).next).branches =
      s.branches.set i (b.awaiting (List.range' s.branches.length (r.visit b.chain).next.length)) ++
        (r.visit b.chain).next.map (fresh i) := rfl
  have hqueue : (s.fork i b (r.visit b.chain).next).queue.length = s.queue.length + (r.visit b.chain).next.length := by
    simp [fork, put]
  simp only [cost, hbranches, hqueue, List.map_append, List.map_set, List.sum_append, hfresh]
  omega

/-- With each event less is to be done. -/
theorem cost_lt (htree : (s.due e).Tree r root) (hlive : (s.due e).Live) (hdeep : ∀ ρ, r.Leads root ρ → ρ.positions.length ≤ n)
    (hm : Moves r s e t) : t.cost r n < (s.due e).cost r n := by
  have hdue : (s.due e).cost r n = s.cost r n + 1 := by
    simp only [cost, due, List.length_cons]
    omega
  rw [hdue, Nat.lt_succ_iff]
  cases hm with
  | passes => exact Nat.le_refl _
  | @turns i b b' ids es here turn =>
    have hcost : (s.becomes i b' ids es).cost r n + b.cost r n = s.cost r n + b'.cost r n + es.length :=
      cost_becomes here
    have hle := turn.cost_le (n := n) here (hlive.steady here)
    omega
  | @forks i b here _ ready _ more =>
    refine cost_fork here ready ?_
    obtain ⟨x, hx⟩ := List.exists_mem_of_ne_nil _ more
    obtain ⟨ρ, hρ, hend⟩ := htree.lead here
    obtain ⟨σ, hσ, rfl⟩ := leads_next hρ (hend ▸ hx)
    have hlen := hσ.length_places
    have hle := hdeep σ hσ
    have habove := above_next hx
    simp only [Chain.places, List.length_cons] at hlen
    omega

/-- A run that has enough turns works everything off. -/
theorem queue_run (m : Nat) (htree : s.Tree r root) (hlive : s.Live)
    (hdeep : ∀ ρ, r.Leads root ρ → ρ.positions.length ≤ n) (hm : s.cost r n ≤ m) : (run r m s).queue = [] := by
  induction m generalizing s with
  | zero =>
    rw [cost] at hm
    exact List.length_eq_zero_iff.mp (by rw [run]; omega)
  | succ m ih =>
    rw [run]
    rcases s.due_or_nil with ⟨u, e, rfl⟩ | hnil
    · have hmove := moves_step r u e
      have hlt := cost_lt htree hlive hdeep hmove
      exact ih (htree.moves hmove) (hlive.moves hmove) (by omega)
    · rw [step_of_nil hnil, run_of_nil hnil, hnil]

end
end Schedule
end Sheet
end Stylebook
