import Stylebook.Proofs.Sheet.Branches

/-! What working off one event does. One branch moves on, it may tell others to stop, and events come up; or a
    branch begins those below it; or nothing happens. Everything else about a run follows from these cases. -/

namespace Stylebook
namespace Sheet
namespace Schedule

/-- The schedule in which the event is still to be worked off. -/
def due (s : Schedule) (e : Event) : Schedule := { s with queue := e :: s.queue }

/-- The branch `i` has moved on to `b`, the branches `ids` were told to stop, and events came up. -/
def becomes (s : Schedule) (i : Nat) (b : Branch) (ids : List Nat) (es : List Event) : Schedule where
  branches := ((s.halt ids).put i b).branches
  queue := s.queue ++ es

/-- What a branch makes of an event: how it stood and stands, whom it tells to stop, what comes up. -/
inductive Turn (r : Reader) (s : Schedule) : Event → Nat → Branch → Branch → List Nat → List Event → Prop
  | fails {i b f} (ready : b.phase = .ready) (broken : (r.visit b.chain).failure? = some f) :
      Turn r s (.turn i) i b { b with phase := .ended (.failed (.failure f)) } [] [.closed i]
  | loads {i b} (ready : b.phase = .ready) (intact : (r.visit b.chain).failure? = none)
      (last : (r.visit b.chain).next = []) : Turn r s (.turn i) i b { b with phase := .ended .loaded } [] [.closed i]
  | ends {i b stop} (turn : b.phase = .waiting (some stop)) (done : b.left = []) :
      Turn r s (.turn i) i b { b.heard stop with phase := .ended (b.heard stop).ending } [] [.closed i]
  | waits {i b stop} (turn : b.phase = .waiting (some stop)) (more : b.left ≠ []) :
      Turn r s (.turn i) i b ((b.heard stop).awaiting b.left) (b.toldOn stop) (((b.toldOn stop).filter s.isIdle).map .turn)
  | wakes {i b j c e} (below : s.At j c) (parent : c.parent = some i) (closed : c.phase = .ended e)
      (calm : (b.without j e).stopping = b.stopping) (done : (b.without j e).left = []) (idle : b.phase = .waiting none) :
      Turn r s (.closed j) i b { b.without j e with phase := .waiting (some false) } [] [.turn i]
  | minds {i b j c e} (below : s.At j c) (parent : c.parent = some i) (closed : c.phase = .ended e)
      (calm : (b.without j e).stopping = b.stopping)
      (busy : b.phase = .waiting none → (b.without j e).left ≠ []) : Turn r s (.closed j) i b (b.without j e) [] []
  | stops {i b j c e} (below : s.At j c) (parent : c.parent = some i) (closed : c.phase = .ended e)
      (first : b.stopping = false) (now : (b.without j e).stopping = true) :
      Turn r s (.closed j) i b (b.without j e).halted (b.without j e).left
        ((((b.without j e).left ++ [i]).filter s.isIdle).map .turn)

/-- What working off the event does to the schedule that is left. -/
inductive Moves (r : Reader) (s : Schedule) (e : Event) : Schedule → Prop
  | turns {i b b' ids es} (here : s.At i b) (turn : Turn r s e i b b' ids es) : Moves r s e (s.becomes i b' ids es)
  | forks {i b} (here : s.At i b) (event : e = .turn i) (ready : b.phase = .ready)
      (intact : (r.visit b.chain).failure? = none) (more : (r.visit b.chain).next ≠ []) :
      Moves r s e (s.fork i b (r.visit b.chain).next)
  | passes (unready : ∀ {i b}, e = .turn i → s.At i b → b.phase ≠ .ready ∧ ∀ stop, b.phase ≠ .waiting (some stop))
      (unheard : ∀ {i b x p a}, e = .closed i → s.At i b → b.phase = .ended x → b.parent = some p → ¬s.At p a) :
      Moves r s e s

section
variable {r : Reader} {s t : Schedule} {e : Event} {i k : Nat} {a b b' c : Branch} {ids : List Nat} {es : List Event}

theorem at_becomes (h : s.At i b) : (s.becomes i b' ids es).At k c ↔
    (k = i ∧ c = b') ∨ (k ≠ i ∧ ∃ a, s.At k a ∧ c = if k ∈ ids then a.halted else a) := by
  have hi : (s.halt ids).At i (if i ∈ ids then b.halted else b) := at_halt.mpr ⟨b, h, rfl⟩
  have hput := at_put (b := b') (k := k) (c := c) hi
  rw [at_halt] at hput
  exact hput

theorem branches_ext (h : ∀ {k c}, s.At k c ↔ t.At k c) : s.branches = t.branches :=
  List.ext_getElem? fun _ => Option.ext fun _ => h

theorem isIdle_iff : s.isIdle i = true ↔ ∃ b, s.At i b ∧ b.phase = .waiting none := by
  simp [isIdle, At, Option.map_eq_some_iff]

theorem eq_becomes (hat : ∀ {k c}, t.At k c ↔ (s.becomes i b ids es).At k c) (hq : t.queue = s.queue ++ es) :
    t = s.becomes i b ids es := by
  have hbranches := branches_ext hat
  cases t
  simp only [becomes] at *
  simp [hbranches, hq]

theorem finish_eq (h : s.At i a) (e : Ending) : s.finish i b e = s.becomes i { b with phase := .ended e } [] [.closed i] := by
  refine eq_becomes (fun {k c} => ?_) rfl
  rw [at_becomes h]
  simp [finish, at_post, at_put h]

theorem moves_begin (h : s.At i b) (hready : b.phase = .ready) : Moves r s (.turn i) (s.begin r i b) := by
  rw [begin]
  split
  · rename_i f hf
    rw [finish_eq h]
    exact .turns h (.fails hready hf)
  · rename_i hnone
    split
    · rename_i hnil
      rw [finish_eq h]
      exact .turns h (.loads hready hnone (List.isEmpty_iff.mp hnil))
    · rename_i hmore
      exact .forks h rfl hready hnone (mt List.isEmpty_iff.mpr hmore)

theorem halt_nil (s : Schedule) : s.halt [] = s := by
  have hbranches : s.branches.mapIdx (fun _ b => b) = s.branches := List.ext_getElem? fun k => by simp
  simp [halt, hbranches]

theorem moves_resume {stop : Bool} (h : s.At i b) (hturn : b.phase = .waiting (some stop)) :
    Moves r s (.turn i) (s.resume i b stop) := by
  unfold resume pause
  rw [Branch.left_heard]
  split
  · rename_i hnil
    have hdone : b.left = [] := List.isEmpty_iff.mp hnil
    have hnone : b.toldOn stop = [] := by
      unfold Branch.toldOn
      split
      · exact hdone
      · rfl
    rw [hnone, halt_nil, finish_eq h]
    exact .turns h (.ends hturn hdone)
  · rename_i hmore
    exact .turns h (.waits hturn (mt List.isEmpty_iff.mpr hmore))

theorem wake_eq (h : s.At i a) : s.wake i b =
    if b.left = [] ∧ b.phase = .waiting none then s.becomes i { b with phase := .waiting (some false) } [] [.turn i]
    else s.becomes i b [] [] := by
  unfold wake
  simp only [Bool.and_eq_true, List.isEmpty_iff, beq_iff_eq]
  split
  · refine eq_becomes (fun {k c} => ?_) rfl
    rw [at_becomes h]
    simp [at_post, at_put h]
  · refine eq_becomes (fun {k c} => ?_) (List.append_nil _).symm
    rw [at_becomes h]
    simp [at_put h]

/-- Telling others to stop, and oneself, right after a change. -/
theorem halt_put_eq (h : s.At i a) (hphase : b.phase = a.phase) : (s.put i b).halt (ids ++ [i]) =
    s.becomes i b.halted ids (((ids ++ [i]).filter s.isIdle).map .turn) := by
  have hidle : (s.put i b).isIdle = s.isIdle := by
    funext k
    rw [Bool.eq_iff_iff, isIdle_iff, isIdle_iff]
    simp only [at_put h]
    constructor
    · rintro ⟨c, ⟨rfl, rfl⟩ | ⟨-, hc⟩, hp⟩
      · exact ⟨a, h, hphase ▸ hp⟩
      · exact ⟨c, hc, hp⟩
    · rintro ⟨c, hc, hp⟩
      by_cases hk : k = i
      · subst hk
        obtain rfl := h.unique hc
        exact ⟨b, .inl ⟨rfl, rfl⟩, hphase.trans hp⟩
      · exact ⟨c, .inr ⟨hk, hc⟩, hp⟩
  refine eq_becomes (fun {k c} => ?_) (by rw [halt, hidle]; rfl)
  rw [at_becomes h, at_halt]
  simp only [at_put h, List.mem_append, List.mem_singleton]
  constructor
  · rintro ⟨d, ⟨rfl, rfl⟩ | ⟨hk, hd⟩, rfl⟩
    · simp
    · exact .inr ⟨hk, d, hd, by simp [hk]⟩
  · rintro (⟨rfl, rfl⟩ | ⟨hk, d, hd, rfl⟩)
    · exact ⟨b, .inl ⟨rfl, rfl⟩, by simp⟩
    · exact ⟨d, .inr ⟨hk, hd⟩, by simp [hk]⟩

theorem moves_close {j p : Nat} {e : Ending} (hb : s.At j b) (hend : b.phase = .ended e) (hp : b.parent = some p)
    (ha : s.At p a) : Moves r s (.closed j) (s.close j e p a) := by
  unfold close
  simp only [Bool.and_eq_true, Bool.not_eq_true']
  split
  · rename_i hnow
    rw [halt_put_eq ha (a.phase_without j e)]
    exact .turns ha (.stops hb hp hend hnow.2 hnow.1)
  · rename_i hcalm
    have hsame : (a.without j e).stopping = a.stopping := by
      rcases a.errors_without j e with ⟨x, -, -, hnow⟩ | ⟨-, -, hsame⟩
      · rw [hnow]
        simpa [hnow] using hcalm
      · exact hsame
    rw [wake_eq ha]
    split
    · rename_i hdone
      exact .turns ha (.wakes hb hp hend hsame hdone.1 ((a.phase_without j e).symm.trans hdone.2))
    · rename_i hbusy
      refine .turns ha (.minds hb hp hend hsame fun hidle hnil => hbusy ⟨hnil, ?_⟩)
      rw [Branch.phase_without, hidle]

/-- Working off an event is one of the moves. -/
theorem moves_step (r : Reader) (s : Schedule) (e : Event) : Moves r s e ((s.due e).step r) := by
  cases e with
  | turn i =>
    simp only [step, due]
    split
    · rename_i hnone
      refine .passes (fun {j b} hj hb => ?_) (fun hj => by cases hj)
      cases hj
      exact absurd (hnone.symm.trans hb) (by simp)
    · rename_i b hb
      split
      · rename_i hready
        exact moves_begin hb hready
      · rename_i stop hturn
        exact moves_resume hb hturn
      · rename_i hready hturn
        refine .passes (fun {j c} hj hc => ?_) (fun hj => by cases hj)
        cases hj
        obtain rfl := At.unique (s := s) hb hc
        exact ⟨hready, hturn⟩
  | closed i =>
    simp only [step, due]
    split
    · rename_i hnone
      refine .passes (fun hj => by cases hj) (fun {j b x p a} hj hb _ _ _ => ?_)
      cases hj
      exact absurd (hnone.symm.trans hb) (by simp)
    · rename_i b hb
      split
      · rename_i x p hend hparent
        split
        · rename_i a ha
          exact moves_close hb hend hparent ha
        · rename_i hnone
          refine .passes (fun hj => by cases hj) (fun {j c y q a} hj hc _ hq ha => ?_)
          cases hj
          obtain rfl := At.unique (s := s) hb hc
          cases hparent.symm.trans hq
          exact absurd (hnone.symm.trans ha) (by simp)
      · rename_i hneither
        refine .passes (fun hj => by cases hj) (fun {j c y q a} hj hc hy hq _ => ?_)
        cases hj
        obtain rfl := At.unique (s := s) hb hc
        exact hneither y q hy hq

theorem due_or_nil (s : Schedule) : (∃ u e, s = due u e) ∨ s.queue = [] := by
  obtain ⟨branches, queue⟩ := s
  cases queue with
  | nil => exact .inr rfl
  | cons e queue => exact .inl ⟨⟨branches, queue⟩, e, rfl⟩

theorem step_of_nil (h : s.queue = []) : s.step r = s := by
  simp only [step, h]

theorem run_of_nil (h : s.queue = []) (n : Nat) : run r n s = s := by
  induction n with
  | zero => rfl
  | succ n ih => rw [run, step_of_nil h, ih]

/-- What every move keeps is kept by a run. -/
theorem run_keeps {P : Schedule → Prop} (hmove : ∀ {s e t}, P (due s e) → Moves r s e t → P t) (n : Nat)
    (h : P s) : P (run r n s) := by
  induction n generalizing s with
  | zero => exact h
  | succ n ih =>
    refine ih ?_
    rcases s.due_or_nil with ⟨u, e, rfl⟩ | hnil
    · exact hmove h (moves_step r u e)
    · rwa [step_of_nil hnil]

/-! ### What a turn keeps -/

theorem Turn.kept (h : Turn r s e i b b' ids es) : b'.chain = b.chain ∧ b'.parent = b.parent := by
  cases h <;> simp [Branch.awaiting]

/-- A branch that is over stays so. -/
theorem Turn.ended_of_ended (h : Turn r s e i b b' ids es) {x : Ending} (hb : b.phase = .ended x) :
    b'.phase = .ended x := by
  cases h <;> simp_all

/-- A branch that has moved on has begun. -/
theorem Turn.begun {root : Text} (h : Turn r s e i b b' ids es) (htree : s.Tree r root) (here : s.At i b) :
    b'.phase ≠ .ready := by
  cases h with
  | fails | loads | ends | wakes => simp
  | waits => simp [Branch.awaiting]
  | minds below parent => simpa using htree.begun below parent here
  | stops below parent =>
    intro hready
    exact htree.begun below parent here (by simpa using (Branch.alike_halted _).ready.mp hready)

theorem alike_becomes (h : s.At i b) (hb : b.Alike b') : s.Alike (s.becomes i b' ids es) := by
  refine ⟨fun {k a} ha => ?_, fun {k c} hc => ?_⟩
  · by_cases hk : k = i
    · subst hk
      obtain rfl := h.unique ha
      exact ⟨b', (at_becomes h).mpr (.inl ⟨rfl, rfl⟩), hb⟩
    · exact ⟨_, (at_becomes h).mpr (.inr ⟨hk, a, ha, rfl⟩), a.alike_ite _⟩
  · rcases (at_becomes h).mp hc with ⟨rfl, rfl⟩ | ⟨-, a, ha, rfl⟩
    · exact ⟨b, h, hb⟩
    · exact ⟨a, ha, a.alike_ite _⟩

/-- The first turn of a branch that has nothing to begin. -/
theorem Tree.grow_nil {root : Text} (h : s.Tree r root) (hb : s.At i b) (hready : b.phase = .ready)
    (hnext : (r.visit b.chain).next = []) (x : Ending) :
    (s.becomes i { b with phase := .ended x } [] es).Tree r root := by
  have hgrows : Grows r s (s.becomes i { b with phase := .ended x } [] es) i b { b with phase := .ended x } := by
    refine ⟨hb, hready, rfl, rfl, by simp, fun {k c} => ?_⟩
    rw [at_becomes hb, hnext]
    simp
  exact h.grow hgrows

theorem next_eq_nil {v : Visit} {f : Loading.Failure} (h : v.failure? = some f) : v.next = [] := by
  unfold Visit.failure? at h
  split at h
  · cases h
  · rename_i g hg
    simp [Visit.next, Visit.found, hg]

/-- A branch that moves on with its first turn begins no others and is over. -/
theorem Turn.of_ready {root : Text} (h : Turn r s e i b b' ids es) (htree : s.Tree r root) (here : s.At i b)
    (hready : b.phase = .ready) :
    e = .turn i ∧ (r.visit b.chain).next = [] ∧ ids = [] ∧ ∃ x, b' = { b with phase := .ended x } := by
  cases h with
  | fails _ broken => exact ⟨rfl, next_eq_nil broken, rfl, _, rfl⟩
  | loads _ _ last => exact ⟨rfl, last, rfl, _, rfl⟩
  | ends turn | waits turn => exact absurd (hready.symm.trans turn) (by simp)
  | wakes below parent | minds below parent | stops below parent => exact absurd hready (htree.begun below parent here)

theorem Tree.of_due {root : Text} (h : (s.due e).Tree r root) : s.Tree r root := ⟨h.lead, h.root, h.up, h.down⟩

/-- The tree stays a tree. -/
theorem Tree.moves {root : Text} (hdue : (s.due e).Tree r root) (hm : Moves r s e t) : t.Tree r root := by
  have h := hdue.of_due
  cases hm with
  | passes => exact h
  | @forks i b here _ ready =>
    have hgrows : Grows r s _ i b (b.awaiting _) :=
      ⟨here, ready, rfl, rfl, by simp [Branch.awaiting], at_fork here⟩
    exact h.grow hgrows
  | @turns i b b' ids es here turn =>
    by_cases hready : b.phase = .ready
    · obtain ⟨-, hnext, rfl, x, rfl⟩ := turn.of_ready h here hready
      exact h.grow_nil here hready hnext x
    · have hkept := turn.kept
      exact h.alike (alike_becomes here ⟨hkept.1, hkept.2, fun hb' => absurd hb' (turn.begun h here), fun hb => absurd hb hready⟩)

end
end Schedule
end Sheet
end Stylebook
