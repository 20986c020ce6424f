import Stylebook.Proofs.Sheet.Order

/-! What a run comes to. A branch that is over has loaded everything below it, or it fails with the load error of
    one sheet below it, or it was stopped because a branch beside it failed. Which sheet it is follows from the
    order in which failures come up: of the sheets that one sheet imports, the first that fails. -/

namespace Stylebook
namespace Sheet

open Loading (LoadError)

/-! ### Reports -/

/-- The load error that the branch of a chain may end with: that of its own sheet, or of the first import that
    fails, or, where no import fails, one from below an import. -/
inductive Reader.Reports (r : Reader) : Chain → LoadError → Prop
  | here {c x} (fails : (r.visit c).failure? = some (.load x)) : r.Reports c x
  | first {c d x} (first : (r.visit c).next.find? (fun y => (r.visit y).failure?.isSome) = some d)
      (fails : (r.visit d).failure? = some (.load x)) : r.Reports c x
  | beyond {c d x} (intact : ∀ y ∈ (r.visit c).next, (r.visit y).failure? = none) (next : d ∈ (r.visit c).next)
      (deeper : r.Reports d x) : r.Reports c x

/-- What a branch holds fits the chain that it follows. -/
structure Branch.Coherent (r : Reader) (b : Branch) : Prop where
  ready : b.phase = .ready → b.errors = [] ∧ b.told = false
  waiting : ∀ {t}, b.phase = .waiting t → (r.visit b.chain).failure? = none
  stopping : b.stopping = true → b.errors ≠ [] ∨ b.told = true
  errors : ∀ {e es}, b.errors = e :: es → ∃ x, e = .failure (.load x) ∧ r.Reports b.chain x
  loaded : b.phase = .ended .loaded → (r.visit b.chain).failure? = none ∧ b.errors = [] ∧ b.told = false
  failed : ∀ {e}, b.phase = .ended (.failed e) →
    (∃ x, e = .failure (.load x) ∧ r.Reports b.chain x) ∧ ((r.visit b.chain).failure? = none → b.errors ≠ [])
  broken : ∀ {x}, (r.visit b.chain).failure? ≠ none → b.phase = .ended x → ∃ e, x = .failed e

section
variable {r : Reader} {b : Branch}

theorem Branch.Coherent.waits (h : b.Coherent r) (hintact : (r.visit b.chain).failure? = none) (t : Option Bool)
    (ids : List Nat) : Branch.Coherent r { b with phase := .waiting t, left := ids } where
  ready := by simp
  waiting _ := hintact
  stopping := h.stopping
  errors := h.errors
  loaded := by simp
  failed := by simp
  broken := by simp

theorem Branch.Coherent.halted (h : b.Coherent r) : b.halted.Coherent r := by
  unfold Branch.halted
  split
  · rename_i ht
    exact h.waits (h.waiting ht) _ _
  · exact h

theorem Branch.Coherent.heard (h : b.Coherent r) {t : Option Bool} (ht : b.phase = .waiting t) (stop : Bool) :
    (b.heard stop).Coherent r := by
  rcases b.heard_cases stop with ⟨-, -, -, hheard⟩ | ⟨-, -, hheard⟩
  · rw [hheard]
    exact {
      ready := fun hready => absurd (ht.symm.trans hready) (by simp)
      waiting := h.waiting
      stopping := fun _ => .inr rfl
      errors := h.errors
      loaded := fun hend => absurd (ht.symm.trans hend) (by simp)
      failed := fun hend => absurd (ht.symm.trans hend) (by simp)
      broken := h.broken }
  · rwa [hheard]

theorem Branch.ending_cases (b : Branch) :
    b.errors = [] ∧ b.told = true ∧ b.ending = .stopped ∨ b.errors = [] ∧ b.told = false ∧ b.ending = .loaded ∨
      b.errors ≠ [] ∧ b.ending = .failed (.ofList b.errors) := by
  cases herrors : b.errors with
  | nil => cases htold : b.told <;> simp [Branch.ending, herrors, htold]
  | cons e es => simp [Branch.ending, herrors]

theorem ofList_load (x : LoadError) (es : List GraphError) :
    GraphError.ofList (.failure (.load x) :: es) = .failure (.load x) := rfl

theorem Branch.Coherent.ended (h : b.Coherent r) {t : Option Bool} (ht : b.phase = .waiting t) :
    Branch.Coherent r { b with phase := .ended b.ending } := by
  have hintact := h.waiting ht
  refine ⟨by simp, by simp, h.stopping, h.errors, fun hend => ?_, fun hend => ?_, fun hfails _ => absurd hintact hfails⟩
  · rcases b.ending_cases with ⟨-, -, he⟩ | ⟨hnil, htold, -⟩ | ⟨-, he⟩
    · simp [he] at hend
    · exact ⟨hintact, hnil, htold⟩
    · simp [he] at hend
  · rcases b.ending_cases with ⟨-, -, he⟩ | ⟨-, -, he⟩ | ⟨hne, he⟩
    · simp [he] at hend
    · simp [he] at hend
    · refine ⟨?_, fun _ => hne⟩
      obtain ⟨e, es, herrors⟩ := List.exists_cons_of_ne_nil hne
      obtain ⟨x, rfl, hreports⟩ := h.errors herrors
      rw [herrors, ofList_load] at he
      simp only [he, Phase.ended.injEq, Ending.failed.injEq] at hend
      exact ⟨x, hend.symm, hreports⟩

/-- Hearing of the end of a branch below, where a first failure is one that may be reported. -/
theorem Branch.Coherent.without (h : b.Coherent r) (hbegun : b.phase ≠ .ready) {j : Nat} {x : Ending}
    (hnew : ∀ {e}, x = .failed e → b.phase ≠ .ended .loaded ∧
      (b.errors = [] → ∃ y, e = .failure (.load y) ∧ r.Reports b.chain y)) : (b.without j x).Coherent r := by
  have hphase := b.phase_without j x
  have hchain := b.chain_without j x
  refine ⟨fun hready => absurd (hphase ▸ hready) hbegun, fun ht => hchain ▸ h.waiting (hphase ▸ ht), ?_, ?_, ?_, ?_,
    fun hfails hend => h.broken (hchain ▸ hfails) (hphase ▸ hend)⟩
  all_goals rcases b.errors_without j x with ⟨e, rfl, herrors, hstop⟩ | ⟨-, herrors, hstop⟩
  · exact fun _ => .inl (by simp [herrors])
  · rw [herrors, hstop, Branch.told_without]
    exact h.stopping
  · intro e' es hes
    rw [herrors] at hes
    rw [hchain]
    cases hb : b.errors with
    | nil =>
      obtain ⟨y, rfl, hreports⟩ := (hnew rfl).2 hb
      rw [hb] at hes
      simp only [List.nil_append, List.cons.injEq] at hes
      exact ⟨y, hes.1.symm, hreports⟩
    | cons e'' es' =>
      rw [hb, List.cons_append, List.cons.injEq] at hes
      exact hes.1 ▸ h.errors hb
  · intro e' es hes
    rw [hchain]
    exact h.errors (herrors ▸ hes)
  · exact fun hend => absurd (hphase ▸ hend) (hnew rfl).1
  · rw [hchain, herrors, Branch.told_without, hphase]
    exact h.loaded
  · intro e' hend
    rw [hchain]
    refine ⟨(h.failed (hphase ▸ hend)).1, fun _ => by simp [herrors]⟩
  · rw [hchain, herrors]
    exact fun hend => h.failed (hphase ▸ hend)

end

namespace Schedule

section
variable {r : Reader} {root : Text} {s t : Schedule} {e : Event} {i j k : Nat} {b b' : Branch} {ids : List Nat}
  {es : List Event}

theorem Turn.coherent (turn : Turn r s e i b b' ids es) (h : b.Coherent r)
    (hload : ∀ {f}, (r.visit b.chain).failure? = some f → ∃ x, f = .load x)
    (hclosed : ∀ {j c x}, e = .closed j → s.At j c → c.parent = some i → c.phase = .ended x → b.phase ≠ .ready ∧
      ∀ {e}, x = .failed e → b.phase ≠ .ended .loaded ∧
        (b.errors = [] → ∃ y, e = .failure (.load y) ∧ r.Reports b.chain y)) : b'.Coherent r := by
  cases turn with
  | fails ready broken =>
    obtain ⟨x, rfl⟩ := hload broken
    refine ⟨by simp, by simp, h.stopping, h.errors, by simp, fun hend => ?_, fun _ hend => ⟨_, by simpa using hend.symm⟩⟩
    cases hend
    exact ⟨⟨x, rfl, .here broken⟩, fun hnone => absurd (hnone.symm.trans broken) (by simp)⟩
  | loads ready intact =>
    obtain ⟨hnil, htold⟩ := h.ready ready
    exact ⟨by simp, by simp, h.stopping, h.errors, fun _ => ⟨intact, hnil, htold⟩, by simp,
      fun hfails _ => absurd intact hfails⟩
  | ends turn => exact (h.heard turn _).ended ((b.phase_heard _).trans turn)
  | waits turn => exact (h.heard turn _).waits (by simpa using h.waiting turn) none b.left
  | wakes below parent closed _ _ idle =>
    obtain ⟨hbegun, hnew⟩ := hclosed rfl below parent closed
    exact (h.without hbegun hnew).waits (by simpa using h.waiting idle) _ _
  | minds below parent closed =>
    obtain ⟨hbegun, hnew⟩ := hclosed rfl below parent closed
    exact h.without hbegun hnew
  | stops below parent closed =>
    obtain ⟨hbegun, hnew⟩ := hclosed rfl below parent closed
    exact (h.without hbegun hnew).halted

end

/-! ### Where a failure comes from -/

end Schedule

/-- The branch was told to stop, or is about to be. -/
def Branch.Halting (b : Branch) : Prop :=
  b.phase = .waiting (some true) ∧ b.stopping = false ∨ b.told = true ∨ b.phase = .ended .stopped

theorem Reader.Reports.eq_here {r : Reader} {c : Chain} {x : LoadError} (h : r.Reports c x)
    (hfails : (r.visit c).failure? ≠ none) : (r.visit c).failure? = some (.load x) := by
  obtain ⟨f, hf⟩ := Option.ne_none_iff_exists'.mp hfails
  have hnil := Schedule.next_eq_nil hf
  cases h with
  | here fails => exact fails
  | first first => simp [hnil] at first
  | beyond _ next => simp [hnil] at next

namespace Schedule

/-- A branch that hears of no failure waits for all branches below it that are not over; and what tells a branch to
    stop is the branch above it. -/
structure Sound (r : Reader) (s : Schedule) : Prop where
  coherent : ∀ {k b}, s.At k b → b.Coherent r
  awaited : ∀ {k b p a}, s.At k b → b.parent = some p → s.At p a →
    k ∈ a.left ∨ ∃ x, b.phase = .ended x ∧ ∀ {e}, x = .failed e → a.errors ≠ []
  obeys : ∀ {k b}, s.At k b → b.Halting → ∃ p a, b.parent = some p ∧ s.At p a ∧ a.stopping = true

section
variable {r : Reader} {root : Text} {s t : Schedule} {e : Event} {i j k : Nat} {b b' c : Branch} {ids : List Nat}
  {es : List Event} {bar : Nat}

/-- Where a branch has heard of no failure, the failing sheets among its imports are still to come up. -/
theorem mem_pending_of_broken (hlive : s.Live) (hsound : s.Sound r) (hb : s.At i b) (hnil : b.errors = [])
    (hc : s.At k c) (hparent : c.parent = some i) (hfails : (r.visit c.chain).failure? ≠ none) : k ∈ s.pending r := by
  have hleft : k ∈ b.left := by
    rcases hsound.awaited hc hparent hb with hleft | ⟨x, hx, hfailed⟩
    · exact hleft
    · obtain ⟨e, he⟩ := (hsound.coherent hc).broken hfails hx
      exact absurd hnil (hfailed he)
  rw [mem_pending]
  cases hphase : c.phase with
  | ready => exact .inr ⟨hlive.turn hc (.inl hphase), isReady_iff.mpr ⟨c, hc, hphase⟩⟩
  | waiting t => exact absurd ((hsound.coherent hc).waiting hphase) hfails
  | ended x =>
    obtain ⟨c', hc', -, hclosed⟩ := hlive.closed hb hleft
    obtain rfl := hc.unique hc'
    exact .inl ⟨hclosed hphase, isBroken_iff.mpr ⟨c, hc, hfails⟩⟩

/-- The first failure that a branch hears of is one that it may report. -/
theorem reports_of_closed (htree : s.Tree r root) (hlive : (s.due (.closed j)).Live) (hsound : (s.due (.closed j)).Sound r)
    (hordered : (s.due (.closed j)).Ordered r bar) (hb : s.At i b) (hnil : b.errors = []) (hc : s.At j c)
    (hparent : c.parent = some i) {f : GraphError} (hend : c.phase = .ended (.failed f)) :
    ∃ x, f = .failure (.load x) ∧ r.Reports b.chain x := by
  obtain ⟨⟨x, rfl, hreports⟩, hne⟩ := (hsound.coherent hc).failed hend
  refine ⟨x, rfl, ?_⟩
  have hmem := htree.mem_next hc hparent hb
  obtain ⟨base, hall, honly⟩ := htree.down hb (htree.begun hc hparent hb)
  by_cases hintact : (r.visit c.chain).failure? = none
  · -- all branches beside one with a failure are behind what is still to come up
    refine .beyond (fun y hy => ?_) hmem hreports
    obtain ⟨n, hn⟩ := List.mem_iff_getElem?.mp hy
    obtain ⟨d, hd, rfl, hpd⟩ := hall hn
    by_contra hfails
    have hpending := mem_pending_of_broken hlive hsound hb hnil hd hpd hfails
    have hlt := hordered.behind hc (hne hintact) hd (hpd.trans hparent.symm)
    exact absurd (hordered.ahead hpending) (by omega)
  · -- what is over now comes up in front of everything else, hence of all other failing imports
    have hbroken : s.isBroken r j = true := isBroken_iff.mpr ⟨c, hc, hintact⟩
    have hsorted := hordered.sorted
    rw [pending_due_closed, if_pos hbroken, List.pairwise_cons] at hsorted
    refine .first ?_ (hreports.eq_here hintact)
    obtain ⟨m, hm, rfl⟩ := honly hc hparent
    obtain ⟨c', hc', hchain, -⟩ := hall (List.getElem?_eq_getElem hm)
    obtain rfl := hc.unique hc'
    rw [List.find?_eq_some_iff_getElem]
    refine ⟨Option.isSome_iff_ne_none.mpr hintact, m, hm, hchain.symm, fun n hn => ?_⟩
    have hn' : n < (r.visit b.chain).next.length := Nat.lt_trans hn hm
    obtain ⟨d, hd, hchain', hpd⟩ := hall (List.getElem?_eq_getElem hn')
    rw [← hchain', Bool.not_eq_true', Option.isSome_eq_false_iff, Option.isNone_iff_eq_none]
    by_contra hfails
    have hpending := mem_pending_of_broken hlive hsound hb hnil hd hpd hfails
    rw [pending_due_closed, if_pos hbroken] at hpending
    rcases List.mem_cons.mp hpending with heq | hin
    · omega
    · exact absurd (hsorted.1 _ hin) (by omega)

/-! ### What a move keeps -/

theorem halting_of_told {stop : Bool} (hb : b.phase = .waiting (some stop)) (h : (b.heard stop).told = true) :
    b.Halting := by
  rcases b.heard_cases stop with ⟨rfl, hnot, -⟩ | ⟨-, -, hheard⟩
  · exact .inl ⟨hb, hnot⟩
  · exact .inr (.inl (hheard ▸ h))

theorem Turn.halting (turn : Turn r s e i b b' ids es) (h : b'.Halting) : b.Halting := by
  cases turn with
  | fails | loads =>
    rcases h with ⟨h, -⟩ | h | h
    · simp at h
    · exact .inr (.inl h)
    · simp at h
  | ends turn =>
    rcases h with ⟨h, -⟩ | h | h
    · simp at h
    · exact halting_of_told turn h
    · rcases (b.heard _).ending_cases with ⟨-, htold, -⟩ | ⟨-, -, he⟩ | ⟨-, he⟩
      · exact halting_of_told turn htold
      · simp [he] at h
      · simp [he] at h
  | waits turn =>
    rcases h with ⟨h, -⟩ | h | h
    · simp [Branch.awaiting] at h
    · exact halting_of_told turn h
    · simp [Branch.awaiting] at h
  | wakes =>
    rcases h with ⟨h, -⟩ | h | h
    · simp at h
    · exact .inr (.inl (by simpa using h))
    · simp at h
  | minds _ _ _ calm => simpa [Branch.Halting, calm] using h
  | stops _ _ _ _ now =>
    rcases h with ⟨-, h⟩ | h | h
    · simp [now] at h
    · exact .inr (.inl (by simpa using h))
    · exact .inr (.inr (by simpa using h))

theorem Turn.stopping (turn : Turn r s e i b b' ids es) (h : b.stopping = true) : b'.stopping = true := by
  have hheard : ∀ stop, (b.heard stop).stopping = true := by
    intro stop
    rcases b.heard_cases stop with ⟨-, -, -, hheard⟩ | ⟨-, -, hheard⟩
    · rw [hheard]
    · rw [hheard, h]
  cases turn with
  | fails | loads => exact h
  | ends | waits => exact hheard _
  | wakes _ _ _ calm | minds _ _ _ calm => exact calm.trans h
  | stops _ _ _ _ now => simpa using now

theorem Turn.told_below (turn : Turn r s e i b b' ids es) (hk : k ∈ ids) : k ∈ b.left ∧ b'.stopping = true := by
  cases turn with
  | fails | loads | ends | wakes | minds => simp at hk
  | @waits _ _ stop =>
    rcases b.heard_cases stop with ⟨-, -, htold, hheard⟩ | ⟨-, htold, -⟩
    · exact ⟨htold ▸ hk, by rw [hheard]; rfl⟩
    · simp [htold] at hk
  | stops _ _ _ _ now =>
    rw [Branch.left_without] at hk
    exact ⟨List.mem_of_mem_filter hk, by simpa using now⟩

theorem Turn.errors_mono (turn : Turn r s e i b b' ids es) (h : b.errors ≠ []) : b'.errors ≠ [] := by
  have hheard : ∀ j x, (b.without j x).errors ≠ [] := by
    intro j x
    rcases b.errors_without j x with ⟨y, -, herrors, -⟩ | ⟨-, herrors, -⟩
    · simp [herrors]
    · rwa [herrors]
  cases turn with
  | fails | loads => exact h
  | ends | waits => simpa [Branch.awaiting] using h
  | wakes | minds => exact hheard _ _
  | stops => simpa using hheard _ _

/-- A branch lets go of one that is over, and keeps its failure. -/
theorem Turn.awaited (turn : Turn r s e i b b' ids es) (hk : k ∈ b.left) :
    k ∈ b'.left ∨ ∃ c x, s.At k c ∧ c.phase = .ended x ∧ ∀ {e}, x = .failed e → b'.errors ≠ [] := by
  have hheard : ∀ {j x c}, s.At j c → c.phase = .ended x → k ∈ (b.without j x).left ∨
      ∃ c x', s.At k c ∧ c.phase = .ended x' ∧ ∀ {e}, x' = .failed e → (b.without j x).errors ≠ [] := by
    intro j x c hc hend
    by_cases hkj : k = j
    · subst hkj
      refine .inr ⟨c, x, hc, hend, fun hx => ?_⟩
      rcases b.errors_without k x with ⟨y, -, herrors, -⟩ | ⟨hne, -⟩
      · simp [herrors]
      · exact absurd hx (hne _)
    · exact .inl (by simpa [hkj] using hk)
  cases turn with
  | fails | loads | waits => exact .inl hk
  | ends _ done => simp [done] at hk
  | wakes below _ closed | minds below _ closed => exact hheard below closed
  | stops below _ closed => simpa using hheard below closed

theorem Sound.coherent_turns (hdue : (s.due e).Tree r root) (hlive : (s.due e).Live) (h : (s.due e).Sound r)
    (hordered : (s.due e).Ordered r bar) (hload : ∀ {f}, (r.visit b.chain).failure? = some f → ∃ x, f = .load x)
    (here : s.At i b) (turn : Turn r s e i b b' ids es) {k : Nat} {c : Branch}
    (hc : (s.becomes i b' ids es).At k c) : c.Coherent r := by
  have htree := hdue.of_due
  rcases (at_becomes here).mp hc with ⟨rfl, rfl⟩ | ⟨-, a, ha, rfl⟩
  · refine turn.coherent (h.coherent here) hload fun {j c x} he hc hparent hend => ?_
    subst he
    refine ⟨htree.begun hc hparent here, fun {f} hx => ⟨fun hloaded => ?_, fun hnil => ?_⟩⟩
    · rcases h.awaited hc hparent here with hleft | ⟨x', hx', hfailed⟩
      · obtain ⟨t, ht⟩ := (hlive.steady here).waits (List.ne_nil_of_mem hleft)
        exact absurd (hloaded.symm.trans ht) (by simp)
      · cases hend.symm.trans hx'
        exact hfailed hx ((h.coherent here).loaded hloaded).2.1
    · exact reports_of_closed htree hlive h hordered here hnil hc hparent (hx ▸ hend)
  · split
    · exact (h.coherent ha).halted
    · exact h.coherent ha

/-- What is over stays so, and what a branch above knows of failures too. -/
theorem Sound.awaited_turns (h : (s.due e).Sound r) (here : s.At i b) (turn : Turn r s e i b b' ids es) {k p : Nat}
    {a c : Branch} (hc : (s.becomes i b' ids es).At k c) (hparent : c.parent = some p)
    (ha : (s.becomes i b' ids es).At p a) : k ∈ a.left ∨
      ∃ x, c.phase = .ended x ∧ ∀ {e}, x = .failed e → a.errors ≠ [] := by
  obtain ⟨c₀, hc₀, hparent₀, hended⟩ : ∃ c₀, s.At k c₀ ∧ c₀.parent = some p ∧
      ∀ {x}, c₀.phase = .ended x → c.phase = .ended x := by
    rcases (at_becomes here).mp hc with ⟨rfl, rfl⟩ | ⟨-, c₀, hc₀, rfl⟩
    · exact ⟨b, here, turn.kept.2 ▸ hparent, turn.ended_of_ended⟩
    · refine ⟨c₀, hc₀, (c₀.alike_ite (k ∈ ids)).parent ▸ hparent, fun hx => ?_⟩
      split
      · exact c₀.halted_ended.mpr hx
      · exact hx
  rcases (at_becomes here).mp ha with ⟨rfl, rfl⟩ | ⟨-, a₀, ha₀, rfl⟩
  · rcases h.awaited hc₀ hparent₀ here with hleft | ⟨x, hx, hfailed⟩
    · rcases turn.awaited hleft with hleft | ⟨c₁, x, hc₁, hx, hfailed⟩
      · exact .inl hleft
      · obtain rfl := At.unique hc₀ hc₁
        exact .inr ⟨x, hended hx, hfailed⟩
    · exact .inr ⟨x, hended hx, fun he => turn.errors_mono (hfailed he)⟩
  · have hsame : (if p ∈ ids then a₀.halted else a₀).left = a₀.left ∧
        (if p ∈ ids then a₀.halted else a₀).errors = a₀.errors := by
      split <;> simp
    rw [hsame.1, hsame.2]
    rcases h.awaited hc₀ hparent₀ ha₀ with hleft | ⟨x, hx, hfailed⟩
    · exact .inl hleft
    · exact .inr ⟨x, hended hx, hfailed⟩

theorem stopping_becomes (here : s.At i b) (turn : Turn r s e i b b' ids es) {p : Nat} {a : Branch} (ha : s.At p a)
    (hstop : a.stopping = true) : ∃ a', (s.becomes i b' ids es).At p a' ∧ a'.stopping = true := by
  by_cases hp : p = i
  · subst hp
    obtain rfl := here.unique ha
    exact ⟨b', (at_becomes here).mpr (.inl ⟨rfl, rfl⟩), turn.stopping hstop⟩
  · refine ⟨_, (at_becomes here).mpr (.inr ⟨hp, a, ha, rfl⟩), ?_⟩
    split <;> simpa using hstop

theorem Sound.obeys_turns (hlive : (s.due e).Live) (h : (s.due e).Sound r) (here : s.At i b)
    (turn : Turn r s e i b b' ids es) {k : Nat} {c : Branch} (hc : (s.becomes i b' ids es).At k c)
    (hhalting : c.Halting) :
    ∃ p a, c.parent = some p ∧ (s.becomes i b' ids es).At p a ∧ a.stopping = true := by
  rcases (at_becomes here).mp hc with ⟨rfl, rfl⟩ | ⟨-, a, ha, rfl⟩
  · obtain ⟨p, a, hparent, ha, hstop⟩ := h.obeys here (turn.halting hhalting)
    obtain ⟨a', ha', hstop'⟩ := stopping_becomes here turn ha hstop
    exact ⟨p, a', turn.kept.2.trans hparent, ha', hstop'⟩
  · rw [(a.alike_ite (k ∈ ids)).parent]
    by_cases hk : k ∈ ids
    · obtain ⟨hleft, hstop⟩ := turn.told_below hk
      obtain ⟨a', ha', hparent, -⟩ := hlive.closed here hleft
      obtain rfl := At.unique ha ha'
      exact ⟨i, b', hparent, (at_becomes here).mpr (.inl ⟨rfl, rfl⟩), hstop⟩
    · rw [if_neg hk] at hhalting
      obtain ⟨p, a', hparent, ha', hstop⟩ := h.obeys ha hhalting
      obtain ⟨a'', ha'', hstop'⟩ := stopping_becomes here turn ha' hstop
      exact ⟨p, a'', hparent, ha'', hstop'⟩

theorem Sound.turns (hdue : (s.due e).Tree r root) (hlive : (s.due e).Live) (h : (s.due e).Sound r)
    (hordered : (s.due e).Ordered r bar) (hload : ∀ {f}, (r.visit b.chain).failure? = some f → ∃ x, f = .load x)
    (here : s.At i b) (turn : Turn r s e i b b' ids es) : (s.becomes i b' ids es).Sound r :=
  ⟨h.coherent_turns hdue hlive hordered hload here turn, h.awaited_turns here turn, h.obeys_turns hlive here turn⟩

theorem Sound.forks {chains : List Chain} (hdue : (s.due e).Tree r root) (h : (s.due e).Sound r) (here : s.At i b)
    (ready : b.phase = .ready) (intact : (r.visit b.chain).failure? = none) : (s.fork i b chains).Sound r := by
  have htree := hdue.of_due
  have hbare : ∀ {k c}, s.At k c → c.parent ≠ some i := fun hc hp => htree.begun hc hp here ready
  have habove : ∀ {k c p a}, s.At k c → c.parent = some p → (s.fork i b chains).At p a → s.At p a := by
    intro k c p a hc hparent ha
    obtain ⟨a', ha', -⟩ := htree.up hc hparent
    rcases (at_fork here).mp ha with ⟨rfl, -⟩ | ⟨-, ha⟩ | ⟨n, x, -, rfl, -⟩
    · exact absurd hparent (hbare hc)
    · exact ha
    · exact absurd ha'.lt (by omega)
  have hobeys : ∀ {k c}, s.At k c → c.Halting →
      ∃ p a, c.parent = some p ∧ (s.fork i b chains).At p a ∧ a.stopping = true := by
    intro k c hc hhalting
    obtain ⟨p, a, hparent, ha, hstop⟩ := h.obeys hc hhalting
    have hp : p ≠ i := fun hp => hbare hc (hp ▸ hparent)
    exact ⟨p, a, hparent, (at_fork here).mpr (.inr (.inl ⟨hp, ha⟩)), hstop⟩
  refine ⟨fun {k c} hc => ?_, fun {k c p a} hc hparent ha => ?_, fun {k c} hc hhalting => ?_⟩
  · rcases (at_fork here).mp hc with ⟨rfl, rfl⟩ | ⟨-, hc⟩ | ⟨n, x, -, -, rfl⟩
    · exact (h.coherent here).waits intact _ _
    · exact h.coherent hc
    · exact ⟨fun _ => ⟨rfl, rfl⟩, by simp [fresh], by simp [fresh], by simp [fresh], by simp [fresh], by simp [fresh],
        by simp [fresh]⟩
  · rcases (at_fork here).mp hc with ⟨rfl, rfl⟩ | ⟨-, hc⟩ | ⟨n, x, hx, rfl, rfl⟩
    · rcases h.awaited here hparent (habove here hparent ha) with hleft | ⟨x, hx, -⟩
      · exact .inl hleft
      · exact absurd (ready.symm.trans hx) (by simp)
    · exact h.awaited hc hparent (habove hc hparent ha)
    · obtain rfl : i = p := by simpa [fresh] using hparent
      have hn : n < chains.length := (List.getElem?_eq_some_iff.mp hx).1
      rcases (at_fork here).mp ha with ⟨-, rfl⟩ | ⟨hne, -⟩ | ⟨n', -, -, hi, -⟩
      · exact .inl (List.mem_range'_1.mpr ⟨by omega, by omega⟩)
      · exact absurd rfl hne
      · exact absurd here.lt (by omega)
  · rcases (at_fork here).mp hc with ⟨rfl, rfl⟩ | ⟨-, hc⟩ | ⟨n, x, -, -, rfl⟩
    · have htold : b.told = true := by simpa [Branch.Halting, Branch.awaiting] using hhalting
      obtain ⟨p, a, hparent, ha, hstop⟩ := hobeys here (.inr (.inl htold))
      exact ⟨p, a, hparent, ha, hstop⟩
    · exact hobeys hc hhalting
    · simp [Branch.Halting, fresh] at hhalting

end

/-! ### Runs -/

/-- Everything that is kept from the start on. -/
structure Regular (r : Reader) (root : Text) (s : Schedule) : Prop where
  tree : s.Tree r root
  live : s.Live
  sound : s.Sound r
  ordered : ∃ bar, s.Ordered r bar

section
variable {r : Reader} {root : Text} {s t : Schedule} {e : Event}

theorem Regular.moves (hload : ∀ {ρ f}, r.Leads root ρ → (r.visit ρ.chain).failure? = some f → ∃ x, f = .load x)
    (h : (s.due e).Regular r root) (hm : Moves r s e t) : t.Regular r root := by
  obtain ⟨bar, hordered⟩ := h.ordered
  refine ⟨h.tree.moves hm, h.live.moves hm, ?_, ?_⟩
  · cases hm with
    | passes => exact ⟨h.sound.coherent, h.sound.awaited, h.sound.obeys⟩
    | forks here _ ready intact => exact h.sound.forks h.tree here ready intact
    | turns here turn =>
      obtain ⟨ρ, hρ, hend⟩ := h.tree.lead here
      exact h.sound.turns h.tree h.live hordered (fun hf => hload hρ (hend ▸ hf)) here turn
  · cases hm with
    | passes => exact ⟨bar, hordered.of_due⟩
    | forks here event ready =>
      subst event
      exact ⟨bar, hordered.forks h.tree.of_due here ready⟩
    | turns here turn =>
      refine hordered.turns h.tree.of_due here turn (turn.begun h.tree.of_due here) ?_ ?_
      · exact (h.sound.coherent here).waiting
      · exact fun hc hend => ((h.sound.coherent hc).failed hend).2

end

theorem at_start {root : Text} {k : Nat} {b : Branch} :
    (start root).At k b ↔ k = 0 ∧ b = { chain := ⟨root, []⟩, parent := none } := by
  cases k <;> simp [start, At, eq_comm]

theorem regular_start (r : Reader) (root : Text) : (start root).Regular r root := by
  have hroot : (start root).At 0 { chain := ⟨root, []⟩, parent := none } := at_start.mpr ⟨rfl, rfl⟩
  refine ⟨⟨fun hb => ?_, ⟨_, hroot, rfl, rfl⟩, fun hb hp => ?_, fun hb hbegun => ?_⟩,
    ⟨fun hb => ?_, fun hb _ => ?_, fun hb hj => ?_⟩, ⟨fun hb => ?_, fun hb hp => ?_, fun hb hhalting => ?_⟩, 0,
    ⟨?_, fun _ => Nat.zero_le _, Nat.zero_le _, fun hk => ?_, fun hb herrors => ?_⟩⟩
  · obtain ⟨-, rfl⟩ := at_start.mp hb
    exact ⟨_, .root, rfl⟩
  · obtain ⟨-, rfl⟩ := at_start.mp hb
    cases hp
  · obtain ⟨-, rfl⟩ := at_start.mp hb
    exact absurd rfl hbegun
  · obtain ⟨-, rfl⟩ := at_start.mp hb
    exact ⟨by simp, by simp⟩
  · obtain ⟨rfl, -⟩ := at_start.mp hb
    exact List.mem_cons_self
  · obtain ⟨-, rfl⟩ := at_start.mp hb
    cases hj
  · obtain ⟨-, rfl⟩ := at_start.mp hb
    exact ⟨fun _ => ⟨rfl, rfl⟩, by simp, by simp, by simp, by simp, by simp, by simp⟩
  · obtain ⟨-, rfl⟩ := at_start.mp hb
    cases hp
  · obtain ⟨-, rfl⟩ := at_start.mp hb
    simp [Branch.Halting] at hhalting
  · have hsub : ((start root).pending r).Sublist [0] := List.filter_sublist
    exact (List.pairwise_singleton _ _).sublist hsub
  · simp only [start, List.mem_singleton, Event.turn.injEq, reduceCtorEq, or_false] at hk
    simp [start, hk]
  · obtain ⟨-, rfl⟩ := at_start.mp hb
    exact absurd rfl herrors

section
variable {r : Reader} {root : Text} {s : Schedule} {b : Branch}

/-- Below a branch that has loaded, with all branches over, every chain has a branch that has loaded. -/
theorem Regular.loaded_below (h : s.Regular r root) (hqueue : s.queue = []) {k : Nat} (hb : s.At k b)
    (hloaded : b.phase = .ended .loaded) {x : Chain} (hx : x ∈ (r.visit b.chain).next) :
    ∃ j c, s.At j c ∧ c.chain = x ∧ c.phase = .ended .loaded := by
  obtain ⟨-, hnil, htold⟩ := (h.sound.coherent hb).loaded hloaded
  obtain ⟨n, hn⟩ := List.mem_iff_getElem?.mp hx
  obtain ⟨base, hall, -⟩ := h.tree.down hb (by simp [hloaded])
  obtain ⟨c, hc, hchain, hparent⟩ := hall hn
  refine ⟨base + n, c, hc, hchain, ?_⟩
  obtain ⟨y, hy⟩ := h.live.ended h.tree hqueue hc
  rw [hy]
  cases y with
  | loaded => rfl
  | failed e =>
    rcases h.sound.awaited hc hparent hb with hleft | ⟨y, hy', hfailed⟩
    · obtain ⟨t, ht⟩ := (h.live.steady hb).waits (List.ne_nil_of_mem hleft)
      exact absurd (hloaded.symm.trans ht) (by simp)
    · cases hy.symm.trans hy'
      exact absurd hnil (hfailed rfl)
  | stopped =>
    obtain ⟨p, a, hp, ha, hstop⟩ := h.sound.obeys hc (.inr (.inr hy))
    cases hparent.symm.trans hp
    obtain rfl := hb.unique ha
    rcases (h.sound.coherent hb).stopping hstop with herrors | htold'
    · exact absurd hnil herrors
    · exact absurd (htold.symm.trans htold') (by simp)

/-- Where the first branch has loaded, so has the sheet of every route. -/
theorem Regular.loaded_route (h : s.Regular r root) (hqueue : s.queue = []) (hb : s.At 0 b)
    (hloaded : b.phase = .ended .loaded) {ρ : Route} (hρ : r.Leads root ρ) :
    ∃ k c, s.At k c ∧ c.chain = ρ.chain ∧ c.phase = .ended .loaded := by
  induction hρ with
  | root =>
    obtain ⟨a, ha, hchain, -⟩ := h.tree.root
    exact ⟨0, a, ha, hchain, hb.unique ha ▸ hloaded⟩
  | @follow ρ refs n ref front reads at_ new ih =>
    obtain ⟨k, c, hc, hchain, hend⟩ := ih
    refine h.loaded_below hqueue hc hend ?_
    rw [hchain, Reader.next_visit]
    exact List.mem_map.mpr ⟨_, Reader.mem_onward.mpr ⟨refs, n, ref, reads, at_, new, rfl⟩, rfl⟩

end

/-- A run with enough turns ends with every sheet loaded, or with a load error that may be reported. -/
theorem run_start {r : Reader} {root : Text} {n : Nat} (m : Nat)
    (hload : ∀ {ρ f}, r.Leads root ρ → (r.visit ρ.chain).failure? = some f → ∃ x, f = .load x)
    (hdeep : ∀ ρ, r.Leads root ρ → ρ.positions.length ≤ n) (hm : (start root).cost r n ≤ m) :
    (∀ {ρ}, r.Leads root ρ → (r.visit ρ.chain).failure? = none) ∧ (run r m (start root)).fault? = none ∨
      ∃ x, (run r m (start root)).fault? = some (.failure (.load x)) ∧ r.Reports ⟨root, []⟩ x := by
  have hregular : (run r m (start root)).Regular r root :=
    run_keeps (fun h hm => h.moves hload hm) m (regular_start r root)
  have hqueue := queue_run m (regular_start r root).tree (regular_start r root).live hdeep hm
  obtain ⟨b, hb, hchain, hparent⟩ := hregular.tree.root
  have hfault : (run r m (start root)).fault? = b.failure? := by
    rw [fault?, show (run r m (start root)).branches[0]? = some b from hb, Option.bind_some]
  obtain ⟨x, hx⟩ := hregular.live.ended hregular.tree hqueue hb
  cases x with
  | loaded =>
    refine .inl ⟨fun hρ => ?_, by rw [hfault, Branch.failure?, hx]⟩
    obtain ⟨k, c, hc, hc', hend⟩ := hregular.loaded_route hqueue hb hx hρ
    rw [← hc']
    exact ((hregular.sound.coherent hc).loaded hend).1
  | failed e =>
    obtain ⟨⟨y, rfl, hreports⟩, -⟩ := (hregular.sound.coherent hb).failed hx
    exact .inr ⟨y, by rw [hfault, Branch.failure?, hx], hchain ▸ hreports⟩
  | stopped =>
    obtain ⟨p, a, hp, -⟩ := hregular.sound.obeys hb (.inr (.inr hx))
    exact absurd (hparent.symm.trans hp) (by simp)

end Schedule
end Sheet
end Stylebook
