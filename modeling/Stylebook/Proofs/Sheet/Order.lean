import Stylebook.Proofs.Sheet.Run

/-! In which order failures come up. Branches get their first turn by number, and those whose sheet fails are over
    in that order too. So the failing sheets that are still to come up have higher numbers than those that did,
    and a branch with a failure has heard of a failing sheet behind all branches beside it. -/

namespace Stylebook
namespace Sheet

def Event.turn? : Event → Option Nat
  | .turn i => some i
  | .closed _ => none

def Event.closed? : Event → Option Nat
  | .turn _ => none
  | .closed i => some i

theorem Event.mem_turns {es : List Event} {i : Nat} : i ∈ es.filterMap Event.turn? ↔ .turn i ∈ es := by
  rw [List.mem_filterMap]
  constructor
  · rintro ⟨x, hx, hi⟩
    cases x with
    | closed => cases hi
    | turn =>
      cases hi
      exact hx
  · exact fun hi => ⟨_, hi, rfl⟩

theorem Event.mem_closed {es : List Event} {i : Nat} : i ∈ es.filterMap Event.closed? ↔ .closed i ∈ es := by
  rw [List.mem_filterMap]
  constructor
  · rintro ⟨x, hx, hi⟩
    cases x with
    | turn => cases hi
    | closed =>
      cases hi
      exact hx
  · exact fun hi => ⟨_, hi, rfl⟩

namespace Schedule

/-- Whether the sheet of the branch `i` fails. -/
def isBroken (r : Reader) (s : Schedule) (i : Nat) : Bool :=
  s.branches[i]?.any fun b => (r.visit b.chain).failure?.isSome

def isReady (s : Schedule) (i : Nat) : Bool := s.branches[i]?.any fun b => b.phase == .ready

/-- The branches with a failing sheet whose end is still to be heard of, and behind them those that have not
    begun, as they come up. -/
def pending (r : Reader) (s : Schedule) : List Nat :=
  (s.queue.filterMap Event.closed?).filter (s.isBroken r) ++ (s.queue.filterMap Event.turn?).filter s.isReady

/-- What comes up is ordered by number and not below `bar`, where every branch that stands beside one with
    a failure is. -/
structure Ordered (r : Reader) (s : Schedule) (bar : Nat) : Prop where
  sorted : (s.pending r).Pairwise (· < ·)
  ahead : ∀ {i}, i ∈ s.pending r → bar ≤ i
  bound : bar ≤ s.branches.length
  known : ∀ {i}, .turn i ∈ s.queue ∨ .closed i ∈ s.queue → i < s.branches.length
  behind : ∀ {k b j a}, s.At k b → b.errors ≠ [] → s.At j a → a.parent = b.parent → j < bar

section
variable {r : Reader} {root : Text} {s t : Schedule} {e : Event} {i j k : Nat} {b b' : Branch} {ids : List Nat}
  {es : List Event}

theorem isBroken_iff : s.isBroken r i = true ↔ ∃ b, s.At i b ∧ (r.visit b.chain).failure? ≠ none := by
  simp [isBroken, At, Option.any_eq_true, Option.isSome_iff_ne_none]

theorem isReady_iff : s.isReady i = true ↔ ∃ b, s.At i b ∧ b.phase = .ready := by
  simp [isReady, At, Option.any_eq_true]

theorem mem_pending : i ∈ s.pending r ↔
    .closed i ∈ s.queue ∧ s.isBroken r i = true ∨ .turn i ∈ s.queue ∧ s.isReady i = true := by
  rw [pending, List.mem_append, List.mem_filter, List.mem_filter, Event.mem_closed, Event.mem_turns]

theorem pending_due_closed : (s.due (.closed j)).pending r = if s.isBroken r j then j :: s.pending r else s.pending r := by
  have hbroken : (s.due (.closed j)).isBroken r = s.isBroken r := rfl
  have hready : (s.due (.closed j)).isReady = s.isReady := rfl
  rw [pending, hbroken, hready]
  simp only [due, List.filterMap_cons, Event.closed?, Event.turn?, List.filter_cons]
  split <;> rfl

theorem pending_due_turn (h : s.isReady i = true) : (s.due (.turn i)).pending r =
    (s.queue.filterMap Event.closed?).filter (s.isBroken r) ++
      i :: (s.queue.filterMap Event.turn?).filter s.isReady := by
  have hbroken : (s.due (.turn i)).isBroken r = s.isBroken r := rfl
  have hready : (s.due (.turn i)).isReady = s.isReady := rfl
  rw [pending, hbroken, hready]
  simp only [due, List.filterMap_cons, Event.closed?, Event.turn?, List.filter_cons, h, if_true]

theorem pending_sublist_due : (s.pending r).Sublist ((s.due e).pending r) := by
  refine List.Sublist.append (List.Sublist.filter _ (List.Sublist.filterMap _ (List.sublist_cons_self _ _)))
    (List.Sublist.filter _ (List.Sublist.filterMap _ (List.sublist_cons_self _ _)))

theorem isBroken_becomes (here : s.At i b) (turn : Turn r s e i b b' ids es) :
    (s.becomes i b' ids es).isBroken r = s.isBroken r := by
  funext k
  rw [Bool.eq_iff_iff, isBroken_iff, isBroken_iff]
  constructor
  · rintro ⟨c, hc, hfails⟩
    rcases (at_becomes here).mp hc with ⟨rfl, rfl⟩ | ⟨-, a, ha, rfl⟩
    · exact ⟨b, here, turn.kept.1 ▸ hfails⟩
    · exact ⟨a, ha, (a.alike_ite (k ∈ ids)).chain ▸ hfails⟩
  · rintro ⟨a, ha, hfails⟩
    by_cases hk : k = i
    · subst hk
      obtain rfl := here.unique ha
      exact ⟨b', (at_becomes here).mpr (.inl ⟨rfl, rfl⟩), turn.kept.1.symm ▸ hfails⟩
    · exact ⟨_, (at_becomes here).mpr (.inr ⟨hk, a, ha, rfl⟩), (a.alike_ite (k ∈ ids)).chain.symm ▸ hfails⟩

theorem isReady_becomes (here : s.At i b) (hbegun : b'.phase ≠ .ready) (h : (s.becomes i b' ids es).isReady k = true) :
    s.isReady k = true ∧ k ≠ i := by
  obtain ⟨c, hc, hready⟩ := isReady_iff.mp h
  rcases (at_becomes here).mp hc with ⟨rfl, rfl⟩ | ⟨hk, a, ha, rfl⟩
  · exact absurd hready hbegun
  · exact ⟨isReady_iff.mpr ⟨a, ha, (a.alike_ite _).ready.mp hready⟩, hk⟩

/-- A turn is posted only for branches that have begun. -/
theorem Turn.mem_es (h : Turn r s e i b b' ids es) (here : s.At i b) (hk : .turn k ∈ es) :
    ∃ c, s.At k c ∧ c.phase = .waiting none := by
  have hidle : ∀ {l : List Nat}, Event.turn k ∈ (l.filter s.isIdle).map .turn → ∃ c, s.At k c ∧ c.phase = .waiting none := by
    intro l hl
    obtain ⟨m, hm, hmk⟩ := List.mem_map.mp hl
    cases hmk
    exact isIdle_iff.mp (List.mem_filter.mp hm).2
  cases h with
  | fails | loads | ends | minds => simp at hk
  | waits | stops => exact hidle hk
  | wakes _ _ _ _ _ idle =>
    obtain rfl : k = i := by simpa using hk
    exact ⟨b, here, idle⟩

theorem turns_becomes (here : s.At i b) (turn : Turn r s e i b b' ids es) (hbegun : b'.phase ≠ .ready) :
    (((s.queue ++ es).filterMap Event.turn?).filter (s.becomes i b' ids es).isReady).Sublist
      ((s.queue.filterMap Event.turn?).filter s.isReady) := by
  have hnone : (es.filterMap Event.turn?).filter (s.becomes i b' ids es).isReady = [] := by
    rw [List.filter_eq_nil_iff]
    intro k hk hready
    obtain ⟨c, hc, hidle⟩ := turn.mem_es here (Event.mem_turns.mp hk)
    obtain ⟨c', hc', hready'⟩ := isReady_iff.mp (isReady_becomes here hbegun hready).1
    obtain rfl := hc.unique hc'
    exact absurd (hidle.symm.trans hready') (by simp)
  rw [List.filterMap_append, List.filter_append, hnone, List.append_nil]
  exact List.monotone_filter_right _ fun k hk => (isReady_becomes here hbegun hk).1

/-- Nothing is added where no end of a failing sheet comes up. -/
theorem pending_becomes (here : s.At i b) (turn : Turn r s e i b b' ids es) (hbegun : b'.phase ≠ .ready)
    (hquiet : ∀ k, .closed k ∈ es → s.isBroken r k = false) :
    ((s.becomes i b' ids es).pending r).Sublist (s.pending r) := by
  have hnone : (es.filterMap Event.closed?).filter (s.isBroken r) = [] := by
    rw [List.filter_eq_nil_iff]
    intro k hk
    simp [hquiet k (Event.mem_closed.mp hk)]
  refine List.Sublist.append ?_ (turns_becomes here turn hbegun)
  rw [isBroken_becomes here turn, becomes, List.filterMap_append, List.filter_append, hnone, List.append_nil]

/-- A first turn that fails only passes its branch on. -/
theorem pending_fails (here : s.At i b) (ready : b.phase = .ready) (turn : Turn r s (.turn i) i b b' ids [.closed i])
    (hbegun : b'.phase ≠ .ready) :
    ((s.becomes i b' ids [.closed i]).pending r).Sublist ((s.due (.turn i)).pending r) := by
  rw [pending_due_turn (isReady_iff.mpr ⟨b, here, ready⟩), pending, isBroken_becomes here turn]
  simp only [becomes, List.filterMap_append, List.filter_append, List.append_assoc]
  refine List.Sublist.append (List.Sublist.refl _) ?_
  have hone : (([Event.closed i].filterMap Event.closed?).filter (s.isBroken r)).Sublist [i] := List.filter_sublist
  have hrest := turns_becomes here turn hbegun
  rw [List.filterMap_append, List.filter_append] at hrest
  exact hone.append hrest

theorem Turn.pending (turn : Turn r s e i b b' ids es) (here : s.At i b) (hbegun : b'.phase ≠ .ready)
    (hwait : ∀ {t}, b.phase = .waiting t → (r.visit b.chain).failure? = none) :
    ((s.becomes i b' ids es).pending r).Sublist ((s.due e).pending r) ∧
      ∀ {j}, e = .closed j → ((s.becomes i b' ids es).pending r).Sublist (s.pending r) := by
  have hintact : (r.visit b.chain).failure? = none → s.isBroken r i = false := by
    intro hnone
    rw [Bool.eq_false_iff, Ne, isBroken_iff]
    rintro ⟨c, hc, hfails⟩
    exact hfails (here.unique hc ▸ hnone)
  by_cases hquiet : ∀ k, .closed k ∈ es → s.isBroken r k = false
  · have hsub := pending_becomes here turn hbegun hquiet
    exact ⟨hsub.trans pending_sublist_due, fun _ => hsub⟩
  · cases turn with
    | fails ready broken => exact ⟨pending_fails here ready (.fails ready broken) hbegun, by simp⟩
    | loads _ intact => exact absurd (by simpa using hintact intact) hquiet
    | ends turn => exact absurd (by simpa using hintact (hwait turn)) hquiet
    | waits | wakes | minds | stops => exact absurd (by simp) hquiet

/-! ### The order is kept -/

theorem Turn.closed_mem (turn : Turn r s e i b b' ids es) (hk : .closed k ∈ es) : k = i := by
  cases turn <;> simp_all

/-- A branch has a failure from before, or hears of one now. -/
theorem Turn.errors (turn : Turn r s e i b b' ids es) (h : b'.errors ≠ []) :
    b.errors ≠ [] ∨ ∃ j c y, e = .closed j ∧ s.At j c ∧ c.parent = some i ∧ c.phase = .ended (.failed y) := by
  have hheard : ∀ {j x c}, s.At j c → c.parent = some i → c.phase = .ended x → (b.without j x).errors ≠ [] →
      b.errors ≠ [] ∨ ∃ j' c y, Event.closed j = .closed j' ∧ s.At j' c ∧ c.parent = some i ∧ c.phase = .ended (.failed y) := by
    intro j x c hc hparent hend hne
    rcases b.errors_without j x with ⟨y, rfl, -⟩ | ⟨-, hsame, -⟩
    · exact .inr ⟨j, c, y, rfl, hc, hparent, hend⟩
    · exact .inl (hsame ▸ hne)
  cases turn with
  | fails | loads => exact .inl h
  | ends | waits => exact .inl (by simpa [Branch.awaiting] using h)
  | wakes below parent closed | minds below parent closed => exact hheard below parent closed h
  | stops below parent closed => exact hheard below parent closed (by simpa using h)

theorem back_becomes {c : Branch} (here : s.At i b) (turn : Turn r s e i b b' ids es)
    (h : (s.becomes i b' ids es).At k c) : ∃ a, s.At k a ∧ c.chain = a.chain ∧ c.parent = a.parent ∧
      (c.errors ≠ [] → a.errors ≠ [] ∨ k = i ∧ b'.errors ≠ []) := by
  rcases (at_becomes here).mp h with ⟨rfl, rfl⟩ | ⟨hk, a, ha, rfl⟩
  · exact ⟨b, here, turn.kept.1, turn.kept.2, fun hne => .inr ⟨rfl, hne⟩⟩
  · have halike := a.alike_ite (k ∈ ids)
    refine ⟨a, ha, halike.chain, halike.parent, fun hne => .inl ?_⟩
    split at hne
    · simpa using hne
    · exact hne

theorem length_becomes : (s.becomes i b' ids es).branches.length = s.branches.length := by simp [becomes, put, halt]

theorem Ordered.known_turns {bar : Nat} (h : (s.due e).Ordered r bar) (here : s.At i b)
    (turn : Turn r s e i b b' ids es)
    (hk : .turn k ∈ (s.becomes i b' ids es).queue ∨ .closed k ∈ (s.becomes i b' ids es).queue) :
    k < (s.becomes i b' ids es).branches.length := by
  rw [length_becomes]
  rcases hk with hk | hk
  · rcases List.mem_append.mp hk with hk | hk
    · exact h.known (.inl (List.mem_cons_of_mem _ hk))
    · obtain ⟨c, hc, -⟩ := turn.mem_es here hk
      exact hc.lt
  · rcases List.mem_append.mp hk with hk | hk
    · exact h.known (.inr (List.mem_cons_of_mem _ hk))
    · exact turn.closed_mem hk ▸ here.lt

/-- The branch that hears of a failing sheet stands with all beside it in front of the one that failed. -/
theorem Ordered.behind_turns {bar bar' : Nat} (h : (s.due e).Ordered r bar) (htree : s.Tree r root) (here : s.At i b)
    (turn : Turn r s e i b b' ids es) (hle : bar ≤ bar')
    (hnew : ∀ {j c y}, e = .closed j → s.At j c → c.parent = some i → c.phase = .ended (.failed y) → j < bar')
    {a c : Branch} (hc : (s.becomes i b' ids es).At k c) (herrors : c.errors ≠ [])
    (ha : (s.becomes i b' ids es).At j a) (hsame : a.parent = c.parent) : j < bar' := by
  obtain ⟨c', hc', -, hpc, hec⟩ := back_becomes here turn hc
  obtain ⟨a', ha', -, hpa, -⟩ := back_becomes here turn ha
  have hsame' : a'.parent = c'.parent := by rw [← hpa, hsame, hpc]
  rcases hec herrors with hold | ⟨rfl, hb'⟩
  · exact Nat.lt_of_lt_of_le (h.behind hc' hold ha' hsame') hle
  · obtain rfl := here.unique hc'
    rcases turn.errors hb' with hold | ⟨j', d, y, rfl, hd, hparent, hend⟩
    · exact Nat.lt_of_lt_of_le (h.behind here hold ha' hsame') hle
    · obtain ⟨b₂, hb₂, -, hbeside⟩ := htree.up hd hparent
      obtain rfl := here.unique hb₂
      exact Nat.lt_trans (hbeside ha' hsame') (hnew rfl hd hparent hend)

theorem Ordered.turns {bar : Nat} (h : (s.due e).Ordered r bar) (htree : s.Tree r root) (here : s.At i b)
    (turn : Turn r s e i b b' ids es) (hbegun : b'.phase ≠ .ready)
    (hwait : ∀ {t}, b.phase = .waiting t → (r.visit b.chain).failure? = none)
    (hfailed : ∀ {j c y}, s.At j c → c.phase = .ended (.failed y) → (r.visit c.chain).failure? = none → c.errors ≠ []) :
    ∃ bar', (s.becomes i b' ids es).Ordered r bar' := by
  obtain ⟨hsub, hsub'⟩ := turn.pending here hbegun hwait
  by_cases hbroken : ∃ j, e = .closed j ∧ s.isBroken r j = true
  · obtain ⟨j, rfl, hj⟩ := hbroken
    have hsorted := h.sorted
    rw [pending_due_closed, if_pos hj, List.pairwise_cons] at hsorted
    have hbar : bar ≤ j := h.ahead (by rw [pending_due_closed, if_pos hj]; exact List.mem_cons_self)
    refine ⟨j + 1, hsorted.2.sublist (hsub' rfl), fun hin => hsorted.1 _ ((hsub' rfl).subset hin), ?_,
      h.known_turns here turn, h.behind_turns htree here turn (by omega) fun {j' c y} hj' _ _ _ => ?_⟩
    · rw [length_becomes]
      exact h.known (.inr List.mem_cons_self)
    · cases hj'
      omega
  · have hbound : bar ≤ (s.becomes i b' ids es).branches.length := by
      rw [length_becomes]
      exact h.bound
    refine ⟨bar, h.sorted.sublist hsub, fun hin => h.ahead (hsub.subset hin), hbound, h.known_turns here turn,
      h.behind_turns htree here turn (Nat.le_refl _) fun {j c y} hj hc hparent hend => ?_⟩
    have hintact : (r.visit c.chain).failure? = none := by
      by_contra hfails
      exact hbroken ⟨j, hj, isBroken_iff.mpr ⟨c, hc, hfails⟩⟩
    exact h.behind hc (hfailed hc hend hintact) hc rfl

theorem Ordered.of_due {bar : Nat} (h : (s.due e).Ordered r bar) : s.Ordered r bar :=
  ⟨h.sorted.sublist pending_sublist_due, fun hin => h.ahead (pending_sublist_due.subset hin), h.bound,
    fun hin => h.known (hin.imp (List.mem_cons_of_mem _) (List.mem_cons_of_mem _)), h.behind⟩

theorem filter_sublist_filter {p q : Nat → Bool} {l : List Nat} (h : ∀ x ∈ l, p x = true → q x = true) :
    (l.filter p).Sublist (l.filter q) := by
  have hboth : l.filter p = (l.filter q).filter p := by
    rw [List.filter_filter]
    refine List.filter_congr fun x hx => ?_
    cases hp : p x with
    | false => rfl
    | true => rw [h x hx hp, Bool.and_true]
  rw [hboth]
  exact List.filter_sublist

/-- The branches that begin come up behind all others. -/
theorem pending_fork {chains : List Chain} (here : s.At i b)
    (hknown : ∀ {k}, .turn k ∈ s.queue ∨ .closed k ∈ s.queue → k < s.branches.length) :
    ∃ front, (s.fork i b chains).pending r = front ++ List.range' s.branches.length chains.length ∧
      front.Sublist (s.pending r) := by
  have hold : ∀ {k c}, k < s.branches.length → (s.fork i b chains).At k c → ∃ a, s.At k a ∧ c.chain = a.chain ∧
      (c.phase = .ready → a.phase = .ready) := by
    intro k c hk hc
    rcases (at_fork here).mp hc with ⟨rfl, rfl⟩ | ⟨-, hc⟩ | ⟨n, x, -, rfl, -⟩
    · exact ⟨b, here, rfl, by simp [Branch.awaiting]⟩
    · exact ⟨c, hc, rfl, id⟩
    · omega
  refine ⟨(s.queue.filterMap Event.closed?).filter ((s.fork i b chains).isBroken r) ++
    (s.queue.filterMap Event.turn?).filter (s.fork i b chains).isReady, ?_, List.Sublist.append ?_ ?_⟩
  · have hqueue : (s.fork i b chains).queue = s.queue ++ (List.range' s.branches.length chains.length).map .turn := rfl
    have hclosed : ((List.range' s.branches.length chains.length).map Event.turn).filterMap Event.closed? = [] := by
      simp [List.filterMap_map, Function.comp_def, Event.closed?]
    have hturn : ((List.range' s.branches.length chains.length).map Event.turn).filterMap Event.turn? =
        List.range' s.branches.length chains.length := by
      simp [List.filterMap_map, Function.comp_def, Event.turn?]
    have hall : (List.range' s.branches.length chains.length).filter (s.fork i b chains).isReady =
        List.range' s.branches.length chains.length := by
      rw [List.filter_eq_self]
      intro k hk
      obtain ⟨hle, hlt⟩ := List.mem_range'_1.mp hk
      obtain ⟨n, rfl⟩ := Nat.exists_eq_add_of_le hle
      have hn : n < chains.length := by omega
      exact isReady_iff.mpr ⟨fresh i chains[n],
        (at_fork here).mpr (.inr (.inr ⟨n, _, List.getElem?_eq_getElem hn, rfl, rfl⟩)), rfl⟩
    rw [pending, hqueue, List.filterMap_append, List.filterMap_append, hclosed, hturn, List.append_nil,
      List.filter_append, hall, List.append_assoc]
  · refine filter_sublist_filter fun k hk hbroken => ?_
    obtain ⟨c, hc, hfails⟩ := isBroken_iff.mp hbroken
    obtain ⟨a, ha, hchain, -⟩ := hold (hknown (.inr (Event.mem_closed.mp hk))) hc
    exact isBroken_iff.mpr ⟨a, ha, hchain ▸ hfails⟩
  · refine filter_sublist_filter fun k hk hready => ?_
    obtain ⟨c, hc, hphase⟩ := isReady_iff.mp hready
    obtain ⟨a, ha, -, hback⟩ := hold (hknown (.inl (Event.mem_turns.mp hk))) hc
    exact isReady_iff.mpr ⟨a, ha, hback hphase⟩

theorem Ordered.forks {bar : Nat} {chains : List Chain} (hdue : (s.due (.turn i)).Ordered r bar) (htree : s.Tree r root)
    (here : s.At i b) (ready : b.phase = .ready) : (s.fork i b chains).Ordered r bar := by
  have h := hdue.of_due
  have hlen : (s.fork i b chains).branches.length = s.branches.length + chains.length := by simp [fork, put]
  obtain ⟨front, hpending, hfront⟩ : ∃ front, (s.fork i b chains).pending r =
      front ++ List.range' s.branches.length chains.length ∧ front.Sublist (s.pending r) := pending_fork here h.known
  have hlt : ∀ {k}, k ∈ s.pending r → k < s.branches.length := by
    intro k hk
    rcases mem_pending.mp hk with ⟨hk, -⟩ | ⟨hk, -⟩
    · exact h.known (.inr hk)
    · exact h.known (.inl hk)
  -- what stands in the tree had no branch below the one that begins now
  have hbare : ∀ {k c}, s.At k c → c.parent ≠ some i := fun hc hp => htree.begun hc hp here ready
  have hold : ∀ {k c}, (s.fork i b chains).At k c → (∃ a, s.At k a ∧ c.parent = a.parent ∧ c.errors = a.errors) ∨
      c.errors = [] ∧ c.parent = some i := by
    intro k c hc
    rcases (at_fork here).mp hc with ⟨rfl, rfl⟩ | ⟨-, hc⟩ | ⟨n, x, -, -, rfl⟩
    · exact .inl ⟨b, here, rfl, rfl⟩
    · exact .inl ⟨c, hc, rfl, rfl⟩
    · exact .inr ⟨rfl, rfl⟩
  refine ⟨?_, fun {k} hk => ?_, ?_, fun {k} hk => ?_, fun {k c j a} hc herrors ha hsame => ?_⟩
  · rw [hpending, List.pairwise_append]
    refine ⟨h.sorted.sublist hfront, List.pairwise_lt_range', fun k hk m hm => ?_⟩
    have := hlt (hfront.subset hk)
    have := (List.mem_range'_1.mp hm).1
    omega
  · rw [hpending] at hk
    rcases List.mem_append.mp hk with hk | hk
    · exact h.ahead (hfront.subset hk)
    · exact Nat.le_trans h.bound (List.mem_range'_1.mp hk).1
  · have := h.bound
    omega
  · have hids : ∀ {k}, k ∈ List.range' s.branches.length chains.length → k < (s.fork i b chains).branches.length := by
      intro k hk
      rw [hlen]
      exact (List.mem_range'_1.mp hk).2
    have hqueue : (s.fork i b chains).queue = s.queue ++ (List.range' s.branches.length chains.length).map .turn := rfl
    rw [hqueue, List.mem_append, List.mem_append] at hk
    rcases hk with (hk | hk) | hk | hk
    · exact Nat.lt_of_lt_of_le (h.known (.inl hk)) (hlen ▸ Nat.le_add_right _ _)
    · obtain ⟨m, hm, hmk⟩ := List.mem_map.mp hk
      cases hmk
      exact hids hm
    · exact Nat.lt_of_lt_of_le (h.known (.inr hk)) (hlen ▸ Nat.le_add_right _ _)
    · obtain ⟨m, hm, hmk⟩ := List.mem_map.mp hk
      cases hmk
  · rcases hold hc with ⟨c', hc', hpc, hec⟩ | ⟨hnil, -⟩
    · rcases hold ha with ⟨a', ha', hpa, -⟩ | ⟨-, hpa⟩
      · exact h.behind hc' (hec ▸ herrors) ha' (by rw [← hpa, hsame, hpc])
      · exact absurd (hpc.symm.trans (hsame.symm.trans hpa)) (hbare hc')
    · exact absurd hnil herrors

end
end Schedule
end Sheet
end Stylebook
