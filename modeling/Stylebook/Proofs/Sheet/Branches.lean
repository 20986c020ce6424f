import Stylebook.Proofs.Sheet.Route

/-! The branches of a schedule and the chains they follow. A branch keeps its chain and the one that began it;
    when it has had its first turn it has one branch below it for each chain that goes on from its own, and
    these have numbers one after the other, behind those of all branches beside it. -/

namespace Stylebook
namespace Sheet

/-! ### Two states of one branch -/

/-- The chain and the parent of a branch stay, and so does whether it has begun. -/
structure Branch.Alike (a b : Branch) : Prop where
  chain : b.chain = a.chain
  parent : b.parent = a.parent
  ready : b.phase = .ready ↔ a.phase = .ready

theorem Branch.Alike.refl (b : Branch) : b.Alike b := ⟨rfl, rfl, Iff.rfl⟩

section
variable (b : Branch)

@[simp] theorem Branch.chain_halted : b.halted.chain = b.chain := by
  unfold Branch.halted
  split <;> rfl

@[simp] theorem Branch.parent_halted : b.halted.parent = b.parent := by
  unfold Branch.halted
  split <;> rfl

@[simp] theorem Branch.left_halted : b.halted.left = b.left := by
  unfold Branch.halted
  split <;> rfl

@[simp] theorem Branch.errors_halted : b.halted.errors = b.errors := by
  unfold Branch.halted
  split <;> rfl

@[simp] theorem Branch.stopping_halted : b.halted.stopping = b.stopping := by
  unfold Branch.halted
  split <;> rfl

@[simp] theorem Branch.told_halted : b.halted.told = b.told := by
  unfold Branch.halted
  split <;> rfl

theorem Branch.phase_halted :
    (∃ t, b.phase = .waiting t ∧ b.halted.phase = .waiting (some true)) ∨
      (∀ t, b.phase ≠ .waiting t) ∧ b.halted = b := by
  unfold Branch.halted
  split
  · rename_i t ht
    exact .inl ⟨t, ht, rfl⟩
  · rename_i hne
    exact .inr ⟨hne, rfl⟩

theorem Branch.alike_halted : b.Alike b.halted := by
  refine ⟨by simp, by simp, ?_⟩
  rcases b.phase_halted with ⟨t, ht, hhalted⟩ | ⟨-, hsame⟩
  · rw [ht, hhalted]
    simp
  · rw [hsame]

theorem Branch.alike_ite (p : Prop) [Decidable p] : b.Alike (if p then b.halted else b) := by
  split
  · exact b.alike_halted
  · exact .refl b

@[simp] theorem Branch.halted_ended {e : Ending} : b.halted.phase = .ended e ↔ b.phase = .ended e := by
  rcases b.phase_halted with ⟨t, ht, hhalted⟩ | ⟨-, hsame⟩
  · rw [ht, hhalted]
    simp
  · rw [hsame]

@[simp] theorem Branch.chain_heard (stop : Bool) : (b.heard stop).chain = b.chain := by
  unfold Branch.heard
  split <;> rfl

@[simp] theorem Branch.parent_heard (stop : Bool) : (b.heard stop).parent = b.parent := by
  unfold Branch.heard
  split <;> rfl

@[simp] theorem Branch.phase_heard (stop : Bool) : (b.heard stop).phase = b.phase := by
  unfold Branch.heard
  split <;> rfl

@[simp] theorem Branch.left_heard (stop : Bool) : (b.heard stop).left = b.left := by
  unfold Branch.heard
  split <;> rfl

@[simp] theorem Branch.errors_heard (stop : Bool) : (b.heard stop).errors = b.errors := by
  unfold Branch.heard
  split <;> rfl

theorem Branch.heard_cases (stop : Bool) :
    (stop = true ∧ b.stopping = false ∧ b.toldOn stop = b.left ∧
      b.heard stop = { b with stopping := true, told := true }) ∨
    (stop = true → b.stopping = true) ∧ b.toldOn stop = [] ∧ b.heard stop = b := by
  unfold Branch.heard Branch.toldOn
  cases stop with
  | false => simp
  | true => cases hstopping : b.stopping <;> simp

section
variable (j : Nat) (e : Ending)

@[simp] theorem Branch.chain_without : (b.without j e).chain = b.chain := by
  unfold Branch.without
  split <;> rfl

@[simp] theorem Branch.parent_without : (b.without j e).parent = b.parent := by
  unfold Branch.without
  split <;> rfl

@[simp] theorem Branch.phase_without : (b.without j e).phase = b.phase := by
  unfold Branch.without
  split <;> rfl

@[simp] theorem Branch.left_without : (b.without j e).left = b.left.filter (· != j) := by
  unfold Branch.without
  split <;> rfl

@[simp] theorem Branch.told_without : (b.without j e).told = b.told := by
  unfold Branch.without
  split <;> rfl

theorem Branch.errors_without : (∃ x, e = .failed x ∧ (b.without j e).errors = b.errors ++ [x] ∧
    (b.without j e).stopping = true) ∨ (∀ x, e ≠ .failed x) ∧ (b.without j e).errors = b.errors ∧
    (b.without j e).stopping = b.stopping := by
  unfold Branch.without
  split
  · exact .inl ⟨_, rfl, rfl, rfl⟩
  · rename_i hne
    exact .inr ⟨hne, rfl, rfl⟩

end

end

/-! ### The branch of a number -/

namespace Schedule

/-- The branch number `i` is `b`. -/
def At (s : Schedule) (i : Nat) (b : Branch) : Prop := s.branches[i]? = some b

section
variable {s t : Schedule} {i k : Nat} {a b c : Branch} {ids : List Nat} {es : List Event}

theorem At.unique (ha : s.At i a) (hb : s.At i b) : a = b := Option.some.inj (ha.symm.trans hb)

theorem At.lt (h : s.At i b) : i < s.branches.length := (List.getElem?_eq_some_iff.mp h).1

theorem at_post : (s.post es).At k b ↔ s.At k b := Iff.rfl

theorem at_put (h : s.At i a) : (s.put i b).At k c ↔ (k = i ∧ c = b) ∨ (k ≠ i ∧ s.At k c) := by
  by_cases hk : k = i
  · subst hk
    simp [At, put, List.getElem?_set_self h.lt, eq_comm]
  · simp [At, put, List.getElem?_set_ne (Ne.symm hk), hk]

theorem at_halt : (s.halt ids).At k c ↔ ∃ a, s.At k a ∧ c = if k ∈ ids then a.halted else a := by
  simp only [At, halt, List.getElem?_mapIdx, Option.map_eq_some_iff, List.contains_iff_mem]
  constructor
  · rintro ⟨a, ha, rfl⟩
    exact ⟨a, ha, rfl⟩
  · rintro ⟨a, ha, rfl⟩
    exact ⟨a, ha, rfl⟩

/-- A branch that was just begun below the branch `i`. -/
def fresh (i : Nat) (c : Chain) : Branch := { chain := c, parent := some i }

theorem at_fork {chains : List Chain} (h : s.At i b) : (s.fork i b chains).At k c ↔
    (k = i ∧ c = b.awaiting (List.range' s.branches.length chains.length)) ∨ (k ≠ i ∧ s.At k c) ∨
      ∃ n x, chains[n]? = some x ∧ k = s.branches.length + n ∧ c = fresh i x := by
  have hput := at_put (b := b.awaiting (List.range' s.branches.length chains.length)) (k := k) (c := c) h
  have hlen : (s.put i (b.awaiting (List.range' s.branches.length chains.length))).branches.length =
      s.branches.length := by simp [put]
  rw [← or_assoc, ← hput]
  unfold At fork
  by_cases hk : k < s.branches.length
  · rw [List.getElem?_append_left (by rw [hlen]; exact hk)]
    constructor
    · exact .inl
    · rintro (hold | ⟨n, x, -, rfl, -⟩)
      · exact hold
      · omega
  · rw [List.getElem?_append_right (by rw [hlen]; omega), hlen, List.getElem?_map]
    constructor
    · intro hnew
      obtain ⟨x, hx, rfl⟩ := Option.map_eq_some_iff.mp hnew
      exact .inr ⟨k - s.branches.length, x, hx, by omega, rfl⟩
    · rintro (hold | ⟨n, x, hx, rfl, rfl⟩)
      · exact absurd (hlen ▸ At.lt hold) hk
      · rw [Nat.add_sub_cancel_left, hx]
        rfl

/-- Two schedules with the same branches, each of them as it was or moved on. -/
structure Alike (s t : Schedule) : Prop where
  forth : ∀ {k a}, s.At k a → ∃ b, t.At k b ∧ a.Alike b
  back : ∀ {k b}, t.At k b → ∃ a, s.At k a ∧ a.Alike b

end

/-! ### The tree of the branches -/

/-- Every branch follows a chain that the root leads to. A branch that has begun has a branch below it for
    each chain that goes on from there, in this order and behind all branches beside it. -/
structure Tree (r : Reader) (root : Text) (s : Schedule) : Prop where
  lead : ∀ {k b}, s.At k b → ∃ ρ, r.Leads root ρ ∧ ρ.chain = b.chain
  root : ∃ b, s.At 0 b ∧ b.chain = ⟨root, []⟩ ∧ b.parent = none
  up : ∀ {k b p}, s.At k b → b.parent = some p →
    ∃ a, s.At p a ∧ a.phase ≠ .ready ∧ ∀ {j c}, s.At j c → c.parent = a.parent → j < k
  down : ∀ {k b}, s.At k b → b.phase ≠ .ready → ∃ base,
    (∀ {i x}, (r.visit b.chain).next[i]? = some x → ∃ a, s.At (base + i) a ∧ a.chain = x ∧ a.parent = some k) ∧
      ∀ {j a}, s.At j a → a.parent = some k → ∃ i < (r.visit b.chain).next.length, j = base + i

section
variable {r : Reader} {root : Text} {s t : Schedule} {i j k p : Nat} {a b : Branch}

theorem Tree.alike (h : s.Tree r root) (hst : s.Alike t) : t.Tree r root := by
  refine ⟨fun {k b} hb => ?_, ?_, fun {k b p} hb hp => ?_, fun {k b} hb hbegun => ?_⟩
  · obtain ⟨a, ha, hab⟩ := hst.back hb
    rw [hab.chain]
    exact h.lead ha
  · obtain ⟨a, ha, hchain, hparent⟩ := h.root
    obtain ⟨b, hb, hab⟩ := hst.forth ha
    exact ⟨b, hb, hab.chain.trans hchain, hab.parent.trans hparent⟩
  · obtain ⟨a, ha, hab⟩ := hst.back hb
    obtain ⟨c, hc, hready, hbeside⟩ := h.up ha (hab.parent ▸ hp)
    obtain ⟨d, hd, hcd⟩ := hst.forth hc
    refine ⟨d, hd, fun hd => hready (hcd.ready.mp hd), fun {j e} he hsame => ?_⟩
    obtain ⟨e', he', halike⟩ := hst.back he
    exact hbeside he' (by rw [← halike.parent, hsame, hcd.parent])
  · obtain ⟨a, ha, hab⟩ := hst.back hb
    obtain ⟨base, hall, honly⟩ := h.down ha fun hready => hbegun (hab.ready.mpr hready)
    rw [hab.chain]
    refine ⟨base, fun hx => ?_, fun hc hparent => ?_⟩
    · obtain ⟨c, hc, hchain, hparent⟩ := hall hx
      obtain ⟨d, hd, hcd⟩ := hst.forth hc
      exact ⟨d, hd, hcd.chain.trans hchain, hcd.parent.trans hparent⟩
    · obtain ⟨c, hc, hcd⟩ := hst.back hc
      exact honly hc (hcd.parent ▸ hparent)

theorem Tree.parent_lt (h : s.Tree r root) (hb : s.At k b) (hp : b.parent = some p) : p < k := by
  obtain ⟨a, ha, -, hbeside⟩ := h.up hb hp
  exact hbeside ha rfl

theorem Tree.begun (h : s.Tree r root) (hb : s.At k b) (hp : b.parent = some p) (ha : s.At p a) :
    a.phase ≠ .ready := by
  obtain ⟨a', ha', hbegun, -⟩ := h.up hb hp
  exact ha.unique ha' ▸ hbegun

/-- The chain of a branch goes on from that of its parent. -/
theorem Tree.mem_next (h : s.Tree r root) (hb : s.At k b) (hp : b.parent = some p) (ha : s.At p a) :
    b.chain ∈ (r.visit a.chain).next := by
  obtain ⟨base, hall, honly⟩ := h.down ha (h.begun hb hp ha)
  obtain ⟨i, hi, rfl⟩ := honly hb hp
  obtain ⟨b', hb', hchain, -⟩ := hall (List.getElem?_eq_getElem hi)
  obtain rfl := hb.unique hb'
  rw [hchain]
  exact List.getElem_mem hi

/-- A chain that goes on from one that is led to is led to. -/
theorem leads_next {ρ : Route} (hρ : r.Leads root ρ) {x : Chain} (hx : x ∈ (r.visit ρ.chain).next) :
    ∃ σ, r.Leads root σ ∧ σ.chain = x := by
  rw [Reader.next_visit] at hx
  obtain ⟨σ, hσ, rfl⟩ := List.mem_map.mp hx
  obtain ⟨refs, i, ref, hreads, hi, hnew, rfl⟩ := Reader.mem_onward.mp hσ
  exact ⟨_, .follow hρ hreads hi hnew, rfl⟩

/-- The branch `i` has had its first turn, and the branches below it have been begun. -/
structure Grows (r : Reader) (s t : Schedule) (i : Nat) (b b' : Branch) : Prop where
  here : s.At i b
  ready : b.phase = .ready
  chain : b'.chain = b.chain
  parent : b'.parent = b.parent
  begun : b'.phase ≠ .ready
  at_iff : ∀ {k c}, t.At k c ↔ (k = i ∧ c = b') ∨ (k ≠ i ∧ s.At k c) ∨
    ∃ n x, (r.visit b.chain).next[n]? = some x ∧ k = s.branches.length + n ∧ c = fresh i x

theorem Grows.forth {b' c : Branch} (h : Grows r s t i b b') (hc : s.At k c) : ∃ d, t.At k d ∧ d.chain = c.chain ∧
    d.parent = c.parent ∧ (c.phase ≠ .ready → d.phase ≠ .ready) := by
  by_cases hk : k = i
  · subst hk
    obtain rfl := h.here.unique hc
    exact ⟨b', h.at_iff.mpr (.inl ⟨rfl, rfl⟩), h.chain, h.parent, fun _ => h.begun⟩
  · exact ⟨c, h.at_iff.mpr (.inr (.inl ⟨hk, hc⟩)), rfl, rfl, id⟩

theorem Grows.back {b' d : Branch} (h : Grows r s t i b b') (hd : t.At k d) :
    (∃ c, s.At k c ∧ d.chain = c.chain ∧ d.parent = c.parent) ∨
      ∃ n x, (r.visit b.chain).next[n]? = some x ∧ k = s.branches.length + n ∧ d = fresh i x := by
  rcases h.at_iff.mp hd with ⟨rfl, rfl⟩ | ⟨hk, hd⟩ | hfresh
  · exact .inl ⟨b, h.here, h.chain, h.parent⟩
  · exact .inl ⟨d, hd, rfl, rfl⟩
  · exact .inr hfresh

/-- Nothing stands below a branch that has not begun. -/
theorem Grows.bare {b' c : Branch} (h : Grows r s t i b b') (htree : s.Tree r root) (hc : s.At k c) :
    c.parent ≠ some i := fun hp => htree.begun hc hp h.here h.ready

theorem Grows.lead {b' d : Branch} (h : Grows r s t i b b') (htree : s.Tree r root) (hd : t.At k d) :
    ∃ ρ, r.Leads root ρ ∧ ρ.chain = d.chain := by
  rcases h.back hd with ⟨c, hc, hsame, -⟩ | ⟨n, x, hx, -, rfl⟩
  · rw [hsame]
    exact htree.lead hc
  · obtain ⟨ρ, hρ, hend⟩ := htree.lead h.here
    exact leads_next hρ (hend ▸ List.mem_of_getElem? hx)

theorem Grows.up {b' d : Branch} (h : Grows r s t i b b') (htree : s.Tree r root) (hd : t.At k d)
    (hp : d.parent = some p) :
    ∃ a, t.At p a ∧ a.phase ≠ .ready ∧ ∀ {j c}, t.At j c → c.parent = a.parent → j < k := by
  rcases h.back hd with ⟨c, hc, -, hsame⟩ | ⟨n, x, hx, rfl, rfl⟩
  · obtain ⟨a, ha, hne, hbeside⟩ := htree.up hc (hsame ▸ hp)
    obtain ⟨a', ha', -, hpa, hstill⟩ := h.forth ha
    refine ⟨a', ha', hstill hne, fun {j e} he hse => ?_⟩
    rcases h.back he with ⟨e', he', -, hpe⟩ | ⟨n, x, -, rfl, rfl⟩
    · exact hbeside he' (by rw [← hpe, hse, hpa])
    · exact absurd (hpa.symm.trans hse.symm) (h.bare htree ha)
  · obtain rfl : p = i := by simpa [fresh] using hp.symm
    refine ⟨b', h.at_iff.mpr (.inl ⟨rfl, rfl⟩), h.begun, fun {j e} he hse => ?_⟩
    rcases h.back he with ⟨e', he', -, -⟩ | ⟨n, x, -, rfl, rfl⟩
    · exact Nat.lt_of_lt_of_le he'.lt (Nat.le_add_right _ _)
    · exact absurd (h.parent.symm.trans hse.symm) (h.bare htree h.here)

/-- Below the branch `i` there are just those that it began. -/
theorem Grows.down_here {b' : Branch} (h : Grows r s t i b b') (htree : s.Tree r root) :
    (∀ {n x}, (r.visit b'.chain).next[n]? = some x →
      ∃ a, t.At (s.branches.length + n) a ∧ a.chain = x ∧ a.parent = some i) ∧
    ∀ {j a}, t.At j a → a.parent = some i → ∃ n < (r.visit b'.chain).next.length, j = s.branches.length + n := by
  rw [h.chain]
  refine ⟨fun {n x} hx => ⟨fresh i x, h.at_iff.mpr (.inr (.inr ⟨n, x, hx, rfl, rfl⟩)), rfl, rfl⟩,
    fun {j a} ha hpa => ?_⟩
  rcases h.back ha with ⟨c, hc, -, hsame⟩ | ⟨n, x, hx, rfl, rfl⟩
  · exact absurd (hsame ▸ hpa) (h.bare htree hc)
  · exact ⟨n, (List.getElem?_eq_some_iff.mp hx).1, rfl⟩

theorem Grows.down {b' d : Branch} (h : Grows r s t i b b') (htree : s.Tree r root) (hd : t.At k d)
    (hbegun : d.phase ≠ .ready) : ∃ base,
    (∀ {n x}, (r.visit d.chain).next[n]? = some x → ∃ a, t.At (base + n) a ∧ a.chain = x ∧ a.parent = some k) ∧
      ∀ {j a}, t.At j a → a.parent = some k → ∃ n < (r.visit d.chain).next.length, j = base + n := by
  rcases h.at_iff.mp hd with ⟨rfl, rfl⟩ | ⟨hk, hc⟩ | ⟨n, x, -, -, rfl⟩
  · exact ⟨_, h.down_here htree⟩
  · obtain ⟨base, hall, honly⟩ := htree.down hc hbegun
    refine ⟨base, fun hx => ?_, fun {j e} he hpe => ?_⟩
    · obtain ⟨e, he, hec, hep⟩ := hall hx
      obtain ⟨e', he', hc', hp', -⟩ := h.forth he
      exact ⟨e', he', hc'.trans hec, hp'.trans hep⟩
    · rcases h.back he with ⟨e', he', -, hp'⟩ | ⟨n, x, -, rfl, rfl⟩
      · exact honly he' (hp' ▸ hpe)
      · exact absurd (by simpa [fresh] using hpe.symm) hk
  · exact absurd rfl hbegun

theorem Tree.grow {b' : Branch} (h : s.Tree r root) (hgrows : Grows r s t i b b') : t.Tree r root := by
  refine ⟨hgrows.lead h, ?_, hgrows.up h, hgrows.down h⟩
  obtain ⟨a, ha, hroot, hnone⟩ := h.root
  obtain ⟨d, hd, hc, hp, -⟩ := hgrows.forth ha
  exact ⟨d, hd, hc.trans hroot, hp.trans hnone⟩

end
end Schedule
end Sheet
end Stylebook
