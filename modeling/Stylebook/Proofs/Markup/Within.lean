import Stylebook.Proofs.Markup.Reading
import Stylebook.Proofs.Markup.Through
import Stylebook.Proofs.Variant.Reference

/-! Building inside an element. Tokens that do not close an element build the same nodes inside it as they build on
    their own (`Builder.foldl_within`), as long as blanks are not kept in it. So markup that is read to its end, and that
    does not name the element around it, comes out of this element as it would stand alone (`ReadsThrough.parse_within`).
    Every element of the nodes is made from a tag of the markup (`Builder.Made`). -/

namespace Stylebook
namespace Markup

/-! ### Elements of nodes -/

theorem mem_elements {e : Element} {nodes : List Node} : e ∈ elements nodes ↔ ∃ n ∈ nodes, e ∈ elements [n] := by
  induction nodes with
  | nil => simp [elements]
  | cons n nodes ih =>
    cases n with
    | element e' children =>
      simp only [elements, List.mem_cons, List.mem_append, List.not_mem_nil, or_false, ih, exists_eq_or_imp, or_assoc]
    | _ => simp [elements, ih]

theorem mem_elements_reverse {e : Element} {nodes : List Node} : e ∈ elements nodes.reverse ↔ e ∈ elements nodes := by
  rw [mem_elements, mem_elements]
  simp

theorem name_ofTag (name : Text) (attributes : List (Text × Text)) : (Element.ofTag name attributes).name = name := by
  unfold Element.ofTag Element.markEncoding
  dsimp only
  repeat' split
  all_goals rfl

namespace Builder

/-! ### What a builder has -/

/-- Every element that has been built has a property, and only void elements wait for their closing tag. -/
structure Made (P : Element → Prop) (b : Builder) : Prop where
  opened : ∀ f ∈ b.opened, P f.element ∧ ∀ e ∈ elements f.children, P e
  roots : ∀ e ∈ elements b.roots, P e
  settled : SettlesVoids b.settled

section
variable {P : Element → Prop} {b : Builder}

theorem Made.empty : Made P {} := ⟨by simp, by simp [elements], by simp [SettlesVoids]⟩

theorem Made.add (h : Made P b) {n : Node} (hn : ∀ e ∈ elements [n], P e) : Made P (b.add n) := by
  have hcons : ∀ nodes, (∀ e ∈ elements nodes, P e) → ∀ e ∈ elements (n :: nodes), P e := by
    intro nodes hnodes e he
    obtain ⟨m, hm, hin⟩ := mem_elements.mp he
    rcases List.mem_cons.mp hm with rfl | hm
    · exact hn e hin
    · exact hnodes e (mem_elements.mpr ⟨m, hm, hin⟩)
  unfold Builder.add
  split
  · exact ⟨h.opened, hcons _ h.roots, h.settled⟩
  · next f rest heq =>
    have hopened := h.opened
    rw [heq] at hopened
    obtain ⟨hf, hrest⟩ := List.forall_mem_cons.mp hopened
    exact ⟨List.forall_mem_cons.mpr ⟨⟨hf.1, hcons _ hf.2⟩, hrest⟩, h.roots, h.settled⟩

theorem Made.flush (h : Made P b) : Made P b.flush := by
  unfold Builder.flush
  split
  · exact h
  · have hadd := @Made.add P b h (.text (b.settle b.pending)) (by simp [elements])
    exact ⟨hadd.opened, hadd.roots, hadd.settled⟩

theorem Made.push (h : Made P b) {e : Element} (he : P e) : Made P (b.push e) :=
  ⟨List.forall_mem_cons.mpr ⟨⟨he, by simp [elements]⟩, h.opened⟩, h.roots, h.settled⟩

theorem Made.pop (h : Made P b) : Made P b.pop := by
  unfold Builder.pop
  split
  · exact h
  · next f rest heq =>
    have hopened := h.opened
    rw [heq] at hopened
    obtain ⟨hf, hrest⟩ := List.forall_mem_cons.mp hopened
    refine Made.add (b := { b with opened := rest }) ⟨hrest, h.roots, h.settled⟩ fun e he => ?_
    rw [Frame.node, elements, elements, List.append_nil, List.mem_cons, mem_elements_reverse] at he
    rcases he with rfl | he
    · exact hf.1
    · exact hf.2 e he

theorem Made.popAll (h : Made P b) (frames : List Frame) : Made P (popAll frames b) := by
  induction frames generalizing b with
  | nil => exact h
  | cons f frames ih => exact ih h.pop

theorem Made.popTo (h : Made P b) (name : Text) : Made P (b.popTo name) := by
  unfold Builder.popTo
  split
  · exact h.popAll _
  · exact h

theorem Made.aside (h : Made P b) {node : Text → Node} (hnode : ∀ t, elements [node t] = []) (t : Text) :
    Made P (b.aside node t) :=
  h.flush.add (by rw [hnode]; simp)

/-- What is built by a token has the property, if the element of an opening tag has it. -/
theorem Made.step (h : Made P b) {token : Token}
    (htoken : ∀ name attributes closed, token = .opening name attributes closed → P (Element.ofTag name attributes)) :
    Made P (b.step token) := by
  cases token with
  | text t => exact ⟨h.opened, h.roots, h.settled⟩
  | opening name attributes closed =>
    have hpush := h.flush.push (htoken name attributes closed rfl)
    rw [Builder.step, enter]
    dsimp only
    split
    · exact hpush.pop
    · split
      · next hvoid =>
        exact ⟨hpush.pop.opened, hpush.pop.roots, List.forall_mem_cons.mpr ⟨hvoid, hpush.settled⟩⟩
      · exact hpush
  | closing name =>
    rw [Builder.step, close]
    split
    · exact ⟨h.opened, h.roots, fun n hn => h.settled n (List.mem_of_mem_erase hn)⟩
    · exact h.flush.popTo name
  | comment t => exact h.aside (fun _ => by simp [elements]) t
  | doctype t => exact h.aside (fun _ => by simp [elements]) t
  | cdata t => exact h.aside (fun _ => by simp [elements]) t
  | markedSection t => exact h.aside (fun _ => by simp [elements]) t
  | instruction t => exact h.aside (fun _ => by simp [elements]) t

theorem Made.foldl {ts : List Token} (h : Made P b)
    (hts : ∀ name attributes closed, .opening name attributes closed ∈ ts → P (Element.ofTag name attributes)) :
    Made P (ts.foldl Builder.step b) := by
  induction ts generalizing b with
  | nil => exact h
  | cons token ts ih =>
    refine ih (h.step fun name attributes closed htoken => ?_) fun name attributes closed hin => ?_
    · exact hts name attributes closed (htoken ▸ List.mem_cons_self)
    · exact hts name attributes closed (List.mem_cons_of_mem _ hin)

theorem Made.finish (h : Made P b) : ∀ e ∈ elements b.finish, P e := by
  intro e he
  exact (h.flush.popAll _).roots e (mem_elements_reverse.mp he)

end

/-! ### Inside an element -/

/-- The same place with one more element open around everything. -/
def within (outer : Element) (b : Builder) : Builder :=
  { b with opened := b.opened ++ [⟨outer, b.roots⟩], roots := [] }

section
variable {outer : Element}

theorem add_within (b : Builder) (n : Node) : (b.within outer).add n = (b.add n).within outer := by
  unfold add within
  cases b.opened <;> rfl

theorem settle_within (h : keepsBlanks outer.name = false) (b : Builder) (t : Text) :
    (b.within outer).settle t = b.settle t := by
  have hkeeps : (b.within outer).keeps = b.keeps := by
    rw [keeps, within, List.any_append, List.any_cons, List.any_nil, h]
    simp [keeps]
  rw [settle, settle, hkeeps]

theorem flush_within (h : keepsBlanks outer.name = false) (b : Builder) :
    (b.within outer).flush = b.flush.within outer := by
  have hadd := @add_within outer b (.text (b.settle b.pending))
  by_cases hpending : b.pending.isEmpty = true
  · have houter : (b.within outer).pending.isEmpty = true := hpending
    rw [flush, flush, if_pos hpending, if_pos houter]
  · have houter : ¬(b.within outer).pending.isEmpty = true := hpending
    rw [flush, flush, if_neg hpending, if_neg houter, settle_within h]
    exact congrArg (fun c : Builder => { c with pending := [] }) hadd

theorem pop_within {b : Builder} (h : b.opened ≠ []) : (b.within outer).pop = b.pop.within outer := by
  obtain ⟨f, rest, hopened⟩ := List.exists_cons_of_ne_nil h
  rw [pop, pop, hopened, within, hopened]
  exact add_within { b with opened := rest } f.node

theorem length_pop (b : Builder) : b.pop.opened.length = b.opened.length - 1 := by
  unfold pop
  split
  · next heq => rw [heq]; rfl
  · next f rest heq =>
    unfold add
    dsimp only
    rw [heq]
    cases rest <;> rfl

theorem popAll_within {frames : List Frame} {b : Builder} (h : frames.length ≤ b.opened.length) :
    popAll frames (b.within outer) = (popAll frames b).within outer := by
  induction frames generalizing b with
  | nil => rfl
  | cons f frames ih =>
    rw [List.length_cons] at h
    have hne : b.opened ≠ [] := by
      intro hnil
      rw [hnil] at h
      cases h
    rw [popAll, popAll, pop_within hne, ih (by rw [length_pop]; omega)]

theorem framesTo?_within {name : Text} (h : outer.name ≠ name) (frames : List Frame) (roots : List Node) :
    framesTo? name (frames ++ [⟨outer, roots⟩]) = framesTo? name frames := by
  induction frames with
  | nil => simp [framesTo?, h]
  | cons f frames ih => rw [List.cons_append, framesTo?, framesTo?, ih]

theorem length_framesTo? {name : Text} {frames found : List Frame} (h : framesTo? name frames = some found) :
    found.length ≤ frames.length := by
  induction frames generalizing found with
  | nil => cases h
  | cons f frames ih =>
    rw [framesTo?] at h
    split at h
    · cases h
      simp
    · rw [Option.map_eq_some_iff] at h
      obtain ⟨found', hfound, rfl⟩ := h
      exact Nat.succ_le_succ (ih hfound)

theorem popTo_within {name : Text} (h : outer.name ≠ name) (b : Builder) :
    (b.within outer).popTo name = (b.popTo name).within outer := by
  have hframes : framesTo? name (b.within outer).opened = framesTo? name b.opened := framesTo?_within h _ _
  rw [popTo, popTo, hframes]
  split
  · next found hfound => exact popAll_within (length_framesTo? hfound)
  · rfl

theorem aside_within (h : keepsBlanks outer.name = false) (b : Builder) (node : Text → Node) (t : Text) :
    (b.within outer).aside node t = (b.aside node t).within outer := by
  rw [aside, aside, flush_within h, settle_within h, add_within]

theorem enter_within (h : keepsBlanks outer.name = false) (b : Builder) (name : Text)
    (attributes : List (Text × Text)) (closed : Bool) :
    (b.within outer).enter name attributes closed = (b.enter name attributes closed).within outer := by
  have hpush : (b.within outer).flush.push (Element.ofTag name attributes) =
      (b.flush.push (Element.ofTag name attributes)).within outer := by
    rw [flush_within h]
    rfl
  have hpop : ((b.flush.push (Element.ofTag name attributes)).within outer).pop =
      (b.flush.push (Element.ofTag name attributes)).pop.within outer := pop_within (List.cons_ne_nil _ _)
  rw [enter, enter]
  dsimp only
  rw [hpush, hpop]
  repeat' split
  all_goals rfl

/-- A token that does not close the element around does the same inside it. -/
theorem step_within (h : keepsBlanks outer.name = false) {token : Token} (htoken : token ≠ .closing outer.name)
    (b : Builder) : (b.within outer).step token = (b.step token).within outer := by
  cases token with
  | text t => rfl
  | opening name attributes closed => exact enter_within h b name attributes closed
  | closing name =>
    have hne : outer.name ≠ name := fun heq => htoken (heq ▸ rfl)
    have hsettled : (b.within outer).settled = b.settled := rfl
    rw [step, step, close, close, flush_within h, popTo_within hne, hsettled]
    split
    · rfl
    · rfl
  | comment t => exact aside_within h b .comment t
  | doctype t => exact aside_within h b .doctype t
  | cdata t => exact aside_within h b .cdata t
  | markedSection t => exact aside_within h b .markedSection t
  | instruction t => exact aside_within h b .instruction t

theorem foldl_within (h : keepsBlanks outer.name = false) {ts : List Token} (hts : ∀ token ∈ ts, token ≠ .closing outer.name)
    (b : Builder) : ts.foldl step (b.within outer) = (ts.foldl step b).within outer := by
  induction ts generalizing b with
  | nil => rfl
  | cons token ts ih =>
    obtain ⟨htoken, hrest⟩ := List.forall_mem_cons.mp hts
    rw [List.foldl_cons, List.foldl_cons, step_within h htoken, ih hrest]

/-! ### Closing the element around -/

theorem framesTo?_outer {frames : List Frame} (h : ∀ f ∈ frames, f.element.name ≠ outer.name) (roots : List Node) :
    framesTo? outer.name (frames ++ [⟨outer, roots⟩]) = some (frames ++ [⟨outer, roots⟩]) := by
  induction frames with
  | nil => simp [framesTo?]
  | cons f frames ih =>
    obtain ⟨hf, hrest⟩ := List.forall_mem_cons.mp h
    rw [List.cons_append, framesTo?, if_neg hf, ih hrest]
    rfl

theorem popAll_append (frames : List Frame) (f : Frame) (b : Builder) :
    popAll (frames ++ [f]) b = (popAll frames b).pop := by
  induction frames generalizing b with
  | nil => rfl
  | cons g frames ih => exact ih b.pop

theorem opened_popAll {frames : List Frame} {b : Builder} (h : b.opened.length = frames.length) :
    (popAll frames b).opened = [] := by
  induction frames generalizing b with
  | nil => exact List.length_eq_zero_iff.mp h
  | cons f frames ih =>
    rw [List.length_cons] at h
    exact ih (by rw [length_pop]; omega)

theorem pending_popAll (frames : List Frame) (b : Builder) : (popAll frames b).pending = b.pending := by
  induction frames generalizing b with
  | nil => rfl
  | cons f frames ih =>
    rw [popAll, ih, pop]
    split
    · rfl
    · exact add_pending _ _

/-- Once the element around is closed, it holds what would stand there without it. -/
theorem finish_close_within {b : Builder} (h : Made (·.name ≠ outer.name) b) (hblanks : keepsBlanks outer.name = false)
    (hvoid : isVoid outer.name = false) : ((b.within outer).close outer.name).finish = [.element outer b.finish] := by
  have hsettled : (b.within outer).settled.contains outer.name = false := by
    by_contra hin
    rw [Bool.not_eq_false, List.contains_iff_mem] at hin
    rw [h.settled _ hin] at hvoid
    cases hvoid
  obtain ⟨c, hc⟩ : ∃ c, c = popAll b.flush.opened b.flush := ⟨_, rfl⟩
  have hopened : c.opened = [] := hc ▸ opened_popAll rfl
  have hpending : c.pending = [] := hc ▸ (pending_popAll _ _).trans (flush_pending b)
  have hframes : framesTo? outer.name (b.flush.within outer).opened = some (b.flush.opened ++ [⟨outer, b.flush.roots⟩]) :=
    framesTo?_outer (fun f hf => (h.flush.opened f hf).1) _
  have hclose : (b.within outer).close outer.name = (c.within outer).pop := by
    rw [close, hsettled, if_neg Bool.false_ne_true, flush_within hblanks, popTo, hframes]
    dsimp only
    rw [popAll_append, popAll_within (Nat.le_refl _), hc]
  have hpop : (c.within outer).pop = { c with roots := [.element outer c.roots.reverse] } := by
    rw [pop, within, hopened]
    simp only [List.nil_append, add, Frame.node]
  have hflush : flush { c with roots := [.element outer c.roots.reverse] } =
      { c with roots := [.element outer c.roots.reverse] } := flush_of_pending hpending
  have hfinish : b.finish = c.roots.reverse := by rw [finish, hc]
  rw [hclose, hpop, finish, hflush, hfinish]
  simp [hopened, popAll]

end

end Builder

/-! ### Markup inside an element -/

/-- What canonical nodes are written as is read to its end. -/
theorem readsThrough_write {ns : List Node} (h : Canonical ns) :
    ∃ ts, ReadsThrough (write ns) ts ∧ (ts.foldl Builder.step {}).finish = ns := by
  obtain ⟨ts, hpass, hadds⟩ := adds_nodes false h (endsText_angle [])
  have hangle : pass false ['<'] = .ok ([], ['<']) := ReadsThrough.nil
  refine ⟨ts, ?_, (hadds {} (fun n hn => by cases hn) (.inl rfl)).finish⟩
  rw [ReadsThrough, hpass, hangle]
  simp [consume, Except.map]

theorem unquoted_closing {e : Element} (h : PlainName e.name) : ∃ y, Unquoted y ∧ writeClosing e = '<' :: y := by
  refine ⟨'/' :: (e.name ++ ['>']), fun c hc => ?_, by simp [writeClosing, String.text]⟩
  have hplain : ∀ c ∈ e.name, isQuote c = false := by
    intro c hc
    refine of_isPlainNameChar (P := fun c => isQuote c = false) ?_ (h.all c hc)
    decide +kernel
  rw [List.mem_cons, List.mem_append, List.mem_singleton] at hc
  rcases hc with rfl | hc | rfl
  · rfl
  · exact hplain c hc
  · rfl

/-- Markup that is read to its end and has no tag of the name of the element around it is read inside this element as
    it is read on its own. -/
theorem ReadsThrough.parse_within {t : Text} {ts : List Token} (h : ReadsThrough t ts) {e : Element}
    (he : e.IsCanonical) (hvoid : isVoid e.name = false) (hblanks : keepsBlanks e.name = false)
    (hnames : ∀ token ∈ ts, token.name? ≠ some e.name) :
    parse (writeOpening e ++ (t ++ writeClosing e)) = .ok [.element e (ts.foldl Builder.step {}).finish] := by
  have htokens : tokens (writeOpening e ++ (t ++ writeClosing e)) =
      .ok (openingToken e :: (ts ++ [.closing e.name])) := by
    refine tokens_of_pass ?_
    have hclosing : Markup.pass false (writeClosing e) = .ok ([.closing e.name], []) := by
      have hpass := @pass_closing false e he.name []
      have hnil : Markup.pass false [] = .ok ([], []) := by rw [Markup.pass]
      rwa [List.append_nil, hnil] at hpass
    obtain ⟨y, hy, hangle⟩ := unquoted_closing he.name
    rw [pass_opening he.name he.not_raw he.names, hangle, h.pass hy, ← hangle, hclosing]
    rfl
  have hopened : Builder.step {} (openingToken e) = Builder.within e {} := by
    rw [Builder.step_openingToken he, if_neg (by simp [hvoid])]
    rfl
  have hmade : Builder.Made (·.name ≠ e.name) (ts.foldl Builder.step {}) := by
    refine Builder.Made.empty.foldl fun name attributes closed hin => ?_
    rw [name_ofTag]
    exact fun heq => hnames _ hin (heq ▸ rfl)
  have hbuilt : (openingToken e :: (ts ++ [.closing e.name])).foldl Builder.step {} =
      ((ts.foldl Builder.step {}).within e).close e.name := by
    rw [List.foldl_cons, hopened, List.foldl_append,
      Builder.foldl_within hblanks fun token hin heq => hnames token hin (heq ▸ rfl)]
    rfl
  have hfinish := Builder.finish_close_within hmade hblanks hvoid
  rw [← hbuilt] at hfinish
  rw [parse, htokens]
  exact congrArg Except.ok hfinish

end Markup
end Stylebook
