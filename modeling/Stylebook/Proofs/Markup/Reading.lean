import Stylebook.Proofs.Markup.Writing

/-! Canonical markup is read as it was written. A tree is canonical when it has only what the writer keeps
    apart: elements with plain names, texts that do not stand side by side and are not blank beyond one space
    or line feed, and values in the form their attribute asks for. The tokens that such a tree is written as
    add its nodes at the place where the builder stands, whatever is open there (`adds_nodes`). -/

namespace Stylebook
namespace Markup

/-! ### Canonical trees -/

/-- A text with a character that is no blank, or one space or line feed alone. -/
def IsCanonicalText (t : Text) : Prop := (∃ c ∈ t, Builder.isAsciiBlank c = false) ∨ t = [' '] ∨ t = ['\n']

instance : DecidablePred IsCanonicalText := fun t =>
  decidable_of_iff ((t.any fun c => !Builder.isAsciiBlank c) = true ∨ t = [' '] ∨ t = ['\n'])
    (by simp [IsCanonicalText])

/-- One text, or words for an attribute that holds several. -/
def Value.IsCanonical (isList : Bool) : Value → Prop
  | .plain _ => isList = false
  | .tokens ts => isList = true ∧ ts ≠ [] ∧ ∀ t ∈ ts, t ≠ [] ∧ ∀ c ∈ t, Text.isBlank c = false
  | .charset _ => False
  | .contentType _ => False

instance (isList : Bool) : DecidablePred (Value.IsCanonical isList)
  | .plain _ => inferInstanceAs (Decidable (isList = false))
  | .tokens ts =>
    decidable_of_iff (isList = true ∧ ts ≠ [] ∧ (ts.all fun t => !t.isEmpty && t.all (!Text.isBlank ·)) = true)
      (by simp [Value.IsCanonical])
  | .charset _ => inferInstanceAs (Decidable False)
  | .contentType _ => inferInstanceAs (Decidable False)

/-- An element with plain names, each attribute once. -/
structure Element.IsCanonical (e : Element) : Prop where
  name : PlainName e.name
  not_raw : isRaw e.name = false
  not_meta : e.name ≠ "meta".text
  names : ∀ a ∈ e.attributes, PlainName a.1
  nodup : (e.attributes.map Prod.fst).Nodup
  values : ∀ a ∈ e.attributes, a.2.IsCanonical (isTokenList e.name a.1)

instance : DecidablePred Element.IsCanonical := fun e =>
  decidable_of_iff (PlainName e.name ∧ isRaw e.name = false ∧ e.name ≠ "meta".text ∧
      (∀ a ∈ e.attributes, PlainName a.1) ∧ (e.attributes.map Prod.fst).Nodup ∧
      ∀ a ∈ e.attributes, a.2.IsCanonical (isTokenList e.name a.1))
    ⟨fun ⟨h1, h2, h3, h4, h5, h6⟩ => ⟨h1, h2, h3, h4, h5, h6⟩,
      fun h => ⟨h.name, h.not_raw, h.not_meta, h.names, h.nodup, h.values⟩⟩

def Node.isText : Node → Bool
  | .text _ => true
  | _ => false

/-- What the writer keeps apart. -/
inductive Canonical : List Node → Prop
  | nil : Canonical []
  | text {t : Text} {rest : List Node} (ht : IsCanonicalText t) (hnext : ∀ n ∈ rest.head?, n.isText = false)
      (hrest : Canonical rest) : Canonical (.text t :: rest)
  | element {e : Element} {children rest : List Node} (he : e.IsCanonical)
      (hvoid : isVoid e.name = true → children = []) (hchildren : Canonical children) (hrest : Canonical rest) :
      Canonical (.element e children :: rest)

/-! ### Elements from their tags -/

theorem Value.ofText_written {element name : Text} {v : Value} (h : v.IsCanonical (isTokenList element name)) :
    Value.ofText element name v.written = v := by
  cases v with
  | plain t =>
    have hlist : isTokenList element name = false := h
    simp [ofText, hlist, written, Value.text]
  | tokens ts =>
    obtain ⟨hlist, -, hwords⟩ := h
    have hts : Text.words (Text.join [' '] ts) = ts := Text.words_join hwords
    simp [ofText, hlist, written, Value.text, hts]
  | charset t => cases h
  | contentType t => cases h

theorem Attributes.set_of_not_mem {name : Text} {value : Value} {attrs : Attributes}
    (h : name ∉ attrs.map Prod.fst) : Attributes.set name value attrs = attrs ++ [(name, value)] := by
  induction attrs with
  | nil => rfl
  | cons a attrs ih =>
    obtain ⟨hne, hrest⟩ : name ≠ a.1 ∧ name ∉ attrs.map Prod.fst := by simpa using h
    rw [Attributes.set, if_neg hne.symm, ih hrest]
    rfl

/-- Attributes with different names that are set one after the other stand in that order. -/
theorem Attributes.foldl_set {attrs before : Attributes} (h : ((before ++ attrs).map Prod.fst).Nodup) :
    attrs.foldl (fun acc a => Attributes.set a.1 a.2 acc) before = before ++ attrs := by
  induction attrs generalizing before with
  | nil => rw [List.foldl_nil, List.append_nil]
  | cons a attrs ih =>
    have hfresh : a.1 ∉ before.map Prod.fst := by
      rw [List.map_append, List.map_cons, List.nodup_append] at h
      exact fun hin => h.2.2 _ hin _ List.mem_cons_self rfl
    rw [List.foldl_cons, Attributes.set_of_not_mem hfresh, ih (by simpa using h), List.append_assoc]
    rfl

/-- The tag that an element is written with. -/
def openingToken (e : Element) : Token := .opening e.name (e.attributes.map fun a => (a.1, a.2.written)) false

theorem Element.ofTag_written {e : Element} (h : e.IsCanonical) :
    Element.ofTag e.name (e.attributes.map fun a => (a.1, a.2.written)) = e := by
  have hset : (e.attributes.map fun a => (a.1, a.2.written)).foldl
      (fun attrs a => Attributes.set a.1 (Value.ofText e.name a.1 a.2) attrs) [] =
      e.attributes.foldl (fun attrs a => Attributes.set a.1 a.2 attrs) [] := by
    rw [List.foldl_map]
    refine List.foldl_ext _ _ _ fun attrs a ha => ?_
    rw [Value.ofText_written (h.values a ha)]
  have hattrs : e.attributes.foldl (fun attrs a => Attributes.set a.1 a.2 attrs) [] = [] ++ e.attributes :=
    Attributes.foldl_set h.nodup
  rw [ofTag, hset, hattrs, List.nil_append, markEncoding, if_neg h.not_meta]

/-! ### Adding nodes -/

namespace Builder

/-- Adds nodes at the current place, one after the other. -/
def addAll (b : Builder) (ns : List Node) : Builder := ns.foldl add b

theorem addAll_cons (b : Builder) (n : Node) (ns : List Node) : b.addAll (n :: ns) = (b.add n).addAll ns := rfl

theorem addAll_push (b : Builder) (f : Frame) (ns : List Node) : addAll { b with opened := f :: b.opened } ns =
    { b with opened := ⟨f.element, ns.reverse ++ f.children⟩ :: b.opened } := by
  induction ns generalizing f with
  | nil => rfl
  | cons n ns ih =>
    have hadd : add { b with opened := f :: b.opened } n =
        { b with opened := ⟨f.element, n :: f.children⟩ :: b.opened } := rfl
    rw [addAll_cons, hadd, ih]
    simp

theorem addAll_roots {b : Builder} (hb : b.opened = []) (ns : List Node) :
    b.addAll ns = { b with roots := ns.reverse ++ b.roots } := by
  induction ns generalizing b with
  | nil => rfl
  | cons n ns ih =>
    have hadd : b.add n = { b with roots := n :: b.roots } := by rw [add, hb]
    have hroots : { b with roots := n :: b.roots }.opened = [] := hb
    rw [addAll_cons, hadd, ih hroots]
    simp

theorem add_pending (b : Builder) (n : Node) : (b.add n).pending = b.pending := by
  unfold add
  split <;> rfl

theorem flush_pending (b : Builder) : b.flush.pending = [] := by
  unfold flush
  split
  · rename_i hempty
    exact List.isEmpty_iff.mp hempty
  · rfl

theorem flush_of_pending {b : Builder} (h : b.pending = []) : b.flush = b := by
  rw [flush, if_pos (List.isEmpty_iff.mpr h)]

theorem flush_settled (b : Builder) : b.flush.settled = b.settled := by
  unfold flush
  split
  · rfl
  · unfold add
    dsimp only
    split <;> rfl

def settling (b : Builder) (names : List Text) : Builder := { b with settled := names }

theorem add_settling (b : Builder) (names : List Text) (n : Node) :
    (b.settling names).add n = (b.add n).settling names := by
  unfold add settling
  dsimp only
  split <;> rfl

theorem addAll_settling (b : Builder) (names : List Text) (ns : List Node) :
    (b.settling names).addAll ns = (b.addAll ns).settling names := by
  induction ns generalizing b with
  | nil => rfl
  | cons n ns ih => rw [addAll_cons, add_settling, ih, addAll_cons]

/-! ### Tokens that add nodes -/

/-- Only void elements are still to be passed over when they are closed. -/
def SettlesVoids (names : List Text) : Prop := ∀ n ∈ names, isVoid n = true

/-- The tokens add the nodes behind the text that a builder has pending, except that they may leave it with
    a text pending, too. -/
def Adds (b : Builder) (ts : List Token) (ns : List Node) : Prop :=
  ∃ names, SettlesVoids names ∧ (ts.foldl step b).flush = (b.flush.addAll ns).settling names

theorem Adds.settled {b : Builder} {ts : List Token} {ns : List Node} (h : Adds b ts ns) :
    SettlesVoids (ts.foldl step b).settled := by
  obtain ⟨names, hnames, hflush⟩ := h
  rw [← flush_settled, hflush]
  exact hnames

theorem Adds.append {b : Builder} {ts us : List Token} {ns ms : List Node} (hns : Adds b ts ns)
    (hms : Adds (ts.foldl step b) us ms) : Adds b (ts ++ us) (ns ++ ms) := by
  obtain ⟨names, -, hflush⟩ := hns
  obtain ⟨names', hnames', hflush'⟩ := hms
  refine ⟨names', hnames', ?_⟩
  rw [List.foldl_append, hflush', hflush, addAll_settling, addAll, addAll, addAll, List.foldl_append]
  rfl

theorem Adds.finish {ts : List Token} {ns : List Node} (h : Adds {} ts ns) : (ts.foldl step {}).finish = ns := by
  obtain ⟨names, -, hflush⟩ := h
  have hstart : flush {} = {} := flush_of_pending rfl
  rw [Builder.finish, hflush, hstart, addAll_roots rfl]
  simp [settling, popAll]

theorem settle_of_isCanonicalText {t : Text} (h : IsCanonicalText t) (b : Builder) : b.settle t = t := by
  unfold settle
  rcases h with ⟨c, hc, hblank⟩ | rfl | rfl
  · have hall : t.all isAsciiBlank = false := List.all_eq_false.mpr ⟨c, hc, by simp [hblank]⟩
    simp [hall]
  · split <;> rfl
  · split <;> rfl

theorem foldl_step_texts (b : Builder) (us : List Text) :
    (us.map Token.text).foldl step b = { b with pending := b.pending ++ us.flatten } := by
  induction us generalizing b with
  | nil => simp
  | cons u us ih =>
    rw [List.map_cons, List.foldl_cons, ih]
    simp [step]

/-- Texts that follow a tag are one node. -/
theorem adds_texts {b : Builder} (hb : b.pending = []) (hvoid : SettlesVoids b.settled) {us : List Text}
    (h : IsCanonicalText us.flatten) : Adds b (us.map .text) [.text us.flatten] := by
  have hne : us.flatten ≠ [] := by
    rcases h with ⟨c, hc, -⟩ | h | h
    · exact List.ne_nil_of_mem hc
    · simp [h]
    · simp [h]
  refine ⟨b.settled, hvoid, ?_⟩
  rw [foldl_step_texts, hb, List.nil_append, flush, if_neg (by simpa using hne), settle_of_isCanonicalText h,
    flush_of_pending hb]
  unfold addAll add settling
  dsimp only [List.foldl]
  split <;> simp [hb]

/-- The tokens add a node and leave no text pending. -/
def AddsWhole (b : Builder) (ts : List Token) (n : Node) : Prop :=
  ∃ names, SettlesVoids names ∧ ts.foldl step b = (b.flush.add n).settling names

theorem AddsWhole.pending {b : Builder} {ts : List Token} {n : Node} (h : AddsWhole b ts n) :
    (ts.foldl step b).pending = [] := by
  obtain ⟨names, -, hfoldl⟩ := h
  rw [hfoldl]
  exact (add_pending _ n).trans (flush_pending b)

theorem AddsWhole.adds {b : Builder} {ts : List Token} {n : Node} (h : AddsWhole b ts n) : Adds b ts [n] := by
  have hflush := flush_of_pending h.pending
  obtain ⟨names, hnames, hfoldl⟩ := h
  exact ⟨names, hnames, hflush.trans hfoldl⟩

theorem step_openingToken {e : Element} (he : e.IsCanonical) (b : Builder) : b.step (openingToken e) =
    if isVoid e.name then (b.flush.add (.element e [])).settling (e.name :: b.settled) else b.flush.push e := by
  have hpop : (b.flush.push e).pop = b.flush.add (.element e []) := rfl
  rw [openingToken, step, enter, Element.ofTag_written he]
  simp only [Bool.false_eq_true, if_false, hpop]
  rw [← flush_settled b]
  rfl

theorem adds_void {b : Builder} (hb : SettlesVoids b.settled) {e : Element} (he : e.IsCanonical)
    (hvoid : isVoid e.name = true) : AddsWhole b [openingToken e] (.element e []) := by
  refine ⟨e.name :: b.settled, List.forall_mem_cons.mpr ⟨hvoid, hb⟩, ?_⟩
  rw [List.foldl_cons, List.foldl_nil, step_openingToken he, if_pos hvoid]

/-- A closing tag ends the element that was opened last, if it has its name. -/
theorem popTo_addAll (b : Builder) (e : Element) (children : List Node) :
    ((b.push e).addAll children).popTo e.name = b.add (.element e children) := by
  rw [push, addAll_push, List.append_nil, popTo]
  simp only [framesTo?, if_true, popAll, pop, Frame.node, List.reverse_reverse]

theorem adds_element {b : Builder} {e : Element} (he : e.IsCanonical) (hvoid : isVoid e.name = false)
    {ts : List Token} {children : List Node} (hchildren : Adds (b.flush.push e) ts children) :
    AddsWhole b (openingToken e :: (ts ++ [.closing e.name])) (.element e children) := by
  have hopen : b.step (openingToken e) = b.flush.push e := by rw [step_openingToken he, hvoid]; rfl
  have hnot : (ts.foldl step (b.flush.push e)).settled.contains e.name = false := by
    by_contra hin
    rw [Bool.not_eq_false, List.contains_iff_mem] at hin
    rw [hchildren.settled _ hin] at hvoid
    cases hvoid
  obtain ⟨names, hnames, hflush⟩ := hchildren
  have hpush : (b.flush.push e).flush = b.flush.push e := flush_of_pending (flush_pending b)
  have hsettling : ((b.flush.push e).addAll children).settling names =
      ((b.flush.settling names).push e).addAll children := (addAll_settling _ names children).symm
  refine ⟨names, hnames, ?_⟩
  rw [List.foldl_cons, List.foldl_append, hopen, List.foldl_cons, List.foldl_nil, step, close, hnot,
    if_neg Bool.false_ne_true, hflush, hpush, hsettling, popTo_addAll, add_settling]

end Builder

/-! ### Reading what was written -/

theorem endsText_angle (t : Text) : EndsText ('<' :: t) := by
  intro c hc
  cases hc
  rfl

theorem write_text (t : Text) (rest : List Node) : write (.text t :: rest) = escape t ++ write rest := rfl

theorem write_void {e : Element} (hvoid : isVoid e.name = true) (rest : List Node) :
    write (.element e [] :: rest) = writeOpening e ++ write rest := by
  rw [write, writeNodes, writeNode, if_pos (by simp [hvoid])]
  rfl

theorem write_element {e : Element} (hraw : isRaw e.name = false) (hvoid : isVoid e.name = false)
    (children rest : List Node) :
    write (.element e children :: rest) = writeOpening e ++ (write children ++ (writeClosing e ++ write rest)) := by
  rw [write, writeNodes, writeNode, if_neg (by simp [hvoid]), hraw]
  simp only [write, List.append_assoc]

theorem endsText_write {ns : List Node} (h : Canonical ns) (htext : ∀ n ∈ ns.head?, n.isText = false) {rest : Text}
    (hrest : EndsText rest) : EndsText (write ns ++ rest) := by
  cases h with
  | nil => exact hrest
  | text ht hnext hrest => cases htext _ rfl
  | element he hvoid hchildren _ =>
    cases hv : isVoid _ with
    | true =>
      rw [hvoid hv, write_void hv]
      exact endsText_angle _
    | false =>
      rw [write_element he.not_raw hv]
      exact endsText_angle _

open Builder in
/-- The tokens that canonical nodes are read as add these nodes. -/
theorem adds_nodes (final : Bool) {ns : List Node} (h : Canonical ns) {rest : Text} (hrest : EndsText rest) :
    ∃ ts, pass final (write ns ++ rest) = consume ts (pass final rest) ∧
      ∀ b : Builder, SettlesVoids b.settled → (b.pending = [] ∨ ∀ n ∈ ns.head?, n.isText = false) → Adds b ts ns := by
  -- over the tree, with any rest: behind the children of an element stands its closing tag
  induction h generalizing rest with
  | nil => exact ⟨[], (consume_nil _).symm, fun b hb _ => ⟨b.settled, hb, by rw [← flush_settled b]; rfl⟩⟩
  | @text t ns ht hnext hns ih =>
    obtain ⟨ts, hpass, hadds⟩ := ih hrest
    obtain ⟨us, rfl, hus⟩ := pass_text final t (endsText_write hns hnext hrest)
    refine ⟨us.map .text ++ ts, ?_, fun b hb hpending => ?_⟩
    · rw [write_text, List.append_assoc, hus, hpass, consume_consume]
    · -- a text goes on where one is pending, so it becomes a node of its own only behind a tag
      have hb' : b.pending = [] := hpending.resolve_right fun hnone => by cases hnone _ rfl
      have hadd := adds_texts hb' hb ht
      exact hadd.append (hadds _ hadd.settled (.inr hnext))
  | @element e children ns he hvoid hchildren hns ihchildren ih =>
    obtain ⟨ts, hpass, hadds⟩ := ih hrest
    cases hv : isVoid e.name with
    | true =>
      rw [hvoid hv, write_void hv]
      refine ⟨openingToken e :: ts, ?_, fun b hb _ => ?_⟩
      · rw [List.append_assoc, pass_opening he.name he.not_raw he.names, hpass, consume_consume]
        rfl
      · have hadd := adds_void hb he hv
        exact hadd.adds.append (hadds _ hadd.adds.settled (.inl hadd.pending))
    | false =>
      have hclosing : EndsText (writeClosing e ++ (write ns ++ rest)) := endsText_angle _
      obtain ⟨cs, hcs, hcadds⟩ := ihchildren hclosing
      rw [write_element he.not_raw hv]
      refine ⟨openingToken e :: (cs ++ [.closing e.name]) ++ ts, ?_, fun b hb _ => ?_⟩
      · simp only [List.append_assoc]
        rw [pass_opening he.name he.not_raw he.names, hcs, pass_closing he.name, hpass]
        simp only [consume_consume]
        simp [openingToken]
      · have hadd := adds_element he hv (hcadds (b.flush.push e) (flush_settled b ▸ hb) (.inl (flush_pending b)))
        exact hadd.adds.append (hadds _ hadd.adds.settled (.inl hadd.pending))

theorem tokens_of_pass {t : Text} {ts : List Token} (h : pass false t = .ok (ts, [])) : tokens t = .ok ts := by
  have hrest : pass true [] = .ok ([], []) := by rw [pass]
  rw [tokens, h]
  simp [hrest, textToken]

/-- Canonical nodes are read back from what they are written as. -/
theorem parse_write {ns : List Node} (h : Canonical ns) : parse (write ns) = .ok ns := by
  have hend : EndsText [] := fun c hc => by cases hc
  obtain ⟨ts, hpass, hadds⟩ := adds_nodes false h hend
  have hnil : pass false [] = .ok ([], []) := by rw [pass]
  have htokens : tokens (write ns) = .ok ts := by
    refine tokens_of_pass ?_
    rw [List.append_nil, hnil] at hpass
    simpa [consume, Except.map] using hpass
  have hfinish := (hadds {} (fun n hn => by cases hn) (.inl rfl)).finish
  rw [parse, htokens]
  exact congrArg Except.ok hfinish

end Markup
end Stylebook
