import Stylebook.Proofs.Markup.Within
import Stylebook.Proofs.Selector.Embedding
import Stylebook.Proofs.Variant.Again

/-! Which elements of a fragment a base selector means. Whatever the markup is, the wrapper is the first element of the
    document that is read (`parse_opening`), so it is the one element above the fragment. It takes part in matching:
    the first compound of a group may hold for it, which a compound does that asks for nothing but to be an element, a
    first or a last one. Such a group means an element although nothing in the fragment stands above it. -/

namespace Stylebook

namespace Markup
namespace Builder

/-! ### The first element -/

/-- The first of the nodes is an element: it is still open and no node is finished, or it is the first finished node. -/
def Starts (e : Element) (b : Builder) : Prop :=
  (b.roots = [] ∧ ∃ f, b.opened.getLast? = some f ∧ f.element = e) ∨
    ∃ children, b.roots.getLast? = some (.element e children)

section
variable {e : Element} {b : Builder}

theorem Starts.add (h : Starts e b) (n : Node) : Starts e (b.add n) := by
  unfold Builder.add
  split
  · next hnil =>
    rcases h with ⟨-, f, hf, -⟩ | ⟨children, hroots⟩
    · rw [hnil] at hf
      cases hf
    · refine .inr ⟨children, ?_⟩
      show (n :: b.roots).getLast? = _
      rw [List.getLast?_cons, hroots]
      rfl
  · next f rest heq =>
    rcases h with ⟨hroots, g, hg, he⟩ | hfinished
    · refine .inl ⟨hroots, ?_⟩
      rw [heq] at hg
      cases rest with
      | nil =>
        cases hg
        exact ⟨_, rfl, he⟩
      | cons f' rest => exact ⟨g, hg, he⟩
    · exact .inr hfinished

theorem Starts.flush (h : Starts e b) : Starts e b.flush := by
  unfold Builder.flush
  split
  · exact h
  · exact h.add _

theorem Starts.push (h : Starts e b) (inner : Element) : Starts e (b.push inner) := by
  rcases h with ⟨hroots, f, hf, he⟩ | hfinished
  · refine .inl ⟨hroots, f, ?_, he⟩
    show (⟨inner, []⟩ :: b.opened).getLast? = some f
    rw [List.getLast?_cons, hf]
    rfl
  · exact .inr hfinished

theorem Starts.pop (h : Starts e b) : Starts e b.pop := by
  unfold Builder.pop
  split
  · exact h
  · next f rest heq =>
    rcases h with ⟨hroots, g, hg, he⟩ | hfinished
    · rw [heq] at hg
      cases rest with
      | nil =>
        -- the element itself is closed, and it is the first finished node
        cases hg
        have hf : f.element = e := he
        refine .inr ⟨f.children.reverse, ?_⟩
        show (f.node :: b.roots).getLast? = _
        rw [hroots, Frame.node, hf]
        rfl
      | cons f' rest =>
        have hstill : Starts e { b with opened := f' :: rest } := .inl ⟨hroots, g, hg, he⟩
        exact hstill.add f.node
    · have hstill : Starts e { b with opened := rest } := .inr hfinished
      exact hstill.add f.node

theorem Starts.popAll (h : Starts e b) (frames : List Frame) : Starts e (popAll frames b) := by
  induction frames generalizing b with
  | nil => exact h
  | cons f frames ih => exact ih h.pop

theorem Starts.close (h : Starts e b) (name : Text) : Starts e (b.close name) := by
  rw [Builder.close]
  split
  · exact h
  · rw [Builder.popTo]
    split
    · exact h.flush.popAll _
    · exact h.flush

theorem Starts.enter (h : Starts e b) (name : Text) (attributes : List (Text × Text)) (closed : Bool) :
    Starts e (b.enter name attributes closed) := by
  have hpush := h.flush.push (Element.ofTag name attributes)
  rw [Builder.enter]
  dsimp only
  split
  · exact hpush.pop
  · split
    · exact hpush.pop
    · exact hpush

theorem Starts.aside (h : Starts e b) (node : Text → Node) (t : Text) : Starts e (b.aside node t) := h.flush.add _

/-- Whatever is read next, the first element stays the first. -/
theorem Starts.step (h : Starts e b) (token : Token) : Starts e (b.step token) := by
  cases token with
  | text t => exact h
  | opening name attributes closed => exact h.enter name attributes closed
  | closing name => exact h.close name
  | comment t => exact h.aside .comment t
  | doctype t => exact h.aside .doctype t
  | cdata t => exact h.aside .cdata t
  | markedSection t => exact h.aside .markedSection t
  | instruction t => exact h.aside .instruction t

theorem Starts.foldl (h : Starts e b) (ts : List Token) : Starts e (ts.foldl Builder.step b) := by
  induction ts generalizing b with
  | nil => exact h
  | cons token ts ih => exact ih (h.step token)

theorem Starts.finish (h : Starts e b) : ∃ children more, b.finish = .element e children :: more := by
  have hopened : (Builder.popAll b.flush.opened b.flush).opened = [] := opened_popAll rfl
  rcases h.flush.popAll b.flush.opened with ⟨-, f, hf, -⟩ | ⟨children, hroots⟩
  · rw [hopened] at hf
    cases hf
  · obtain ⟨later, hlater⟩ := List.getLast?_eq_some_iff.mp hroots
    refine ⟨children, later.reverse, ?_⟩
    rw [Builder.finish, hlater, List.reverse_append]
    rfl

end

end Builder

/-- An opening tag at the very front is the first token, whatever follows. -/
theorem tokens_opening {e : Element} (he : e.IsCanonical) {rest : Text} {ts : List Token}
    (h : tokens (writeOpening e ++ rest) = .ok ts) : ∃ more, ts = openingToken e :: more := by
  rw [tokens, pass_opening he.name he.not_raw he.names] at h
  cases hfirst : pass false rest with
  | error why =>
    rw [hfirst] at h
    cases h
  | ok read =>
    obtain ⟨first, left⟩ := read
    rw [hfirst] at h
    dsimp only [consume, Except.map] at h
    split at h
    · cases h
    · cases h
      exact ⟨_, rfl⟩

/-- The element of an opening tag at the very front is the first node, whatever follows. -/
theorem parse_opening {e : Element} (he : e.IsCanonical) (hvoid : isVoid e.name = false) {rest : Text} {doc : List Node}
    (h : parse (writeOpening e ++ rest) = .ok doc) : ∃ children more, doc = .element e children :: more := by
  cases hts : tokens (writeOpening e ++ rest) with
  | error why =>
    rw [parse, hts] at h
    cases h
  | ok ts =>
    rw [parse, hts] at h
    cases h
    obtain ⟨more, rfl⟩ := tokens_opening he hts
    have hfirst : Builder.Starts e (Builder.step {} (openingToken e)) := by
      rw [Builder.step_openingToken he, hvoid]
      exact .inl ⟨rfl, _, rfl, rfl⟩
    exact (hfirst.foldl more).finish

end Markup

namespace Selector

open Markup (Element Node)

/-! ### One more element above -/

/-- With one more element above all others, the compounds hold as before, or the outermost of them holds for this
    element and the rest as before. -/
theorem holdAbove_concat (cs : List Compound) (above : Lineage) (p : Place) :
    holdAbove cs (above ++ [p]) = true ↔ holdAbove cs above = true ∨
      ∃ front c, cs = front ++ [c] ∧ holdAbove front above = true ∧ Compound.holds p c = true := by
  fun_induction holdAbove cs above with
  | case1 above =>
    rw [holdAbove]
    exact ⟨.inl, fun _ => rfl⟩
  | case2 c cs =>
    rw [List.nil_append, holdAbove]
    constructor
    · intro h
      split at h
      · rename_i hc
        cases cs with
        | nil => exact .inr ⟨[], c, rfl, rfl, hc⟩
        | cons d ds => cases h
      · cases h
    · rintro (h | ⟨front, d, heq, hfront, hd⟩)
      · cases h
      · cases front with
        | nil =>
          cases heq
          rw [if_pos hd]
          rfl
        | cons f front => cases hfront
  | case3 c cs q above hq ih =>
    rw [List.cons_append, holdAbove, if_pos hq, ih]
    refine or_congr_right' fun hnot => ⟨?_, ?_⟩
    · rintro ⟨front, d, rfl, hfront, hd⟩
      exact ⟨c :: front, d, rfl, by rwa [holdAbove, if_pos hq], hd⟩
    · rintro ⟨front, d, heq, hfront, hd⟩
      cases front with
      | nil =>
        cases heq
        exact absurd (by rw [holdAbove]) hnot
      | cons f front =>
        cases heq
        rw [holdAbove, if_pos hq] at hfront
        exact ⟨front, d, rfl, hfront, hd⟩
  | case4 c cs q above hq ih =>
    rw [List.cons_append, holdAbove, if_neg hq, ih]
    refine or_congr_right (exists_congr fun front => exists_congr fun d => and_congr_right fun heq => ?_)
    cases front with
    | nil => rw [holdAbove, holdAbove]
    | cons f front =>
      cases heq
      rw [holdAbove, if_neg hq]

theorem holdAt_concat (cs : List Compound) (q : Place) (above : Lineage) (p : Place) :
    holdAt cs (q :: above ++ [p]) = true ↔ holdAt cs (q :: above) = true ∨
      ∃ front c, cs = front ++ [c] ∧ holdAt front (q :: above) = true ∧ Compound.holds p c = true := by
  cases cs with
  | nil => simp [holdAt]
  | cons d ds =>
    rw [List.cons_append, holdAt, holdAt, Bool.and_eq_true, Bool.and_eq_true, holdAbove_concat]
    constructor
    · rintro ⟨hd, hds | ⟨front, c, rfl, hfront, hc⟩⟩
      · exact .inl ⟨hd, hds⟩
      · exact .inr ⟨d :: front, c, rfl, by rw [holdAt, hd, hfront]; rfl, hc⟩
    · rintro (⟨hd, hds⟩ | ⟨front, c, heq, hfront, hc⟩)
      · exact ⟨hd, .inl hds⟩
      · cases front with
        | nil => cases hfront
        | cons f front =>
          cases heq
          rw [holdAt, Bool.and_eq_true] at hfront
          exact ⟨hfront.1, .inr ⟨front, c, rfl, hfront.2, hc⟩⟩

/-- With one more element above a document, a group holds where its compounds embed, or where all but the first embed
    and the first holds for this element. -/
theorem group_holds_concat {doc : List Node} {g : Group} {a : Address} (h : (placeAt? doc a).isSome) (p : Place) :
    Group.holds (lineageAt doc a ++ [p]) g = true ↔ Embeds doc (compounds g) a ∨
      ∃ c inner, compounds g = c :: inner ∧ Compound.holds p c = true ∧ Embeds doc inner a := by
  obtain ⟨q, above, hlineage⟩ : ∃ q above, lineageAt doc a = q :: above := by
    rcases List.eq_nil_or_concat a with rfl | ⟨b, i, rfl⟩
    · cases h
    · rw [List.concat_eq_append] at h ⊢
      obtain ⟨q, hq⟩ := Option.isSome_iff_exists.mp h
      exact ⟨q, _, lineageAt_snoc hq⟩
  rw [Group.holds, hlineage, holdAt_concat, ← hlineage, holdAt_iff_embeds h]
  refine or_congr_right ⟨?_, ?_⟩
  · rintro ⟨front, c, heq, hfront, hc⟩
    refine ⟨c, front.reverse, ?_, hc, (holdAt_iff_embeds h).mp ?_⟩
    · rw [← List.reverse_reverse (compounds g), heq, List.reverse_append]
      rfl
    · rwa [List.reverse_reverse]
  · rintro ⟨c, inner, heq, hc, hinner⟩
    exact ⟨inner.reverse, c, by rw [heq, List.reverse_cons], (holdAt_iff_embeds h).mpr hinner, hc⟩

end Selector

namespace Variant

open Markup (Attributes Element Node)
open Selector (Part Compound Group Place Lineage Address lineages compounds lineageAt placeAt? Embeds)

/-! ### The wrapper -/

theorem fragment_above {markup : Text} {above : Lineage} {nodes : List Node}
    (h : fragment markup = .ok (above, nodes)) : ∃ isLast, above = [{ wrapperPlace with isLast := isLast }] := by
  have hwrapper : (⟨wrapperName, []⟩ : Element).IsCanonical := by decide +kernel
  have hwrap : wrap markup = Markup.writeOpening ⟨wrapperName, []⟩ ++ (markup ++ Markup.writeClosing ⟨wrapperName, []⟩) := by
    simp [wrap, Markup.writeOpening, Markup.writeClosing]
  rw [fragment, hwrap] at h
  cases hread : Markup.parse (Markup.writeOpening ⟨wrapperName, []⟩ ++
      (markup ++ Markup.writeClosing ⟨wrapperName, []⟩)) with
  | error why =>
    rw [hread] at h
    cases h
  | ok doc =>
    obtain ⟨children, more, rfl⟩ := Markup.parse_opening hwrapper (by decide +kernel) hread
    rw [hread] at h
    cases h
    exact ⟨_, rfl⟩

/-- The parts that hold for the wrapper, which `isLast` tells whether an element follows. -/
def HoldsAround (isLast : Bool) : Part → Prop
  | .universal => True
  | .tag name => name = wrapperName
  | .pseudo name _ => name = "first-child".text ∨ name = "last-child".text ∧ isLast = true
  | _ => False

theorem holds_wrapper_iff (isLast : Bool) : ∀ part : Part,
    Part.holds { wrapperPlace with isLast := isLast } part = true ↔ HoldsAround isLast part
  | .universal => by simp [Part.holds, HoldsAround]
  | .tag name => beq_iff_eq.trans eq_comm
  | .id name => by simp [Part.holds, HoldsAround, wrapperPlace, Element.attributeText?, Element.get?, Attributes.get?]
  | .className name => by simp [Part.holds, HoldsAround, wrapperPlace, Element.get?, Attributes.get?]
  | .attribute name none => by
    simp [Part.holds, HoldsAround, wrapperPlace, Element.has, Element.get?, Attributes.get?]
  | .attribute name (some v) => by
    simp [Part.holds, HoldsAround, wrapperPlace, Element.attributeText?, Element.get?, Attributes.get?]
  | .descendant => by simp [Part.holds, HoldsAround]
  | .pseudo name argument => by
    rw [Part.holds, HoldsAround]
    by_cases hfirst : name = "first-child".text
    · simp [hfirst, wrapperPlace]
    · by_cases hlast : name = "last-child".text
      · simp [hlast, wrapperPlace]
      · simp [hfirst, hlast, wrapperPlace, Element.has, Element.get?, Attributes.get?]

/-! ### The chosen elements -/

/-- The groups of a base selector; none, if it cannot be read. -/
def baseGroups (base : Option Text) : List Group := (Selector.parse (base.getD [])).toOption.getD []

theorem chosen_eq (base : Option Text) (lineage : Lineage) :
    chosen base lineage = Selector.anyHolds (baseGroups base) lineage := by
  rw [chosen, baseGroups]
  cases Selector.parse (base.getD []) <;> rfl

/-- The elements of a fragment that a base selector means, in document order and each of them once: those at which the
    compounds of one of its groups embed within the fragment, and besides those at which all but the first do, where
    the first asks for nothing that the wrapper is not. -/
theorem chosen_embedded {markup : Text} {above : Lineage} {nodes : List Node}
    (hread : fragment markup = .ok (above, nodes)) (base : Option Text) :
    ∃ isLast, above = [{ wrapperPlace with isLast := isLast }] ∧
    ∃ found : List Address, found.Pairwise (List.Lex (· < ·)) ∧
      (lineages above false nodes).filter (chosen base) = found.map (fun a => lineageAt nodes a ++ above) ∧
      ∀ a, a ∈ found ↔ (placeAt? nodes a).isSome ∧ ∃ g ∈ baseGroups base, Embeds nodes (compounds g) a ∨
        ∃ c inner, compounds g = c :: inner ∧ (∀ part ∈ c, HoldsAround isLast part) ∧ Embeds nodes inner a := by
  obtain ⟨isLast, rfl⟩ := fragment_above hread
  have hlineages : lineages [{ wrapperPlace with isLast := isLast }] false nodes =
      (Selector.addresses 0 nodes).map fun a => lineageAt nodes a ++ [{ wrapperPlace with isLast := isLast }] :=
    Selector.lineages_behind [] rfl
  refine ⟨isLast, rfl, (Selector.addresses 0 nodes).filter fun a =>
    chosen base (lineageAt nodes a ++ [{ wrapperPlace with isLast := isLast }]), ?_, ?_, ?_⟩
  · exact (Selector.pairwise_addresses 0 nodes).filter _
  · rw [hlineages]
    exact List.filter_map
  · intro a
    rw [List.mem_filter, Selector.mem_addresses]
    refine and_congr_right fun hsome => ?_
    rw [chosen_eq, Selector.anyHolds, List.any_eq_true]
    refine exists_congr fun g => and_congr_right fun _ => ?_
    rw [Selector.group_holds_concat hsome]
    simp only [Selector.compound_holds_iff, holds_wrapper_iff]

/-- Two bold texts, the second of them with nothing above it. -/
def twoBold : List Node :=
  [.element ⟨"p".text, []⟩ [.element ⟨"b".text, []⟩ []], .element ⟨"b".text, []⟩ []]

theorem chosen_embedded_twoBold :
    fragment "<p><b></b></p><b></b>".text = .ok ([wrapperPlace], twoBold) ∧
    ∃ isLast, [wrapperPlace] = [{ wrapperPlace with isLast := isLast }] ∧
    ∃ found : List Address, found.Pairwise (List.Lex (· < ·)) ∧
      (lineages [wrapperPlace] false twoBold).filter (chosen (some "p b, :last-child b".text)) =
        found.map (fun a => lineageAt twoBold a ++ [wrapperPlace]) ∧
      ∀ a, a ∈ found ↔ (placeAt? twoBold a).isSome ∧ ∃ g ∈ baseGroups (some "p b, :last-child b".text),
        Embeds twoBold (compounds g) a ∨
        ∃ c inner, compounds g = c :: inner ∧ (∀ part ∈ c, HoldsAround isLast part) ∧ Embeds twoBold inner a := by
  have hread : fragment "<p><b></b></p><b></b>".text = .ok ([wrapperPlace], twoBold) := by with_unfolding_all rfl
  exact ⟨hread, chosen_embedded hread (some "p b, :last-child b".text)⟩

/-- A link that stands alone. -/
def loneLink : List Node := [.element ⟨"a".text, []⟩ []]

/-- A link with nothing above it is meant by a selector for links below an element. -/
theorem chosen_below_wrapper :
    fragment "<a></a>".text = .ok ([wrapperPlace], loneLink) ∧
    baseGroups (some "* a".text) = [[.universal, .descendant, .tag "a".text]] ∧
    chosen (some "* a".text) (lineageAt loneLink [0] ++ [wrapperPlace]) = true ∧
    (¬∃ g ∈ baseGroups (some "* a".text), Embeds loneLink (compounds g) [0]) ∧
    apply {} false (some false) "<a></a>".text (some "* a".text) ".x".text [] = .ok "<a class=\"x\"></a>".text := by
  have hread : fragment "<a></a>".text = .ok ([wrapperPlace], loneLink) := by with_unfolding_all rfl
  have hgroups : baseGroups (some "* a".text) = [[.universal, .descendant, .tag "a".text]] := by decide +kernel
  have hlineage : lineageAt loneLink [0] = [⟨⟨"a".text, []⟩, true, true⟩] := rfl
  refine ⟨hread, hgroups, ?_, ?_, ?_⟩
  · rw [chosen_eq, hgroups, hlineage]
    decide
  · rw [hgroups]
    rintro ⟨g, hg, hembeds⟩
    rw [List.mem_singleton.mp hg, ← Selector.group_holds_iff rfl, hlineage] at hembeds
    revert hembeds
    decide
  · rw [apply_nil, modified, hread]
    simp only [bind, Except.bind, pure, Except.pure, loneLink, lineages, Selector.mapLineages]
    decide +kernel

end Variant

end Stylebook
