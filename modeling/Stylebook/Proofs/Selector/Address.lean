import Mathlib.Data.List.Infix
import Mathlib.Data.List.Lex
import Stylebook.Selector.Matching

/-! Addresses of elements. An address leads from the document down by the positions of nodes among their
    siblings, so that elements that look the same are still told apart; the ancestors of an element are at
    the beginnings of its address, and the order of addresses is the order of the document. The lineages
    that matching works on are those of the addresses (`lineages_eq_map`). -/

namespace Stylebook
namespace Selector

open Markup (Element Node)

/-- The positions of a node and its ancestors among their siblings, the outermost first. The empty address is
    that of the document. -/
abbrev Address := List Nat

/-- The nodes in the element at an address, or those of the document. -/
def childrenAt? (nodes : List Node) : Address → Option (List Node)
  | [] => some nodes
  | i :: rest =>
    match nodes[i]? with
    | some (.element _ children) => childrenAt? children rest
    | _ => none

/-- The place of the node at a position among its siblings, if it is an element. -/
def placeAmong? (siblings : List Node) (i : Nat) : Option Place :=
  match siblings[i]? with
  | some (.element e _) =>
    some ⟨e, !(siblings.take i).any Node.isElement, !(siblings.drop (i + 1)).any Node.isElement⟩
  | _ => none

/-- The place of the element at an address; the document is none. -/
def placeAt? (nodes : List Node) : Address → Option Place
  | [] => none
  | [i] => placeAmong? nodes i
  | i :: j :: rest =>
    match nodes[i]? with
    | some (.element _ children) => placeAt? children (j :: rest)
    | _ => none

/-- The place at an address followed by those of the ancestors, nearest first. -/
def lineageAt (nodes : List Node) (a : Address) : Lineage := (a.inits.filterMap (placeAt? nodes)).reverse

/-- The addresses of the elements in `nodes`, the first of which is at position `i`, in document order. -/
def addresses (i : Nat) : List Node → List Address
  | [] => []
  | .element _ children :: rest => [i] :: ((addresses 0 children).map (i :: ·) ++ addresses (i + 1) rest)
  | _ :: rest => addresses (i + 1) rest

/-! ### Addresses below an element -/

theorem placeAt?_append {nodes children : List Node} {a b : Address} (h : childrenAt? nodes a = some children)
    (hb : b ≠ []) : placeAt? nodes (a ++ b) = placeAt? children b := by
  induction a generalizing nodes with
  | nil =>
    cases h
    rfl
  | cons i a ih =>
    obtain ⟨j, rest, hcons⟩ := List.exists_cons_of_ne_nil (List.append_ne_nil_of_right_ne_nil a hb)
    simp only [childrenAt?] at h
    split at h
    · rename_i hi
      rw [← ih h, List.cons_append, hcons]
      simp only [placeAt?, hi]
    · cases h

theorem lineageAt_nil (nodes : List Node) : lineageAt nodes [] = [] := rfl

theorem lineageAt_append {nodes children : List Node} {a : Address} (h : childrenAt? nodes a = some children)
    (b : Address) : lineageAt nodes (a ++ b) = lineageAt children b ++ lineageAt nodes a := by
  cases b with
  | nil => simp [lineageAt, placeAt?]
  | cons j b =>
    have hplaces : (b.inits.map fun t => j :: t).filterMap (placeAt? children) =
        ((b.inits.map fun t => j :: t).map (a ++ ·)).filterMap (placeAt? nodes) := by
      conv_rhs => rw [List.filterMap_map]
      refine List.filterMap_congr fun t ht => ?_
      obtain ⟨u, -, rfl⟩ := List.mem_map.mp ht
      exact (placeAt?_append h (List.cons_ne_nil j u)).symm
    rw [lineageAt, lineageAt, lineageAt, List.inits_append, List.inits_cons, List.tail_cons,
      List.filterMap_append, List.reverse_append, ← hplaces, List.filterMap_cons]
    rfl

theorem lineageAt_snoc {nodes : List Node} {a : Address} {i : Nat} {p : Place}
    (h : placeAt? nodes (a ++ [i]) = some p) : lineageAt nodes (a ++ [i]) = p :: lineageAt nodes a := by
  have hinits : (a ++ [i]).inits = a.inits ++ [a ++ [i]] := by simp [List.inits_append]
  rw [lineageAt, hinits, List.filterMap_append, List.reverse_append]
  simp [h, lineageAt]

/-- The parent of an element is the document or an element itself. -/
theorem placeAt?_front {nodes : List Node} {a : Address} {i : Nat} (h : (placeAt? nodes (a ++ [i])).isSome)
    (ha : a ≠ []) : (placeAt? nodes a).isSome := by
  induction a generalizing nodes with
  | nil => exact absurd rfl ha
  | cons j a ih =>
    cases a with
    | nil =>
      simp only [List.cons_append, List.nil_append, placeAt?] at h
      split at h
      · rename_i hj
        simp [placeAt?, placeAmong?, hj]
      · cases h
    | cons k a =>
      simp only [List.cons_append, placeAt?] at h ⊢
      split at h
      · exact ih h (List.cons_ne_nil k a)
      · cases h

/-! ### Document order -/

theorem le_head_of_mem_addresses {i : Nat} {nodes : List Node} {a : Address} (h : a ∈ addresses i nodes) :
    ∃ j rest, a = j :: rest ∧ i ≤ j := by
  fun_induction addresses i nodes with
  | case1 => simp at h
  | case2 i _ children rest _ ih =>
    simp only [List.mem_cons, List.mem_append, List.mem_map] at h
    rcases h with rfl | ⟨b, -, rfl⟩ | h
    · exact ⟨i, [], rfl, Nat.le_refl i⟩
    · exact ⟨i, b, rfl, Nat.le_refl i⟩
    · obtain ⟨j, b, rfl, hj⟩ := ih h
      exact ⟨j, b, rfl, by omega⟩
  | case3 i _ rest _ ih =>
    obtain ⟨j, b, rfl, hj⟩ := ih h
    exact ⟨j, b, rfl, by omega⟩

theorem pairwise_addresses (i : Nat) (nodes : List Node) :
    (addresses i nodes).Pairwise (List.Lex (· < ·)) := by
  fun_induction addresses i nodes with
  | case1 => exact .nil
  | case2 i _ children rest ihc ih =>
    refine List.pairwise_cons.mpr ⟨?_, List.pairwise_append.mpr ⟨?_, ih, ?_⟩⟩
    · intro a ha
      rcases List.mem_append.mp ha with ha | ha
      · obtain ⟨b, hb, rfl⟩ := List.mem_map.mp ha
        obtain ⟨j, b, rfl, -⟩ := le_head_of_mem_addresses hb
        exact .cons .nil
      · obtain ⟨j, b, rfl, hj⟩ := le_head_of_mem_addresses ha
        exact .rel (by omega)
    · exact List.pairwise_map.mpr (ihc.imp .cons)
    · intro a ha b hb
      obtain ⟨a, -, rfl⟩ := List.mem_map.mp ha
      obtain ⟨j, b, rfl, hj⟩ := le_head_of_mem_addresses hb
      exact .rel (by omega)
  | case3 i _ rest _ ih => exact ih

/-! ### Lineages by address -/

-- The facts below walk through the siblings from left to right: `front` holds those already passed.

theorem isElement_eq_false {n : Node} (h : ∀ e children, n = .element e children → False) : n.isElement = false := by
  cases n with
  | element e children => exact absurd rfl (h e children)
  | _ => rfl

theorem childrenAt?_behind (front rest : List Node) (e : Element) (children : List Node) :
    childrenAt? (front ++ .element e children :: rest) [front.length] = some children := by
  simp [childrenAt?]

theorem placeAt?_behind (front rest : List Node) (e : Element) (children : List Node) :
    placeAt? (front ++ .element e children :: rest) [front.length] =
      some ⟨e, !front.any Node.isElement, !rest.any Node.isElement⟩ := by
  simp [placeAt?, placeAmong?]

theorem placeAt?_within (front rest : List Node) (e : Element) (children : List Node) (j : Nat) (b : Address) :
    placeAt? (front ++ .element e children :: rest) (front.length :: j :: b) = placeAt? children (j :: b) :=
  placeAt?_append (childrenAt?_behind front rest e children) (List.cons_ne_nil j b)

theorem placeAt?_behind_none (front rest : List Node) {n : Node} (hn : n.isElement = false) (b : Address) :
    placeAt? (front ++ n :: rest) (front.length :: b) = none := by
  cases n with
  | element => cases hn
  | _ => cases b <;> simp [placeAt?, placeAmong?]

theorem mem_addresses_behind {i : Nat} (front : List Node) {nodes : List Node} (hi : i = front.length) {a : Address} :
    a ∈ addresses i nodes ↔
      ∃ j rest, a = j :: rest ∧ i ≤ j ∧ (placeAt? (front ++ nodes) a).isSome := by
  fun_induction addresses i nodes generalizing front a with
  | case1 i =>
    simp only [List.not_mem_nil, List.append_nil, false_iff]
    rintro ⟨j, rest, rfl, hj, hsome⟩
    have hnone : front[j]? = none := List.getElem?_eq_none (by omega)
    cases rest <;> simp [placeAt?, placeAmong?, hnone] at hsome
  | case2 i e children rest ihc ih =>
    have ih := ih (front ++ [.element e children]) (by simp [hi]) (a := a)
    simp only [List.append_assoc, List.singleton_append] at ih
    simp only [List.mem_cons, List.mem_append, List.mem_map, ih]
    constructor
    · rintro (rfl | ⟨b, hb, rfl⟩ | ⟨j, b, rfl, hj, hsome⟩)
      · exact ⟨i, [], rfl, Nat.le_refl i, by rw [hi, placeAt?_behind]; rfl⟩
      · obtain ⟨j, b, rfl, -, hsome⟩ := (ihc [] rfl).mp hb
        refine ⟨i, _, rfl, Nat.le_refl i, ?_⟩
        rw [hi, placeAt?_within]
        exact hsome
      · exact ⟨j, b, rfl, by omega, hsome⟩
    · rintro ⟨j, b, rfl, hj, hsome⟩
      rcases Nat.eq_or_lt_of_le hj with rfl | hlt
      · cases b with
        | nil => exact .inl rfl
        | cons k b =>
          refine .inr (.inl ⟨k :: b, (ihc [] rfl).mpr ⟨k, b, rfl, Nat.zero_le k, ?_⟩, rfl⟩)
          rw [hi, placeAt?_within] at hsome
          exact hsome
      · exact .inr (.inr ⟨j, b, rfl, hlt, hsome⟩)
  | case3 i n rest hn ih =>
    have ih := ih (front ++ [n]) (by simp [hi]) (a := a)
    simp only [List.append_assoc, List.singleton_append] at ih
    rw [ih]
    constructor
    · rintro ⟨j, b, rfl, hj, hsome⟩
      exact ⟨j, b, rfl, by omega, hsome⟩
    · rintro ⟨j, b, rfl, hj, hsome⟩
      rcases Nat.eq_or_lt_of_le hj with rfl | hlt
      · rw [hi, placeAt?_behind_none front rest (isElement_eq_false hn) b] at hsome
        cases hsome
      · exact ⟨j, b, rfl, hlt, hsome⟩

/-- The addresses of the elements are those where there is an element. -/
theorem mem_addresses {nodes : List Node} {a : Address} : a ∈ addresses 0 nodes ↔ (placeAt? nodes a).isSome := by
  rw [mem_addresses_behind (i := 0) [] rfl]
  constructor
  · rintro ⟨j, b, rfl, -, hsome⟩
    exact hsome
  · intro hsome
    cases a with
    | nil => cases hsome
    | cons j b => exact ⟨j, b, rfl, Nat.zero_le j, hsome⟩

theorem lineages_behind {above : Lineage} {seen : Bool} (front : List Node) {nodes : List Node}
    (hseen : seen = front.any Node.isElement) :
    lineages above seen nodes =
      (addresses front.length nodes).map fun a => lineageAt (front ++ nodes) a ++ above := by
  fun_induction lineages above seen nodes generalizing front with
  | case1 => simp [addresses]
  | case2 above seen e children rest lineage ihc =>
    rename_i ih
    have hfirst : lineageAt (front ++ .element e children :: rest) [front.length] =
        [⟨e, !seen, !rest.any Node.isElement⟩] := by
      rw [hseen]
      exact lineageAt_snoc (a := []) (placeAt?_behind front rest e children)
    have hbelow : ∀ a, lineageAt (front ++ .element e children :: rest) (front.length :: a) ++ above =
        lineageAt children a ++ (⟨e, !seen, !rest.any Node.isElement⟩ :: above) := by
      intro a
      have happend := lineageAt_append (childrenAt?_behind front rest e children) a
      rw [List.singleton_append] at happend
      rw [happend, hfirst, List.append_assoc, List.singleton_append]
    have hchildren := ihc [] rfl
    have hrest := ih (front ++ [.element e children]) (by simp [Node.isElement, Node.element?])
    simp only [List.nil_append, List.length_nil] at hchildren
    simp only [List.append_assoc, List.singleton_append, List.length_append, List.length_singleton] at hrest
    rw [hchildren, hrest, addresses, List.map_cons, List.map_append, List.map_map, hfirst]
    simp only [Function.comp_def, hbelow, List.singleton_append]
    rfl
  | case3 above seen n rest hn ih =>
    have hrest := ih (front ++ [n]) (by simp [hseen, isElement_eq_false hn])
    simp only [List.append_assoc, List.singleton_append, List.length_append, List.length_singleton] at hrest
    rw [hrest, addresses]
    exact hn

/-- Below an element, the lineages in document order are those of the addresses that go on from it. -/
theorem lineages_eq_map {nodes children : List Node} {a : Address} (h : childrenAt? nodes a = some children) :
    lineages (lineageAt nodes a) false children =
      ((addresses 0 children).map (a ++ ·)).map (lineageAt nodes) := by
  have hbelow : lineages (lineageAt nodes a) false children =
      (addresses 0 children).map fun b => lineageAt children b ++ lineageAt nodes a := lineages_behind [] rfl
  rw [hbelow, List.map_map]
  refine List.map_congr_left fun b _ => ?_
  exact (lineageAt_append h b).symm

end Selector
end Stylebook
