import Stylebook.Path
import Stylebook.Proofs.Text.Lines

/-! Normal forms of file paths. Segments are settled if every step upward among them leads out of a relative
    path; carrying the steps out settles the segments and leaves settled ones as they are. So the directory in
    front of a path may be put into normal form first. -/

namespace Stylebook
namespace Path

/-! ### Directories -/

/-- A text that leads to a directory, so that a path can follow it. -/
def IsDirectory (t : Text) : Prop := t = [] ∨ ∃ u, t = u ++ ['/']

theorem IsDirectory.append {d e : Text} (hd : IsDirectory d) (he : IsDirectory e) : IsDirectory (d ++ e) := by
  rcases he with rfl | ⟨u, rfl⟩
  · rwa [List.append_nil]
  · exact .inr ⟨d ++ u, (List.append_assoc d u _).symm⟩

theorem exists_directory_append (t : Text) : ∃ d l, t = d ++ l ∧ IsDirectory d ∧ '/' ∉ l := by
  induction t with
  | nil => exact ⟨[], [], rfl, .inl rfl, List.not_mem_nil⟩
  | cons c t ih =>
    obtain ⟨d, l, rfl, rfl | ⟨u, rfl⟩, hl⟩ := ih
    · by_cases hc : c = '/'
      · exact ⟨[c], l, rfl, .inr ⟨[], by rw [hc]; rfl⟩, hl⟩
      · exact ⟨[], c :: l, rfl, .inl rfl, by simp [hl, Ne.symm hc]⟩
    · exact ⟨c :: (u ++ ['/']), l, rfl, .inr ⟨c :: u, rfl⟩, hl⟩

theorem cutAfterLast_append {d l : Text} (hd : IsDirectory d) (hl : '/' ∉ l) :
    Text.cutAfterLast '/' (d ++ l) = (d, l) := by
  have hname : (d ++ l).reverse.takeWhile (· != '/') = l.reverse := by
    rw [List.reverse_append]
    refine Text.takeWhile_append_of_head (fun c hc => ?_) ?_
    · exact bne_iff_ne.mpr fun heq => hl (heq ▸ List.mem_reverse.mp hc)
    · rcases hd with rfl | ⟨u, rfl⟩ <;> simp
  rw [Text.cutAfterLast, hname]
  simp

/-! ### Reading -/

theorem rootOf_append (t : Text) {x : Text} (hx : x.head? ≠ some '/') : rootOf (t ++ x) = rootOf t := by
  have hfront : (t ++ x).takeWhile (· == '/') = t.takeWhile (· == '/') := by
    induction t with
    | nil =>
      cases x with
      | nil => rfl
      | cons c x => simp_all
    | cons c t ih => rw [List.cons_append, List.takeWhile_cons, List.takeWhile_cons, ih]
  rw [rootOf, rootOf, hfront]

theorem parts_append_slash (t x : Text) : (ofText (t ++ '/' :: x)).parts = (ofText t).parts ++ (ofText x).parts := by
  simp only [ofText]
  rw [Text.split_append (by rfl), List.filter_append]

theorem parts_append {t : Text} (ht : IsDirectory t) (x : Text) :
    (ofText (t ++ x)).parts = (ofText t).parts ++ (ofText x).parts := by
  rcases ht with rfl | ⟨u, rfl⟩
  · rfl
  · have hempty : (ofText []).parts = [] := rfl
    rw [List.append_assoc, List.singleton_append, parts_append_slash, parts_append_slash, hempty, List.append_nil]

theorem isAbsolute_ofText {x : Text} (hx : x.head? ≠ some '/') : (ofText x).isAbsolute = false := by
  have hroot : rootOf x = [] := rootOf_append [] hx
  simp [isAbsolute, ofText, hroot]

/-- A path that follows a directory is seen from there. -/
theorem ofText_append {t x : Text} (ht : IsDirectory t) (hx : x.head? ≠ some '/') :
    ofText (t ++ x) = (ofText t).under (ofText x) := by
  rw [under, isAbsolute_ofText hx, ← parts_append ht]
  simp [ofText, rootOf_append t hx]

theorem parts_ofText_name {l : Text} (hpart : isPart l = true) (hl : '/' ∉ l) : (ofText l).parts = [l] := by
  have hsplit : Text.split (· == '/') l = [l] :=
    Text.split_of_forall fun c hc => beq_eq_false_iff_ne.mpr fun heq => hl (heq ▸ hc)
  simp [ofText, hsplit, hpart]

/-- A path that a text can be read as. -/
structure WellFormed (p : Path) : Prop where
  root : p.root = [] ∨ p.root = "/".text ∨ p.root = "//".text
  parts : ∀ s ∈ p.parts, isPart s = true ∧ '/' ∉ s

theorem wellFormed_ofText (t : Text) : (ofText t).WellFormed := by
  constructor
  · show rootOf t = [] ∨ rootOf t = "/".text ∨ rootOf t = "//".text
    fun_cases rootOf t <;> simp
  · intro s hs
    obtain ⟨hs, hpart⟩ := List.mem_filter.mp hs
    exact ⟨hpart, fun hslash => absurd (Text.not_mem_of_mem_split s hs '/' hslash) (by decide)⟩

/-- The text in front of what stands in the directory of a path. -/
def directory (p : Path) : Text := p.root ++ p.parts.flatMap (· ++ ['/'])

section
variable {p : Path}

theorem isDirectory_flatMap (parts : List Text) : IsDirectory (parts.flatMap (· ++ ['/'])) := by
  induction parts with
  | nil => exact .inl rfl
  | cons s parts ih => exact IsDirectory.append (.inr ⟨s, rfl⟩) ih

theorem WellFormed.isDirectory_root (h : p.WellFormed) : IsDirectory p.root := by
  rcases h.root with hroot | hroot | hroot
  · exact .inl hroot
  · exact .inr ⟨[], hroot⟩
  · exact .inr ⟨['/'], hroot⟩

theorem WellFormed.isDirectory_directory (h : p.WellFormed) : IsDirectory p.directory :=
  h.isDirectory_root.append (isDirectory_flatMap p.parts)

theorem parts_flatMap {parts : List Text} (h : ∀ s ∈ parts, isPart s = true ∧ '/' ∉ s) :
    (ofText (parts.flatMap (· ++ ['/']))).parts = parts := by
  induction parts with
  | nil => rfl
  | cons s parts ih =>
    obtain ⟨⟨hpart, hslash⟩, hrest⟩ := List.forall_mem_cons.mp h
    rw [List.flatMap_cons, parts_append (.inr ⟨s, rfl⟩), ih hrest, parts_append_slash, parts_ofText_name hpart hslash]
    rfl

theorem WellFormed.ofText_directory (h : p.WellFormed) : ofText p.directory = p := by
  have hhead : (p.parts.flatMap (· ++ ['/'])).head? ≠ some '/' := by
    intro hslash
    obtain ⟨root, parts⟩ := p
    rcases parts with - | ⟨- | ⟨c, s⟩, parts⟩
    · cases hslash
    · exact absurd (h.parts [] List.mem_cons_self).1 (by decide)
    · cases hslash
      exact (h.parts _ List.mem_cons_self).2 List.mem_cons_self
  have hroot : ofText p.root = ⟨p.root, []⟩ := by
    rcases h.root with hroot | hroot | hroot <;> rw [hroot] <;> rfl
  have hparts : (ofText p.directory).parts = p.parts := by
    rw [directory, parts_append h.isDirectory_root, hroot, parts_flatMap h.parts, List.nil_append]
  calc ofText p.directory = ⟨rootOf p.directory, (ofText p.directory).parts⟩ := rfl
    _ = ⟨(ofText p.root).root, p.parts⟩ := by rw [hparts, directory, rootOf_append p.root hhead]; rfl
    _ = p := by rw [hroot]

theorem toText_concat (root : Text) (parts : List Text) (l : Text) :
    toText ⟨root, parts ++ [l]⟩ = directory ⟨root, parts⟩ ++ l := by
  have hjoin : Text.join ['/'] (parts ++ [l]) = parts.flatMap (· ++ ['/']) ++ l := by
    induction parts with
    | nil => exact Text.join_singleton _ l
    | cons s parts ih =>
      rw [List.cons_append, Text.join_cons _ _ (by simp), ih, List.flatMap_cons, List.append_assoc (s ++ ['/'])]
  simp [toText, directory, hjoin]

/-- A path is read back from its text. -/
theorem WellFormed.ofText_toText (h : p.WellFormed) : ofText p.toText = p := by
  obtain ⟨root, parts⟩ := p
  rcases List.eq_nil_or_concat parts with rfl | ⟨front, l, rfl⟩
  · rcases h.root with hroot | hroot | hroot
    · obtain rfl : root = [] := hroot
      rfl
    · obtain rfl : root = "/".text := hroot
      rfl
    · obtain rfl : root = "//".text := hroot
      rfl
  · rw [List.concat_eq_append] at h ⊢
    obtain ⟨hpart, hslash⟩ := h.parts l (by simp)
    have hfront : WellFormed ⟨root, front⟩ := ⟨h.root, fun s hs => h.parts s (List.mem_append_left [l] hs)⟩
    have hhead : l.head? ≠ some '/' := fun heq => hslash (List.mem_of_mem_head? heq)
    rw [toText_concat, ofText_append hfront.isDirectory_directory hhead, hfront.ofText_directory, under,
      isAbsolute_ofText hhead, parts_ofText_name hpart hslash]
    rfl

/-- Past the root no two slashes stand side by side, so the text of a path has no scheme and host. -/
theorem WellFormed.not_infix_toText (h : p.WellFormed) : ¬"://".text <:+: p.toText := by
  unfold toText
  split
  · decide
  intro hinfix
  have hskip : ∀ t, "://".text <:+: '/' :: t → "://".text <:+: t := by
    intro t ht
    refine (List.infix_cons_iff.mp ht).resolve_left ?_
    rintro ⟨r, hr⟩
    cases hr
  have hparts : "://".text <:+: Text.join ['/'] p.parts := by
    rcases h.root with hroot | hroot | hroot <;> rw [hroot] at hinfix
    · exact hinfix
    · exact hskip _ hinfix
    · exact hskip _ (hskip _ hinfix)
  obtain ⟨x, y, hxy⟩ := hparts
  have hne : p.parts ≠ [] := by
    intro hnil
    rw [hnil] at hxy
    simp [Text.join, String.text] at hxy
  -- between the two slashes there would be an empty segment
  have hsplit : Text.split (· == '/') (x ++ "://".text ++ y) =
      Text.split (· == '/') (x ++ [':']) ++ [] :: Text.split (· == '/') y := by
    have hslashes : x ++ "://".text ++ y = (x ++ [':']) ++ '/' :: '/' :: y := by simp [String.text]
    rw [hslashes, Text.split_append (by rfl) (x ++ [':'])]
    rfl
  rw [hxy, Text.split_join (by rfl) hne] at hsplit
  · have hempty := (h.parts [] (hsplit ▸ by simp)).1
    cases hempty
  · exact fun s hs c hc => beq_eq_false_iff_ne.mpr fun heq => (h.parts s hs).2 (heq ▸ hc)

end

/-! ### Steps -/

/-- The segments in front after one more of them, the latest first. -/
def push (absolute : Bool) (done : List Text) (s : Text) : List Text :=
  if s = "..".text then
    match done with
    | [] => if absolute then [] else [s]
    | d :: ds => if d = "..".text then s :: d :: ds else ds
  else s :: done

theorem carryOut_eq_foldl (absolute : Bool) (done xs : List Text) :
    carryOut absolute done xs = (xs.foldl (push absolute) done).reverse := by
  induction xs generalizing done with
  | nil => rfl
  | cons s xs ih =>
    rw [List.foldl_cons, ← ih]
    fun_cases push absolute done s <;> simp_all [carryOut]

/-- Segments, the latest first, whose steps upward all lead out of a relative path. -/
def Settled (absolute : Bool) : List Text → Prop
  | [] => True
  | s :: done => (s = "..".text → absolute = false ∧ ∀ d ∈ done, d = "..".text) ∧ Settled absolute done

section
variable {absolute : Bool} {done : List Text} {s : Text}

theorem push_sublist (absolute : Bool) (done : List Text) (s : Text) : (push absolute done s).Sublist (s :: done) := by
  fun_cases push absolute done s with
  | case1 => exact List.nil_sublist _
  | case2 => exact List.Sublist.refl _
  | case3 => exact List.Sublist.refl _
  | case4 d ds => exact (List.sublist_cons_self ds _).trans (List.sublist_cons_self _ _)
  | case5 => exact List.Sublist.refl _

theorem settled_push (h : Settled absolute done) : Settled absolute (push absolute done s) := by
  unfold push
  by_cases hs : s = "..".text
  · rw [if_pos hs]
    cases done with
    | nil => cases absolute <;> simp [Settled]
    | cons d done =>
      by_cases hd : d = "..".text
      · obtain ⟨hrelative, hdone⟩ := h.1 hd
        simp only [if_pos hd]
        exact ⟨fun _ => ⟨hrelative, List.forall_mem_cons.mpr ⟨hd, hdone⟩⟩, h⟩
      · simp only [if_neg hd]
        exact h.2
  · rw [if_neg hs]
    exact ⟨fun hup => absurd hup hs, h⟩

theorem push_of_settled (h : Settled absolute (s :: done)) : push absolute done s = s :: done := by
  unfold push
  by_cases hs : s = "..".text
  · obtain ⟨hrelative, hdone⟩ := h.1 hs
    rw [if_pos hs]
    cases done with
    | nil => simp [hrelative]
    | cons d done => simp [hdone d List.mem_cons_self]
  · rw [if_neg hs]

variable {xs : List Text}

theorem foldl_push_sublist : (xs.foldl (push absolute) done).Sublist (xs.reverse ++ done) := by
  induction xs generalizing done with
  | nil => exact List.Sublist.refl _
  | cons s xs ih =>
    rw [List.foldl_cons, List.reverse_cons, List.append_assoc, List.singleton_append]
    exact ih.trans ((push_sublist absolute done s).append_left _)

theorem settled_foldl_push (h : Settled absolute done) : Settled absolute (xs.foldl (push absolute) done) := by
  induction xs generalizing done with
  | nil => exact h
  | cons s xs ih => exact ih (settled_push h)

theorem Settled.of_append {front : List Text} (h : Settled absolute (front ++ done)) : Settled absolute done := by
  induction front with
  | nil => exact h
  | cons s front ih => exact ih h.2

theorem foldl_push_of_settled (h : Settled absolute (xs.reverse ++ done)) :
    xs.foldl (push absolute) done = xs.reverse ++ done := by
  induction xs generalizing done with
  | nil => rfl
  | cons s xs ih =>
    rw [List.reverse_cons, List.append_assoc, List.singleton_append] at h ⊢
    rw [List.foldl_cons, push_of_settled h.of_append, ih h]

/-- What stands in front may be carried out on its own first: that settles it, and settled segments stay. -/
theorem carryOut_carryOut_append (absolute : Bool) (xs ys : List Text) :
    carryOut absolute [] (carryOut absolute [] xs ++ ys) = carryOut absolute [] (xs ++ ys) := by
  have hsettled : Settled absolute (xs.foldl (push absolute) []) := settled_foldl_push trivial
  have hagain : (xs.foldl (push absolute) []).reverse.foldl (push absolute) [] = xs.foldl (push absolute) [] := by
    rw [foldl_push_of_settled, List.reverse_reverse, List.append_nil]
    rwa [List.reverse_reverse, List.append_nil]
  simp only [carryOut_eq_foldl, List.foldl_append, hagain]

end

/-! ### Normal form -/

/-- The path with its steps upward carried out. -/
def normal (p : Path) : Path := { p with parts := carryOut p.isAbsolute [] p.parts }

theorem normalize_eq (t : Text) : normalize t = (ofText t).normal.toText := rfl

theorem WellFormed.normal {p : Path} (h : p.WellFormed) : p.normal.WellFormed := by
  refine ⟨h.root, fun s hs => h.parts s ?_⟩
  have hmem : s ∈ p.parts.foldl (push p.isAbsolute) [] := by simpa [Path.normal, carryOut_eq_foldl] using hs
  simpa using foldl_push_sublist.subset hmem

theorem normal_under (p : Path) {q : Path} (hq : q.isAbsolute = false) :
    (p.normal.under q).normal = (p.under q).normal := by
  simp only [under, hq, Bool.false_eq_true, if_false]
  simp only [normal, isAbsolute, carryOut_carryOut_append]

/-- The directory in front of a path may be put into normal form first. -/
theorem normalize_directory_append {t x : Text} (ht : IsDirectory t) (hx : x.head? ≠ some '/') :
    normalize ((ofText t).normal.directory ++ x) = normalize (t ++ x) := by
  have hwell := (wellFormed_ofText t).normal
  calc normalize ((ofText t).normal.directory ++ x)
      = ((ofText (ofText t).normal.directory).under (ofText x)).normal.toText := by
        rw [normalize_eq, ofText_append hwell.isDirectory_directory hx]
    _ = ((ofText t).normal.under (ofText x)).normal.toText := by rw [hwell.ofText_directory]
    _ = ((ofText t).under (ofText x)).normal.toText := by rw [normal_under _ (isAbsolute_ofText hx)]
    _ = normalize (t ++ x) := by rw [normalize_eq, ofText_append ht hx]

/-- A name that follows a directory stays the last segment. -/
theorem normalize_append_name {t l : Text} (ht : IsDirectory t) (hl : '/' ∉ l) (hpart : isPart l = true)
    (hup : l ≠ "..".text) : normalize (t ++ l) = (ofText t).normal.directory ++ l := by
  have hhead : l.head? ≠ some '/' := fun hslash => hl (List.mem_of_mem_head? hslash)
  have hseen : ofText (t ++ l) = ⟨(ofText t).root, (ofText t).parts ++ [l]⟩ := by
    rw [ofText_append ht hhead, under, isAbsolute_ofText hhead, parts_ofText_name hpart hl]
    rfl
  have hkept : (ofText (t ++ l)).normal = ⟨(ofText t).root, (ofText t).normal.parts ++ [l]⟩ := by
    simp [hseen, normal, isAbsolute, carryOut_eq_foldl, push, hup]
  rw [normalize_eq, hkept, toText_concat]
  rfl

end Path
end Stylebook
