import Mathlib.Data.List.Basic
import Stylebook.Loading.Files

/-! Following paths. A path that leads over directories only is followed step by step to the place that it means, also
    when more directories and files are there; where no file is in the way, something can only be missing. -/

namespace Stylebook

/-! ### Following a path -/

namespace Loading

/-- The place one segment further. -/
def enter (place : Place) (s : Text) : Place := if s = "..".text then upward place else place ++ [s]

theorem placeOf_eq (p : Path) : Files.placeOf p = p.parts.foldl enter (Files.start p) := rfl

namespace Files

variable {fs fs' : Files} {place : Place}

/-- Segments that can be followed over directories only. -/
def Walks (fs : Files) (place : Place) : List Text → Prop
  | [] => True
  | s :: rest =>
    (s = "..".text ∨
      isLongName s = false ∧ fs.bytes? (place ++ [s]) = none ∧ fs.hasDirectory (place ++ [s]) = true) ∧
    Walks fs (enter place s) rest

/-- Directories stay when there are more of them. -/
theorem Walks.mono {parts : List Text} (h : Walks fs place parts) (hbytes : ∀ p, fs.hasDirectory p = true → fs'.bytes? p = fs.bytes? p)
    (hdir : ∀ p, fs.hasDirectory p = true → fs'.hasDirectory p = true) : Walks fs' place parts := by
  induction parts generalizing place with
  | nil => trivial
  | cons s parts ih =>
    obtain ⟨hstep, hrest⟩ := h
    refine ⟨?_, ih hrest⟩
    rcases hstep with hup | ⟨hshort, hnone, hthere⟩
    · exact .inl hup
    · exact .inr ⟨hshort, (hbytes _ hthere).trans hnone, hdir _ hthere⟩

/-- Segments that have no file in their way. -/
structure Clear (fs : Files) (place : Place) (parts : List Text) : Prop where
  short : ∀ s ∈ parts, isLongName s = false
  free : ∀ front, front <+: parts → fs.bytes? (front.foldl enter place) = none

theorem Clear.front {front parts : List Text} (h : Clear fs place parts) (hfront : front <+: parts) :
    Clear fs place front where
  short s hs := h.short s (hfront.subset hs)
  free inner hinner := h.free inner (hinner.trans hfront)

theorem Clear.whole {parts : List Text} (h : Clear fs place parts) : fs.bytes? (parts.foldl enter place) = none :=
  h.free parts List.prefix_rfl

theorem Clear.rest {s : Text} {parts : List Text} (h : Clear fs place (s :: parts)) :
    Clear fs (enter place s) parts where
  short t ht := h.short t (List.mem_cons_of_mem s ht)
  free front hfront := h.free (s :: front) ((List.prefix_cons_inj s).mpr hfront)

theorem hasDirectory_mono (hentries : fs'.entries = fs.entries) (hmore : ∀ d ∈ fs.directories, d ∈ fs'.directories)
    {p : Place} (h : fs.hasDirectory p = true) : fs'.hasDirectory p = true := by
  simp only [hasDirectory, Bool.or_eq_true, List.any_eq_true, hentries] at h ⊢
  rcases h with (h | ⟨d, hd, hbegins⟩) | h
  · exact .inl (.inl h)
  · exact .inl (.inr ⟨d, hmore d hd, hbegins⟩)
  · exact .inr h

theorem Walks.makeDirectory {parts : List Text} (h : Walks fs place parts) (p : Place) :
    Walks (fs.makeDirectory p) place parts :=
  h.mono (fun _ _ => rfl) fun _ => @hasDirectory_mono fs (fs.makeDirectory p) rfl (fun _ => List.mem_cons_of_mem p) _

/-! ### Directories and files -/

/-- A step upward leads from a directory to a directory. -/
theorem hasDirectory_upward {p : Place} (h : p ∈ fs.directories) : fs.hasDirectory (upward p) = true := by
  unfold upward
  split
  · rename_i hroot
    rw [beq_iff_eq.mp hroot]
    simp [hasDirectory]
  · split
    · rename_i hup
      have hmore : isUpward (p ++ ["..".text]) = true := by
        rw [isUpward, List.all_append, ← isUpward, hup]
        rfl
      simp only [hasDirectory, hmore, Bool.true_or]
    · have hany : fs.directories.any (fun d => p.dropLast.isPrefixOf d) = true :=
        List.any_eq_true.mpr ⟨p, h, List.isPrefixOf_iff_prefix.mpr (List.dropLast_prefix p)⟩
      simp only [hasDirectory, hany, Bool.or_true, Bool.true_or]

theorem hasDirectory_start (fs : Files) (path : Path) : fs.hasDirectory (start path) = true := by
  unfold start
  split
  · simp [hasDirectory]
  · simp [hasDirectory, isUpward]

end Files
end Loading

end Stylebook
