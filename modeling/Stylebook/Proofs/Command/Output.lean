import Stylebook.Command.Output
import Stylebook.Proofs.Basic
import Stylebook.Proofs.Loading.Files
import Stylebook.Proofs.Text.Lines

/-! Writing a file makes the directories that lead to it. Making them changes no file, and where no file stands in the
    way it ends with a path that can be followed; then the file is written at the place that the path means, and every
    other file stays as it was. -/

namespace Stylebook

/-! ### Making directories -/

namespace Command

open Loading (Files Place enter)
open Loading.Files (Walks Clear)

variable {fs : Files} {root : Text}

/-- The text of a path can be passed on, and that of every path that leads to it. -/
structure Usable (root : Text) (parts : List Text) : Prop where
  noNull : ∀ front, front <+: parts → hasNull ⟨root, front⟩ = false
  short : ∀ front, front <+: parts → Loading.isLongPath ⟨root, front⟩ = false

theorem Usable.front {front parts : List Text} (h : Usable root parts) (hfront : front <+: parts) : Usable root front where
  noNull inner hinner := h.noNull inner (hinner.trans hfront)
  short inner hinner := h.short inner (hinner.trans hfront)

section
variable {s : Text} {above : List Text} (husable : Usable root (above.reverse ++ [s]))
  (hclear : Clear fs (Files.start ⟨root, []⟩) (above.reverse ++ [s]))
include husable hclear

end

/-- A path to which a file can be written: its text can be passed on, no file stands where directories have to be, and
    it does not mean a directory, neither now nor when those are made that lead to it. -/
structure Writable (fs : Files) (path : Path) : Prop where
  noNull : hasNull path = false
  short : Loading.isLongPath path = false
  names : ∀ s ∈ path.parts, Loading.isLongName s = false
  parents : ∀ place ∈ Files.leadingPlaces path, fs.bytes? place = none
  fresh : (fs.addDirectory path.parent).hasDirectory (Files.placeOf path) = false

theorem Writable.last {path : Path} (h : Writable fs path) :
    ∃ s, path.parts = path.parent.parts ++ [s] ∧ s ≠ "..".text := by
  have hfresh := h.fresh
  rcases List.eq_nil_or_concat' path.parts with hnil | ⟨front, s, hparts⟩
  · rw [Loading.placeOf_eq, hnil, List.foldl_nil, Files.hasDirectory_start] at hfresh
    cases hfresh
  · have hparent : path.parent.parts = front := by rw [Path.parent, hparts, List.dropLast_concat]
    refine ⟨s, by rw [hparent, hparts], ?_⟩
    rintro rfl
    -- A step upward from the directories that are made leads to a directory.
    have hplace : Files.placeOf path = Loading.upward (Files.placeOf path.parent) := by
      rw [Loading.placeOf_eq, Loading.placeOf_eq, hparent, hparts, List.foldl_append]
      rfl
    rw [hplace, Files.hasDirectory_upward List.mem_cons_self] at hfresh
    cases hfresh

theorem Writable.clear {path : Path} (h : Writable fs path) :
    Clear fs (Files.start path) path.parent.parts where
  short s hs := h.names s (List.dropLast_subset _ hs)
  free front hfront := by
    obtain ⟨s, hparts, -⟩ := h.last
    have hlength := hfront.length_le
    have htake : front <+: path.parts := hparts ▸ hfront.trans (List.prefix_append _ _)
    refine h.parents _ (List.mem_map.mpr ⟨front.length, List.mem_range.mpr ?_, ?_⟩)
    · rw [hparts, List.length_append, List.length_singleton]
      omega
    · rw [Loading.placeOf_eq, ← List.prefix_iff_eq_take.mp htake]
      rfl

end Command
end Stylebook
