import Stylebook.Sheet.Import
import Stylebook.Proofs.Path.Normal

/-! Relative imports compose: a path in an imported sheet means the same place as the path through the
    directory of the import, seen from the importing sheet. -/

namespace Stylebook
namespace Sheet

open Stylebook.Path

/-! ### Paths -/

theorem head?_ne_slash {path : Text} (h : isAbsolutePath path = false) : path.head? ≠ some '/' := by
  intro hslash
  cases path with
  | nil => cases hslash
  | cons c path =>
    cases hslash
    cases h

theorem head?_dropWhile_letters (u x : Text) :
    ((u ++ '/' :: x).dropWhile Text.isAnyCaseLetter).head? = (u.dropWhile Text.isAnyCaseLetter).head?.or (some '/') := by
  induction u with
  | nil => rfl
  | cons c u ih =>
    by_cases hc : Text.isAnyCaseLetter c = true
    · simpa [hc] using ih
    · simp [hc]

/-- What follows a slash has no say in whether a path is absolute. -/
theorem isAbsolutePath_append_slash (u x y : Text) :
    isAbsolutePath (u ++ '/' :: x) = isAbsolutePath (u ++ '/' :: y) := by
  cases u with
  | nil => rfl
  | cons c u =>
    by_cases hc : c = '/'
    · rw [hc]
      rfl
    · have hcons : ∀ t, isAbsolutePath (c :: t) =
          (Text.isAnyCaseLetter c && ((c :: t).dropWhile Text.isAnyCaseLetter).head? == some ':') := by
        intro t
        simp [isAbsolutePath]
      rw [List.cons_append, List.cons_append, hcons, hcons, ← List.cons_append, ← List.cons_append,
        head?_dropWhile_letters, head?_dropWhile_letters]

theorem isAbsolutePath_directory {d l x : Text} (hd : IsDirectory d) (hl : isAbsolutePath (d ++ l) = false)
    (hx : isAbsolutePath x = false) : isAbsolutePath (d ++ x) = false := by
  rcases hd with rfl | ⟨u, rfl⟩
  · exact hx
  · rw [List.append_assoc, List.singleton_append] at hl ⊢
    rw [isAbsolutePath_append_slash u x l, hl]

/-! ### Places -/

/-- A place that is no web address: it has no scheme, or no two slashes behind a colon. -/
def IsFilePath (base : Text) : Prop :=
  ∀ u, Url.parse [] base = .ok u → u.scheme = [] ∨ Text.holds "://".text base = false

theorem isFilePath_normalize (t : Text) : IsFilePath (normalize t) := by
  intro u _
  refine .inr (Bool.eq_false_iff.mpr fun hholds => ?_)
  exact (wellFormed_ofText t).normal.not_infix_toText (Text.infix_of_holds hholds)

/-- Seen from a file, a relative path leads on from the directory of the file. -/
theorem resolve_eq_ok_iff {base path r : Text} (hne : base ≠ []) (hfile : IsFilePath base)
    (hpath : isAbsolutePath path = false) :
    resolve path (some base) = .ok r ↔
      (∃ u, Url.parse [] base = .ok u) ∧ r = normalize ((Text.cutAfterLast '/' base).1 ++ path) := by
  have hnot : (isAbsolutePath path || base.isEmpty) = false := by simp [hpath, hne]
  simp only [resolve, hnot, Bool.false_eq_true, if_false]
  cases hparse : Url.parse [] base with
  | error e => simp
  | ok u =>
    have hweb : (!u.scheme.isEmpty && Text.holds "://".text base) = false := by
      rcases hfile u hparse with hscheme | hholds
      · simp [hscheme]
      · simp [hholds]
    simp [hweb, eq_comm]

/-- Relative imports compose: where `path` leads from the file `base` to a sheet and `inner` leads on from
    there, `inner` behind the directory of `path` leads from `base` to the same place. -/
theorem resolve_resolve {base path inner r s : Text} (hbase : base ≠ []) (hfile : IsFilePath base)
    (hpath : isAbsolutePath path = false) (hinner : isAbsolutePath inner = false)
    (hname : (Text.cutAfterLast '/' path).2 ∉ ["".text, ".".text, "..".text])
    (hr : resolve path (some base) = .ok r) (hs : resolve inner (some r) = .ok s) :
    resolve ((Text.cutAfterLast '/' path).1 ++ inner) (some base) = .ok s := by
  obtain ⟨d, b, rfl, hd, hb⟩ := exists_directory_append base
  obtain ⟨e, l, rfl, he, hl⟩ := exists_directory_append path
  rw [cutAfterLast_append he hl] at hname ⊢
  simp only [List.mem_cons, List.not_mem_nil, or_false, not_or] at hname
  obtain ⟨hempty, hdot, hup⟩ := hname
  have hpart : isPart l = true := by simpa [isPart, String.text] using ⟨hempty, hdot⟩
  rw [resolve_eq_ok_iff hbase hfile hpath, cutAfterLast_append hd hb, ← List.append_assoc] at hr
  obtain ⟨hparse, hr⟩ := hr
  have hrfile : IsFilePath r := hr ▸ isFilePath_normalize _
  rw [normalize_append_name (hd.append he) hl hpart hup] at hr
  have hrne : r ≠ [] := by
    intro hnil
    rw [hr, List.append_eq_nil_iff] at hnil
    exact hempty hnil.2
  rw [resolve_eq_ok_iff hrne hrfile hinner, hr,
    cutAfterLast_append (wellFormed_ofText (d ++ e)).normal.isDirectory_directory hl,
    normalize_directory_append (hd.append he) (head?_ne_slash hinner)] at hs
  rw [resolve_eq_ok_iff hbase hfile (isAbsolutePath_directory he hpath hinner), cutAfterLast_append hd hb,
    ← List.append_assoc]
  exact ⟨hparse, hs.2⟩

theorem resolve_resolve_vendor :
    IsFilePath "css//main.css".text ∧
      resolve "../../vendor/./reset.css".text (some "css//main.css".text) = .ok "../vendor/reset.css".text ∧
      resolve "../fonts.css".text (some "../vendor/reset.css".text) = .ok "../fonts.css".text ∧
      resolve "../../vendor/./../fonts.css".text (some "css//main.css".text) = .ok "../fonts.css".text := by
  have hfile : IsFilePath "css//main.css".text := fun u _ => .inr (by decide)
  have hr : resolve "../../vendor/./reset.css".text (some "css//main.css".text) = .ok "../vendor/reset.css".text := by
    decide +kernel
  have hs : resolve "../fonts.css".text (some "../vendor/reset.css".text) = .ok "../fonts.css".text := by decide +kernel
  have hs' := resolve_resolve (by decide) hfile (by decide) (by decide) (by decide) hr hs
  exact ⟨hfile, hr, hs, hs'⟩

end Sheet
end Stylebook
