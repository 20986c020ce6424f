import Stylebook.Loading.Basic
import Stylebook.Proofs.Path.Normal
import Stylebook.Proofs.Url.Percent

/-! Addresses of files. The address of an absolute path is its scheme, in any letter case, two slashes and the encoded
    path. It is read as this path, however special the characters of the path are in addresses and whatever directory
    relative paths are seen from. -/

namespace Stylebook
namespace Url

/-! ### The scheme -/

theorem isLetter_of_toLower {c : Char} (h : Text.isLetter c.toLower = true) : Text.isLetter c = true := by
  unfold Char.toLower at h
  split at h
  · rename_i hcapital
    have hrange : 'A' ≤ c ∧ c ≤ 'Z' := hcapital
    simp [Text.isLetter, hrange.1, hrange.2]
  · exact h

/-- A word of letters in any case, as a scheme is written. -/
theorem isLetter_of_map_toLower {scheme : Text} {word : Text} (h : scheme.map Char.toLower = word)
    (hword : ∀ c ∈ word, Text.isLetter c = true) : ∀ c ∈ scheme, Text.isLetter c = true := by
  intro c hc
  exact isLetter_of_toLower (hword _ (h ▸ List.mem_map_of_mem hc))

theorem scheme?_append {scheme : Text} (hne : scheme ≠ []) (hletters : ∀ c ∈ scheme, Text.isLetter c = true) (r : Text) :
    scheme? (scheme ++ ':' :: r) = some (scheme.map Char.toLower, r) := by
  have hinside : ∀ c ∈ scheme, isSchemeChar c = true := fun c hc => by simp [isSchemeChar, hletters c hc]
  have hboundary : ∀ c ∈ (':' :: r).head?, isSchemeChar c = false := by
    rintro _ ⟨⟩
    rfl
  have htake := Text.takeWhile_append_of_head hinside hboundary
  have hdrop : (scheme ++ ':' :: r).dropWhile isSchemeChar = ':' :: r := Text.trimLeftBy_append hinside hboundary
  obtain ⟨c, rest, rfl⟩ := List.exists_cons_of_ne_nil hne
  simp only [List.cons_append] at htake hdrop ⊢
  simp only [scheme?, hletters c List.mem_cons_self, if_true, hdrop, htake]

/-! ### The parts of an address -/

theorem clean_eq_self {t : Text} (h : ∀ c ∈ t, 32 < c.toNat) : clean t = t := by
  have hfront : t.dropWhile (·.toNat ≤ 32) = t :=
    Text.trimLeftBy_of_head fun c hc => by simpa using h c (List.mem_of_mem_head? hc)
  rw [clean, hfront, List.filter_eq_self]
  intro c hc
  have hvisible : ∀ d : Char, d.toNat ≤ 32 → c ≠ d := by
    rintro _ hd rfl
    exact absurd (h c hc) (Nat.not_lt_of_le hd)
  simp [hvisible '\t' (by decide), hvisible '\r' (by decide), hvisible '\n' (by decide)]

theorem splitAt_of_not_mem {c : Char} {t : Text} (h : c ∉ t) : splitAt c t = (t, []) := by
  have hall : ∀ d ∈ t, (d != c) = true := fun d hd => bne_iff_ne.mpr fun heq => h (heq ▸ hd)
  rw [splitAt, List.takeWhile_eq_self_iff.mpr hall, List.dropWhile_eq_nil_iff.mpr hall]
  rfl

/-- Characters that divide an address are none of encoded text. -/
theorem not_mem_percentEncode {c : Char} (h : isUnescaped c = false) (hc : c ≠ '%') (capital : Bool) (t : Text) :
    c ∉ percentEncode capital t := by
  intro hmem
  rcases mem_percentEncode hmem with hunescaped | heq
  · rw [h] at hunescaped
    cases hunescaped
  · exact hc heq

/-- The address of a file has its scheme and its path and nothing else. -/
theorem parse_address {scheme : Text} (hscheme : scheme.map Char.toLower = "file".text) (capital : Bool) (t : Text) :
    parse [] (scheme ++ "://".text ++ percentEncode capital ('/' :: t)) =
      .ok { scheme := "file".text, host := [], path := percentEncode capital ('/' :: t), params := [], query := [],
            fragment := [] } := by
  have hletters := isLetter_of_map_toLower hscheme (List.all_eq_true.mp (by decide))
  have hne : scheme ≠ [] := by
    rintro rfl
    cases hscheme
  have hurl : scheme ++ "://".text ++ percentEncode capital ('/' :: t) =
      scheme ++ ':' :: '/' :: '/' :: percentEncode capital ('/' :: t) := by simp [String.text]
  have hclean : clean (scheme ++ "://".text ++ percentEncode capital ('/' :: t)) =
      scheme ++ "://".text ++ percentEncode capital ('/' :: t) := by
    refine clean_eq_self fun c hc => ?_
    rcases List.mem_append.mp hc with hc | hc
    · rcases List.mem_append.mp hc with hc | hc
      · have hunescaped : isUnescaped c = true := by simp [isUnescaped, hletters c hc]
        exact (unescaped_range hunescaped).1
      · have hsigns : "://".text.all (32 < ·.toNat) = true := by decide
        simpa using List.all_eq_true.mp hsigns c hc
    · exact (percentEncode_range c hc).1
  have hhost : takeHost ('/' :: '/' :: percentEncode capital ('/' :: t)) = .ok ([], percentEncode capital ('/' :: t)) := by
    rw [percentEncode_cons_of_unescaped (by decide)]
    rfl
  have hfragment : splitAt '#' (percentEncode capital ('/' :: t)) = (percentEncode capital ('/' :: t), []) :=
    splitAt_of_not_mem (not_mem_percentEncode (by decide) (by decide) capital _)
  have hquery : splitAt '?' (percentEncode capital ('/' :: t)) = (percentEncode capital ('/' :: t), []) :=
    splitAt_of_not_mem (not_mem_percentEncode (by decide) (by decide) capital _)
  have hparams : paramSchemes.contains "file".text = false := by decide
  rw [parse, hclean, hurl, scheme?_append hne hletters, hscheme]
  simp only [Option.getD_some, hhost, bind, Except.bind, hfragment, hquery, checkHost, List.any_nil, hparams]
  rfl

end Url

namespace Loading

/-- The segments of an absolute path. They may lead upward, but none of them is empty or a single dot. -/
def Segments (segments : List Text) : Prop := ∀ s ∈ segments, s ≠ [] ∧ s ≠ ['.'] ∧ '/' ∉ s

theorem Segments.wellFormed {segments : List Text} (h : Segments segments) :
    Path.WellFormed ⟨"/".text, segments⟩ where
  root := .inr (.inl rfl)
  parts s hs := by
    obtain ⟨hne, hdot, hslash⟩ := h s hs
    exact ⟨by simp [Path.isPart, hne, hdot], hslash⟩

/-- The text of an absolute path. -/
def absoluteText (segments : List Text) : Text := '/' :: Text.join ['/'] segments

/-- The address of an absolute path, with capital or small letters in its escapes. -/
def address (scheme : Text) (capital : Bool) (segments : List Text) : Text :=
  scheme ++ "://".text ++ Url.percentEncode capital (absoluteText segments)

theorem Segments.ofText_absoluteText {segments : List Text} (h : Segments segments) :
    Path.ofText (absoluteText segments) = ⟨"/".text, segments⟩ := h.wellFormed.ofText_toText

theorem take_address {scheme : Text} (hscheme : scheme.map Char.toLower = "file".text) (capital : Bool)
    (segments : List Text) : ((address scheme capital segments).take 5).map Char.toLower = "file:".text := by
  have hlength : scheme.length = 4 := by
    rw [← List.length_map (f := Char.toLower), hscheme]
    rfl
  have htake : (address scheme capital segments).take 5 = scheme ++ [':'] := by
    rw [address, List.append_assoc, show 5 = scheme.length + 1 by rw [hlength], List.take_length_add_append]
    rfl
  rw [htake, List.map_append, hscheme]
  rfl

/-- The address of an absolute path, with its scheme in any letter case, means this path, whatever directory relative
    paths are seen from. -/
theorem filePath_address (o : Options) {scheme : Text} (hscheme : scheme.map Char.toLower = "file".text)
    {segments : List Text} (h : Segments segments) (capital : Bool) :
    filePath o (address scheme capital segments) = .ok (Path.ofText (absoluteText segments)) ∧
      (Path.ofText (absoluteText segments)).toText = absoluteText segments := by
  have hpath := h.ofText_absoluteText
  refine ⟨?_, by rw [hpath]; rfl⟩
  have hparse := Url.parse_address hscheme capital (Text.join ['/'] segments)
  rw [filePath, if_pos (take_address hscheme capital segments), address, absoluteText, hparse]
  simp only [bind, Except.bind, pure, Except.pure, Url.percentDecode_percentEncode]
  rw [← absoluteText, hpath]
  cases o.baseDir with
  | none => rfl
  | some base => rfl

/-- Segments with signs that divide addresses, an escape, a step upward and characters of two and four bytes. -/
def oddSegments : List Text := ["a b?".text, "..".text, "100%25#[;".text, "é😀".text]

theorem filePath_address_odd : "FiLe".text.map Char.toLower = "file".text ∧ Segments oddSegments ∧
    address "FiLe".text true oddSegments = "FiLe:///a%20b%3F/../100%2525%23%5B%3B/%C3%A9%F0%9F%98%80".text ∧
    filePath { baseDir := some ⟨[], ["css".text]⟩ } (address "FiLe".text true oddSegments) =
        .ok (Path.ofText (absoluteText oddSegments)) ∧
      (Path.ofText (absoluteText oddSegments)).toText = absoluteText oddSegments := by
  have hscheme : "FiLe".text.map Char.toLower = "file".text := by decide
  have hsegments : Segments oddSegments := by
    unfold Segments
    decide
  exact ⟨hscheme, hsegments, by decide +kernel, filePath_address _ hscheme hsegments true⟩

end Loading
end Stylebook
