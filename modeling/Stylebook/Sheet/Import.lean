import Stylebook.Path
import Stylebook.Text.Case
import Stylebook.Url.Basic

/-! The import directives of a style-sheet and the places they lead to. -/

namespace Stylebook
namespace Sheet

/-! ### Places -/

/-- Whether a path begins with a slash or with letters and a colon. -/
def isAbsolutePath (path : Text) : Bool :=
  match path with
  | '/' :: _ => true
  | c :: _ => Text.isAnyCaseLetter c && (path.dropWhile Text.isAnyCaseLetter).head? == some ':'
  | [] => false

/-- The place that `path` means in a sheet from `base`: an absolute path stays as it is, a base with a
    scheme and two slashes is a web address, and any other base is a file path. -/
def resolve (path : Text) (base : Option Text) : Except Url.Error Text :=
  match base with
  | none => .ok path
  | some base =>
    if isAbsolutePath path || base.isEmpty then .ok path
    else
      match Url.parse [] base with
      | .error e => .error e
      | .ok u =>
        if !u.scheme.isEmpty && Text.holds "://".text base then Url.join base path
        else .ok (Path.normalize ((Text.cutAfterLast '/' base).1 ++ path))

/-! ### Directives -/

/-- An import as it is written and the place it leads to. -/
structure Import where
  path : Text
  url : Text
  deriving DecidableEq, Repr

/-- Whether a directive may end before this text: at a blank, at a semicolon or at the end. -/
def mayEnd (t : Text) : Bool :=
  match t with
  | [] => true
  | c :: _ => Text.isBlank c || c == ';'

/-- What follows a path: blanks and a closing parenthesis may stand there, and then the directive has to
    end. Without the parenthesis the last blank is enough of an end. -/
def directiveEnd? (t : Text) : Option Text :=
  match Text.skipBlanks t with
  | ')' :: r => if mayEnd r then some r else if mayEnd t then some t else none
  | r => if mayEnd r then some r else if mayEnd t then some t else none

def isQuoteMark (c : Char) : Bool := c == '"' || c == '\''

def isBarePathChar (c : Char) : Bool :=
  !(isQuoteMark c || c == '(' || c == ')' || c == ';' || Text.isBlank c)

/-- A path in quotes, which has no quotes inside, or a bare one, and what follows it. -/
def importPath? (t : Text) : Option (Text × Text) :=
  match t with
  | [] => none
  | q :: r =>
    if isQuoteMark q then
      match r.takeWhile (!isQuoteMark ·), r.dropWhile (!isQuoteMark ·) with
      | [], _ => none
      | path, e :: rest => if e = q then some (path, rest) else none
      | _, [] => none
    else
      match t.takeWhile isBarePathChar with
      | [] => none
      | path => some (path, t.dropWhile isBarePathChar)

/-- The path of a directive behind its keyword, and what follows the directive. -/
def directive? (t : Text) : Option (Text × Text) :=
  match t with
  | [] => none
  | c :: _ =>
    if Text.isBlank c then
      let r := Text.skipBlanks t
      let start := match Text.after? "url(".text r with
        | some inside => Text.skipBlanks inside
        | none => r
      match importPath? start with
      | none => none
      | some (path, rest) => (directiveEnd? rest).map fun rest => (path, rest)
    else none

theorem length_directiveEnd? {t r : Text} (h : directiveEnd? t = some r) : r.length ≤ t.length := by
  have h0 := Text.length_dropWhile_le Text.isBlank t
  unfold directiveEnd? at h
  split at h
  · next s hs =>
    simp only [Text.skipBlanks, Text.trimLeftBy] at hs
    simp only [hs, List.length_cons] at h0
    split at h
    · cases h
      omega
    · split at h
      · cases h
        exact Nat.le_refl _
      · cases h
  · split at h
    · cases h
      exact h0
    · split at h
      · cases h
        exact Nat.le_refl _
      · cases h

theorem length_importPath? {t path r : Text} (h : importPath? t = some (path, r)) : r.length ≤ t.length := by
  unfold importPath? at h
  split at h
  · cases h
  · next q s =>
    have h1 := Text.length_dropWhile_le (!isQuoteMark ·) s
    split at h
    · split at h
      · cases h
      · next heq _ =>
        split at h
        · cases h
          simp only [heq, List.length_cons] at h1 ⊢
          omega
        · cases h
      · cases h
    · split at h
      · cases h
      · cases h
        exact Text.length_dropWhile_le isBarePathChar _

theorem length_directive? {t path r : Text} (h : directive? t = some (path, r)) : r.length ≤ t.length := by
  have h0 := Text.length_dropWhile_le Text.isBlank t
  unfold directive? at h
  split at h
  · cases h
  · next c s =>
    split at h
    · dsimp only at h
      split at h
      · cases h
      · next path' rest hp =>
        simp only [Option.map_eq_some_iff, Prod.mk.injEq] at h
        obtain ⟨r', hr, -, rfl⟩ := h
        have h1 := length_directiveEnd? hr
        have h2 := length_importPath? hp
        split at h2
        · next inside ha =>
          have h3 := Text.length_of_after? ha
          have h4 := Text.length_dropWhile_le Text.isBlank inside
          simp only [Text.skipBlanks, Text.trimLeftBy] at h2 h3
          omega
        · simp only [Text.skipBlanks, Text.trimLeftBy] at h2
          omega
    · cases h

/-- The paths of all import directives in the order of the text. -/
def importPaths (t : Text) : List Text :=
  match t with
  | [] => []
  | c :: r =>
    match _h : Text.after? "@import".text (c :: r) with
    | none => importPaths r
    | some rest =>
      match _h' : directive? rest with
      | some (path, rest) => path :: importPaths rest
      | none => importPaths r
termination_by t.length
decreasing_by
  · simp
  · have h1 := Text.length_of_after? _h
    have h2 := length_directive? _h'
    simp only [String.text, String.reduceToList, List.length_cons] at h1 ⊢
    omega
  · simp

/-- The imports of a sheet from `url`. -/
def imports (t : Text) (url : Option Text) : Except Url.Error (List Import) :=
  (importPaths t).mapM fun path => (resolve path url).map fun place => ⟨path, place⟩

end Sheet
end Stylebook
