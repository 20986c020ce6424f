import Stylebook.Doc.Comment

/-! The documentation comments of a style-sheet. A block is opened by a slash, two stars and blanks, and is
    closed by the first star and slash with a blank before them that leave it some content. -/

namespace Stylebook
namespace Sheet

/-- What follows a blank and a closing mark. -/
def afterMark? : Text → Option Text
  | c :: '*' :: '/' :: r => if Text.isBlank c then some r else none
  | _ => none

/-- The text up to and including the first closing mark that has a blank before it, and what follows. -/
def closing? : Text → Option (Text × Text)
  | [] => none
  | c :: r =>
    match afterMark? (c :: r) with
    | some rest => some ([c, '*', '/'], rest)
    | none => (closing? r).map fun (inside, rest) => (c :: inside, rest)

/-- The block behind its opening mark, and what follows it. The content begins with the first character that
    is not blank; if no closing mark follows such a block, three blanks before a closing mark will do. -/
def blockTail? (t : Text) : Option (Text × Text) :=
  let blanks := t.takeWhile Text.isBlank
  match Text.skipBlanks t with
  | [] => none
  | c :: r =>
    if blanks.isEmpty then none
    else
      match closing? r with
      | some (inside, rest) => some (blanks ++ c :: inside, rest)
      | none =>
        match Text.after? "*/".text (c :: r) with
        | some rest => if 3 ≤ blanks.length then some (blanks ++ "*/".text, rest) else none
        | none => none

theorem length_afterMark? {t r : Text} (h : afterMark? t = some r) : r.length ≤ t.length := by
  unfold afterMark? at h
  split at h
  · split at h
    · simp only [Option.some.injEq] at h
      subst h
      simp only [List.length_cons]
      omega
    · simp at h
  · simp at h

theorem length_closing? {t a r : Text} (h : closing? t = some (a, r)) : r.length ≤ t.length := by
  induction t generalizing a with
  | nil => simp [closing?] at h
  | cons c t ih =>
    rw [closing?] at h
    split at h
    · next rest hrest =>
      simp only [Option.some.injEq, Prod.mk.injEq] at h
      obtain ⟨-, rfl⟩ := h
      exact length_afterMark? hrest
    · simp only [Option.map_eq_some_iff, Prod.mk.injEq, Prod.exists] at h
      obtain ⟨b, r', hb, -, rfl⟩ := h
      exact Nat.le_succ_of_le (ih hb)

theorem length_blockTail? {t a r : Text} (h : blockTail? t = some (a, r)) : r.length ≤ t.length := by
  have h0 := Text.length_dropWhile_le Text.isBlank t
  unfold blockTail? at h
  dsimp only at h
  split at h
  · cases h
  · next c s hs =>
    simp only [Text.skipBlanks, Text.trimLeftBy] at hs
    simp only [hs, List.length_cons] at h0
    split at h
    · cases h
    · split at h
      · next hc =>
        simp only [Option.some.injEq, Prod.mk.injEq] at h
        obtain ⟨-, rfl⟩ := h
        have := length_closing? hc
        omega
      · split at h
        · next ha =>
          have h1 := Text.length_of_after? ha
          simp only [List.length_cons] at h1
          split at h
          · simp only [Option.some.injEq, Prod.mk.injEq] at h
            obtain ⟨-, rfl⟩ := h
            omega
          · simp at h
        · simp at h

/-- The blocks of a sheet in the order of the text. -/
def blocks (t : Text) : List Text :=
  match t with
  | [] => []
  | c :: r =>
    match _h : Text.after? "/**".text (c :: r) with
    | none => blocks r
    | some rest =>
      match _h' : blockTail? rest with
      | some (tail, rest) => ("/**".text ++ tail) :: blocks rest
      | none => blocks r
termination_by t.length
decreasing_by
  · simp
  · have h1 := Text.length_of_after? _h
    have h2 := length_blockTail? _h'
    simp only [String.text, String.reduceToList, List.length_cons] at h1 ⊢
    omega
  · simp

/-- A documentation comment: its normal form and its tags. -/
structure Comment where
  content : Text
  tags : List Doc.Tag
  deriving DecidableEq, Repr

def Comment.ofBlock (table : Doc.TagTable) (block : Text) : Comment :=
  let content := Doc.normalize block
  ⟨content, Doc.parse table content⟩

/-- The documentation comments of a sheet. -/
def comments (table : Doc.TagTable) (t : Text) : List Comment := (blocks t).map (Comment.ofBlock table)

end Sheet
end Stylebook
