import Stylebook.Text.CaseData
import Stylebook.Text.Surrogate
import Stylebook.Text.Word

/-! Lower-casing, and comparison of ASCII words without regard to case. -/

namespace Stylebook
namespace Text

/-- The small form of one character, which is two characters for the dotted capital I. A capital sigma
    is left to `lower`. -/
def lowerChar (c : Char) : Text :=
  if c.toNat < 128 then [c.toLower]
  else if c.toNat == 0x130 then ['i', '\u0307']
  else
    let small := capitalRuns.findSome? fun (first, last, step, image) =>
      if first ≤ c.toNat && c.toNat ≤ last && (c.toNat - first) % step == 0 then
        some (image + (c.toNat - first))
      else none
    match small with
    | some n => [charOf n]
    | none => [c]

/-- Whether a cased character stands first in `t`, ignorable characters apart. -/
def startsCased (t : Text) : Bool :=
  match t.dropWhile (inRanges caseIgnorableRanges) with
  | [] => false
  | c :: _ => inRanges casedRanges c

/-- `before` is the reversed text in front: a capital sigma that ends a word becomes the final sigma. -/
def lowerAfter (before : Text) : Text → Text
  | [] => []
  | c :: r =>
    let small :=
      if c == 'Σ' then [if startsCased before && !startsCased r then 'ς' else 'σ'] else lowerChar c
    small ++ lowerAfter (c :: before) r

def lower (t : Text) : Text := lowerAfter [] t

/-- Lower-cases code units. Halves of surrogate pairs stay and part the words around them. -/
def lowerUnits (us : Units) : Units :=
  let step (n : Nat) (acc : Text × Units) : Text × Units :=
    if isSurrogate n then ([], n :: (toUnits (lower acc.1) ++ acc.2)) else (charOf n :: acc.1, acc.2)
  let (front, rest) := us.foldr step ([], [])
  toUnits (lower front) ++ rest

/-- Whether `c` is the small ASCII letter `letter` up to case. Dotted and dotless i count as `i`, long s
    as `s` and the Kelvin sign as `k`. -/
def isLetterAnyCase (letter c : Char) : Bool :=
  c == letter || c == letter.toUpper ||
    (letter == 'i' && (c == 'İ' || c == 'ı')) || (letter == 's' && c == 'ſ') || (letter == 'k' && c == '\u212a')

/-- Whether `c` is an ASCII letter up to case, in the sense of `isLetterAnyCase`. -/
def isAnyCaseLetter (c : Char) : Bool :=
  isLetter c || c == 'İ' || c == 'ı' || c == 'ſ' || c == '\u212a'

/-- The rest of the text after the small ASCII word `w`, written in any case. -/
def afterAnyCase? : Text → Text → Option Text
  | [], t => some t
  | _ :: _, [] => none
  | l :: w, c :: t => if isLetterAnyCase l c then afterAnyCase? w t else none

end Text
end Stylebook
