import Stylebook.Text.Basic

/-! Floating-point numbers of 64 bits as exact values. Decimal text is read to the nearest such number,
    ties going to the even mantissa, and a number is written with the fewest digits that read back. -/

namespace Stylebook

/-- A finite number is `mantissa * 2 ^ exponent` with a sign; zero has exponent zero. -/
inductive Binary64
  | nan
  | infinite (negative : Bool)
  | finite (negative : Bool) (mantissa : Nat) (exponent : Int)
  deriving DecidableEq, Repr

namespace Binary64

/-! ### Rounding -/

/-- The integer nearest to `num / den`; a tie goes to the even one. -/
def roundDiv (num den : Nat) : Nat :=
  let q := num / den
  let r := num % den
  if 2 * r < den then q else if den < 2 * r then q + 1 else if q % 2 = 0 then q else q + 1

/-- The pair `num * 2 ^ e` over `den`, the power going to the side that keeps both natural. -/
def scaleBinary (num den : Nat) (e : Int) : Nat × Nat := (num * Nat.pow 2 e.toNat, den * Nat.pow 2 (-e).toNat)

/-- The pair `num * 10 ^ e` over `den`. -/
def scaleDecimal (num den : Nat) (e : Int) : Nat × Nat := (num * Nat.pow 10 e.toNat, den * Nat.pow 10 (-e).toNat)

/-- The largest `k` with `2 ^ k ≤ num / den`, for positive `num` and `den`. -/
def binaryMagnitude (num den : Nat) : Int :=
  let k : Int := Int.ofNat num.log2 - Int.ofNat den.log2
  let (n, d) := scaleBinary num den (-k)
  if d ≤ n then k else k - 1

/-- The number nearest to `num / den`. Fifty-three binary digits are kept, fewer below `2 ^ -1022`. -/
def ofRatio (negative : Bool) (num den : Nat) : Binary64 :=
  if num = 0 then .finite negative 0 0
  else
    let e := max (binaryMagnitude num den - 52) (-1074)
    let (n, d) := scaleBinary num den (-e)
    let m := roundDiv n d
    let (m, e) := if m = Nat.pow 2 53 then (Nat.pow 2 52, e + 1) else (m, e)
    if m = 0 then .finite negative 0 0
    else if 971 < e then .infinite negative
    else .finite negative m e

/-- The number nearest to `digits * 10 ^ e`. Beyond four hundred places there is only infinity and zero. -/
def ofDecimal (negative : Bool) (digits : Nat) (e : Int) : Binary64 :=
  if digits = 0 then .finite negative 0 0
  else if 400 < e then .infinite negative
  else if e + (Text.decimal digits).length < -400 then .finite negative 0 0
  else
    let (n, d) := scaleDecimal digits 1 e
    ofRatio negative n d

/-- The number nearest to an integer, unless the integer lies beyond the largest number. -/
def ofInt? (n : Int) : Option Binary64 :=
  match ofRatio (n < 0) n.natAbs 1 with
  | .finite s m e => some (.finite s m e)
  | _ => none

/-! ### Questions -/

/-- Whether the number is zero or negative; not a number is neither. -/
def isNotPositive : Binary64 → Bool
  | .nan => false
  | .infinite negative => negative
  | .finite negative m _ => negative || m = 0

/-- The integer part of a finite number. -/
def truncate? : Binary64 → Option Int
  | .finite negative m e =>
    let (n, d) := scaleBinary m 1 e
    some (if negative then -Int.ofNat (n / d) else Int.ofNat (n / d))
  | _ => none

/-- Whether the number equals the integer `n`. -/
def isInt (n : Int) : Binary64 → Bool
  | .finite negative m e =>
    let (p, q) := scaleBinary m 1 e
    (if negative then -Int.ofNat p else Int.ofNat p) == n * Int.ofNat q
  | _ => false

/-! ### Arithmetic -/

def negate : Binary64 → Binary64
  | .nan => .nan
  | .infinite negative => .infinite (!negative)
  | .finite negative m e => .finite (!negative) m e

/-- The product of two numbers, rounded once. -/
def mul : Binary64 → Binary64 → Binary64
  | .finite s m e, .finite t n f =>
    let (p, q) := scaleBinary (m * n) 1 (e + f)
    ofRatio (s != t) p q
  | .infinite s, .infinite t => .infinite (s != t)
  | .infinite s, .finite t n _ => if n = 0 then .nan else .infinite (s != t)
  | .finite s m _, .infinite t => if m = 0 then .nan else .infinite (s != t)
  | _, _ => .nan

/-- The sum of two numbers, rounded once. Opposite numbers have the sum zero without a sign. -/
def add : Binary64 → Binary64 → Binary64
  | .finite s m e, .finite t n f =>
    let least := min e f
    let part (negative : Bool) (m : Nat) (e : Int) : Int :=
      let p := Int.ofNat (m * Nat.pow 2 (e - least).toNat)
      if negative then -p else p
    let sum := part s m e + part t n f
    let (p, q) := scaleBinary sum.natAbs 1 least
    ofRatio (if sum = 0 then s && t else sum < 0) p q
  | .infinite s, .infinite t => if s = t then .infinite s else .nan
  | .infinite s, .finite _ _ _ => .infinite s
  | .finite _ _ _, .infinite t => .infinite t
  | _, _ => .nan

/-! ### Shortest text -/

/-- The largest `k` with `10 ^ k ≤ m * 2 ^ e`, for positive `m`: an estimate, corrected by one either way. -/
def decimalMagnitude (m : Nat) (e : Int) : Int :=
  let reaches (k : Int) : Bool :=
    let (n, d) := scaleBinary m 1 e
    let (n, d) := scaleDecimal n d (-k)
    d ≤ n
  let k := (Int.ofNat m.log2 + e) * 30103 / 100000
  if reaches (k + 1) then k + 1 else if reaches k then k else k - 1

/-- A decimal of `places` digits that reads back as `m * 2 ^ e`, if one of the two neighbours on that grid
    does: of two hits the nearer, and the even one in the middle. The answer is `(digits, exponent)`. -/
def shortOn? (m : Nat) (e : Int) (k : Int) (places : Nat) : Option (Nat × Int) :=
  let shift := k - Int.ofNat places + 1
  let (n, d) := scaleBinary m 1 e
  let (n, d) := scaleDecimal n d (-shift)
  let low := n / d
  let readsBack (digits : Nat) : Bool := ofDecimal false digits shift == .finite false m e
  match readsBack low, readsBack (low + 1) with
  | true, true => some (roundDiv n d, shift)
  | true, false => some (low, shift)
  | false, true => some (low + 1, shift)
  | false, false => none

/-- The fewest digits that read back, without zeros at the end, and the place of the decimal point
    counted from their front. -/
def shortest (m : Nat) (e : Int) : Text × Int :=
  let k := decimalMagnitude m e
  let hit := (List.range 17).findSome? fun i => shortOn? m e k (i + 1)
  let (digits, shift) := hit.getD (m, e)
  let all := Text.decimal digits
  (Text.trimRightBy (· == '0') all, shift + all.length)

/-- Positional from `10 ^ -4` up to `10 ^ 16`, with at least one digit on both sides of the point, and
    outside with a signed exponent of at least two digits. -/
def positional (digits : Text) (point : Int) : Text :=
  if point ≤ -4 || 16 < point then
    let exponent := point - 1
    let e := Text.decimal exponent.natAbs
    let mantissa := match digits with
      | [] => []
      | [d] => [d]
      | d :: ds => d :: '.' :: ds
    mantissa ++ ['e', if exponent < 0 then '-' else '+'] ++ List.replicate (2 - e.length) '0' ++ e
  else if point ≤ 0 then "0.".text ++ List.replicate (-point).toNat '0' ++ digits
  else if Int.ofNat digits.length ≤ point then
    digits ++ List.replicate (point.toNat - digits.length) '0' ++ ".0".text
  else digits.take point.toNat ++ ['.'] ++ digits.drop point.toNat

/-- The text of a number: the fewest digits that read back. -/
def toText : Binary64 → Text
  | .nan => "nan".text
  | .infinite negative => (if negative then "-inf" else "inf").text
  | .finite negative m e =>
    let sign := if negative then ['-'] else []
    if m = 0 then sign ++ "0.0".text
    else
      let (digits, point) := shortest m e
      sign ++ positional digits point

end Binary64
end Stylebook
