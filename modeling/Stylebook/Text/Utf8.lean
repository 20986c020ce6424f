import Stylebook.Text.Basic

/-! Decoding UTF-8. A sequence that is not well formed is a fault that covers its longest well-formed
    beginning; strict decoding reports the first fault, lenient decoding puts one replacement character in
    the place of each. -/

namespace Stylebook
namespace Utf8

abbrev Bytes := List UInt8

inductive Cause
  | start
  | continuation
  | truncated
  deriving DecidableEq, Repr

def Cause.message : Cause → Text
  | .start => "invalid start byte".text
  | .continuation => "invalid continuation byte".text
  | .truncated => "unexpected end of data".text

/-- A fault covers `count` bytes from `position` on; `byte` is the first of them. -/
structure Error where
  cause : Cause
  position : Nat
  count : Nat
  byte : UInt8
  deriving DecidableEq, Repr

def Error.message (e : Error) : Text :=
  let place :=
    if e.count = 1 then
      "byte 0x".text ++ Text.hex 2 e.byte.toNat ++ " in position ".text ++ Text.decimal e.position
    else
      "bytes in position ".text ++ Text.decimal e.position ++ ['-'] ++
        Text.decimal (e.position + e.count - 1)
  "'utf-8' codec can't decode ".text ++ place ++ ": ".text ++ e.cause.message

def isTail (b : UInt8) : Bool := 0x80 ≤ b && b < 0xc0

/-- Whether `b` may follow the first byte `a` of three or four: overlong forms, surrogates and numbers
    beyond the last code point are excluded. -/
def allowsSecond (a b : UInt8) : Bool :=
  isTail b && !(a == 0xe0 && b < 0xa0) && !(a == 0xed && 0xa0 ≤ b) && !(a == 0xf0 && b < 0x90) &&
    !(a == 0xf4 && 0x90 ≤ b)

/-- The low six bits of a byte behind the first. -/
def tailBits (b : UInt8) : Nat := b.toNat % 0x40

/-- The character that begins with byte `a`, or the fault there, and how many of the bytes behind `a`
    belong to it. -/
def unit (a : UInt8) (r : Bytes) : Except Cause Char × Nat :=
  if a < 0x80 then (.ok (Text.charOf a.toNat), 0)
  else if a < 0xc2 then (.error .start, 0)
  else if a < 0xe0 then
    match r with
    | [] => (.error .truncated, 0)
    | b :: _ =>
      if isTail b then (.ok (Text.charOf (a.toNat % 0x20 * 0x40 + tailBits b)), 1)
      else (.error .continuation, 0)
  else if a < 0xf0 then
    match r with
    | [] => (.error .truncated, 0)
    | b :: r =>
      if allowsSecond a b then
        match r with
        | [] => (.error .truncated, 1)
        | c :: _ =>
          if isTail c then
            (.ok (Text.charOf ((a.toNat % 0x10 * 0x40 + tailBits b) * 0x40 + tailBits c)), 2)
          else (.error .continuation, 1)
      else (.error .continuation, 0)
  else if a < 0xf5 then
    match r with
    | [] => (.error .truncated, 0)
    | b :: r =>
      if allowsSecond a b then
        match r with
        | [] => (.error .truncated, 1)
        | c :: r =>
          if isTail c then
            match r with
            | [] => (.error .truncated, 2)
            | d :: _ =>
              if isTail d then
                (.ok (Text.charOf
                  (((a.toNat % 0x08 * 0x40 + tailBits b) * 0x40 + tailBits c) * 0x40 + tailBits d)), 3)
              else (.error .continuation, 2)
          else (.error .continuation, 1)
      else (.error .continuation, 0)
  else (.error .start, 0)

/-- The characters and the faults of bytes; `position` is the number of bytes in front. -/
def units (position : Nat) (bs : Bytes) : List (Except Error Char) :=
  match bs with
  | [] => []
  | a :: r =>
    let n := (unit a r).2
    let piece := match (unit a r).1 with
      | .ok c => .ok c
      | .error cause => .error ⟨cause, position, n + 1, a⟩
    piece :: units (position + n + 1) (r.drop n)
termination_by bs.length
decreasing_by
  simp only [List.length_cons, List.length_drop]
  omega

/-- The text of bytes, or the first fault in them. -/
def decode (bs : Bytes) : Except Error Text := (units 0 bs).mapM id

/-- The bytes of a character at the end that is not complete, and what stands before them. -/
def splitTail (bs : Bytes) : Bytes × Bytes :=
  match (units 0 bs).getLast? with
  | some (.error ⟨.truncated, position, _, _⟩) => (bs.take position, bs.drop position)
  | _ => (bs, [])

/-- The text of bytes that come in pieces of 8192. Positions are counted from the front of a piece, together
    with the bytes `carry` that are left over from the one before. -/
def decodePieces (carry bs : Bytes) : Except Error Text :=
  match bs with
  | [] => decode carry
  | b :: r => do
    let (whole, left) := splitTail (carry ++ (b :: r).take 8192)
    let t ← decode whole
    return t ++ (← decodePieces left (r.drop 8191))
termination_by bs.length
decreasing_by
  simp only [List.length_cons, List.length_drop]
  omega

/-- The text of bytes with a replacement character for each fault. -/
def decodeLenient (bs : Bytes) : Text :=
  (units 0 bs).map fun
    | .ok c => c
    | .error _ => '\ufffd'

def encode (t : Text) : Bytes := t.flatMap String.utf8EncodeChar

/-- The text of bytes of which each stands for the code point of its number. -/
def decodeLatin (bs : Bytes) : Text := bs.map fun b => Text.charOf b.toNat

end Utf8
end Stylebook
