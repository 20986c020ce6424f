import Stylebook.Proofs.Text.Lines
import Stylebook.Text.Utf8

/-! Encoded text is decoded again. The bytes of a character are read as this character whatever follows them, so that
    no byte of encoded text is a fault. -/

namespace Stylebook
namespace Utf8

/-! ### Bytes -/

theorem isTail_ofNat {n : Nat} (hlow : 0x80 ≤ n) (hhigh : n < 0xc0) : isTail (UInt8.ofNat n) = true := by
  have hn := UInt8.toNat_ofNat_of_lt' (show n < 256 by omega)
  simp [isTail, UInt8.le_iff_toNat_le, UInt8.lt_iff_toNat_lt, hn, hlow, hhigh]

theorem tailBits_ofNat {k : Nat} (h : k < 0x40) : tailBits (UInt8.ofNat (k + 0x80)) = k := by
  rw [tailBits, UInt8.toNat_ofNat_of_lt' (show k + 0x80 < 256 by omega)]
  omega

theorem allowsSecond_ofNat {m n : Nat} (hm : m < 256) (hlow : 0x80 ≤ n) (hhigh : n < 0xc0)
    (hthree : m = 0xe0 → 0xa0 ≤ n) (hsurrogate : m = 0xed → n < 0xa0) (hfour : m = 0xf0 → 0x90 ≤ n)
    (hlast : m = 0xf4 → n < 0x90) : allowsSecond (UInt8.ofNat m) (UInt8.ofNat n) = true := by
  have hm := UInt8.toNat_ofNat_of_lt' hm
  have hn := UInt8.toNat_ofNat_of_lt' (show n < 256 by omega)
  simp only [allowsSecond, isTail_ofNat hlow hhigh, Bool.true_and, Bool.and_eq_true, Bool.not_eq_true',
    Bool.and_eq_false_iff, beq_eq_false_iff_ne, decide_eq_false_iff_not, ne_eq, ← UInt8.toNat_inj, hm,
    UInt8.lt_iff_toNat_lt, UInt8.le_iff_toNat_le, hn]
  simp only [UInt8.reduceToNat]
  omega

theorem ofNat_lt_iff {n : Nat} (hn : n < 256) (b : UInt8) : UInt8.ofNat n < b ↔ n < b.toNat := by
  rw [UInt8.lt_iff_toNat_lt, UInt8.toNat_ofNat_of_lt' hn]

/-! ### Characters -/

section
variable {v : Nat}

theorem unit_one (h : v < 0x80) (r : Bytes) : unit (UInt8.ofNat v) r = (.ok (Text.charOf v), 0) := by
  have hv : v < 256 := by omega
  have hascii : UInt8.ofNat v < 0x80 := (ofNat_lt_iff hv 0x80).mpr h
  unfold unit
  rw [if_pos hascii, UInt8.toNat_ofNat_of_lt' hv]

theorem unit_two (hlow : 0x80 ≤ v) (hhigh : v < 0x800) (r : Bytes) :
    unit (UInt8.ofNat (v / 64 % 0x20 + 0xc0)) (UInt8.ofNat (v % 0x40 + 0x80) :: r) = (.ok (Text.charOf v), 1) := by
  have hfirst : v / 64 % 0x20 + 0xc0 < 256 := by omega
  have htail := isTail_ofNat (show 0x80 ≤ v % 0x40 + 0x80 by omega) (by omega)
  have hvalue : (v / 64 % 0x20 + 0xc0) % 0x20 * 0x40 + v % 0x40 = v := by omega
  simp only [unit, ofNat_lt_iff hfirst, UInt8.reduceToNat]
  rw [if_neg (by omega), if_neg (by omega), if_pos (by omega)]
  simp only [htail, if_true, UInt8.toNat_ofNat_of_lt' hfirst, tailBits_ofNat (Nat.mod_lt v (by decide : 0 < 0x40)), hvalue]

theorem unit_three (hlow : 0x800 ≤ v) (hhigh : v < 0x10000) (hvalid : v < 0xd800 ∨ 0xdfff < v) (r : Bytes) :
    unit (UInt8.ofNat (v / 4096 % 0x10 + 0xe0))
        (UInt8.ofNat (v / 64 % 0x40 + 0x80) :: UInt8.ofNat (v % 0x40 + 0x80) :: r) = (.ok (Text.charOf v), 2) := by
  have hfirst : v / 4096 % 0x10 + 0xe0 < 256 := by omega
  have hsecond := allowsSecond_ofNat hfirst (show 0x80 ≤ v / 64 % 0x40 + 0x80 by omega) (by omega) (by omega) (by omega)
    (by omega) (by omega)
  have htail := isTail_ofNat (show 0x80 ≤ v % 0x40 + 0x80 by omega) (by omega)
  have hvalue : ((v / 4096 % 0x10 + 0xe0) % 0x10 * 0x40 + v / 64 % 0x40) * 0x40 + v % 0x40 = v := by omega
  simp only [unit, ofNat_lt_iff hfirst, UInt8.reduceToNat]
  rw [if_neg (by omega), if_neg (by omega), if_neg (by omega), if_pos (by omega)]
  simp only [hsecond, htail, if_true, UInt8.toNat_ofNat_of_lt' hfirst,
    tailBits_ofNat (Nat.mod_lt _ (by decide : 0 < 0x40)), hvalue]

theorem unit_four (hlow : 0x10000 ≤ v) (hhigh : v < 0x110000) (r : Bytes) :
    unit (UInt8.ofNat (v / 262144 % 0x08 + 0xf0))
        (UInt8.ofNat (v / 4096 % 0x40 + 0x80) :: UInt8.ofNat (v / 64 % 0x40 + 0x80) ::
          UInt8.ofNat (v % 0x40 + 0x80) :: r) = (.ok (Text.charOf v), 3) := by
  have hfirst : v / 262144 % 0x08 + 0xf0 < 256 := by omega
  have hsecond := allowsSecond_ofNat hfirst (show 0x80 ≤ v / 4096 % 0x40 + 0x80 by omega) (by omega) (by omega)
    (by omega) (by omega) (by omega)
  have hthird := isTail_ofNat (show 0x80 ≤ v / 64 % 0x40 + 0x80 by omega) (by omega)
  have htail := isTail_ofNat (show 0x80 ≤ v % 0x40 + 0x80 by omega) (by omega)
  have hvalue : (((v / 262144 % 0x08 + 0xf0) % 0x08 * 0x40 + v / 4096 % 0x40) * 0x40 + v / 64 % 0x40) * 0x40 +
      v % 0x40 = v := by omega
  simp only [unit, ofNat_lt_iff hfirst, UInt8.reduceToNat]
  rw [if_neg (by omega), if_neg (by omega), if_neg (by omega), if_neg (by omega), if_pos (by omega)]
  simp only [hsecond, hthird, htail, if_true, UInt8.toNat_ofNat_of_lt' hfirst,
    tailBits_ofNat (Nat.mod_lt _ (by decide : 0 < 0x40)), hvalue]

end

/-- The bytes of a character are read as this character, whatever follows them. -/
theorem unit_encodeChar (c : Char) (r : Bytes) :
    ∃ a rest, String.utf8EncodeChar c = a :: rest ∧ unit a (rest ++ r) = (.ok c, rest.length) := by
  have hvalid : c.toNat < 0xd800 ∨ 0xdfff < c.toNat ∧ c.toNat < 0x110000 := c.valid
  have hencode : String.utf8EncodeChar c = if c.toNat ≤ 0x7f then [UInt8.ofNat c.toNat]
      else if c.toNat ≤ 0x7ff then [UInt8.ofNat (c.toNat / 64 % 0x20 + 0xc0), UInt8.ofNat (c.toNat % 0x40 + 0x80)]
      else if c.toNat ≤ 0xffff then [UInt8.ofNat (c.toNat / 4096 % 0x10 + 0xe0),
        UInt8.ofNat (c.toNat / 64 % 0x40 + 0x80), UInt8.ofNat (c.toNat % 0x40 + 0x80)]
      else [UInt8.ofNat (c.toNat / 262144 % 0x08 + 0xf0), UInt8.ofNat (c.toNat / 4096 % 0x40 + 0x80),
        UInt8.ofNat (c.toNat / 64 % 0x40 + 0x80), UInt8.ofNat (c.toNat % 0x40 + 0x80)] := rfl
  have hchar := Text.charOf_toNat c
  generalize c.toNat = v at hencode hvalid hchar
  rw [hencode, ← hchar]
  split
  · exact ⟨_, _, rfl, unit_one (by omega) _⟩
  · split
    · exact ⟨_, _, rfl, unit_two (by omega) (by omega) _⟩
    · split
      · exact ⟨_, _, rfl, unit_three (by omega) (by omega) (by omega) _⟩
      · exact ⟨_, _, rfl, unit_four (by omega) (by omega) _⟩

/-! ### Text -/

theorem units_encode (position : Nat) (t : Text) : units position (encode t) = t.map .ok := by
  induction t generalizing position with
  | nil => rw [encode, List.flatMap_nil, units, List.map_nil]
  | cons c t ih =>
    obtain ⟨a, rest, hbytes, hunit⟩ := unit_encodeChar c (encode t)
    have hcons : encode (c :: t) = a :: (rest ++ encode t) := by
      rw [encode, List.flatMap_cons, hbytes]
      rfl
    rw [hcons, units]
    simp only [hunit, List.drop_left, ih, List.map_cons]

theorem decodeLenient_encode (t : Text) : decodeLenient (encode t) = t := by
  rw [decodeLenient, units_encode, List.map_map]
  exact List.map_id t

end Utf8
end Stylebook
