import Stylebook.Proofs.Text.Utf8
import Stylebook.Url.Percent

/-! Percent-encoding, and decoding again. Encoded text has letters, digits, a few signs and escapes only; its escapes
    stand for the bytes of the characters that cannot stand for themselves, so that any text is decoded again. -/

namespace Stylebook
namespace Url

/-! ### Encoding -/

/-- Characters that stand for themselves. -/
def isUnescaped (c : Char) : Bool := Text.isLetter c || Text.isDigit c || "_.-~/".text.contains c

/-- A hexadecimal digit, which is a capital letter or a small one. -/
def hexDigit (capital : Bool) (n : Nat) : Char := if capital then n.digitChar.toUpper else n.digitChar

def escape (capital : Bool) (b : UInt8) : Text :=
  ['%', hexDigit capital (b.toNat / 16), hexDigit capital (b.toNat % 16)]

/-- The text with an escape for every byte of a character that does not stand for itself. -/
def percentEncode (capital : Bool) (t : Text) : Text :=
  t.flatMap fun c => if isUnescaped c then [c] else (String.utf8EncodeChar c).flatMap (escape capital)

variable {capital : Bool}

theorem percentEncode_cons_of_unescaped {c : Char} (h : isUnescaped c = true) (t : Text) :
    percentEncode capital (c :: t) = c :: percentEncode capital t := by
  rw [percentEncode, List.flatMap_cons, if_pos h]
  rfl

theorem hexDigit_facts : ∀ n < 16, ∀ capital, Text.hexValue? (hexDigit capital n) = some n ∧
    isUnescaped (hexDigit capital n) = true := by decide

theorem mem_escape {b : UInt8} {c : Char} (h : c ∈ escape capital b) : isUnescaped c = true ∨ c = '%' := by
  have hb := b.toNat_lt
  simp only [escape, List.mem_cons, List.not_mem_nil, or_false] at h
  rcases h with rfl | rfl | rfl
  · exact .inr rfl
  · exact .inl (hexDigit_facts _ (by omega) capital).2
  · exact .inl (hexDigit_facts _ (by omega) capital).2

theorem mem_percentEncode {t : Text} {c : Char} (h : c ∈ percentEncode capital t) : isUnescaped c = true ∨ c = '%' := by
  obtain ⟨d, -, hc⟩ := List.mem_flatMap.mp h
  split at hc
  · rename_i hd
    exact .inl (List.mem_singleton.mp hc ▸ hd)
  · obtain ⟨b, -, hc⟩ := List.mem_flatMap.mp hc
    exact mem_escape hc

theorem unescaped_range {c : Char} (h : isUnescaped c = true) : 32 < c.toNat ∧ c.toNat < 128 := by
  simp only [isUnescaped, Text.isLetter, Text.isDigit, Bool.or_eq_true, Bool.and_eq_true, decide_eq_true_eq,
    List.contains_iff_mem] at h
  rcases h with ((⟨hlow, hhigh⟩ | ⟨hlow, hhigh⟩) | ⟨hlow, hhigh⟩) | hsign
  · exact ⟨Nat.lt_of_lt_of_le (by decide) hlow, Nat.lt_of_le_of_lt hhigh (by decide)⟩
  · exact ⟨Nat.lt_of_lt_of_le (by decide) hlow, Nat.lt_of_le_of_lt hhigh (by decide)⟩
  · exact ⟨Nat.lt_of_lt_of_le (by decide) hlow, Nat.lt_of_le_of_lt hhigh (by decide)⟩
  · have hsigns : "_.-~/".text.all (fun d => 32 < d.toNat && d.toNat < 128) = true := by decide
    simpa using List.all_eq_true.mp hsigns c hsign

/-- Encoded text has visible ASCII characters only. -/
theorem percentEncode_range {t : Text} : ∀ c ∈ percentEncode capital t, 32 < c.toNat ∧ c.toNat < 128 := by
  intro c hc
  rcases mem_percentEncode hc with h | rfl
  · exact unescaped_range h
  · decide

/-! ### Bytes -/

theorem percentBytes_cons {c : Char} (hc : c ≠ '%') (r : Text) : percentBytes (c :: r) = c.toUInt8 :: percentBytes r := by
  rw [percentBytes]
  intro a b r' heq
  exact absurd heq hc

theorem percentBytes_escape (b : UInt8) (r : Text) : percentBytes (escape capital b ++ r) = b :: percentBytes r := by
  have hb := b.toNat_lt
  have hhigh := (hexDigit_facts (b.toNat / 16) (by omega) capital).1
  have hlow := (hexDigit_facts (b.toNat % 16) (by omega) capital).1
  have hbyte : 16 * (b.toNat / 16) + b.toNat % 16 = b.toNat := by omega
  simp only [escape, List.cons_append, List.nil_append, percentBytes, hhigh, hlow, hbyte, UInt8.ofNat_toNat]

theorem percentBytes_escapes (bs : Utf8.Bytes) (r : Text) :
    percentBytes (bs.flatMap (escape capital) ++ r) = bs ++ percentBytes r := by
  induction bs with
  | nil => rfl
  | cons b bs ih => rw [List.flatMap_cons, List.append_assoc, percentBytes_escape, ih, List.cons_append]

/-- The bytes of encoded text are those of the text. -/
theorem percentBytes_percentEncode (t : Text) : percentBytes (percentEncode capital t) = Utf8.encode t := by
  induction t with
  | nil => rfl
  | cons c t ih =>
    have hencode : Utf8.encode (c :: t) = String.utf8EncodeChar c ++ Utf8.encode t := rfl
    rw [hencode, ← ih]
    by_cases hc : isUnescaped c = true
    · have hascii := (unescaped_range hc).2
      have hbytes : String.utf8EncodeChar c = [c.toUInt8] := by
        have hone : c.val.toNat ≤ 0x7f := Nat.le_of_lt_succ hascii
        simp only [String.utf8EncodeChar, if_pos hone]
        rfl
      have hne : c ≠ '%' := by
        rintro rfl
        cases hc
      rw [percentEncode_cons_of_unescaped hc, percentBytes_cons hne, hbytes]
      rfl
    · have hcons : percentEncode capital (c :: t) =
          (String.utf8EncodeChar c).flatMap (escape capital) ++ percentEncode capital t := by
        rw [percentEncode, List.flatMap_cons, if_neg hc]
        rfl
      rw [hcons, percentBytes_escapes]

/-! ### Decoding -/

theorem percentDecodeFrom_ascii {t : Text} (h : ∀ c ∈ t, c.toNat < 128) (run : Text) :
    percentDecodeFrom run t = Utf8.decodeLenient (percentBytes (run.reverse ++ t)) := by
  induction t generalizing run with
  | nil => rw [percentDecodeFrom, List.append_nil]
  | cons c t ih =>
    obtain ⟨hc, ht⟩ := List.forall_mem_cons.mp h
    rw [percentDecodeFrom, if_pos hc, ih ht, List.reverse_cons, List.append_assoc, List.singleton_append]

/-- Every text is decoded again. -/
theorem percentDecode_percentEncode (t : Text) : percentDecode (percentEncode capital t) = t := by
  rw [percentDecode, percentDecodeFrom_ascii fun c hc => (percentEncode_range c hc).2, List.reverse_nil, List.nil_append,
    percentBytes_percentEncode, Utf8.decodeLenient_encode]

end Url
end Stylebook
