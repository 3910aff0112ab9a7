import Calorimetry.Text.Utf8

/-! Characters are read back from their bytes. -/

namespace Calorimetry.Text.Utf8

section
variable {bits more : Nat} {low high b : UInt8} {rest : List UInt8}

private theorem decodeFrom?_last {c : Char} (inside : low.toNat ≤ b.toNat ∧ b.toNat ≤ high.toNat)
    (code : bits * 64 + b.toNat % 64 = c.toNat) :
    decodeFrom? (some ⟨bits, 0, low, high⟩) (b :: rest) = (decodeFrom? none rest).map (c :: ·) := by
  have accepted : ¬(b < low ∨ high < b) := by
    rw [UInt8.lt_iff_toNat_lt, UInt8.lt_iff_toNat_lt]
    omega
  simp only [decodeFrom?, Bool.or_eq_true, decide_eq_true_eq, if_neg accepted, code, Char.ofNat_toNat]

private theorem decodeFrom?_more (inside : low.toNat ≤ b.toNat ∧ b.toNat ≤ high.toNat) :
    decodeFrom? (some ⟨bits, more + 1, low, high⟩) (b :: rest) =
      decodeFrom? (some { bits := bits * 64 + b.toNat % 64, more := more }) rest := by
  have accepted : ¬(b < low ∨ high < b) := by
    rw [UInt8.lt_iff_toNat_lt, UInt8.lt_iff_toNat_lt]
    omega
  simp only [decodeFrom?, Bool.or_eq_true, decide_eq_true_eq, if_neg accepted]

private theorem decodeFrom?_start {p : Pending} (start : start? b = some p) :
    decodeFrom? none (b :: rest) = decodeFrom? (some p) rest := by
  have beyond : ¬b < 0x80 := by
    intro small
    have less : b < 0xC2 := UInt8.lt_trans small (by decide)
    simp [start?, less] at start
  simp only [decodeFrom?, if_neg beyond, start]

end

theorem byte_toNat {n : Nat} (fits : n < 256) : (UInt8.ofNat n).toNat = n := by
  rw [UInt8.toNat_ofNat', Nat.mod_eq_of_lt fits]

private theorem start?_two {n : Nat} (low : 2 ≤ n) (high : n < 0x20) :
    start? (UInt8.ofNat (n + 0xC0)) = some { bits := n, more := 0 } := by
  have code := byte_toNat (n := n + 0xC0) (by omega)
  have bits : (n + 0xC0) % 32 = n := by omega
  unfold start?
  simp only [UInt8.lt_iff_toNat_lt, UInt8.reduceToNat, code, bits]
  rw [if_neg (by omega), if_pos (by omega)]

private theorem start?_three {n : Nat} (high : n < 0x10) : start? (UInt8.ofNat (n + 0xE0)) =
    some ⟨n, 1, if n = 0 then 0xA0 else 0x80, if n = 0xD then 0x9F else 0xBF⟩ := by
  have code := byte_toNat (n := n + 0xE0) (by omega)
  have bits : (n + 0xE0) % 16 = n := by omega
  have first : n + 224 = 224 ↔ n = 0 := by omega
  have surrogate : n + 224 = 237 ↔ n = 13 := by omega
  unfold start?
  simp only [UInt8.lt_iff_toNat_lt, ← UInt8.toNat_inj, UInt8.reduceToNat, code, bits, first, surrogate]
  rw [if_neg (by omega), if_neg (by omega), if_pos (by omega)]

private theorem start?_four {n : Nat} (high : n < 5) : start? (UInt8.ofNat (n + 0xF0)) =
    some ⟨n, 2, if n = 0 then 0x90 else 0x80, if n = 4 then 0x8F else 0xBF⟩ := by
  have code := byte_toNat (n := n + 0xF0) (by omega)
  have bits : (n + 0xF0) % 8 = n := by omega
  have first : n + 240 = 240 ↔ n = 0 := by omega
  have last : n + 240 = 244 ↔ n = 4 := by omega
  unfold start?
  simp only [UInt8.lt_iff_toNat_lt, ← UInt8.toNat_inj, UInt8.reduceToNat, code, bits, first, last]
  rw [if_neg (by omega), if_neg (by omega), if_neg (by omega), if_pos (by omega)]

private theorem continued (n : Nat) : (0x80 : UInt8).toNat ≤ (UInt8.ofNat (n % 0x40 + 0x80)).toNat ∧
    (UInt8.ofNat (n % 0x40 + 0x80)).toNat ≤ (0xBF : UInt8).toNat := by
  rw [byte_toNat (by omega)]
  simp only [UInt8.reduceToNat]
  omega

private theorem decodeFrom?_encodeChar (c : Char) (rest : List UInt8) :
    decodeFrom? none (String.utf8EncodeChar c ++ rest) = (decodeFrom? none rest).map (c :: ·) := by
  have valid : c.toNat < 0xD800 ∨ 0xDFFF < c.toNat ∧ c.toNat < 0x110000 := c.valid
  have code : c.val.toNat = c.toNat := rfl
  -- One case for each length. The bytes carry six bits each and the first one what is left.
  unfold String.utf8EncodeChar
  simp only [code]
  split
  · next one =>
    have small : UInt8.ofNat c.toNat < 0x80 := by
      rw [UInt8.lt_iff_toNat_lt, byte_toNat (by omega)]
      exact Nat.lt_succ_of_le one
    rw [List.singleton_append, decodeFrom?, if_pos small, byte_toNat (by omega), Char.ofNat_toNat]
  · split
    · next two =>
      have lead : c.toNat / 64 % 0x20 = c.toNat / 64 := by omega
      rw [lead, List.cons_append, decodeFrom?_start (start?_two (by omega) (by omega)),
        List.singleton_append]
      apply decodeFrom?_last (continued c.toNat)
      rw [byte_toNat (by omega)]
      omega
    · split
      · next three =>
        have lead : c.toNat / 4096 % 0x10 = c.toNat / 4096 := by omega
        rw [lead, List.cons_append, decodeFrom?_start (start?_three (by omega)), List.cons_append,
          decodeFrom?_more, List.singleton_append, decodeFrom?_last (continued c.toNat)]
        · rw [byte_toNat (by omega), byte_toNat (by omega)]
          omega
        · rw [byte_toNat (by omega)]
          split <;> split <;> simp only [UInt8.reduceToNat] <;> omega
      · next four =>
        have lead : c.toNat / 262144 % 0x08 = c.toNat / 262144 := by omega
        rw [lead, List.cons_append, decodeFrom?_start (start?_four (by omega)), List.cons_append,
          decodeFrom?_more, List.cons_append, decodeFrom?_more (continued (c.toNat / 64)),
          List.singleton_append, decodeFrom?_last (continued c.toNat)]
        · rw [byte_toNat (by omega), byte_toNat (by omega), byte_toNat (by omega)]
          omega
        · rw [byte_toNat (by omega)]
          split <;> split <;> simp only [UInt8.reduceToNat] <;> omega

theorem decode?_encode (cs : List Char) : decode? (encode cs) = some cs := by
  unfold decode? encode
  induction cs with
  | nil => rfl
  | cons c cs ih => rw [List.flatMap_cons, decodeFrom?_encodeChar, ih, Option.map_some]

end Calorimetry.Text.Utf8
