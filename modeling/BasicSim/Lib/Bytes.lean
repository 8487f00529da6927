import Mathlib.Data.BitVec

/-!
# `Lib.Bytes` — the bytes of a word

A word is written byte by byte with shifts and masks. The bytes determine the word.
-/

namespace Bytes

variable {w : Nat}

/-- `x & 0xff` as a byte. -/
def lowByte (x : BitVec w) : BitVec 8 := (x &&& BitVec.ofNat w 255).setWidth 8

theorem toNat_lowByte (hw : 8 ≤ w) (x : BitVec w) : (lowByte x).toNat = x.toNat % 2 ^ 8 := by
  have hpow : 2 ^ 8 ≤ 2 ^ w := Nat.pow_le_pow_right (by omega) hw
  have hmask : (255 : Nat) % 2 ^ w = 2 ^ 8 - 1 := Nat.mod_eq_of_lt (by omega)
  rw [lowByte, BitVec.toNat_setWidth, BitVec.toNat_and, BitVec.toNat_ofNat, hmask, Nat.and_two_pow_sub_one_eq_mod,
    Nat.mod_mod]

/-- **Words with the same bytes are equal**, if the bytes reach up to the width. -/
theorem eq_of_lowBytes (hw : 8 ≤ w) {n : Nat} (hn : w ≤ 8 * n) {x y : BitVec w}
    (h : ∀ i < n, lowByte (x >>> (8 * i)) = lowByte (y >>> (8 * i))) : x = y := by
  refine BitVec.eq_of_toNat_eq (Nat.eq_of_testBit_eq fun j => ?_)
  by_cases hj : j < w
  · -- bit `j` is bit `j % 8` of byte `j / 8`
    have hbyte := congrArg (fun b => b.toNat.testBit (j % 8)) (h (j / 8) (by omega))
    simp only [toNat_lowByte hw, BitVec.toNat_ushiftRight, Nat.testBit_mod_two_pow, Nat.testBit_shiftRight] at hbyte
    rw [Nat.div_add_mod] at hbyte
    simpa [Nat.mod_lt j (show 0 < 8 by decide)] using hbyte
  · have hle : 2 ^ w ≤ 2 ^ j := Nat.pow_le_pow_right (by omega) (by omega)
    rw [Nat.testBit_lt_two_pow (lt_of_lt_of_le x.isLt hle), Nat.testBit_lt_two_pow (lt_of_lt_of_le y.isLt hle)]

end Bytes
