import Mathlib.Algebra.Order.Floor.Ring
import Mathlib.Data.Int.Log
import Mathlib.Tactic.FieldSimp
import Mathlib.Tactic.Linarith
import Mathlib.Tactic.Positivity

/-!
# `Lib.Rounding` — rounding to the nearest number of a floating-point format

A format has `p` significant bits and no bit below `2 ^ emin`. What is rounded is first divided by the weight of
the last bit that it may have, then rounded to an integer, from the middle to the even one.

## Contents
- **Integers.** `roundHalfEven`; where it passes an integer (`lt_roundHalfEven_iff`), and how far it moves
  (`abs_sub_roundHalfEven_le`).
- **Quanta.** `quantumExp`, `quantum`, `Representable`.
- **Nearest numbers.** `nearest`; `RoundsAbove` says what is rounded to more than a number (`lt_nearest_iff`).
-/

namespace Rounding

variable {K : Type} [Field K] [LinearOrder K] [IsStrictOrderedRing K] [FloorRing K]

/-! ## Integers -/

/-- The nearest integer; from the middle, the even one. -/
def roundHalfEven (x : K) : ℤ :=
  if x - ⌊x⌋ < 1 / 2 ∨ x - ⌊x⌋ = 1 / 2 ∧ ⌊x⌋ % 2 = 0 then ⌊x⌋ else ⌊x⌋ + 1

/-- The nearest integer is above `n` from the middle to `n + 1` on, which itself goes to the even one. -/
theorem lt_roundHalfEven_iff {x : K} {n : ℤ} :
    n < roundHalfEven x ↔ (n : K) + 1 / 2 < x ∨ x = n + 1 / 2 ∧ Odd n := by
  have hlow := Int.floor_le x
  have hhigh := Int.lt_floor_add_one x
  rcases lt_trichotomy ⌊x⌋ n with h | rfl | h
  · -- `x` is below `n`
    have hle : (⌊x⌋ : K) + 1 ≤ n := by exact_mod_cast h
    have hround : roundHalfEven x ≤ n := by unfold roundHalfEven; split <;> omega
    constructor
    · intro hlt
      omega
    · rintro (hlt | ⟨rfl, -⟩) <;> linarith
  · -- the decision is the one of the definition
    have hodd : Odd ⌊x⌋ ↔ ¬ ⌊x⌋ % 2 = 0 := by rw [Int.odd_iff]; omega
    unfold roundHalfEven
    rcases lt_trichotomy (x - ⌊x⌋) (1 / 2) with hx | hx | hx
    · rw [if_pos (.inl hx)]
      constructor
      · intro hlt
        omega
      · rintro (hlt | ⟨heq, -⟩) <;> linarith
    · have heq : x = ⌊x⌋ + 1 / 2 := by linarith
      by_cases heven : ⌊x⌋ % 2 = 0
      · rw [if_pos (.inr ⟨hx, heven⟩)]
        constructor
        · intro hlt
          omega
        · rintro (hlt | ⟨-, h⟩)
          · linarith
          · exact absurd heven (hodd.mp h)
      · rw [if_neg (by rintro (h | ⟨-, h⟩) <;> [linarith; exact heven h])]
        exact ⟨fun _ => .inr ⟨heq, hodd.mpr heven⟩, fun _ => lt_add_one _⟩
    · rw [if_neg (by rintro (h | ⟨h, -⟩) <;> linarith)]
      exact ⟨fun _ => .inl (by linarith), fun _ => lt_add_one _⟩
  · -- `x` is at least `n + 1`
    have hle : (n : K) + 1 ≤ ⌊x⌋ := by exact_mod_cast h
    have hround : n < roundHalfEven x := by unfold roundHalfEven; split <;> omega
    exact ⟨fun _ => .inl (by linarith), fun _ => hround⟩

@[simp] theorem roundHalfEven_intCast (n : ℤ) : roundHalfEven (n : K) = n := by
  unfold roundHalfEven
  rw [Int.floor_intCast, sub_self, if_pos (.inl one_half_pos)]

theorem roundHalfEven_mono {x y : K} (hxy : x ≤ y) : roundHalfEven x ≤ roundHalfEven y := by
  by_contra h
  rcases lt_roundHalfEven_iff.mp (not_le.mp h) with hx | ⟨hx, hodd⟩
  · exact lt_irrefl _ (lt_roundHalfEven_iff.mpr (.inl (lt_of_lt_of_le hx hxy)))
  · rcases (hx ▸ hxy).lt_or_eq with hy | hy
    · exact lt_irrefl _ (lt_roundHalfEven_iff.mpr (.inl hy))
    · exact lt_irrefl _ (lt_roundHalfEven_iff.mpr (.inr ⟨hy.symm, hodd⟩))

theorem le_roundHalfEven {x : K} {n : ℤ} (h : n ≤ x) : n ≤ roundHalfEven x :=
  (roundHalfEven_intCast n).symm.le.trans (roundHalfEven_mono h)

theorem roundHalfEven_le {x : K} {n : ℤ} (h : x ≤ n) : roundHalfEven x ≤ n :=
  (roundHalfEven_mono h).trans (roundHalfEven_intCast n).le

theorem abs_sub_roundHalfEven_le (x : K) : |x - roundHalfEven x| ≤ 1 / 2 := by
  have hlow : ¬ roundHalfEven x < roundHalfEven x := lt_irrefl _
  have hhigh : roundHalfEven x - 1 < roundHalfEven x := sub_one_lt _
  rw [lt_roundHalfEven_iff, not_or, not_lt] at hlow
  rw [lt_roundHalfEven_iff, Int.cast_sub, Int.cast_one] at hhigh
  refine abs_le.mpr ⟨?_, by linarith [hlow.1]⟩
  rcases hhigh with h | ⟨h, -⟩ <;> linarith

/-! ## Quanta -/

/-- The weight of the last bit that a number of this size may have is 2 to the power of this. -/
def quantumExp (p : ℕ) (emin : ℤ) (x : K) : ℤ := max (Int.log 2 |x| + 1 - p) emin

def quantum (p : ℕ) (emin : ℤ) (x : K) : K := 2 ^ quantumExp p emin x

/-- A number of the format. -/
def Representable (p : ℕ) (emin : ℤ) (x : K) : Prop := ∃ n : ℤ, x = n * quantum p emin x

section Quantum

variable {p : ℕ} {emin : ℤ} {x y : K}

theorem quantum_pos : 0 < quantum p emin x := zpow_pos two_pos _

/-- A number has no more than `p` bits. -/
theorem lt_zpow_quantumExp (hx : 0 < x) : x < 2 ^ (p + quantumExp p emin x) := by
  have hlog := Int.lt_zpow_succ_log_self one_lt_two x
  rw [Nat.cast_ofNat] at hlog
  refine lt_of_lt_of_le hlog (zpow_le_zpow_right₀ one_le_two ?_)
  rw [quantumExp, abs_of_pos hx]
  omega

/-- It has `p` of them, unless they would be too small. -/
theorem zpow_quantumExp_le (hx : 0 < x) (h : emin < quantumExp p emin x) :
    2 ^ (p - 1 + quantumExp p emin x) ≤ x := by
  have hlog := Int.zpow_log_le_self one_lt_two hx
  rw [Nat.cast_ofNat] at hlog
  refine le_trans (zpow_le_zpow_right₀ one_le_two ?_) hlog
  rw [quantumExp, abs_of_pos hx] at h ⊢
  omega

theorem pow_mul_quantum (n : ℕ) : ((2 ^ n : ℤ) : K) * quantum p emin x = 2 ^ (n + quantumExp p emin x) := by
  rw [quantum, zpow_add₀ two_pos.ne', zpow_natCast, Int.cast_pow, Int.cast_ofNat]

/-- The quanta of a number are at least `2 ^ (p - 1)`, unless they would be too small, -/
theorem zpow_le_floor_mul_quantum (hp : 1 ≤ p) (hx : 0 < x) (h : emin < quantumExp p emin x) :
    2 ^ (p - 1 + quantumExp p emin x) ≤ ⌊x / quantum p emin x⌋ * quantum p emin x := by
  have hsub : ((p - 1 : ℕ) : ℤ) = (p : ℤ) - 1 := by omega
  have hm : (2 ^ (p - 1) : ℤ) ≤ ⌊x / quantum p emin x⌋ := by
    rw [Int.le_floor, le_div_iff₀ quantum_pos, pow_mul_quantum, hsub]
    exact zpow_quantumExp_le hx h
  rw [← hsub, ← pow_mul_quantum]
  exact mul_le_mul_of_nonneg_right (by exact_mod_cast hm) quantum_pos.le

/-- and with another one they are at most `2 ^ p`. -/
theorem floor_add_one_mul_quantum_le (hx : 0 < x) :
    (⌊x / quantum p emin x⌋ + 1) * quantum p emin x ≤ 2 ^ (p + quantumExp p emin x) := by
  have hm : ⌊x / quantum p emin x⌋ + 1 ≤ (2 ^ p : ℤ) := by
    rw [Int.add_one_le_iff, Int.floor_lt, div_lt_iff₀ quantum_pos, pow_mul_quantum]
    exact lt_zpow_quantumExp hx
  rw [← pow_mul_quantum]
  exact mul_le_mul_of_nonneg_right (by exact_mod_cast hm) quantum_pos.le

omit [IsStrictOrderedRing K] in
theorem le_quantumExp : emin ≤ quantumExp p emin x := le_max_right _ _

theorem quantumExp_of_mem {k : ℤ} (hlow : 2 ^ k ≤ x) (hhigh : x < 2 ^ (k + 1)) :
    quantumExp p emin x = max (k + 1 - p) emin := by
  have hx : 0 < x := lt_of_lt_of_le (zpow_pos two_pos k) hlow
  have hlog : Int.log 2 x = k := by
    refine le_antisymm (Int.lt_add_one_iff.mp ?_) ?_
    · exact (Int.lt_zpow_iff_log_lt one_lt_two hx).mp (by exact_mod_cast hhigh)
    · exact (Int.zpow_le_iff_le_log one_lt_two hx).mp (by exact_mod_cast hlow)
  rw [quantumExp, abs_of_pos hx, hlog]

theorem quantum_le (hp : 1 ≤ p) (h : 2 ^ emin ≤ x) : quantum p emin x ≤ x := by
  have hx : 0 < x := lt_of_lt_of_le (zpow_pos two_pos _) h
  rcases (le_quantumExp (p := p) (x := x) : emin ≤ _).lt_or_eq with he | he
  · refine le_trans (zpow_le_zpow_right₀ one_le_two ?_) (zpow_quantumExp_le hx he)
    omega
  · rw [quantum, ← he]
    exact h

theorem representable_zpow {k : ℤ} (hp : 1 ≤ p) (hk : emin ≤ k) : Representable p emin (2 ^ k : K) := by
  have hle : quantumExp p emin ((2 : K) ^ k) ≤ k := by
    rw [quantumExp_of_mem (le_refl _) (zpow_lt_zpow_right₀ one_lt_two (lt_add_one k))]
    omega
  refine ⟨2 ^ (k - quantumExp p emin ((2 : K) ^ k)).toNat, ?_⟩
  rw [quantum, Int.cast_pow, Int.cast_ofNat, ← zpow_natCast, ← zpow_add₀ two_ne_zero]
  congr 1
  omega

end Quantum

/-! ## Nearest numbers -/

/-- The nearest number of the format. -/
def nearest (p : ℕ) (emin : ℤ) (x : K) : K := roundHalfEven (x / quantum p emin x) * quantum p emin x

/-- Above the middle of the two neighbouring numbers `m * u ≤ c < (m + 1) * u` of the format, or in the middle with an
    odd `m`. -/
def RoundsAbove (p : ℕ) (emin : ℤ) (c x : K) : Prop :=
  (⌊c / quantum p emin c⌋ + 1 / 2) * quantum p emin c < x ∨
    x = (⌊c / quantum p emin c⌋ + 1 / 2) * quantum p emin c ∧ Odd ⌊c / quantum p emin c⌋

instance (p : ℕ) (emin : ℤ) (c x : K) : Decidable (RoundsAbove p emin c x) := inferInstanceAs (Decidable (_ ∨ _))

section Nearest

variable {p : ℕ} {emin : ℤ} {c x : K}

/-- `x` is rounded to `m` quanta at least when it has as many, and likewise at most. -/
theorem le_nearest {m : ℤ} (h : m * quantum p emin x ≤ x) : m * quantum p emin x ≤ nearest p emin x := by
  refine mul_le_mul_of_nonneg_right ?_ quantum_pos.le
  exact_mod_cast le_roundHalfEven ((le_div_iff₀ quantum_pos).mpr h)

theorem nearest_le {m : ℤ} (h : x ≤ m * quantum p emin x) : nearest p emin x ≤ m * quantum p emin x := by
  refine mul_le_mul_of_nonneg_right ?_ quantum_pos.le
  exact_mod_cast roundHalfEven_le ((div_le_iff₀ quantum_pos).mpr h)

/-- **What is rounded to more than a number.** -/
theorem lt_nearest_iff (hp : 1 ≤ p) (hc : 0 < c) (hx : 0 < x) : c < nearest p emin x ↔ RoundsAbove p emin c x := by
  have hUc : 0 < quantum p emin c := quantum_pos
  have hsub : ((p - 1 : ℕ) : ℤ) = (p : ℤ) - 1 := by omega
  rcases lt_trichotomy (quantumExp p emin x) (quantumExp p emin c) with he | he | he
  · -- `x` is below the power of two that `c` starts from, and is rounded to at most that
    have hstart := zpow_le_floor_mul_quantum hp hc (lt_of_le_of_lt le_quantumExp he)
    have hbelow : (2 : K) ^ (p + quantumExp p emin x) ≤ 2 ^ (p - 1 + quantumExp p emin c) :=
      zpow_le_zpow_right₀ one_le_two (by omega)
    have hxlt : x < 2 ^ (p + quantumExp p emin x) := lt_zpow_quantumExp hx
    have hnot : ¬ c < nearest p emin x := by
      have hfloor : ⌊c / quantum p emin c⌋ * quantum p emin c ≤ c := (le_div_iff₀ hUc).mp (Int.floor_le _)
      have hle : nearest p emin x ≤ (2 ^ p : ℤ) * quantum p emin x :=
        nearest_le (by rw [pow_mul_quantum]; exact hxlt.le)
      rw [pow_mul_quantum] at hle
      exact not_lt.mpr (hle.trans (hbelow.trans (hstart.trans hfloor)))
    have hmid : x < (⌊c / quantum p emin c⌋ + 1 / 2) * quantum p emin c := by linarith
    refine iff_of_false hnot ?_
    rintro (h | ⟨h, -⟩) <;> linarith
  · -- both have the same quantum
    have hU : quantum p emin x = quantum p emin c := congrArg (2 ^ ·) he
    rw [nearest, hU, ← div_lt_iff₀ hUc, ← Int.floor_lt, lt_roundHalfEven_iff, RoundsAbove, lt_div_iff₀ hUc,
      div_eq_iff hUc.ne']
  · -- `x` is at least the power of two that numbers with this quantum start from, and `c` is below it
    have hstart := zpow_quantumExp_le hx (lt_of_le_of_lt le_quantumExp he)
    have hbelow : (2 : K) ^ (p + quantumExp p emin c) ≤ 2 ^ (p - 1 + quantumExp p emin x) :=
      zpow_le_zpow_right₀ one_le_two (by omega)
    have hlt : c < nearest p emin x := by
      have hle : ((2 ^ (p - 1) : ℤ) : K) * quantum p emin x ≤ nearest p emin x :=
        le_nearest (by rwa [pow_mul_quantum, hsub])
      rw [pow_mul_quantum, hsub] at hle
      exact ((lt_zpow_quantumExp hc).trans_le hbelow).trans_le hle
    have htop : (⌊c / quantum p emin c⌋ + 1) * quantum p emin c ≤ 2 ^ (p + quantumExp p emin c) :=
      floor_add_one_mul_quantum_le hc
    have hmid : (⌊c / quantum p emin c⌋ + 1 / 2) * quantum p emin c < x := by linarith
    exact iff_of_true hlt (.inl hmid)

/-- What is not above a number of the format is not rounded to more. -/
theorem nearest_le_of_representable (hp : 1 ≤ p) (hc : 0 < c) (hx : 0 < x) (hrep : Representable p emin c)
    (h : x ≤ c) : nearest p emin x ≤ c := by
  obtain ⟨n, hn⟩ := hrep
  have hUc : 0 < quantum p emin c := quantum_pos
  have hfloor : ⌊c / quantum p emin c⌋ = n := by
    rw [show c / quantum p emin c = n from (div_eq_iff hUc.ne').mpr hn, Int.floor_intCast]
  rw [← not_lt, lt_nearest_iff hp hc hx, RoundsAbove, hfloor, add_mul, ← hn]
  rintro (habove | ⟨hmid, -⟩) <;> linarith

theorem nearest_nonneg (h : 0 ≤ x) : 0 ≤ nearest p emin x := by
  have hzero : ((0 : ℤ) : K) * quantum p emin x ≤ x := by
    rw [Int.cast_zero, zero_mul]
    exact h
  have hle := le_nearest hzero
  rwa [Int.cast_zero, zero_mul] at hle

theorem nearest_pos (hp : 1 ≤ p) (h : 2 ^ emin ≤ x) : 0 < nearest p emin x := by
  have hone : ((1 : ℤ) : K) * quantum p emin x ≤ x := by
    rw [Int.cast_one, one_mul]
    exact quantum_le hp h
  have hle := le_nearest hone
  rw [Int.cast_one, one_mul] at hle
  exact lt_of_lt_of_le quantum_pos hle

end Nearest

end Rounding
