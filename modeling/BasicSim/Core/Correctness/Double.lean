import BasicSim.Core.Correctness.ExpUtil

/-!
# `Core.Correctness.Double` — what becomes of the values of a `double`

## Contents
- **Ranges.** The values of an attribute (`Double.passesChecker_iff`), and the numbers that are rounded to `2 ^ 63`
  (`lt_nearest_gap_iff`).
- **Conversions.** `Double.toUInt64_intCast`, and what the text of a number says (`Double.toStr_shows`).
-/

namespace BasicSim

open Fallible Rounding

/-! ## Ranges -/

/-- The attributes that ns-3 takes are numbers. -/
theorem Double.passesChecker_iff {x : Double} :
    x.passesChecker = true ↔ ∃ q, x = .finite q ∧ -maxValue ≤ q ∧ q ≤ maxValue := by
  cases x with
  | nan => simp [passesChecker, geRat]
  | inf negative => cases negative <;> simp [passesChecker, geRat, leRat]
  | finite q => simp [passesChecker, geRat, leRat]

theorem parsePositiveDouble_nonneg {stod : Str → Except Exc (Double × Nat)} {s : Str} {q : Rat}
    (h : parsePositiveDouble stod s = .ok (.finite q)) : 0 ≤ q := by
  obtain ⟨_, -, h⟩ := bind_eq_ok.mp h
  obtain ⟨hnonneg, h⟩ := throwIf_bind_eq_ok.mp h
  cases h
  simpa [Double.ltRat] using hnonneg

theorem two_zpow_lt {k m : Int} (h : k < m) : (2 : Rat) ^ k < 2 ^ m := zpow_lt_zpow_right₀ one_lt_two h

/-- The numbers from `2 ^ 63 - 512` on are rounded to at least `2 ^ 63`. -/
theorem lt_nearest_gap_iff {x : Rat} (hx : 0 < x) : 2 ^ 63 - 1 < nearest 53 (-1074) x ↔ 2 ^ 63 - 512 ≤ x := by
  have hexp : quantumExp 53 (-1074) (2 ^ 63 - 1 : Rat) = 10 := by
    rw [quantumExp_of_mem (k := 62) (by norm_num) (by norm_num)]
    rfl
  have hquantum : quantum 53 (-1074) (2 ^ 63 - 1 : Rat) = 1024 := by
    rw [quantum, hexp]
    norm_num
  have hfloor : ⌊(2 ^ 63 - 1 : Rat) / 1024⌋ = 2 ^ 53 - 1 := by
    rw [Int.floor_eq_iff]
    constructor <;> norm_num
  have hodd : Odd (2 ^ 53 - 1 : Int) := by decide
  rw [lt_nearest_iff (by decide) (by norm_num) hx, RoundsAbove, hquantum, hfloor]
  simp only [hodd, and_true]
  constructor
  · rintro (h | rfl)
    · refine le_of_lt (lt_of_eq_of_lt ?_ h)
      norm_num
    · norm_num
  · intro h
    refine h.lt_or_eq.imp (lt_of_eq_of_lt ?_) fun heq => heq.symm.trans ?_ <;> norm_num

/-! ## Conversions -/

theorem Double.toUInt64_intCast (c : Int) : (Double.finite c).toUInt64 =
    if 0 ≤ c ∧ c < 2 ^ 64 then .ok (BasicSim.toUInt64 c)
    else .error (.undefined "conversion to an integer that does not fit") := by
  simp only [Double.toUInt64, Rat.num_intCast, Rat.den_intCast, Nat.cast_one, Int.tdiv_one]

/-- The text is a number with six decimals, and differs from `q` by at most half of the last of them. -/
def ShowsMillionths (q : Rat) (text : Str) : Prop :=
  ∃ whole decimals, text = whole ++ '.' :: decimals ∧ whole ≠ [] ∧ decimals.length = 6 ∧
    (∀ c ∈ whole ++ decimals, c.isDigit = true) ∧ |q * 10 ^ 6 - digitsValue (whole ++ decimals)| ≤ 1 / 2

theorem length_decimals (n : Nat) : ((toStr (n % 10 ^ 6 : Nat)).leftpad 6 '0').length = 6 := by
  have hlt : n % 10 ^ 6 < 10 ^ 6 := Nat.mod_lt _ (by decide)
  rw [List.length_leftpad, toStr_natCast, max_eq_left]
  exact (Nat.length_toDigits_le_iff (by decide) (by decide)).mpr hlt

/-- The digits of a text with six decimals are those of the number of millionths. -/
theorem digitsValue_sixDecimals (n : Nat) :
    digitsValue (toStr (n / 10 ^ 6 : Nat) ++ (toStr (n % 10 ^ 6 : Nat)).leftpad 6 '0') = n := by
  have hpad : Nat.ofDigitChars 10 ((toStr (n % 10 ^ 6 : Nat)).leftpad 6 '0') 0 = n % 10 ^ 6 := by
    rw [List.leftpad, Nat.ofDigitChars_append, Nat.ofDigitChars_replicate_zero, Nat.mul_zero]
    exact digitsValue_toStr _
  show Nat.ofDigitChars 10 _ 0 = n
  rw [Nat.ofDigitChars_append, Nat.ofDigitChars_eq_ofDigitChars_zero, hpad, length_decimals]
  show 10 ^ 6 * digitsValue _ + _ = _
  rw [digitsValue_toStr]
  exact Nat.div_add_mod n (10 ^ 6)

theorem Double.toStr_shows {q : Rat} (hq : 0 ≤ q) : ShowsMillionths q (Double.finite q).toStr := by
  have hround : 0 ≤ roundHalfEven (q * 10 ^ 6) := le_roundHalfEven (by push_cast; positivity)
  obtain ⟨n, hn⟩ := Int.eq_ofNat_of_zero_le hround
  have htext : (Double.finite q).toStr = sixDecimals n := by
    rw [Double.toStr, if_neg (not_lt.mpr hq), abs_of_nonneg hq, hn]
    rfl
  refine ⟨_, _, htext, ?_, length_decimals n, ?_, ?_⟩
  · rw [toStr_natCast]
    exact Nat.toDigits_ne_nil
  · intro c hc
    rw [List.leftpad, List.mem_append, List.mem_append] at hc
    rcases hc with hc | hc | hc
    · exact isDigit_of_mem_toStr hc
    · rw [List.eq_of_mem_replicate hc]
      rfl
    · exact isDigit_of_mem_toStr hc
  · rw [digitsValue_sixDecimals]
    have herror := abs_sub_roundHalfEven_le (q * 10 ^ 6)
    rwa [hn, Int.cast_natCast] at herror

end BasicSim
