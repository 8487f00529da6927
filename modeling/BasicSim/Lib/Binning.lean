import Mathlib.Algebra.BigOperators.Group.List.Basic
import Mathlib.Algebra.Order.Ring.Int
import Mathlib.Data.List.Induction
import Mathlib.Tactic.Linarith
import Mathlib.Tactic.Ring

/-!
# `Lib.Binning` — a time series in bins of one width

A loop adds up the samples of a time series in bins. Before it adds a sample it moves on, bin by bin, to the one
that the time lies in; the bins in between stay empty.

## Contents
- **Bins.** `Bin`, `amountIn`, `bins`; the amounts of all bins add up to the total (`sum_amountIn`).
- **The loop.** `IsOpen`, with the rules `IsOpen.nil`, `IsOpen.skip`, `IsOpen.add` and `IsOpen.concat_eq`.
-/

namespace Binning

/-- An interval of time, without its right end, and what was added up in it. -/
structure Bin (M : Type) where
  left : Int
  right : Int
  amount : M
deriving DecidableEq, Repr

variable {M : Type} [AddCommMonoid M] {width : Int} {samples : List (Int × M)} {t : Int} {v : M} {k n : Nat}

/-! ## Bins -/

/-- What the samples in the bin number `k` add up to. -/
def amountIn (width : Int) (samples : List (Int × M)) (k : Nat) : M :=
  ((samples.filter fun x => decide (k * width ≤ x.1 ∧ x.1 < (k + 1) * width)).map Prod.snd).sum

/-- The bin number `k`. -/
def bin (width : Int) (samples : List (Int × M)) (k : Nat) : Bin M :=
  ⟨k * width, (k + 1) * width, amountIn width samples k⟩

/-- The first `n` bins. -/
def bins (width : Int) (samples : List (Int × M)) (n : Nat) : List (Bin M) := (List.range n).map (bin width samples)

theorem bins_succ : bins width samples (n + 1) = bins width samples n ++ [bin width samples n] := by
  rw [bins, bins, List.range_succ, List.map_append, List.map_singleton]

theorem eq_bin_of_getElem? {b : Bin M} (h : (bins width samples n)[k]? = some b) : b = bin width samples k := by
  obtain ⟨hk, rfl⟩ := List.getElem?_eq_some_iff.mp h
  simp [bins]

theorem amountIn_concat : amountIn width (samples ++ [(t, v)]) k
    = amountIn width samples k + if k * width ≤ t ∧ t < (k + 1) * width then v else 0 := by
  unfold amountIn
  rw [List.filter_append, List.map_append, List.sum_append]
  by_cases ht : k * width ≤ t ∧ t < (k + 1) * width
  · rw [if_pos ht, List.filter_cons_of_pos (by exact decide_eq_true ht)]
    simp
  · rw [if_neg ht, List.filter_cons_of_neg (by simpa using ht)]
    simp

/-- There is nothing in a bin that all samples are before. -/
theorem amountIn_eq_zero (h : ∀ x ∈ samples, x.1 < k * width) : amountIn width samples k = 0 := by
  unfold amountIn
  rw [List.filter_eq_nil_iff.mpr]
  · rfl
  · intro x hx
    have := h x hx
    rw [decide_eq_true_eq]
    omega

/-- A time lies in one of the bins that reach up to it. -/
theorem mem_bin_iff (hwidth : 0 < width) : (k * width ≤ t ∧ t < (k + 1) * width) ↔ t / width = k := by
  rw [Int.ediv_eq_iff_of_pos hwidth, add_mul, one_mul]

/-- A sum in which one term grows. -/
theorem sum_map_range_add_single (a : Nat → M) (j : Nat) (v : M) (n : Nat) :
    ((List.range n).map fun k => a k + if k = j then v else 0).sum
      = ((List.range n).map a).sum + if j < n then v else 0 := by
  induction n with
  | zero => simp
  | succ n ih =>
      simp only [List.range_succ, List.map_append, List.map_singleton, List.sum_append, List.sum_singleton, ih]
      rcases Nat.lt_trichotomy j n with hlt | rfl | hgt
      · rw [if_pos hlt, if_neg (by omega), if_pos (by omega), add_zero, add_right_comm]
      · rw [if_neg (lt_irrefl j), if_pos rfl, if_pos (Nat.lt_succ_self j), add_zero, add_assoc]
      · rw [if_neg (by omega), if_neg (by omega), if_neg (by omega), add_zero, add_zero, add_zero]

/-- **Nothing is lost.** If the bins reach up to all the samples, their amounts add up to the total. -/
theorem sum_amountIn (hwidth : 0 < width) (h : ∀ x ∈ samples, 0 ≤ x.1 ∧ x.1 < n * width) :
    ((bins width samples n).map Bin.amount).sum = (samples.map Prod.snd).sum := by
  have hbins : ∀ samples : List (Int × M),
      (bins width samples n).map Bin.amount = (List.range n).map (amountIn width samples) := by
    intro samples
    rw [bins, List.map_map]
    rfl
  rw [hbins]
  induction samples using List.reverseRecOn with
  | nil =>
      have hzero : amountIn width ([] : List (Int × M)) = fun _ => 0 := rfl
      simp [hzero]
  | append_singleton samples x ih =>
      obtain ⟨t, v⟩ := x
      obtain ⟨h0, hlt⟩ := h (t, v) (by simp)
      have hdiv0 : 0 ≤ t / width := Int.ediv_nonneg h0 (le_of_lt hwidth)
      have hdiv : t / width < n := by
        rw [Int.ediv_lt_iff_lt_mul hwidth]
        exact hlt
      obtain ⟨j, hj⟩ := Int.eq_ofNat_of_zero_le hdiv0
      -- the sample adds to the bin `j` and to no other
      have hone : amountIn width (samples ++ [(t, v)])
          = fun k => amountIn width samples k + if k = j then v else 0 := by
        funext k
        rw [amountIn_concat]
        refine congrArg _ (if_congr ?_ rfl rfl)
        rw [mem_bin_iff hwidth, hj]
        omega
      rw [hone, sum_map_range_add_single, if_pos (by omega), ih fun x hx => h x (List.mem_append_left _ hx)]
      simp

/-! ## The loop -/

/-- **The invariant of the loop**: the closed bins are those before the current one, and all samples so far are
    before its right end. -/
structure IsOpen (width : Int) (samples : List (Int × M)) (closed : List (Bin M)) (current : Bin M) (k : Nat) :
    Prop where
  closed : closed = bins width samples k
  current : current = bin width samples k
  lt_right : ∀ x ∈ samples, x.1 < (k + 1) * width

variable {closed : List (Bin M)} {current : Bin M}

theorem IsOpen.nil (width : Int) : IsOpen width ([] : List (Int × M)) [] ⟨0, width, 0⟩ 0 where
  closed := rfl
  current := by simp [bin, amountIn]
  lt_right := fun x hx => nomatch hx

/-- The current bin is closed, and the next one is empty. -/
theorem IsOpen.skip (h : IsOpen width samples closed current k) (hwidth : 0 < width) :
    IsOpen width samples (closed ++ [current]) ⟨current.right, current.right + width, 0⟩ (k + 1) := by
  have hright : ((k + 1 : Nat) : Int) * width = (k + 1) * width := by push_cast; rfl
  refine ⟨?_, ?_, ?_⟩
  · rw [bins_succ, h.closed, h.current]
  · have hzero : amountIn width samples (k + 1) = 0 := amountIn_eq_zero (by rw [hright]; exact h.lt_right)
    rw [bin, hzero, hright, h.current, bin]
    congr 1
    push_cast
    ring
  · intro x hx
    have := h.lt_right x hx
    push_cast
    linarith

/-- A sample in the current bin. -/
theorem IsOpen.add (h : IsOpen width samples closed current k) (hleft : current.left ≤ t)
    (hright : t < current.right) :
    IsOpen width (samples ++ [(t, v)]) closed { current with amount := current.amount + v } k := by
  rw [h.current] at hleft hright ⊢
  have hleft : (k : Int) * width ≤ t := hleft
  have hright : t < ((k : Int) + 1) * width := hright
  refine ⟨?_, ?_, ?_⟩
  · rw [h.closed, bins, bins]
    refine List.map_congr_left fun j hj => ?_
    -- a closed bin is over at the left end of the current one
    have hj : (j : Int) + 1 ≤ k := by
      rw [List.mem_range] at hj
      omega
    have hover : ((j : Int) + 1) * width ≤ k * width := mul_le_mul_of_nonneg_right hj (by linarith)
    rw [bin, bin, amountIn_concat, if_neg (by omega), add_zero]
  · rw [bin, bin, amountIn_concat, if_pos ⟨hleft, hright⟩]
  · intro x hx
    rcases List.mem_append.mp hx with hx | hx
    · exact h.lt_right x hx
    · rw [List.mem_singleton.mp hx]
      exact hright

/-- With the current bin closed too, these are the bins. -/
theorem IsOpen.concat_eq (h : IsOpen width samples closed current k) :
    closed ++ [current] = bins width samples (k + 1) := by
  rw [bins_succ, h.closed, h.current]

end Binning
