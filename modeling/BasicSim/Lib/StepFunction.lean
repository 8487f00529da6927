import Mathlib.Data.Int.Interval
import Mathlib.Order.Interval.Finset.Basic

/-!
# `Lib.StepFunction` — a value that is set from time to time

`lastUpdate` is the function of time that a list of timed updates defines. `onTime` measures how long a
condition on integer time holds within an interval.
-/

namespace StepFunction

/-! ## Timed updates -/

section Updates

variable {T V : Type} [LinearOrder T] {ups : List (T × V)} {u : T × V} {τ t : T} {v : V}

/-- The value of the last update at or before `τ`. -/
def lastUpdate (ups : List (T × V)) (τ : T) : Option V :=
  ((ups.filter fun u => u.1 ≤ τ).getLast?).map Prod.snd

/-- Updates that come after an instant do not matter for it. -/
theorem lastUpdate_append_of_lt {ups' : List (T × V)} (h : ∀ w ∈ ups', τ < w.1) :
    lastUpdate (ups ++ ups') τ = lastUpdate ups τ := by
  have hnil : (ups'.filter fun u => u.1 ≤ τ) = [] :=
    List.filter_eq_nil_iff.mpr fun w hw => by simpa using h w hw
  unfold lastUpdate
  rw [List.filter_append, hnil, List.append_nil]

theorem lastUpdate_concat_of_lt (h : τ < u.1) : lastUpdate (ups ++ [u]) τ = lastUpdate ups τ :=
  lastUpdate_append_of_lt fun w hw => by rwa [List.mem_singleton.mp hw]

theorem lastUpdate_concat_of_le (h : u.1 ≤ τ) : lastUpdate (ups ++ [u]) τ = some u.2 := by
  unfold lastUpdate
  rw [List.filter_append, List.filter_cons_of_pos (by simpa using h), List.filter_nil,
    List.getLast?_concat]
  rfl

/-- From the last update on, its value is the value. -/
theorem lastUpdate_of_getLast (hlast : ups.getLast? = some (t, v)) (hτ : t ≤ τ) :
    lastUpdate ups τ = some v := by
  obtain ⟨init, rfl⟩ : ∃ init, ups = init ++ [(t, v)] := List.getLast?_eq_some_iff.mp hlast
  exact lastUpdate_concat_of_le hτ

/-- Between the last update and a new one, the value is that of the last. -/
theorem lastUpdate_between (hlast : ups.getLast? = some (t, v)) (hτ : t ≤ τ) (hu : τ < u.1) :
    lastUpdate (ups ++ [u]) τ = some v := by
  rw [lastUpdate_concat_of_lt hu, lastUpdate_of_getLast hlast hτ]

/-- Updates at weakly ascending times from `a` on. -/
structure AscendingFrom (a : T) (ups : List (T × V)) : Prop where
  ascending : ups.Pairwise fun u w => u.1 ≤ w.1
  from_le : ∀ u ∈ ups, a ≤ u.1

variable {a : T}

theorem AscendingFrom.left {ups' : List (T × V)} (h : AscendingFrom a (ups ++ ups')) :
    AscendingFrom a ups :=
  ⟨(List.pairwise_append.mp h.ascending).1, fun w hw => h.from_le w (List.mem_append_left _ hw)⟩

/-- An update is not before the ones that come earlier in the list. -/
theorem AscendingFrom.le_of_append {ups' : List (T × V)} (h : AscendingFrom a (ups ++ u :: ups'))
    {w : T × V} (hw : w ∈ ups) : w.1 ≤ u.1 :=
  (List.pairwise_append.mp h.ascending).2.2 w hw u List.mem_cons_self

/-- The last update is the latest. -/
theorem AscendingFrom.le_last (h : AscendingFrom a ups) (hlast : ups.getLast? = some (t, v))
    {w : T × V} (hw : w ∈ ups) : w.1 ≤ t := by
  obtain ⟨init, rfl⟩ : ∃ init, ups = init ++ [(t, v)] := List.getLast?_eq_some_iff.mp hlast
  rcases List.mem_append.mp hw with hw | hw
  · exact h.le_of_append hw
  · rw [List.mem_singleton.mp hw]

end Updates

/-! ## The time that a condition holds -/

section OnTime

variable {on : Int → Bool} {a b c : Int}

/-- How many instants of `[a, b)` satisfy the condition. -/
def onTime (on : Int → Bool) (a b : Int) : Int :=
  -- the instance is named because there are others that cannot be computed
  ((@Finset.Ico Int _ Int.instLocallyFiniteOrder a b).filter fun τ => on τ = true).card

@[simp] theorem onTime_self (on : Int → Bool) (a : Int) : onTime on a a = 0 := by
  rw [onTime, Finset.Ico_self, Finset.filter_empty, Finset.card_empty]
  rfl

theorem onTime_nonneg (on : Int → Bool) (a b : Int) : 0 ≤ onTime on a b := Int.natCast_nonneg _

theorem onTime_le (on : Int → Bool) (h : a ≤ b) : onTime on a b ≤ b - a := by
  rw [← Int.card_Ico_of_le a b h]
  exact Int.ofNat_le.mpr (Finset.card_filter_le _ _)

/-- Adjacent intervals add up. -/
theorem onTime_add (on : Int → Bool) (hab : a ≤ b) (hbc : b ≤ c) :
    onTime on a b + onTime on b c = onTime on a c := by
  unfold onTime
  rw [← Finset.Ico_union_Ico_eq_Ico hab hbc, Finset.filter_union, Finset.card_union_of_disjoint
    (Finset.disjoint_filter_filter (Finset.Ico_disjoint_Ico_consecutive a b c)), Int.natCast_add]

theorem onTime_of_on (h : a ≤ b) (hon : ∀ τ, a ≤ τ → τ < b → on τ = true) : onTime on a b = b - a := by
  unfold onTime
  rw [Finset.filter_true_of_mem fun τ hτ => ?_, Int.card_Ico_of_le a b h]
  exact hon τ (Finset.mem_Ico.mp hτ).1 (Finset.mem_Ico.mp hτ).2

theorem onTime_of_off (hoff : ∀ τ, a ≤ τ → τ < b → on τ = false) : onTime on a b = 0 := by
  unfold onTime
  rw [Finset.filter_false_of_mem fun τ hτ => ?_, Finset.card_empty]
  · rfl
  · rw [hoff τ (Finset.mem_Ico.mp hτ).1 (Finset.mem_Ico.mp hτ).2]
    exact Bool.false_ne_true

end OnTime

end StepFunction
