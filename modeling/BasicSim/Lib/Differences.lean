import BasicSim.Lib.RunLength
import BasicSim.Lib.StepFunction
import Mathlib.Algebra.BigOperators.Group.List.Basic
import Mathlib.Algebra.Order.Ring.Int

/-!
# `Lib.Differences` — how much a value changes within an interval of time

A value is written down from time to time, and what is added up is the change from each entry to the next.

## Contents
- **Changes.** `differences`; within an interval they add up to the change of `lastUpdate` (`sum_differences_Ico`).
- **Run-length encodings.** Their left ends are entries of the function (`Encodes.lastUpdate_entriesTo`).
-/

namespace Differences

open RunLength StepFunction

/-! ## Changes -/

section Entries

variable {T V : Type} [LinearOrder T] {t τ : T} {v : V} {entries : List (T × V)}

theorem lastUpdate_cons_of_le (h : t ≤ τ) :
    lastUpdate ((t, v) :: entries) τ = some ((lastUpdate entries τ).getD v) := by
  unfold lastUpdate
  rw [List.filter_cons_of_pos (by simpa using h), List.getLast?_cons]
  cases (entries.filter fun u => u.1 ≤ τ).getLast? <;> rfl

theorem mem_of_lastUpdate (h : lastUpdate entries τ = some v) : ∃ t, (t, v) ∈ entries := by
  obtain ⟨e, he, rfl⟩ := Option.map_eq_some_iff.mp h
  exact ⟨e.1, (List.mem_filter.mp (List.mem_of_getLast? he)).1⟩

theorem lastUpdate_of_forall_le (h : ∀ e ∈ entries, e.1 ≤ τ) : lastUpdate entries τ = entries.getLast?.map Prod.snd := by
  unfold lastUpdate
  rw [List.filter_eq_self.mpr fun e he => decide_eq_true (h e he)]

theorem lastUpdate_eq_none (h : ∀ e ∈ entries, τ < e.1) : lastUpdate entries τ = none := by
  rw [← List.nil_append entries, lastUpdate_append_of_lt h]
  rfl

end Entries

section Changes

variable {T M : Type} [AddCommGroup M]

/-- The change from each entry to the next, the first one against a start value. -/
def differences (p : M) : List (T × M) → List (T × M)
  | [] => []
  | (t, v) :: entries => (t, v - p) :: differences v entries

@[simp] theorem map_fst_differences (p : M) (entries : List (T × M)) :
    (differences p entries).map Prod.fst = entries.map Prod.fst := by
  induction entries generalizing p with
  | nil => rfl
  | cons e entries ih => simp [differences, ih]

/-- Up to an instant, the changes add up to the value at it. -/
theorem sum_differences_le [LinearOrder T] {entries : List (T × M)} (h : entries.Pairwise fun u w => u.1 ≤ w.1)
    (p : M) (τ : T) :
    (((differences p entries).filter fun x => x.1 ≤ τ).map Prod.snd).sum = (lastUpdate entries τ).getD p - p := by
  induction entries generalizing p with
  | nil => simp [differences, lastUpdate]
  | cons e entries ih =>
      obtain ⟨t, v⟩ := e
      obtain ⟨hfirst, hrest⟩ := List.pairwise_cons.mp h
      by_cases ht : t ≤ τ
      · rw [differences, List.filter_cons_of_pos (by simpa using ht), List.map_cons, List.sum_cons, ih hrest,
          lastUpdate_cons_of_le ht, Option.getD_some]
        exact sub_add_sub_cancel' v p _
      · -- no later entry is within reach either
        have hlate : ∀ e ∈ (t, v) :: entries, τ < e.1 :=
          List.forall_mem_cons.mpr ⟨not_le.mp ht, fun e he => lt_of_lt_of_le (not_le.mp ht) (hfirst e he)⟩
        rw [lastUpdate_eq_none hlate, Option.getD_none, sub_self, List.filter_eq_nil_iff.mpr]
        · rfl
        · intro x hx
          have hmem : x.1 ∈ ((t, v) :: entries).map Prod.fst := by
            rw [← map_fst_differences p]
            exact List.mem_map_of_mem hx
          obtain ⟨e, he, heq⟩ := List.mem_map.mp hmem
          simpa [← heq] using hlate e he

/-- All changes together, by an instant that is not before any of the entries. -/
theorem sum_differences [LinearOrder T] {entries : List (T × M)} (h : entries.Pairwise fun u w => u.1 ≤ w.1) (p : M)
    {τ : T} (hall : ∀ e ∈ entries, e.1 ≤ τ) :
    ((differences p entries).map Prod.snd).sum = (lastUpdate entries τ).getD p - p := by
  rw [← sum_differences_le h, List.filter_eq_self.mpr]
  intro x hx
  have hmem : x.1 ∈ entries.map Prod.fst := by
    rw [← map_fst_differences p]
    exact List.mem_map_of_mem hx
  obtain ⟨e, he, heq⟩ := List.mem_map.mp hmem
  exact decide_eq_true (heq ▸ hall e he)

theorem ascendingFrom_differences [LinearOrder T] {a : T} {entries : List (T × M)} (h : AscendingFrom a entries)
    (p : M) : AscendingFrom a (differences p entries) := by
  obtain ⟨hasc, hfrom⟩ := h
  constructor
  · rw [← List.pairwise_map (f := Prod.fst), map_fst_differences]
    exact List.pairwise_map.mpr hasc
  · rw [← List.forall_mem_map (f := Prod.fst) (P := fun t => a ≤ t), map_fst_differences]
    exact List.forall_mem_map.mpr hfrom

end Changes

section Interval

variable {M : Type} [AddCommGroup M] {a b : Int}

/-- What is before `b` is before `a` or within `[a, b)`. -/
theorem sum_filter_Ico (l : List (Int × M)) (hab : a ≤ b) :
    ((l.filter fun x => x.1 ≤ b - 1).map Prod.snd).sum = ((l.filter fun x => x.1 ≤ a - 1).map Prod.snd).sum +
      ((l.filter fun x => decide (a ≤ x.1 ∧ x.1 < b)).map Prod.snd).sum := by
  induction l with
  | nil => simp
  | cons x l ih =>
      simp only [List.filter_cons, decide_eq_true_eq]
      rcases lt_or_ge x.1 a with hlt | hge
      · rw [if_pos (by omega), if_pos (by omega), if_neg (by omega)]
        simp only [List.map_cons, List.sum_cons, ih, add_assoc]
      · rw [if_neg (show ¬ x.1 ≤ a - 1 by omega)]
        by_cases hb : x.1 < b
        · rw [if_pos (by omega), if_pos ⟨hge, hb⟩]
          simp only [List.map_cons, List.sum_cons, ih, add_left_comm]
        · rw [if_neg (by omega), if_neg (by omega), ih]

/-- **Changes within an interval** add up to the change of the value over it. -/
theorem sum_differences_Ico {entries : List (Int × M)} (h : entries.Pairwise fun u w => u.1 ≤ w.1) (p : M)
    (hab : a ≤ b) :
    (((differences p entries).filter fun x => decide (a ≤ x.1 ∧ x.1 < b)).map Prod.snd).sum
      = (lastUpdate entries (b - 1)).getD p - (lastUpdate entries (a - 1)).getD p := by
  have hsplit := sum_filter_Ico (differences p entries) hab
  rw [sum_differences_le h, sum_differences_le h] at hsplit
  rw [← sub_eq_iff_eq_add'.mpr hsplit]
  exact sub_sub_sub_cancel_right _ _ p

end Interval

/-! ## Run-length encodings -/

section Encodings

variable {V : Type} {f : Int → Option V} {a b : Int} {l : List (Run Int V)}

/-- The runs as entries, and the last value once more at the end. -/
def entriesTo (b : Int) (l : List (Run Int V)) : List (Int × V) :=
  l.map (fun x => (x.left, x.value)) ++ (l.getLast?.map fun x => (b, x.value)).toList

theorem entriesTo_singleton (x : Run Int V) : entriesTo b [x] = [(x.left, x.value), (b, x.value)] := rfl

theorem entriesTo_cons (x y : Run Int V) : entriesTo b (x :: y :: l) = (x.left, x.value) :: entriesTo b (y :: l) := by
  rw [entriesTo, entriesTo, List.getLast?_cons_cons]
  rfl

theorem value_of_mem_entriesTo {e : Int × V} (h : e ∈ entriesTo b l) : ∃ x ∈ l, x.value = e.2 := by
  rcases List.mem_append.mp h with h | h
  · obtain ⟨x, hx, rfl⟩ := List.mem_map.mp h
    exact ⟨x, hx, rfl⟩
  · obtain ⟨x, hx, rfl⟩ := Option.map_eq_some_iff.mp (Option.mem_toList.mp h)
    exact ⟨x, List.mem_of_getLast? hx, rfl⟩

/-- The entries are within the interval. -/
theorem mem_entriesTo (h : Encodes f b a l) : ∀ e ∈ entriesTo b l, a ≤ e.1 ∧ e.1 ≤ b := by
  induction h with
  | nil => simp [entriesTo]
  | @cons a r v l hne _ _ htail ih =>
      have hrb := htail.le
      cases l with
      | nil =>
          rw [entriesTo_singleton]
          simp
          omega
      | cons y l =>
          rw [entriesTo_cons]
          refine List.forall_mem_cons.mpr ⟨⟨le_rfl, (le_of_lt hne).trans hrb⟩, fun e he => ?_⟩
          obtain ⟨hr, hb⟩ := ih e he
          exact ⟨by omega, hb⟩

theorem entriesTo_ascending (h : Encodes f b a l) : (entriesTo b l).Pairwise fun u w => u.1 ≤ w.1 := by
  induction h with
  | nil => simp [entriesTo]
  | @cons a r v l hne _ _ htail ih =>
      have hrb := htail.le
      cases l with
      | nil =>
          rw [entriesTo_singleton]
          simp
          omega
      | cons y l =>
          rw [entriesTo_cons]
          refine List.pairwise_cons.mpr ⟨fun e he => ?_, ih⟩
          exact (le_of_lt hne).trans (mem_entriesTo htail e he).1

/-- From the start on, the entries define the function up to the end of the encoding, and its last value from there
    on. -/
theorem lastUpdate_entriesTo_of_le (h : Encodes f b a l) (hab : a < b) {τ : Int} (hτ : a ≤ τ) :
    lastUpdate (entriesTo b l) τ = f (min τ (b - 1)) := by
  induction h with
  | nil => exact absurd hab (lt_irrefl b)
  | @cons a r v l hne hval hdiff htail ih =>
      have hrb := htail.le
      cases l with
      | nil =>
          obtain rfl : r = b := htail.eq_nil_iff.mp rfl
          rw [entriesTo_singleton, lastUpdate_cons_of_le hτ, hval _ (by omega) (by omega)]
          by_cases hr : r ≤ τ
          · rw [lastUpdate_cons_of_le hr]
            rfl
          · rw [lastUpdate_eq_none (by simpa using hr)]
            rfl
      | cons y l =>
          have hlt : r < b := lt_of_le_of_ne hrb fun heq => absurd (htail.eq_nil_iff.mpr heq) (List.cons_ne_nil y l)
          rw [entriesTo_cons, lastUpdate_cons_of_le hτ]
          by_cases hr : r ≤ τ
          · -- a later run holds at the instant
            obtain ⟨x, hx, hleft, hright⟩ := htail.isCanonical.covers (min τ (b - 1)) (by omega) (by omega)
            rw [ih hlt hr, htail.isCanonical.value x hx _ hleft hright]
            rfl
          · rw [lastUpdate_eq_none fun e he => lt_of_lt_of_le (not_le.mp hr) (mem_entriesTo htail e he).1,
              min_eq_left (by omega), hval τ hτ (not_le.mp hr)]
            rfl

/-- **The entries define the function** up to the end of the encoding, if it is not defined before its start. -/
theorem lastUpdate_entriesTo (h : Encodes f b a l) (hf : ∀ τ < a, f τ = none) (τ : Int) :
    lastUpdate (entriesTo b l) τ = f (min τ (b - 1)) := by
  rcases lt_or_ge τ a with hlt | hge
  · rw [hf _ (by omega), lastUpdate_eq_none fun e he => lt_of_lt_of_le hlt (mem_entriesTo h e he).1]
  · rcases lt_or_eq_of_le h.le with hab | rfl
    · exact lastUpdate_entriesTo_of_le h hab hge
    · rw [hf _ (by omega), h.eq_nil_iff.mpr rfl]
      rfl

end Encodings

end Differences
