import BasicSim.Lib.Fallible
import BasicSim.Tools.Plotting

/-!
# `Tools.Correctness.OutOfOrder` — which pings are out of order

The pass goes from the last entry to the first and knows of the entries behind it only the lowest timestamp of an
arrived reply. It starts with a timestamp of its own, which counts like a reply that nobody received.

## Contents
- **The pass.** `lowest`, `lowest_lt_iff`, `getElem?_isOutOfOrder`.
- **The result.** `MarkedExactly`, `out_of_order_exact_iff`.
-/

namespace BasicSim

open Fallible

variable {results : List PingResult} {entry : PingResult} {i : Nat} {t : Int}

/-! ## The pass -/

/-- `current_lowest_timestamp` after the entries. -/
def lowest (results : List PingResult) : Int := (results.foldr markOutOfOrder (initialLowestTimestamp, [])).1

theorem lowest_cons : lowest (entry :: results)
    = if entry.isLost = true then lowest results else min (lowest results) entry.receiveReplyTimestamp := by
  unfold lowest
  rw [List.foldr_cons]
  by_cases hlost : entry.isLost = true <;> simp [markOutOfOrder, hlost]

theorem isOutOfOrder_cons : isOutOfOrder (entry :: results)
    = (entry.isLost || decide (lowest results < entry.receiveReplyTimestamp)) :: isOutOfOrder results := by
  unfold isOutOfOrder lowest
  rw [List.foldr_cons]
  by_cases hlost : entry.isLost = true <;> simp [markOutOfOrder, hlost]

/-- A time is after the lowest timestamp if it is after one of the replies, or after what the pass starts with. -/
theorem lowest_lt_iff : lowest results < t ↔
    initialLowestTimestamp < t ∨ ∃ later ∈ results, later.isLost = false ∧ later.receiveReplyTimestamp < t := by
  induction results with
  | nil => simp [lowest]
  | cons entry results ih =>
      rw [lowest_cons]
      by_cases hlost : entry.isLost = true
      · rw [if_pos hlost, ih]
        simp [hlost]
      · rw [if_neg hlost, min_lt_iff, ih]
        simp only [Bool.not_eq_true] at hlost
        simp only [List.exists_mem_cons_iff, hlost, true_and, or_comm, or_left_comm]

/-- **Run lemma.** What an entry is marked with is decided by the entries behind it. -/
theorem getElem?_isOutOfOrder (h : results[i]? = some entry) : (isOutOfOrder results)[i]?
    = some (entry.isLost || decide (lowest (results.drop (i + 1)) < entry.receiveReplyTimestamp)) := by
  induction results generalizing i with
  | nil => simp at h
  | cons first results ih =>
      rw [isOutOfOrder_cons]
      cases i with
      | zero =>
          obtain rfl : first = entry := by simpa using h
          simp
      | succ i =>
          rw [List.getElem?_cons_succ] at h ⊢
          rw [ih h, List.drop_succ_cons]

/-! ## The result -/

/-- **What the marks must be**: an entry is marked if and only if it was lost, or the reply of a later one was
    received before its own. -/
def MarkedExactly (results : List PingResult) : Prop :=
  ∀ (i : Nat) entry, results[i]? = some entry → ((isOutOfOrder results)[i]? = some true ↔
    entry.isLost = true ∨ ∃ j later, i < j ∧ results[j]? = some later ∧ later.isLost = false ∧
      later.receiveReplyTimestamp < entry.receiveReplyTimestamp)

/-- The last of the pings that were not lost. -/
def lastArrived (results : List PingResult) : Option PingResult :=
  (results.filter fun entry => !entry.isLost).getLast?

/-- The entries behind an index. -/
theorem exists_mem_drop_iff {P : PingResult → Prop} : (∃ later ∈ results.drop (i + 1), P later) ↔
    ∃ j later, i < j ∧ results[j]? = some later ∧ P later := by
  simp only [List.mem_iff_getElem?, List.getElem?_drop]
  constructor
  · rintro ⟨later, ⟨k, hk⟩, hP⟩
    exact ⟨i + 1 + k, later, by omega, hk, hP⟩
  · rintro ⟨j, later, hj, hlater, hP⟩
    refine ⟨later, ⟨j - (i + 1), ?_⟩, hP⟩
    rwa [Nat.add_sub_cancel' hj]

/-- An entry is marked, beyond what it must be, if it comes after the timestamp that the pass starts with. -/
theorem isOutOfOrder_eq_true_iff (h : results[i]? = some entry) : (isOutOfOrder results)[i]? = some true ↔
    entry.isLost = true ∨ initialLowestTimestamp < entry.receiveReplyTimestamp ∨
      ∃ j later, i < j ∧ results[j]? = some later ∧ later.isLost = false ∧
        later.receiveReplyTimestamp < entry.receiveReplyTimestamp := by
  rw [getElem?_isOutOfOrder h, Option.some.injEq, Bool.or_eq_true, decide_eq_true_eq, lowest_lt_iff,
    exists_mem_drop_iff]

/-- Behind the last one that arrived, everything was lost. -/
theorem lastArrived_eq_some (h : lastArrived results = some entry) : entry.isLost = false ∧
    ∃ n : Nat, results[n]? = some entry ∧
      ∀ (j : Nat) (later : PingResult), n < j → results[j]? = some later → later.isLost = true := by
  obtain ⟨init, hfilter⟩ := List.getLast?_eq_some_iff.mp h
  obtain ⟨start, rest, rfl, -, hrest⟩ := List.filter_eq_append_iff.mp hfilter
  obtain ⟨before, behind, rfl, -, harrived, hbehind⟩ := List.filter_eq_cons_iff.mp hrest
  refine ⟨by simpa using harrived, (start ++ before).length, ?_, ?_⟩
  · simp [← List.append_assoc]
  · intro j later hj hlater
    rw [← List.append_assoc, List.getElem?_append_right hj.le, List.getElem?_cons, if_neg (by omega)] at hlater
    have hlost := List.filter_eq_nil_iff.mp hbehind later (List.mem_of_getElem? hlater)
    simpa using hlost

/-- If something arrived, something arrived last. -/
theorem exists_lastArrived (hi : results[i]? = some entry) (harrived : entry.isLost = false) :
    ∃ last, lastArrived results = some last := by
  have hmem : entry ∈ results.filter fun entry => !entry.isLost :=
    List.mem_filter.mpr ⟨List.mem_of_getElem? hi, by simp [harrived]⟩
  exact ⟨_, List.getLast?_eq_some_getLast (List.ne_nil_of_mem hmem)⟩

/-- **The marks are exact if and only if the last reply is not received after 10^15 ns.** -/
theorem out_of_order_exact_iff (results : List PingResult) : MarkedExactly results ↔
    ∀ entry, lastArrived results = some entry → entry.receiveReplyTimestamp ≤ 1000000000000000 := by
  constructor
  · intro hexact entry hlast
    obtain ⟨harrived, n, hn, hbehind⟩ := lastArrived_eq_some hlast
    by_contra hlate
    -- it is marked, and nothing that arrived comes behind it
    have hmarked := (isOutOfOrder_eq_true_iff hn).mpr (.inr (.inl (not_le.mp hlate)))
    rcases (hexact n entry hn).mp hmarked with hlost | ⟨j, later, hj, hlater, hlost, -⟩
    · simp [harrived] at hlost
    · simp [hbehind j later hj hlater] at hlost
  · intro hlast i entry hi
    rw [isOutOfOrder_eq_true_iff hi]
    refine or_congr_right' fun hlost => ⟨?_, .inr⟩
    rw [Bool.not_eq_true] at hlost
    rintro (hlate | hlater)
    · -- the last one that arrived is behind it, and was received before it
      obtain ⟨last, hlast'⟩ := exists_lastArrived hi hlost
      have hearly := hlast last hlast'
      have hlate : 1000000000000000 < entry.receiveReplyTimestamp := hlate
      obtain ⟨harrived, n, hn, hbehind⟩ := lastArrived_eq_some hlast'
      rcases Nat.lt_trichotomy i n with hlt | rfl | hgt
      · exact ⟨n, last, hlt, hn, harrived, by omega⟩
      · obtain rfl : entry = last := Option.some.inj (hi.symm.trans hn)
        omega
      · simp [hbehind i entry hgt hi] at hlost
    · exact hlater

/-- The only ping of a run, sent at 10^15 ns. -/
def latePing : PingResult := ⟨0, 1000000000000000, 1000000000000001, 1000000000000002, 1, 1, 2, false⟩

theorem late_ping_is_out_of_order : ¬ ∀ results : List PingResult,
    (∀ entry ∈ results, 0 ≤ entry.sendRequestTimestamp ∧ 0 ≤ entry.replyTimestamp ∧
      0 ≤ entry.receiveReplyTimestamp ∧ entry.receiveReplyTimestamp < 2 ^ 63) →
    (results.map PingResult.sendRequestTimestamp).Pairwise (· ≤ ·) → MarkedExactly results := by
  intro h
  have hexact := h [latePing] (by simp [latePing]) (by simp) 0 latePing rfl
  obtain hlost | ⟨j, later, hj, hlater, -⟩ := hexact.mp (by decide)
  · exact absurd hlost (by decide)
  · obtain ⟨j, rfl⟩ : ∃ k, j = k + 1 := ⟨j - 1, by omega⟩
    simp at hlater

end BasicSim
