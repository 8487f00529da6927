import BasicSim.Core.NetDeviceUtilizationTracker
import BasicSim.Lib.StepFunction
import Mathlib.Algebra.Order.Floor.Ring
import Mathlib.Data.Rat.Floor

/-!
# `Core.Correctness.NetDeviceUtilizationTracker` — busy time is measured exactly

The end of the interval that contains the current time must be a 64-bit number; nothing else is needed.

## Contents
- **The invariant.** `Tracks`.
- **One interval.** `addUntil_spec`, `nextInterval_spec`.
- **The loop and the callbacks.** `nextIntervals_spec`, `trackUtilization_spec`.
- **A whole run.** `IsUtilization`, `callbacks_spec`, `finalizeUtilization_spec`, `utilization_exact_iff`.
-/

namespace BasicSim

open Fallible StepFunction

namespace NetDeviceUtilizationTracker

/-- The end of the interval that contains the time. -/
def endOfInterval (intervalNs time : Int) : Int := (time / intervalNs + 1) * intervalNs

/-! ## The invariant -/

/-- **The invariant**: every interval that is over is saved, and the counters belong to the current one up
    to the previous time. The device is on at the instants of `on`. -/
structure Tracks (on : Int → Bool) (intervalNs : Int) (s : NetDeviceUtilizationTracker) : Prop where
  interval : s.intervalNs = intervalNs
  start : s.currentIntervalStart = s.intervals.length * intervalNs
  end_ : s.currentIntervalEnd = s.currentIntervalStart + intervalNs
  start_le : s.currentIntervalStart ≤ s.prevTimeNs
  prev_lt : s.prevTimeNs < s.currentIntervalEnd
  end_lt : s.currentIntervalEnd < 2 ^ 63
  busy : s.busyTimeCounterNs = onTime on s.currentIntervalStart s.prevTimeNs
  idle : s.idleTimeCounterNs + s.busyTimeCounterNs = s.prevTimeNs - s.currentIntervalStart
  intervals : ∀ (k : Nat) x, s.intervals[k]? = some x →
    x = ⟨k * intervalNs, (k + 1) * intervalNs, onTime on (k * intervalNs) ((k + 1) * intervalNs)⟩

variable {on : Int → Bool} {I : Int} {s : NetDeviceUtilizationTracker} {next : Bool} {now : Int}

theorem Tracks.start_nonneg (h : Tracks on I s) (hI : 1 ≤ I) : 0 ≤ s.currentIntervalStart := by
  rw [h.start]
  exact mul_nonneg (Int.natCast_nonneg _) (by omega)

/-- The current interval ends at the end of the interval of every time in it. -/
theorem Tracks.endOfInterval_eq (h : Tracks on I s) (hI : 1 ≤ I) (hstart : s.currentIntervalStart ≤ now)
    (hend : now < s.currentIntervalEnd) : endOfInterval I now = s.currentIntervalEnd := by
  have hdiv : now / I = s.intervals.length := by
    rw [Int.ediv_eq_iff_of_pos (by omega), ← h.start, ← h.end_]
    exact ⟨hstart, hend⟩
  rw [endOfInterval, hdiv, add_mul, one_mul, ← h.start, ← h.end_]

/-- Past the current interval, the end of the interval is later. -/
theorem Tracks.le_endOfInterval (h : Tracks on I s) (hI : 1 ≤ I) (hnow : s.currentIntervalEnd ≤ now) :
    s.currentIntervalEnd + I ≤ endOfInterval I now := by
  have hdiv : (s.intervals.length + 1 : Int) ≤ now / I := by
    rw [Int.le_ediv_iff_mul_le (by omega), add_mul, one_mul, ← h.start, ← h.end_]
    exact hnow
  have hmul := mul_le_mul_of_nonneg_right hdiv (by omega : 0 ≤ I)
  rw [add_mul, one_mul, ← h.start, ← h.end_] at hmul
  rw [endOfInterval, add_mul, one_mul]
  omega

theorem endOfInterval_mono {time : Int} (hI : 1 ≤ I) (h : now ≤ time) :
    endOfInterval I now ≤ endOfInterval I time :=
  mul_le_mul_of_nonneg_right (by have := Int.ediv_le_ediv (show 0 < I by omega) h; omega) (by omega)

/-! ## One interval -/

/-- The time since the previous time goes to the counter of the state that the device was in. -/
theorem addUntil_spec (h : Tracks on I s) (hI : 1 ≤ I) {time : Int} (hprev : s.prevTimeNs ≤ time)
    (hend : time ≤ s.currentIntervalEnd) (hon : ∀ τ, s.prevTimeNs ≤ τ → τ < time → on τ = !next) :
    ∃ idle busy, s.addUntil next time
        = .ok { s with idleTimeCounterNs := idle, busyTimeCounterNs := busy } ∧
      busy = onTime on s.currentIntervalStart time ∧ idle + busy = time - s.currentIntervalStart ∧
      0 ≤ idle ∧ 0 ≤ busy := by
  have hstart := h.start_nonneg hI
  have hstart_le := h.start_le
  have hlt := h.end_lt
  have hidle := h.idle
  have hbusy_nonneg : 0 ≤ s.busyTimeCounterNs := h.busy ▸ onTime_nonneg _ _ _
  have hbusy_le : s.busyTimeCounterNs ≤ s.prevTimeNs - s.currentIntervalStart :=
    h.busy ▸ onTime_le on h.start_le
  have hadd := onTime_add on h.start_le hprev
  rw [← h.busy] at hadd
  unfold addUntil
  cases next with
  | true =>
      rw [if_pos rfl, int64_of_mem ⟨by omega, by omega⟩, ok_bind, int64_of_mem ⟨by omega, by omega⟩, ok_bind]
      rw [onTime_of_off hon, add_zero] at hadd
      exact ⟨_, s.busyTimeCounterNs, rfl, hadd, by omega, by omega, hbusy_nonneg⟩
  | false =>
      rw [if_neg (by decide), int64_of_mem ⟨by omega, by omega⟩, ok_bind, int64_of_mem ⟨by omega, by omega⟩,
        ok_bind]
      rw [onTime_of_on hprev hon] at hadd
      exact ⟨s.idleTimeCounterNs, _, rfl, hadd, by omega, by omega, by omega⟩

/-- **Step lemma.** The loop goes round once: it overflows, or the current interval is saved. -/
theorem nextInterval_spec (h : Tracks on I s) (hI : 1 ≤ I)
    (hon : ∀ τ, s.prevTimeNs ≤ τ → τ < s.currentIntervalEnd → on τ = !next) :
    if s.currentIntervalEnd + I < 2 ^ 63 then
      ∃ s', s.nextInterval next = .ok s' ∧ Tracks on I s' ∧ s'.prevTimeNs = s.currentIntervalEnd ∧
        s'.currentIntervalEnd = s.currentIntervalEnd + I ∧ s'.currentStateIsOn = s.currentStateIsOn
    else ∃ what, s.nextInterval next = .error (.undefined what) := by
  obtain ⟨idle, busy, hadd, hbusy, hsum, hidle0, hbusy0⟩ :=
    addUntil_spec h hI (le_of_lt h.prev_lt) le_rfl hon
  have hstart := h.start_nonneg hI
  have hend := h.end_
  have hlt := h.end_lt
  -- the two counters fill the interval, so the check of the source passes
  have hmatch : idle + busy = s.intervalNs := by rw [hsum, h.interval]; omega
  unfold nextInterval
  rw [hadd, ok_bind]
  simp only [hmatch, h.interval]
  rw [int64_of_mem ⟨by omega, by omega⟩, ok_bind, throwIf_of_not (by simp), ok_bind,
    int64_of_mem ⟨by omega, by omega⟩, ok_bind]
  split
  · next hfit =>
      rw [int64_of_mem ⟨by omega, by omega⟩, ok_bind]
      have hlen : ((s.intervals ++ [⟨s.currentIntervalStart, s.currentIntervalEnd, busy⟩] :
          List UtilizationInterval).length : Int) * I = s.currentIntervalStart + I := by
        rw [List.length_append, List.length_singleton, Int.natCast_add, Int.natCast_one, add_mul, one_mul,
          ← h.start]
      refine ⟨_, rfl, ⟨rfl, hlen.symm, ?_, ?_, ?_, hfit, ?_, ?_, ?_⟩, rfl, rfl, rfl⟩
      · show s.currentIntervalEnd + I = s.currentIntervalStart + I + I
        omega
      · show s.currentIntervalStart + I ≤ s.currentIntervalEnd
        omega
      · show s.currentIntervalEnd < s.currentIntervalEnd + I
        omega
      · show 0 = onTime on (s.currentIntervalStart + I) s.currentIntervalEnd
        rw [hend, onTime_self]
      · show (0 : Int) + 0 = s.currentIntervalEnd - (s.currentIntervalStart + I)
        omega
      · -- the interval that is pushed has the on-time of its own length; the others are as before
        intro k x hk
        rcases Nat.lt_trichotomy k s.intervals.length with hlt' | rfl | hgt
        · rw [List.getElem?_append_left hlt'] at hk
          exact h.intervals k x hk
        · rw [List.getElem?_concat_length, Option.some.injEq] at hk
          rw [← hk, hbusy, add_mul, one_mul, ← h.start, ← hend]
        · rw [List.getElem?_eq_none (by simp; omega)] at hk
          cases hk
  · -- the end of the next interval overflows
    next hover =>
      rw [int64_of_not_mem (fun hmem => hover hmem.2)]
      exact ⟨_, rfl⟩

/-! ## The loop and the callbacks -/

/-- **Run lemma.** The loop: it overflows, or the current interval comes to contain the current time. -/
theorem nextIntervals_spec (hI : 1 ≤ I) (fuel : Nat) :
    ∀ {s : NetDeviceUtilizationTracker}, Tracks on I s → s.prevTimeNs ≤ now →
      (∀ τ, s.prevTimeNs ≤ τ → τ < now → on τ = !next) → now - s.currentIntervalEnd + 1 < fuel → 0 < fuel →
      if endOfInterval I now < 2 ^ 63 then
        ∃ s', nextIntervals now next fuel s = .ok s' ∧ Tracks on I s' ∧ s.prevTimeNs ≤ s'.prevTimeNs ∧
          s'.prevTimeNs ≤ now ∧ now < s'.currentIntervalEnd ∧ s'.currentStateIsOn = s.currentStateIsOn
      else ∃ what, nextIntervals now next fuel s = .error (.undefined what) := by
  induction fuel with
  | zero => exact fun _ _ _ _ h => absurd h (Nat.lt_irrefl 0)
  | succ fuel ih =>
      intro s h hprev hon hfuel _
      rw [nextIntervals]
      -- the turns that are left suffice, since each moves the end of the interval by at least one
      by_cases hnow : now ≥ s.currentIntervalEnd
      · rw [if_pos hnow]
        have hle := h.le_endOfInterval hI hnow
        have hstep := nextInterval_spec h hI fun τ hτ hlt => hon τ hτ (by omega)
        split at hstep
        · next hfit =>
            obtain ⟨s', hs', h', hprev', hend', hstate'⟩ := hstep
            have hlt := h.prev_lt
            have hrest := ih h' (by omega) (fun τ hτ hlt => hon τ (by omega) hlt) (by omega) (by omega)
            rw [hs', ok_bind]
            split at hrest
            · next hfit' =>
                rw [if_pos hfit']
                obtain ⟨s'', hs'', h'', hle'', hrest⟩ := hrest
                exact ⟨s'', hs'', h'', by omega, by rw [← hstate']; exact hrest⟩
            · next hover => rwa [if_neg hover]
        · next hover =>
            obtain ⟨what, hwhat⟩ := hstep
            rw [hwhat, if_neg (by omega)]
            exact ⟨what, rfl⟩
      · rw [if_neg hnow]
        have hstart := h.start_le
        rw [if_pos (by rw [h.endOfInterval_eq hI (by omega) (by omega)]; exact h.end_lt)]
        exact ⟨s, rfl, h, le_rfl, hprev, by omega, rfl⟩

/-- What holds after a call at the time `now`. -/
theorem trackUtilization_spec (h : Tracks on I s) (hI : 1 ≤ I) (hprev : s.prevTimeNs ≤ now)
    (hon : ∀ τ, s.prevTimeNs ≤ τ → τ < now → on τ = !next) :
    if endOfInterval I now < 2 ^ 63 then
      ∃ s', s.trackUtilization now next = .ok s' ∧ Tracks on I s' ∧ s'.prevTimeNs = now ∧
        s'.currentStateIsOn = next
    else ∃ what, s.trackUtilization now next = .error (.undefined what) := by
  have hloop := nextIntervals_spec hI ((now - s.currentIntervalEnd + 1).toNat + 1) h hprev hon (by omega)
    (by omega)
  unfold trackUtilization
  split at hloop
  · next hfit =>
      obtain ⟨s', hs', h', hle, hle', hlt, -⟩ := hloop
      rw [if_pos hfit, hs', ok_bind]
      obtain ⟨idle, busy, hadd, hbusy, hsum, -, -⟩ := addUntil_spec h' hI hle' (le_of_lt hlt)
        fun τ hτ hlt => hon τ (by omega) hlt
      rw [hadd, ok_bind]
      exact ⟨_, rfl, ⟨h'.interval, h'.start, h'.end_, h'.start_le.trans hle', hlt, h'.end_lt, hbusy, hsum,
        h'.intervals⟩, rfl, rfl⟩
  · next hover =>
      obtain ⟨what, hwhat⟩ := hloop
      rw [if_neg hover, hwhat]
      exact ⟨what, rfl⟩

/-! ## A whole run -/

/-- Begin and end of transmission alternate, from a begin on. -/
def IsAlternating (events : List (Int × Bool)) : Prop :=
  ∀ (k : Nat) e, events[k]? = some e → e.2 = decide (k % 2 = 0)

/-- Whether the device transmits at an instant: the last callback until then was a begin. -/
def isOn (events : List (Int × Bool)) (τ : Int) : Bool := (lastUpdate events τ).getD false

/-- **What the result must be**, for a device that is on at the instants of `on`. -/
structure IsUtilization (on : Int → Bool) (intervalNs endNs : Int) (l : List UtilizationInterval) : Prop where
  length : (l.length : Int) = ⌈(endNs : ℚ) / intervalNs⌉
  interval : ∀ (k : Nat) x, l[k]? = some x →
    x.startNs = k * intervalNs ∧ x.endNs = min ((k + 1) * intervalNs) endNs
  contiguous : ∀ (k : Nat) x y, l[k]? = some x → l[k + 1]? = some y → x.endNs = y.startNs
  covers : ∀ τ : Int, 0 ≤ τ ∧ τ < endNs ↔ ∃ x ∈ l, x.startNs ≤ τ ∧ τ < x.endNs
  busy : ∀ x ∈ l, x.busyNs = onTime on x.startNs x.endNs
  busy_mem : ∀ x ∈ l, 0 ≤ x.busyNs ∧ x.busyNs ≤ x.endNs - x.startNs

/-- The time of the last callback, or the start. -/
def lastTime (events : List (Int × Bool)) : Int := (events.getLast?.map Prod.fst).getD 0

/-- The state that the last callback began, or the first state. -/
def lastState (events : List (Int × Bool)) : Bool := (events.getLast?.map Prod.snd).getD false

/-- Between the callbacks that are done and the ones to come the state is that of the last one. -/
theorem isOn_of_between {done todo : List (Int × Bool)} {τ : Int} (hdone : lastTime done ≤ τ)
    (htodo : ∀ w ∈ todo, τ < w.1) : isOn (done ++ todo) τ = lastState done := by
  unfold isOn lastState
  rw [lastUpdate_append_of_lt htodo]
  cases hlast : done.getLast? with
  | none =>
      rw [List.getLast?_eq_none_iff.mp hlast]
      rfl
  | some w =>
      have hle : w.1 ≤ τ := by simpa [lastTime, hlast] using hdone
      rw [lastUpdate_of_getLast hlast hle]
      rfl

/-- A callback ends the state that the last one began. -/
theorem IsAlternating.lastState_eq {done todo : List (Int × Bool)} {e : Int × Bool}
    (h : IsAlternating (done ++ e :: todo)) : lastState done = !e.2 := by
  have he : e.2 = decide (done.length % 2 = 0) :=
    h done.length e (by rw [List.getElem?_append_right le_rfl, Nat.sub_self]; rfl)
  rcases List.eq_nil_or_concat done with rfl | ⟨init, w, rfl⟩
  · rw [he]
    rfl
  · have hw : w.2 = decide (init.length % 2 = 0) := h init.length w (by simp)
    have hlast : lastState (init.concat w) = w.2 := by simp [lastState]
    rw [hlast, hw, he, List.length_concat]
    by_cases heven : init.length % 2 = 0
    · simp [heven, Nat.add_mod]
    · have hodd : init.length % 2 = 1 := by omega
      simp [hodd, Nat.add_mod]

theorem lastTime_le {events : List (Int × Bool)} {T : Int} (hT : 0 ≤ T) (h : ∀ e ∈ events, e.1 ≤ T) :
    lastTime events ≤ T := by
  unfold lastTime
  cases hlast : events.getLast? with
  | none => exact hT
  | some w => exact h w (List.mem_of_getLast? hlast)

/-- The tracker starts within the first interval. -/
theorem tracks_create (hI : 1 ≤ I) (hI64 : I < 2 ^ 63) : Tracks on I (create I) where
  interval := rfl
  start := (zero_mul I).symm
  end_ := (zero_add I).symm
  start_le := le_rfl
  prev_lt := show 0 < I by omega
  end_lt := hI64
  busy := (onTime_self on 0).symm
  idle := rfl
  intervals := fun _ _ hk => nomatch hk

/-- The number of intervals, from the multiples of the length around the end. -/
theorem eq_ceil_of_mul {T z : Int} (hI : 1 ≤ I) (hlt : (z - 1) * I < T) (hle : T ≤ z * I) :
    z = ⌈(T : ℚ) / I⌉ := by
  have hpos : (0 : ℚ) < I := by exact_mod_cast (by omega : 0 < I)
  refine (Int.ceil_eq_iff.mpr ⟨?_, ?_⟩).symm
  · rw [lt_div_iff₀ hpos]
    exact_mod_cast hlt
  · rw [div_le_iff₀ hpos]
    exact_mod_cast hle

/-- The result as a whole, from the number of intervals and the shape of each. -/
theorem isUtilization_of_shape {T : Int} {l : List UtilizationInterval} (hI : 1 ≤ I)
    (hlt : ((l.length : Int) - 1) * I < T) (hle : T ≤ l.length * I)
    (hshape : ∀ (k : Nat) x, l[k]? = some x →
      x.startNs = k * I ∧ x.endNs = min ((k + 1) * I) T ∧ x.busyNs = onTime on x.startNs x.endNs) :
    IsUtilization on I T l := by
  -- an interval of the result begins before the end
  have hstart : ∀ (k : Nat), k < l.length → (k : Int) * I < T := by
    intro k hk
    have := mul_le_mul_of_nonneg_right (by omega : (k : Int) ≤ l.length - 1) (by omega : 0 ≤ I)
    omega
  have hmem : ∀ x ∈ l, ∃ k : Nat, l[k]? = some x ∧ (k : Int) * I < T ∧
      x.startNs = k * I ∧ x.endNs = min ((k + 1) * I) T ∧ x.busyNs = onTime on x.startNs x.endNs := by
    intro x hx
    obtain ⟨k, hk⟩ := List.mem_iff_getElem?.mp hx
    exact ⟨k, hk, hstart k (List.getElem?_eq_some_iff.mp hk).1, hshape k x hk⟩
  refine ⟨eq_ceil_of_mul hI hlt hle, fun k x hk => ⟨(hshape k x hk).1, (hshape k x hk).2.1⟩, ?_, ?_,
    fun x hx => (hmem x hx).choose_spec.2.2.2.2, ?_⟩
  · intro k x y hx hy
    have hlast := hstart (k + 1) (List.getElem?_eq_some_iff.mp hy).1
    push_cast at hlast
    rw [(hshape k x hx).2.1, (hshape (k + 1) y hy).1, min_eq_left (le_of_lt hlast)]
    push_cast
    rfl
  · intro τ
    constructor
    · rintro ⟨hτ, hτT⟩
      -- the instant lies in the interval whose index is the quotient
      have hdiv0 : 0 ≤ τ / I := Int.ediv_nonneg hτ (by omega)
      have hdiv : τ / I < l.length := by
        rw [Int.ediv_lt_iff_lt_mul (by omega)]
        omega
      obtain ⟨k, hk⟩ := Int.eq_ofNat_of_zero_le hdiv0
      have hklt : k < l.length := by omega
      have hbounds := (Int.ediv_eq_iff_of_pos (by omega)).mp hk
      refine ⟨l[k], List.getElem_mem hklt, ?_⟩
      obtain ⟨hs, he, -⟩ := hshape k l[k] (List.getElem?_eq_getElem hklt)
      rw [hs, he]
      refine ⟨hbounds.1, lt_min ?_ hτT⟩
      rw [add_mul, one_mul]
      exact hbounds.2
    · rintro ⟨x, hx, hle', hlt'⟩
      obtain ⟨k, -, -, hs, he, -⟩ := hmem x hx
      rw [hs] at hle'
      rw [he] at hlt'
      have := mul_nonneg (Int.natCast_nonneg k) (by omega : 0 ≤ I)
      have := lt_of_lt_of_le hlt' (min_le_right _ _)
      omega
  · intro x hx
    obtain ⟨k, -, hkT, hs, he, hbusy⟩ := hmem x hx
    rw [hbusy]
    refine ⟨onTime_nonneg _ _ _, onTime_le on ?_⟩
    rw [hs, he]
    refine le_min ?_ (le_of_lt hkT)
    rw [add_mul, one_mul]
    omega

/-- The intervals that are saved and the rest of the current one are the result. -/
theorem Tracks.isUtilization (h : Tracks on I s) (hI : 1 ≤ I) :
    IsUtilization on I s.prevTimeNs (if s.prevTimeNs ≠ s.currentIntervalStart then
      s.intervals ++ [⟨s.currentIntervalStart, s.prevTimeNs, s.busyTimeCounterNs⟩] else s.intervals) := by
  have hstart := h.start_nonneg hI
  have hle := h.start_le
  have hlt := h.prev_lt
  have hend := h.end_
  -- a saved interval ends before the current one begins
  have hsaved : ∀ (k : Nat) x, s.intervals[k]? = some x → x.startNs = k * I ∧
      x.endNs = min ((k + 1) * I) s.prevTimeNs ∧ x.busyNs = onTime on x.startNs x.endNs := by
    intro k x hk
    have hklt := (List.getElem?_eq_some_iff.mp hk).1
    have hmul := mul_le_mul_of_nonneg_right (by omega : (k : Int) + 1 ≤ s.intervals.length)
      (by omega : 0 ≤ I)
    rw [← h.start] at hmul
    rw [h.intervals k x hk]
    exact ⟨rfl, (min_eq_left (hmul.trans hle)).symm, rfl⟩
  split
  · next hne =>
      refine isUtilization_of_shape hI ?_ ?_ ?_
      · rw [List.length_append, List.length_singleton, Int.natCast_add, Int.natCast_one, add_sub_cancel_right,
          ← h.start]
        omega
      · rw [List.length_append, List.length_singleton, Int.natCast_add, Int.natCast_one, add_mul, one_mul,
          ← h.start]
        omega
      · intro k x hk
        rcases Nat.lt_trichotomy k s.intervals.length with hlt' | rfl | hgt
        · rw [List.getElem?_append_left hlt'] at hk
          exact hsaved k x hk
        · rw [List.getElem?_concat_length, Option.some.injEq] at hk
          rw [← hk, add_mul, one_mul, ← h.start, ← hend]
          exact ⟨rfl, (min_eq_right (le_of_lt hlt)).symm, h.busy⟩
        · rw [List.getElem?_eq_none (by simp; omega)] at hk
          cases hk
  · next heq =>
      have heq : s.prevTimeNs = s.currentIntervalStart := not_not.mp heq
      refine isUtilization_of_shape hI ?_ ?_ hsaved
      · rw [sub_mul, one_mul, ← h.start]
        omega
      · rw [← h.start, heq]

/-- The call that a finalisation begins with: the device stays in its state until the end. -/
theorem completeUtilization_spec {T : Int} (h : Tracks on I s) (hI : 1 ≤ I) (hprev : s.prevTimeNs ≤ T)
    (hon : ∀ τ, s.prevTimeNs ≤ τ → τ < T → on τ = s.currentStateIsOn) :
    if endOfInterval I T < 2 ^ 63 then
      ∃ s', s.trackUtilization T (!s.currentStateIsOn) = .ok s' ∧ Tracks on I s' ∧ s'.prevTimeNs = T
    else ∃ what, s.trackUtilization T (!s.currentStateIsOn) = .error (.undefined what) := by
  have hon' : ∀ τ, s.prevTimeNs ≤ τ → τ < T → on τ = !(!s.currentStateIsOn) := fun τ hτ hlt => by
    rw [Bool.not_not]
    exact hon τ hτ hlt
  have htrack := trackUtilization_spec h hI hprev hon'
  split at htrack
  · next hfit =>
      obtain ⟨s', hs', h', hprev', -⟩ := htrack
      rw [if_pos hfit]
      exact ⟨s', hs', h', hprev'⟩
  · next hover => rwa [if_neg hover]

/-- The finalisation: it overflows, or the result is exact. -/
theorem finalizeUtilization_spec {T : Int} (h : Tracks on I s) (hI : 1 ≤ I) (hprev : s.prevTimeNs ≤ T)
    (hon : ∀ τ, s.prevTimeNs ≤ τ → τ < T → on τ = s.currentStateIsOn) :
    if endOfInterval I T < 2 ^ 63 then ∃ l, s.finalizeUtilization T = .ok l ∧ IsUtilization on I T l
    else ∃ what, s.finalizeUtilization T = .error (.undefined what) := by
  have htrack := completeUtilization_spec h hI hprev hon
  unfold finalizeUtilization
  split at htrack
  · next hfit =>
      obtain ⟨s', hs', h', hprev'⟩ := htrack
      have hutil := h'.isUtilization hI
      rw [hprev'] at hutil
      rw [if_pos hfit, hs', ok_bind]
      split at hutil
      · next hne => exact ⟨_, if_pos hne, hutil⟩
      · next heq => exact ⟨_, if_neg heq, hutil⟩
  · next hover =>
      obtain ⟨what, hwhat⟩ := htrack
      rw [if_neg hover, hwhat]
      exact ⟨what, rfl⟩

/-- The device is in the state that each callback ends. -/
def Explains (on : Int → Bool) (events : List (Int × Bool)) : Prop :=
  ∀ done e todo, events = done ++ e :: todo → ∀ τ, lastTime done ≤ τ → τ < e.1 → on τ = !e.2

/-- The callbacks from one on are not before it. -/
theorem later_le {events done todo : List (Int × Bool)} {e : Int × Bool} (hasc : AscendingFrom 0 events)
    (hsplit : events = done ++ e :: todo) : ∀ w ∈ e :: todo, e.1 ≤ w.1 := by
  rintro w (_ | ⟨_, hw⟩)
  · exact le_rfl
  · rw [hsplit] at hasc
    exact (List.pairwise_cons.mp (List.pairwise_append.mp hasc.ascending).2.1).1 w hw

theorem explains_isOn {events : List (Int × Bool)} (hasc : AscendingFrom 0 events) (halt : IsAlternating events) :
    Explains (isOn events) events := by
  rintro done e todo rfl τ hτ hlt
  rw [isOn_of_between hτ fun w hw => lt_of_lt_of_le hlt (later_le hasc rfl w hw), halt.lastState_eq]

/-- **Run lemma.** After all callbacks the invariant holds, unless one has overflowed. -/
theorem callbacks_spec {events : List (Int × Bool)} {T : Int} (hI : 1 ≤ I) (hI64 : I < 2 ^ 63)
    (hasc : AscendingFrom 0 events) (hon : Explains on events) (hT : ∀ e ∈ events, e.1 ≤ T) :
    (∃ s, events.foldlM callback (create I) = .ok s ∧ Tracks on I s ∧
      s.prevTimeNs = lastTime events ∧ s.currentStateIsOn = lastState events) ∨
    ∃ e, events.foldlM callback (create I) = .error e ∧ 2 ^ 63 ≤ endOfInterval I T ∧
      ∃ what, e = .undefined what := by
  refine foldlM_either (fun done s => Tracks on I s ∧ s.prevTimeNs = lastTime done ∧
    s.currentStateIsOn = lastState done) _ ?_ ⟨tracks_create hI hI64, rfl, rfl⟩
  rintro done e todo s rfl ⟨htracks, hprev, -⟩
  have hle : s.prevTimeNs ≤ e.1 := by
    rw [hprev]
    exact lastTime_le (hasc.from_le e (by simp)) fun w hw => hasc.le_of_append hw
  -- one callback: since the one before it, the state was the opposite of what it reports
  have hspec := trackUtilization_spec htracks hI hle fun τ hτ hlt => hon done e todo rfl τ (hprev ▸ hτ) hlt
  have hcallback : s.callback e = s.trackUtilization e.1 e.2 := by
    unfold callback
    cases he : e.2 <;> rfl
  rw [hcallback]
  split at hspec
  · next hfit =>
      obtain ⟨s', hs', htracks', hprev', hstate'⟩ := hspec
      refine .inl ⟨s', hs', htracks', ?_, ?_⟩
      · rw [hprev', lastTime, List.getLast?_concat]
        rfl
      · rw [hstate', lastState, List.getLast?_concat]
        rfl
  · next hover =>
      obtain ⟨what, hwhat⟩ := hspec
      have hmono := endOfInterval_mono hI (hT e (by simp))
      exact .inr ⟨_, hwhat, by omega, what, rfl⟩

/-- A 64-bit number is what the end of the interval that contains the end of the run has to be. -/
theorem inInt64_endOfInterval_iff {T : Int} (hI : 1 ≤ I) (hT : 0 ≤ T) :
    InInt64 ((T / I + 1) * I) ↔ endOfInterval I T < 2 ^ 63 := by
  have hnonneg : 0 ≤ endOfInterval I T :=
    mul_nonneg (by have := Int.ediv_nonneg hT (show 0 ≤ I by omega); omega) (by omega)
  exact ⟨fun h => h.2, fun h => ⟨by unfold endOfInterval at hnonneg; omega, h⟩⟩

/-- **Utilisation is exact if and only if the interval that contains the end of the run ends within 64
    bits.** The callbacks alternate from a begin on and come at weakly ascending times until the end. -/
theorem utilization_exact_iff {intervalNs endNs : Int} {events : List (Int × Bool)}
    (hinterval : 1 ≤ intervalNs) (hinterval64 : InInt64 intervalNs) (hend : 0 ≤ endNs)
    (hasc : AscendingFrom 0 events) (halt : IsAlternating events) (hevents : ∀ e ∈ events, e.1 ≤ endNs) :
    (∃ l, run intervalNs events endNs = .ok l ∧ IsUtilization (isOn events) intervalNs endNs l) ↔
      InInt64 ((endNs / intervalNs + 1) * intervalNs) := by
  rw [inInt64_endOfInterval_iff hinterval hend]
  unfold run
  rcases callbacks_spec hinterval hinterval64.2 hasc (explains_isOn hasc halt) hevents with
    ⟨s, hs, htracks, hprev, hstate⟩ | ⟨e, he, hover, what, rfl⟩
  · have hspec := finalizeUtilization_spec htracks hinterval (hprev ▸ lastTime_le hend hevents)
      fun τ hτ _ => by
        have hlast : isOn (events ++ []) τ = lastState events :=
          isOn_of_between (hprev ▸ hτ) fun w hw => nomatch hw
        rw [hstate, ← hlast, List.append_nil]
    rw [hs, ok_bind]
    split at hspec
    · next hfit => exact ⟨fun _ => hfit, fun _ => hspec⟩
    · next hover =>
        obtain ⟨what, hwhat⟩ := hspec
        rw [hwhat]
        exact ⟨fun ⟨l, h, _⟩ => (nomatch h), fun hfit => absurd hfit hover⟩
  · rw [he]
    exact ⟨fun ⟨l, h, _⟩ => (nomatch h), fun hfit => by omega⟩

/-- Two transmissions within intervals of 10 ns; the run ends in the third interval, still on. -/
theorem utilization_exact_iff_twoTransmissions :
    (∃ l, run 10 [(3, true), (10, false), (10, true)] 25 = .ok l ∧
      IsUtilization (isOn [(3, true), (10, false), (10, true)]) 10 25 l) ↔
      InInt64 ((25 / 10 + 1) * 10) := by
  refine utilization_exact_iff (by decide) (by decide) (by decide) ⟨by decide, by decide⟩ ?_ (by decide)
  intro k e hk
  match k, hk with
  | 0, hk | 1, hk | 2, hk => cases hk; rfl
  | k + 3, hk => exact nomatch hk

/-- A device that never transmits, over one interval of `2 ^ 62` ns: the end of the next one is `2 ^ 63`. -/
theorem utilization_overflow :
    ¬ ∃ l, run (2 ^ 62) [] (2 ^ 62) = .ok l ∧ IsUtilization (isOn []) (2 ^ 62) (2 ^ 62) l := by
  have herror : run (2 ^ 62) [] (2 ^ 62) = .error (.undefined "signed 64-bit overflow") := by rfl
  rintro ⟨l, hl, -⟩
  rw [herror] at hl
  exact nomatch hl

end NetDeviceUtilizationTracker

end BasicSim
