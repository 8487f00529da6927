import BasicSim.Core.Correctness.LogUpdateHelper
import BasicSim.Core.Correctness.NetDeviceUtilizationTracker
import BasicSim.Core.QueueTracker

/-!
# `Core.Correctness.ReadOuts` — reading out a tracker completes it

A read-out appends what is still open to what is kept, and keeps the result. Nothing marks it as completed, so a second
read-out appends the same once more.

## Contents
- **A log.** `openRuns` is what `Finalize` appends; `Logs.finalize_twice`.
- **The trackers of queues.** `Tracked`, `queueTracker_run_spec`.
- **The tracker of a device.** `explains_onUntilNext`, `NetDeviceUtilizationTracker.finalize_twice`.
- **The result.** `ReadsTwice`, `second_read_out_repeats_open_intervals`.
-/

namespace BasicSim

open Fallible RunLength StepFunction

/-! ## A log -/

namespace LogUpdateHelper

section Rest

variable {V : Type} [DecidableEq V] {render : V → Str} {h : LogUpdateHelper V} {time : Int}
  {ups : List (Int × V)}

/-- The runs that `Finalize` appends. -/
def openRuns (h : LogUpdateHelper V) (time : Int) : List (Run Int V) :=
  if h.intervalAlphaLeftTime ≠ -1 ∧ h.intervalBetaLeftTime = -1 then
    if h.intervalAlphaLeftTime ≠ time then [⟨h.intervalAlphaLeftTime, time, h.lastUpdateValue⟩] else []
  else if h.intervalAlphaLeftTime ≠ -1 ∧ h.intervalBetaLeftTime ≠ -1 then
    if h.intervalAlphaValue = h.lastUpdateValue then [⟨h.intervalAlphaLeftTime, time, h.intervalAlphaValue⟩]
    else ⟨h.intervalAlphaLeftTime, h.intervalBetaLeftTime, h.intervalAlphaValue⟩ ::
      if h.intervalBetaLeftTime ≠ time then [⟨h.intervalBetaLeftTime, time, h.lastUpdateValue⟩] else []
  else []

/-- The intervals, and all else that `Finalize` looks at but does not set. -/
structure SameIntervals (h h' : LogUpdateHelper V) : Prop where
  alphaLeftTime : h'.intervalAlphaLeftTime = h.intervalAlphaLeftTime
  betaLeftTime : h'.intervalBetaLeftTime = h.intervalBetaLeftTime
  alphaValue : h'.intervalAlphaValue = h.intervalAlphaValue
  lastUpdateValue : h'.lastUpdateValue = h.lastUpdateValue
  check : h'.lastIntervalCheckTime = h.lastIntervalCheckTime
  saveInMemory : h'.saveInMemory = h.saveInMemory

theorem sameIntervals_saveRest : SameIntervals h (h.saveRest render time) := by
  unfold LogUpdateHelper.saveRest
  split_ifs <;> exact ⟨rfl, rfl, rfl, rfl, rfl, rfl⟩

theorem SameIntervals.openRuns_eq {h' : LogUpdateHelper V} (hs : SameIntervals h h') :
    h'.openRuns time = h.openRuns time := by
  unfold openRuns
  rw [hs.alphaLeftTime, hs.betaLeftTime, hs.alphaValue, hs.lastUpdateValue]

theorem log_saveRest (hmemory : h.saveInMemory = true) :
    (h.saveRest render time).logTimeValue = h.logTimeValue ++ h.openRuns time := by
  unfold LogUpdateHelper.saveRest openRuns
  split_ifs <;> simp [saveToLog, writeLine, hmemory]

/-- A read-out that is not in the past. -/
theorem finalize_eq (render : V → Str) (h0 : 0 ≤ time) (hcheck : h.lastIntervalCheckTime ≤ time)
    (hmemory : h.saveInMemory = true) :
    h.finalize render time
      = (.ok (h.logTimeValue ++ h.openRuns time), (h.saveRest render time).closeFile) := by
  unfold LogUpdateHelper.finalize
  rw [if_neg (not_lt.mpr h0), if_neg (not_lt.mpr hcheck), ← log_saveRest hmemory]
  rfl

/-- **A second read-out appends the open runs once more.** -/
theorem finalize_finalize (render : V → Str) (h0 : 0 ≤ time) (hcheck : h.lastIntervalCheckTime ≤ time)
    (hmemory : h.saveInMemory = true) : ∃ h' h'',
      h.finalize render time = (.ok (h.logTimeValue ++ h.openRuns time), h') ∧
      h'.finalize render time = (.ok (h.logTimeValue ++ h.openRuns time ++ h.openRuns time), h'') := by
  have hsame : SameIntervals h (h.saveRest render time).closeFile := by
    have hrest : SameIntervals h (h.saveRest render time) := sameIntervals_saveRest
    exact ⟨hrest.alphaLeftTime, hrest.betaLeftTime, hrest.alphaValue, hrest.lastUpdateValue, hrest.check,
      hrest.saveInMemory⟩
  have hsecond := finalize_eq render h0 (hsame.check ▸ hcheck) (hsame.saveInMemory.trans hmemory)
  have hlog : (h.saveRest render time).closeFile.logTimeValue = h.logTimeValue ++ h.openRuns time :=
    log_saveRest hmemory
  rw [hsame.openRuns_eq, hlog] at hsecond
  exact ⟨_, _, finalize_eq render h0 hcheck hmemory, hsecond⟩

/-! The open runs are those that do not end before the last update. -/

/-- The time of the last update, or the start. -/
def lastUpdateTime (ups : List (Int × V)) : Int := (ups.getLast?.map Prod.fst).getD 0

omit [DecidableEq V] in
theorem lastUpdateTime_of_getLast {t : Int} {v : V} (h : ups.getLast? = some (t, v)) : lastUpdateTime ups = t := by
  rw [lastUpdateTime, h]
  rfl

omit [DecidableEq V] in
/-- What is in the log ended before the last update. -/
theorem Logs.right_lt (hl : Logs render h ups) (hmemory : h.saveInMemory = true) :
    ∀ x ∈ h.logTimeValue, x.right < lastUpdateTime ups := by
  intro x hx
  cases hl with
  | idle _ saved _ _ _ =>
      rw [saved.log, if_pos hmemory] at hx
      cases hx
  | alpha _ _ _ saved _ _ _ =>
      rw [saved.log, if_pos hmemory] at hx
      cases hx
  | beta _ last _ saved _ _ _ encodes =>
      rw [saved.log, if_pos hmemory] at hx
      rw [lastUpdateTime_of_getLast last]
      exact encodes.right_lt x hx

theorem Logs.le_right (hl : Logs render h ups) (hpast : ∀ w ∈ ups, w.1 ≤ time) :
    ∀ x ∈ h.openRuns time, lastUpdateTime ups ≤ x.right := by
  intro x hx
  unfold openRuns at hx
  cases hl with
  | idle _ _ _ alpha beta => simp [alpha, beta] at hx
  | @alpha t nonneg last _ _ _ alpha beta =>
      have ht : t ≤ time := hpast _ (List.mem_of_getLast? last)
      rw [lastUpdateTime_of_getLast last]
      rw [if_pos ⟨by omega, beta⟩] at hx
      split at hx
      · rw [List.mem_singleton.mp hx]
        exact ht
      · cases hx
  | @beta first t closed nonneg last _ _ _ alpha beta _ =>
      have ht : t ≤ time := hpast _ (List.mem_of_getLast? last)
      rw [lastUpdateTime_of_getLast last]
      rw [if_neg (by omega), if_pos ⟨by omega, by omega⟩] at hx
      split at hx
      · rw [List.mem_singleton.mp hx]
        exact ht
      · rcases List.mem_cons.mp hx with rfl | hx
        · exact ge_of_eq beta
        · split at hx
          · rw [List.mem_singleton.mp hx]
            exact ht
          · cases hx

/-- There is nothing open only in the moment of the first update. -/
theorem Logs.openRuns_eq_nil_iff {first : Int × V} (hl : Logs render h ups) (head : ups.head? = some first)
    (hpast : ∀ w ∈ ups, w.1 ≤ time) : h.openRuns time = [] ↔ first.1 = time := by
  unfold openRuns
  cases hl with
  | idle none _ _ _ _ =>
      rw [none] at head
      cases head
  | alpha nonneg _ all _ _ alpha beta =>
      rw [if_pos ⟨by omega, beta⟩, alpha, ← all first (List.mem_of_head? head)]
      by_cases htime : first.1 = time <;> simp [htime]
  | @beta first' t closed nonneg last head' _ _ alpha beta encodes =>
      obtain rfl : first = first' := Option.some.inj (head.symm.trans head')
      -- there is a run that begins with the first update, so that is before the last one
      have hne : first.1 ≠ t := fun heq => by simpa using encodes.eq_nil_iff.mpr heq
      have hlt : first.1 < t := lt_of_le_of_ne encodes.le hne
      have ht : t ≤ time := hpast _ (List.mem_of_getLast? last)
      rw [if_neg (by omega), if_pos ⟨by omega, by omega⟩]
      constructor
      · intro hnil
        split at hnil <;> cases hnil
      · omega

/-- **What a second read-out repeats**: what did not end before the last update. -/
theorem Logs.finalize_twice {first : Int × V} (hl : Logs render h ups) (hasc : AscendingFrom 0 ups)
    (hmemory : h.saveInMemory = true) (head : ups.head? = some first) (h0 : 0 ≤ time)
    (hpast : ∀ w ∈ ups, w.1 ≤ time) : ∃ log h' h'' again,
      h.finalize render time = (.ok log, h') ∧ h'.finalize render time = (.ok (log ++ again), h'') ∧
      again = log.filter (fun x => decide (lastUpdateTime ups ≤ x.right)) ∧ (again = [] ↔ first.1 = time) := by
  have hcheck : h.lastIntervalCheckTime ≤ time := by
    by_contra hlt
    obtain ⟨w, hw, hlt⟩ := (hl.check_iff hasc h0).mp (not_le.mp hlt)
    exact absurd (hpast w hw) (not_le.mpr hlt)
  obtain ⟨h', h'', hfirst, hsecond⟩ := finalize_finalize render h0 hcheck hmemory
  refine ⟨_, h', h'', h.openRuns time, hfirst, hsecond, ?_, hl.openRuns_eq_nil_iff head hpast⟩
  have hold : h.logTimeValue.filter (fun x => decide (lastUpdateTime ups ≤ x.right)) = [] :=
    List.filter_eq_nil_iff.mpr fun x hx => by simpa using hl.right_lt hmemory x hx
  have hopen : (h.openRuns time).filter (fun x => decide (lastUpdateTime ups ≤ x.right)) = h.openRuns time :=
    List.filter_eq_self.mpr fun x hx => decide_eq_true (hl.le_right hpast x hx)
  rw [List.filter_append, hold, hopen, List.nil_append]

end Rest

end LogUpdateHelper

/-! ## The result of two read-outs -/

/-- Reading out twice returns `first`, and then `first` with `again` behind it. -/
def ReadsTwice {S A : Type} (readOut : S → Except Exc (List A × S)) (s : S) (first again : List A) : Prop :=
  ∃ s' s'', readOut s = .ok (first, s') ∧ readOut s' = .ok (first ++ again, s'')

/-- A read-out of a part is a read-out of the whole. -/
theorem ReadsTwice.lift {S S' A : Type} {readOut : S → Except Exc (List A × S)}
    {readOut' : S' → Except Exc (List A × S')} {s : S} {first again : List A} (put : S → S')
    (hput : ∀ s, readOut' (put s) = (fun r => (r.1, put r.2)) <$> readOut s) (h : ReadsTwice readOut s first again) :
    ReadsTwice readOut' (put s) first again := by
  obtain ⟨s', s'', hfirst, hsecond⟩ := h
  refine ⟨put s', put s'', ?_, ?_⟩
  · rw [hput, hfirst, map_ok]
  · rw [hput, hsecond, map_ok]

/-! ## The trackers of queues -/

section Queues

/-- The packets that an event reports. -/
def QueueEvent.numPackets? : QueueEvent → Option Int
  | .packetsInQueue numPackets => some numPackets.toNat
  | .bytesInQueue _ => none

/-- The bytes that an event reports. -/
def QueueEvent.numBytes? : QueueEvent → Option Int
  | .packetsInQueue _ => none
  | .bytesInQueue numBytes => some numBytes.toNat

/-- A number over time, from zero at the start. -/
def updatesOf (pick : QueueEvent → Option Int) (events : List (Int × QueueEvent)) : List (Int × Int) :=
  (0, 0) :: events.filterMap fun e => (pick e.2).map fun v => (e.1, v)

/-- The time of the last event about packets, or the start. -/
def lastPacketsTime (events : List (Int × QueueEvent)) : Int :=
  LogUpdateHelper.lastUpdateTime (updatesOf QueueEvent.numPackets? events)

/-- The time of the last event about bytes, or the start. -/
def lastBytesTime (events : List (Int × QueueEvent)) : Int :=
  LogUpdateHelper.lastUpdateTime (updatesOf QueueEvent.numBytes? events)

variable {pick : QueueEvent → Option Int} {events : List (Int × QueueEvent)} {e : Int × QueueEvent} {T : Int}

theorem updatesOf_concat_some {v : Int} (h : pick e.2 = some v) :
    updatesOf pick (events ++ [e]) = updatesOf pick events ++ [(e.1, v)] := by
  simp [updatesOf, h]

theorem updatesOf_concat_none (h : pick e.2 = none) : updatesOf pick (events ++ [e]) = updatesOf pick events := by
  simp [updatesOf, h]

theorem updatesOf_le (hT : 0 ≤ T) (h : ∀ e ∈ events, e.1 ≤ T) : ∀ w ∈ updatesOf pick events, w.1 ≤ T := by
  intro w hw
  rcases List.mem_cons.mp hw with rfl | hw
  · exact hT
  · obtain ⟨e, he, hpick⟩ := List.mem_filterMap.mp hw
    obtain ⟨v, -, rfl⟩ := Option.map_eq_some_iff.mp hpick
    exact h e he

theorem ascendingFrom_updatesOf (hasc : AscendingFrom 0 events) : AscendingFrom 0 (updatesOf pick events) := by
  have hmem : ∀ w ∈ events.filterMap (fun e => (pick e.2).map fun v => (e.1, v)), ∃ e ∈ events, w.1 = e.1 := by
    intro w hw
    obtain ⟨e, he, hpick⟩ := List.mem_filterMap.mp hw
    obtain ⟨v, -, rfl⟩ := Option.map_eq_some_iff.mp hpick
    exact ⟨e, he, rfl⟩
  have hfrom : ∀ w ∈ events.filterMap (fun e => (pick e.2).map fun v => (e.1, v)), (0 : Int) ≤ w.1 := by
    intro w hw
    obtain ⟨e, he, heq⟩ := hmem w hw
    rw [heq]
    exact hasc.from_le e he
  constructor
  · refine List.pairwise_cons.mpr ⟨hfrom, List.pairwise_filterMap.mpr (hasc.ascending.imp ?_)⟩
    intro e e' hle w hw w' hw'
    obtain ⟨v, -, rfl⟩ := Option.map_eq_some_iff.mp hw
    obtain ⟨v', -, rfl⟩ := Option.map_eq_some_iff.mp hw'
    exact hle
  · exact List.forall_mem_cons.mpr ⟨le_refl 0, hfrom⟩

/-- A log has the updates, and is kept in memory. -/
def Holds (h : LogUpdateHelper Int) (ups : List (Int × Int)) : Prop :=
  LogUpdateHelper.Logs toStr h ups ∧ h.saveInMemory = true

theorem Holds.updateOrThrow {h : LogUpdateHelper Int} {ups : List (Int × Int)} {t v : Int} (hh : Holds h ups)
    (h0 : 0 ≤ t) (hpast : ∀ w ∈ ups, w.1 ≤ t) :
    ∃ h', h.updateOrThrow t v = .ok h' ∧ Holds h' (ups ++ [(t, v)]) := by
  obtain ⟨h', hupdate, hlogs, hmemory, -⟩ : ∃ h', h.update toStr t v = (.ok (), h') ∧
      LogUpdateHelper.Logs toStr h' (ups ++ [(t, v)]) ∧ _ := hh.1.update h0 hpast
  refine ⟨h', ?_, hlogs, hmemory.trans hh.2⟩
  rw [LogUpdateHelper.updateOrThrow, hupdate]

theorem holds_create : ∃ h₀ h, LogUpdateHelper.create (-1 : Int) true false [] [] = .ok h₀ ∧
    h₀.updateOrThrow 0 0 = .ok h ∧ Holds h [(0, 0)] := by
  obtain ⟨h₀, hcreate⟩ : ∃ h₀, LogUpdateHelper.create (-1 : Int) true false [] [] = .ok h₀ := ⟨_, rfl⟩
  obtain ⟨hlogs, hmemory, -, -⟩ : LogUpdateHelper.Logs toStr h₀ [] ∧ _ := LogUpdateHelper.logs_create hcreate
  obtain ⟨h, hupdate, hh⟩ := Holds.updateOrThrow (v := 0) ⟨hlogs, hmemory⟩ le_rfl fun w hw => nomatch hw
  exact ⟨h₀, h, hcreate, hupdate, hh⟩

/-- **The invariant of a tracker**: its logs have what the events report. -/
structure Tracked (s : QueueLogs) (events : List (Int × QueueEvent)) : Prop where
  pkt : Holds s.pkt (updatesOf QueueEvent.numPackets? events)
  byte : Holds s.byte (updatesOf QueueEvent.numBytes? events)

/-- **Step lemma.** -/
theorem Tracked.callback {s : QueueTracker} (h : Tracked s events) (h0 : 0 ≤ e.1) (hpast : ∀ w ∈ events, w.1 ≤ e.1) :
    ∃ s', QueueTracker.callback s e = .ok s' ∧ Tracked s' (events ++ [e]) := by
  obtain ⟨t, event⟩ := e
  cases event with
  | packetsInQueue numPackets =>
      obtain ⟨pkt, hupdate, hpkt⟩ := h.pkt.updateOrThrow (v := numPackets.toNat) h0 (updatesOf_le h0 hpast)
      refine ⟨{ s with pkt }, ?_, ?_, ?_⟩
      · show (do .ok { s with pkt := ← s.pkt.updateOrThrow t numPackets.toNat }) = _
        rw [hupdate, ok_bind]
      · rw [updatesOf_concat_some rfl]
        exact hpkt
      · rw [updatesOf_concat_none rfl]
        exact h.byte
  | bytesInQueue numBytes =>
      obtain ⟨byte, hupdate, hbyte⟩ := h.byte.updateOrThrow (v := numBytes.toNat) h0 (updatesOf_le h0 hpast)
      refine ⟨{ s with byte }, ?_, ?_, ?_⟩
      · show (do .ok { s with byte := ← s.byte.updateOrThrow t numBytes.toNat }) = _
        rw [hupdate, ok_bind]
      · rw [updatesOf_concat_none rfl]
        exact h.pkt
      · rw [updatesOf_concat_some rfl]
        exact hbyte

/-- **Run lemma.** -/
theorem queueTracker_run_spec (hasc : AscendingFrom 0 events) :
    ∃ s, QueueTracker.run events = .ok s ∧ Tracked s events := by
  obtain ⟨pkt₀, pkt, hcreate, hupdate, hpkt⟩ := holds_create
  have hstart : QueueLogs.create = .ok ⟨pkt, pkt⟩ := by
    unfold QueueLogs.create
    rw [hcreate, ok_bind, hupdate, ok_bind, ok_bind, hupdate, ok_bind]
  obtain ⟨s, hrun, hs⟩ := foldlM_total (f := QueueTracker.callback) (fun done s => Tracked s done) (l := events)
    (fun done e todo s hl hs => hs.callback (hasc.from_le e (by simp [hl]))
      fun w hw => (hl ▸ hasc).le_of_append hw)
    (s := ⟨pkt, pkt⟩) ⟨hpkt, hpkt⟩
  exact ⟨s, by rw [QueueTracker.run, hstart, ok_bind, hrun], hs⟩

/-- A log is read out twice. -/
theorem Holds.finalize_twice {h : LogUpdateHelper Int} {ups : List (Int × Int)} (hh : Holds h ((0, 0) :: ups))
    (hasc : AscendingFrom 0 ((0, 0) :: ups)) (hT : 0 ≤ T) (hpast : ∀ w ∈ (0, 0) :: ups, w.1 ≤ T) :
    ∃ first again, ReadsTwice (fun h => LogUpdateHelper.finalizeOrThrow h T) h first again ∧
      again = first.filter (fun x => decide (LogUpdateHelper.lastUpdateTime ((0, 0) :: ups) ≤ x.right)) ∧
      (again = [] ↔ T = 0) := by
  obtain ⟨log, h', h'', again, hfirst, hsecond, hfilter, hnil⟩ :=
    hh.1.finalize_twice hasc hh.2 (List.head?_cons ..) hT hpast
  refine ⟨log, again, ⟨h', h'', ?_, ?_⟩, hfilter, hnil.trans eq_comm⟩
  · show h.finalizeOrThrow T = _
    rw [LogUpdateHelper.finalizeOrThrow, hfirst]
  · show h'.finalizeOrThrow T = _
    rw [LogUpdateHelper.finalizeOrThrow, hsecond]

/-- **What reading out a log of a tracker twice gives**: the second result repeats, behind the first one, the intervals
    that did not end before the last event, and that is nothing only at the start. -/
def RepeatsOpen (readOut : QueueLogs → Int → Except Exc (List (Run Int Int) × QueueLogs)) (s : QueueLogs)
    (lastTime time : Int) : Prop :=
  ∃ first again, ReadsTwice (fun s => readOut s time) s first again ∧
    again = first.filter (fun x => decide (lastTime ≤ x.right)) ∧ (again = [] ↔ time = 0)

theorem Tracked.repeatsOpen {s : QueueLogs} (h : Tracked s events) (hasc : AscendingFrom 0 events) (hT : 0 ≤ T)
    (hpast : ∀ e ∈ events, e.1 ≤ T) :
    RepeatsOpen QueueLogs.finalizePkt s (lastPacketsTime events) T ∧
      RepeatsOpen QueueLogs.finalizeByte s (lastBytesTime events) T := by
  constructor
  · obtain ⟨first, again, htwice, hagain⟩ :=
      h.pkt.finalize_twice (ascendingFrom_updatesOf hasc) hT (updatesOf_le hT hpast)
    refine ⟨first, again, htwice.lift (fun pkt => { s with pkt }) fun pkt => ?_, hagain⟩
    unfold QueueLogs.finalizePkt
    cases pkt.finalizeOrThrow T <;> rfl
  · obtain ⟨first, again, htwice, hagain⟩ :=
      h.byte.finalize_twice (ascendingFrom_updatesOf hasc) hT (updatesOf_le hT hpast)
    refine ⟨first, again, htwice.lift (fun byte => { s with byte }) fun byte => ?_, hagain⟩
    unfold QueueLogs.finalizeByte
    cases byte.finalizeOrThrow T <;> rfl

end Queues

/-! ## The tracker of a device -/

namespace NetDeviceUtilizationTracker

variable {on : Int → Bool} {I now T : Int} {s s' : NetDeviceUtilizationTracker} {events : List (Int × Bool)}

/-- A device that is in the state that the next callback ends, and after all of them in the last state. -/
def onUntilNext (events : List (Int × Bool)) (τ : Int) : Bool :=
  match events.find? fun e => decide (τ < e.1) with
  | some e => !e.2
  | none => lastState events

theorem le_lastTime (hasc : AscendingFrom 0 events) : ∀ w ∈ events, w.1 ≤ lastTime events := by
  intro w hw
  unfold lastTime
  cases hlast : events.getLast? with
  | none =>
      rw [List.getLast?_eq_none_iff.mp hlast] at hw
      cases hw
  | some u => exact hasc.le_last hlast hw

theorem onUntilNext_of_le {τ : Int} (hasc : AscendingFrom 0 events) (hτ : lastTime events ≤ τ) :
    onUntilNext events τ = lastState events := by
  have hnone : events.find? (fun e => decide (τ < e.1)) = none :=
    List.find?_eq_none.mpr fun w hw => by simpa using (le_lastTime hasc w hw).trans hτ
  rw [onUntilNext, hnone]

/-- Every sequence of callbacks is explained, also if begin and end do not alternate. -/
theorem explains_onUntilNext (hasc : AscendingFrom 0 events) : Explains (onUntilNext events) events := by
  rintro done e todo rfl τ hτ hlt
  have hnone : done.find? (fun e => decide (τ < e.1)) = none :=
    List.find?_eq_none.mpr fun w hw => by simpa using (le_lastTime hasc.left w hw).trans hτ
  rw [onUntilNext, List.find?_append, hnone, Option.none_or, List.find?_cons_of_pos (by exact decide_eq_true hlt)]

/-- The interval that a read-out saves although it is not over. -/
def openInterval (s : NetDeviceUtilizationTracker) (now : Int) : List UtilizationInterval :=
  if now ≠ s.currentIntervalStart then [⟨s.currentIntervalStart, now, s.busyTimeCounterNs⟩] else []

theorem finalizeUtilizationInPlace_eq (h : s.trackUtilization now (!s.currentStateIsOn) = .ok s') :
    s.finalizeUtilizationInPlace now = .ok (s'.intervals ++ s'.openInterval now,
      { s' with intervals := s'.intervals ++ s'.openInterval now }) := by
  unfold finalizeUtilizationInPlace openInterval
  rw [h, ok_bind]
  split <;> simp

/-- The read-out returns what it did without its tracker. -/
theorem finalizeUtilization_eq_map : s.finalizeUtilization now = (s.finalizeUtilizationInPlace now).map Prod.fst := by
  unfold finalizeUtilization finalizeUtilizationInPlace
  cases s.trackUtilization now (!s.currentStateIsOn) with
  | error e => rfl
  | ok s' =>
      rw [ok_bind, ok_bind]
      split <;> rfl

/-- Another call at the same time only sets the state. -/
theorem trackUtilization_again {next : Bool} (hprev : s.prevTimeNs = now) (hend : now < s.currentIntervalEnd)
    (hidle : InInt64 s.idleTimeCounterNs) (hbusy : InInt64 s.busyTimeCounterNs) :
    s.trackUtilization now next = .ok { s with currentStateIsOn := next } := by
  unfold trackUtilization
  rw [nextIntervals, if_neg (by omega), ok_bind, addUntil, hprev, sub_self, int64_of_mem (by decide)]
  cases next <;> simp [int64_of_mem hidle, int64_of_mem hbusy, ← hprev]

/-- A multiple of the length is where an interval starts. -/
theorem Tracks.dvd_iff (h : Tracks on I s) : I ∣ s.prevTimeNs ↔ s.prevTimeNs = s.currentIntervalStart := by
  have hstart : I ∣ s.currentIntervalStart := ⟨s.intervals.length, by rw [h.start, mul_comm]⟩
  constructor
  · intro hdvd
    have hle := h.start_le
    have hlt := h.prev_lt
    have hend := h.end_
    have hzero := Int.eq_zero_of_dvd_of_nonneg_of_lt (by omega : 0 ≤ s.prevTimeNs - s.currentIntervalStart) (by omega)
      (Int.dvd_sub hdvd hstart)
    omega
  · intro heq
    rw [heq]
    exact hstart

/-- The counters are within the current interval. -/
theorem Tracks.inInt64 (h : Tracks on I s) (hI : 1 ≤ I) :
    InInt64 s.idleTimeCounterNs ∧ InInt64 s.busyTimeCounterNs := by
  have hstart := h.start_nonneg hI
  have hlt := h.prev_lt
  have hend := h.end_lt
  have hidle := h.idle
  have hnonneg : 0 ≤ s.busyTimeCounterNs := h.busy ▸ onTime_nonneg _ _ _
  have hle : s.busyTimeCounterNs ≤ s.prevTimeNs - s.currentIntervalStart := h.busy ▸ onTime_le on h.start_le
  exact ⟨⟨by omega, by omega⟩, ⟨by omega, by omega⟩⟩

/-- Only the interval that is not over does not end at a multiple of the length. -/
theorem Tracks.openInterval_eq_filter (h : Tracks on I s) : s.openInterval s.prevTimeNs
    = (s.intervals ++ s.openInterval s.prevTimeNs).filter fun x => decide (¬ I ∣ x.endNs) := by
  have hsaved : s.intervals.filter (fun x => decide (¬ I ∣ x.endNs)) = [] := by
    refine List.filter_eq_nil_iff.mpr fun x hx => ?_
    obtain ⟨k, hk⟩ := List.mem_iff_getElem?.mp hx
    simp [h.intervals k x hk]
  have hopen : (s.openInterval s.prevTimeNs).filter (fun x => decide (¬ I ∣ x.endNs))
      = s.openInterval s.prevTimeNs := by
    refine List.filter_eq_self.mpr fun x hx => decide_eq_true ?_
    unfold openInterval at hx
    split at hx
    · next hne =>
        rw [List.mem_singleton.mp hx]
        exact fun hdvd => hne (h.dvd_iff.mp hdvd)
    · cases hx
  rw [List.filter_append, hsaved, hopen, List.nil_append]

/-- **What reading out the tracker of a device twice gives**: the second result repeats, behind the first one, the
    interval that is not over, and there is one unless the time is a multiple of the length. -/
def RepeatsOpen (s : NetDeviceUtilizationTracker) (intervalNs time : Int) : Prop :=
  ∃ first again, ReadsTwice (fun s => finalizeUtilizationInPlace s time) s first again ∧
    again = first.filter (fun x => decide (¬ intervalNs ∣ x.endNs)) ∧ (again = [] ↔ intervalNs ∣ time)

/-- **A second read-out repeats the interval that is not over.** -/
theorem finalize_twice (h : Tracks on I s) (hI : 1 ≤ I) (hprev : s.prevTimeNs ≤ T)
    (hon : ∀ τ, s.prevTimeNs ≤ τ → τ < T → on τ = s.currentStateIsOn) (hfit : endOfInterval I T < 2 ^ 63) :
    RepeatsOpen s I T := by
  have htrack := completeUtilization_spec h hI hprev hon
  rw [if_pos hfit] at htrack
  obtain ⟨s', hs', h', rfl⟩ := htrack
  obtain ⟨hidle, hbusy⟩ := h'.inInt64 hI
  have hfirst := finalizeUtilizationInPlace_eq hs'
  -- the second call finds the same interval still open
  have hagain : ({ s' with intervals := s'.intervals ++ s'.openInterval s'.prevTimeNs } :
      NetDeviceUtilizationTracker).trackUtilization s'.prevTimeNs (!s'.currentStateIsOn) = .ok _ :=
    trackUtilization_again rfl h'.prev_lt hidle hbusy
  have hsecond := finalizeUtilizationInPlace_eq hagain
  refine ⟨_, s'.openInterval s'.prevTimeNs, ⟨_, _, hfirst, hsecond⟩, h'.openInterval_eq_filter, ?_⟩
  rw [h'.dvd_iff, openInterval]
  simp

/-- A read-out at a time in an interval that does not end within 64 bits. -/
theorem finalizeUtilizationInPlace_overflow (h : Tracks on I s) (hI : 1 ≤ I) (hprev : s.prevTimeNs ≤ T)
    (hon : ∀ τ, s.prevTimeNs ≤ τ → τ < T → on τ = s.currentStateIsOn) (hover : ¬ endOfInterval I T < 2 ^ 63) :
    ∃ what, s.finalizeUtilizationInPlace T = .error (.undefined what) := by
  have htrack := completeUtilization_spec h hI hprev hon
  rw [if_neg hover] at htrack
  obtain ⟨what, hwhat⟩ := htrack
  exact ⟨what, by rw [finalizeUtilizationInPlace, hwhat]; rfl⟩

theorem repeatsOpen_iff (hI : 1 ≤ I) (hI64 : InInt64 I) (hasc : AscendingFrom 0 events) (hT : 0 ≤ T)
    (hpast : ∀ e ∈ events, e.1 ≤ T) :
    (∃ s, events.foldlM callback (create I) = .ok s ∧ RepeatsOpen s I T) ↔ InInt64 ((T / I + 1) * I) := by
  rw [inInt64_endOfInterval_iff hI hT]
  rcases callbacks_spec hI hI64.2 hasc (explains_onUntilNext hasc) hpast with
    ⟨s, hs, htracks, hprev, hstate⟩ | ⟨e, he, hover, -⟩
  · have hle : s.prevTimeNs ≤ T := hprev ▸ lastTime_le hT hpast
    have hon : ∀ τ, s.prevTimeNs ≤ τ → τ < T → onUntilNext events τ = s.currentStateIsOn := fun τ hτ _ => by
      rw [hstate, onUntilNext_of_le hasc (hprev ▸ hτ)]
    constructor
    · rintro ⟨_, hs', first, again, ⟨s', s'', hfirst, -⟩, -⟩
      by_contra hover
      obtain ⟨what, hwhat⟩ := finalizeUtilizationInPlace_overflow htracks hI hle hon hover
      cases hs.symm.trans hs'
      cases hwhat.symm.trans hfirst
    · exact fun hfit => ⟨s, hs, finalize_twice htracks hI hle hon hfit⟩
  · rw [he]
    exact ⟨fun ⟨_, h, _⟩ => (nomatch h), fun hfit => absurd hfit (not_lt.mpr hover)⟩

end NetDeviceUtilizationTracker

/-! ## The result -/

/-- **A second read-out repeats the intervals that were still open at the first one.** -/
theorem second_read_out_repeats_open_intervals :
    (∀ (events : List (Int × QueueEvent)) (T : Int), AscendingFrom 0 events → 0 ≤ T → (∀ e ∈ events, e.1 ≤ T) →
      (∃ s, QueueTracker.run events = .ok s ∧
        RepeatsOpen QueueTracker.getIntervalsNumPackets s (lastPacketsTime events) T ∧
        RepeatsOpen QueueTracker.getIntervalsNumBytes s (lastBytesTime events) T) ∧
      ∃ s, QdiscQueueTracker.run events = .ok s ∧
        RepeatsOpen QdiscQueueTracker.getIntervalsNumPackets s (lastPacketsTime events) T ∧
        RepeatsOpen QdiscQueueTracker.getIntervalsNumBytes s (lastBytesTime events) T) ∧
    (∀ (intervalNs : Int) (events : List (Int × Bool)) (T : Int), 1 ≤ intervalNs → InInt64 intervalNs →
      AscendingFrom 0 events → 0 ≤ T → (∀ e ∈ events, e.1 ≤ T) →
      ((∃ s, events.foldlM NetDeviceUtilizationTracker.callback (NetDeviceUtilizationTracker.create intervalNs) = .ok s ∧
        s.RepeatsOpen intervalNs T) ↔ InInt64 ((T / intervalNs + 1) * intervalNs))) := by
  refine ⟨fun events T hasc hT hpast => ?_, fun I events T hI hI64 hasc hT hpast => ?_⟩
  · obtain ⟨s, hrun, hs⟩ := queueTracker_run_spec hasc
    have hboth := hs.repeatsOpen hasc hT hpast
    exact ⟨⟨s, hrun, hboth⟩, s, hrun, hboth⟩
  · exact NetDeviceUtilizationTracker.repeatsOpen_iff hI hI64 hasc hT hpast

/-- A packet that is in the queue from 2 on, read out at 10, and a device that is busy from 3 on, read out at 25. -/
theorem second_read_out_repeats_open_intervals_onePacket :
    (∃ s, QueueTracker.run [(2, .packetsInQueue 1)] = .ok s ∧
      RepeatsOpen QueueTracker.getIntervalsNumPackets s 2 10 ∧ RepeatsOpen QueueTracker.getIntervalsNumBytes s 0 10) ∧
    ∃ s, [(3, true)].foldlM NetDeviceUtilizationTracker.callback (.create 10) = .ok s ∧ s.RepeatsOpen 10 25 := by
  obtain ⟨hqueue, hdevice⟩ := second_read_out_repeats_open_intervals
  constructor
  · exact (hqueue [(2, .packetsInQueue 1)] 10 ⟨by simp, by simp⟩ (by decide) (by simp)).1
  · exact (hdevice 10 [(3, true)] 25 (by decide) (by decide) ⟨by simp, by simp⟩ (by decide) (by simp)).mpr (by decide)

/-- Reading out again gives the same. -/
def Repeatable {S A : Type} (readOut : S → Except Exc (List A × S)) (s : S) : Prop :=
  ∀ first s', readOut s = .ok (first, s') → ∃ s'', readOut s' = .ok (first, s'')

/-- A read-out in the middle of the only interval. -/
theorem read_outs_are_not_repeatable : ¬ (
    (∀ (events : List (Int × QueueEvent)) (T : Int), AscendingFrom 0 events → 0 ≤ T → (∀ e ∈ events, e.1 ≤ T) →
      (∀ s, QueueTracker.run events = .ok s → Repeatable (fun s => QueueTracker.getIntervalsNumPackets s T) s ∧
        Repeatable (fun s => QueueTracker.getIntervalsNumBytes s T) s) ∧
      ∀ s, QdiscQueueTracker.run events = .ok s →
        Repeatable (fun s => QdiscQueueTracker.getIntervalsNumPackets s T) s ∧
        Repeatable (fun s => QdiscQueueTracker.getIntervalsNumBytes s T) s) ∧
    (∀ (intervalNs : Int) (events : List (Int × Bool)) (T : Int), 1 ≤ intervalNs → InInt64 intervalNs →
      AscendingFrom 0 events → 0 ≤ T → (∀ e ∈ events, e.1 ≤ T) →
      ∀ s, events.foldlM NetDeviceUtilizationTracker.callback (NetDeviceUtilizationTracker.create intervalNs) = .ok s →
        Repeatable (fun s => s.finalizeUtilizationInPlace T) s)) := by
  intro h
  obtain ⟨s, s', s'', hrun, hfirst, hsecond⟩ : ∃ s s' s'', QueueTracker.run [] = .ok s ∧
      QueueTracker.getIntervalsNumPackets s 10 = .ok ([⟨0, 10, 0⟩], s') ∧
      QueueTracker.getIntervalsNumPackets s' 10 = .ok ([⟨0, 10, 0⟩, ⟨0, 10, 0⟩], s'') := ⟨_, _, _, rfl, rfl, rfl⟩
  have hpackets := ((h.1 [] 10 ⟨.nil, by simp⟩ (by decide) (by simp)).1 s hrun).1
  obtain ⟨_, hagain⟩ := hpackets _ _ hfirst
  cases hsecond.symm.trans hagain

end BasicSim
