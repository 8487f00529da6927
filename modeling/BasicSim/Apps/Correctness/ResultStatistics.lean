import BasicSim.Apps.Correctness.UdpBurstPacing
import BasicSim.Apps.ResultStatistics
import Mathlib.Order.Bounds.Basic

/-!
# `Apps.Correctness.ResultStatistics` — when the statistics of pings and bursts are the true ones

The smallest round-trip time of a ping starts from 10000 s, so it is wrong when every reply takes longer; the
count of the replies is an `int`. The duration that the rates of a burst refer to is exact as long as the end of
the burst is an `int64_t`.

## Contents
- **Extremes.** `isLeast_foldl_min`, `isGreatest_foldl_max`.
- **The lines of a ping.** `pingLines`, `IsPingLogLine`, `foldlM_addLine`.
- **Pings.** `StatisticsAreTrue`, `StatisticsFit`, `ping_statistics_are_true_iff`.
- **Bursts.** `HasExactDuration`, `effective_durations_are_exact_iff`.
-/

namespace BasicSim

open Fallible

/-! ## Extremes -/

section Extremes

variable {α : Type} [LinearOrder α] {seed a : α} {l : List α}

/-- A running minimum that starts from a seed. -/
theorem isLeast_foldl_min (seed : α) (l : List α) : IsLeast {x | x ∈ seed :: l} (l.foldl min seed) :=
  List.min?_eq_some_iff.mp List.min?_cons'

theorem isGreatest_foldl_max (seed : α) (l : List α) : IsGreatest {x | x ∈ seed :: l} (l.foldl max seed) :=
  List.max?_eq_some_iff.mp List.max?_cons'

/-- The seed has no part in a minimum when it is not below all the items. -/
theorem isLeast_tail_iff (h : IsLeast {x | x ∈ seed :: l} a) : IsLeast {x | x ∈ l} a ↔ ∃ x ∈ l, x ≤ seed := by
  constructor
  · exact fun ha => ⟨a, ha.1, h.2 List.mem_cons_self⟩
  · rintro ⟨x, hx, hxs⟩
    refine ⟨?_, fun y hy => h.2 (List.mem_cons_of_mem _ hy)⟩
    rcases List.mem_cons.mp h.1 with rfl | ha
    · have hxle : a ≤ x := h.2 (List.mem_cons_of_mem _ hx)
      rwa [le_antisymm hxle hxs]
    · exact ha

theorem isGreatest_tail_iff (h : IsGreatest {x | x ∈ seed :: l} a) :
    IsGreatest {x | x ∈ l} a ↔ ∃ x ∈ l, seed ≤ x :=
  @isLeast_tail_iff αᵒᵈ _ seed a l h

end Extremes

/-! ## The lines of a ping -/

/-- All the pings that a client holds the time stamps of, as lines of the result file. -/
def pingLines (info : UdpPingInfo) (t : UdpPingTimestamps) : List UdpPingLine :=
  (t.sendRequestTimestamps.zip (t.replyTimestamps.zip t.receiveReplyTimestamps)).mapIdx
    fun j p => ⟨info.id, j, p.1, p.2.1, p.2.2⟩

/-- The time stamps that a client can hold for a ping. -/
structure IsPingLogLine (line : UdpPingLine) : Prop where
  send_nonneg : 0 ≤ line.sendRequestNs
  send_lt : line.sendRequestNs < 2 ^ 63
  outcome : (line.replyNs = -1 ∧ line.receiveReplyNs = -1) ∨
    (line.sendRequestNs ≤ line.replyNs ∧ line.replyNs ≤ line.receiveReplyNs ∧ line.receiveReplyNs < 2 ^ 63)

def UdpPingLine.roundTripNs (line : UdpPingLine) : Int := line.receiveReplyNs - line.sendRequestNs

/-- The lines with a reply. -/
def replied (lines : List UdpPingLine) : List UdpPingLine := lines.filter UdpPingLine.replyArrived

/-- What is computed for a line, in exact integers. -/
def UdpPingLine.exactLatencies (line : UdpPingLine) : UdpPingLatencies :=
  if line.replyArrived = true then
    ⟨line.replyNs - line.sendRequestNs, line.receiveReplyNs - line.replyNs, line.roundTripNs⟩
  else ⟨-1, -1, -1⟩

section Lines

variable {info : UdpPingInfo} {t : UdpPingTimestamps} {line : UdpPingLine} {lines : List UdpPingLine}

theorem length_pingLines : (pingLines info t).length = t.sendRequestTimestamps.length := by
  simp [pingLines, t.length_reply, t.length_receiveReply]

/-- A line that is written is the one of the log at its index. -/
theorem udpPingLine_eq {j : Nat} (hj : (pingLines info t)[j]? = some line) : udpPingLine info t j = .ok line := by
  rw [pingLines, List.getElem?_mapIdx, Option.map_eq_some_iff] at hj
  obtain ⟨p, hp, rfl⟩ := hj
  obtain ⟨hsend, hp⟩ := List.getElem?_zip_eq_some.mp hp
  obtain ⟨hreply, hreceive⟩ := List.getElem?_zip_eq_some.mp hp
  have hat : ∀ {v : List Int} {a : Int}, v[j]? = some a → vectorAt v j = .ok a := by
    intro v a ha
    exact vectorAt_eq_ok.mpr ⟨Int.natCast_nonneg j, ha⟩
  rw [udpPingLine, hat hreply, ok_bind, hat hsend, ok_bind, hat hreceive, ok_bind]

theorem IsPingLogLine.latencies_eq (h : IsPingLogLine line) : line.latencies = .ok line.exactLatencies := by
  unfold UdpPingLine.latencies UdpPingLine.exactLatencies
  split
  · next harrived =>
      have hreply : line.replyNs ≠ -1 := of_decide_eq_true harrived
      have hsend := h.send_nonneg
      rcases h.outcome with ⟨hlost, -⟩ | ⟨hle, hle', hlt⟩
      · exact absurd hlost hreply
      · rw [int64_of_mem ⟨by omega, by omega⟩, ok_bind, int64_of_mem ⟨by omega, by omega⟩, ok_bind,
          int64_of_mem ⟨by omega, by omega⟩, ok_bind, UdpPingLine.roundTripNs]
        congr 2
        omega
  · rfl

theorem IsPingLogLine.roundTripNs_nonneg (h : IsPingLogLine line) (harrived : line.replyArrived = true) :
    0 ≤ line.roundTripNs := by
  have hreply : line.replyNs ≠ -1 := of_decide_eq_true harrived
  unfold UdpPingLine.roundTripNs
  rcases h.outcome with ⟨hlost, -⟩ | ⟨hle, hle', -⟩
  · exact absurd hlost hreply
  · omega

/-- The variables of the loop after some lines. -/
def totalsOf (lines : List UdpPingLine) : UdpPingTotals where
  lines := lines.map fun line => (line, line.exactLatencies)
  total := (replied lines).length
  rttsNs := (replied lines).map UdpPingLine.roundTripNs

/-- **Step lemma.** One more line is added as long as the count of the replies stays an `int`. -/
theorem addLine_totalsOf (h : IsPingLogLine line) (hlines : (replied lines).length < 2 ^ 31)
    {totals : UdpPingTotals} : (totalsOf lines).addLine line = .ok totals ↔
      (replied (lines ++ [line])).length < 2 ^ 31 ∧ totalsOf (lines ++ [line]) = totals := by
  unfold UdpPingTotals.addLine
  rw [h.latencies_eq, ok_bind]
  by_cases harrived : line.replyArrived = true
  · have hreplied : replied (lines ++ [line]) = replied lines ++ [line] := by simp [replied, harrived]
    rw [if_pos harrived, totalsOf, totalsOf, hreplied, bind_eq_ok]
    simp only [int32_eq_ok, List.map_append, List.map_singleton, List.length_append, List.length_singleton,
      Nat.cast_add, Nat.cast_one, UdpPingLine.exactLatencies, if_pos harrived]
    constructor
    · rintro ⟨_, ⟨hin, rfl⟩, heq⟩
      have hlt := hin.2
      exact ⟨by omega, Except.ok.inj heq⟩
    · rintro ⟨hlt, rfl⟩
      exact ⟨_, ⟨⟨by omega, by omega⟩, rfl⟩, rfl⟩
  · have hreplied : replied (lines ++ [line]) = replied lines := by simp [replied, harrived]
    rw [if_neg harrived, totalsOf, totalsOf, hreplied, List.map_append]
    exact ⟨fun heq => ⟨hlines, Except.ok.inj heq⟩, fun heq => congrArg Except.ok heq.2⟩

/-- **Run lemma.** The loop over all the lines. -/
theorem foldlM_addLine (hlog : ∀ line ∈ lines, IsPingLogLine line) {totals : UdpPingTotals} :
    lines.foldlM UdpPingTotals.addLine .initial = .ok totals ↔
      (replied lines).length < 2 ^ 31 ∧ totalsOf lines = totals := by
  induction lines using List.reverseRecOn generalizing totals with
  | nil => simp [totalsOf, replied, UdpPingTotals.initial]
  | append_singleton lines line ih =>
      have hline := hlog line (List.mem_append_right _ List.mem_cons_self)
      have hlines : ∀ line ∈ lines, IsPingLogLine line := fun line h => hlog line (List.mem_append_left _ h)
      have hmono : (replied (lines ++ [line])).length < 2 ^ 31 → (replied lines).length < 2 ^ 31 := by
        rw [replied, List.filter_append, List.length_append]
        exact fun h => lt_of_le_of_lt (Nat.le_add_right _ _) h
      rw [List.foldlM_append, bind_eq_ok]
      simp only [List.foldlM_cons, List.foldlM_nil, pure_eq_ok, bind_eq_ok, Except.ok.injEq, exists_eq_right]
      constructor
      · rintro ⟨_, hrun, hadd⟩
        obtain ⟨hlt, rfl⟩ := (ih hlines).mp hrun
        exact (addLine_totalsOf hline hlt).mp hadd
      · rintro ⟨hlt, rfl⟩
        exact ⟨_, (ih hlines).mpr ⟨hmono hlt, rfl⟩, (addLine_totalsOf hline (hmono hlt)).mpr ⟨hlt, rfl⟩⟩

/-- The loop goes over the lines that the counter of the client reaches. -/
theorem udpPingTotals_eq :
    udpPingTotals info t = ((pingLines info t).take t.sent).foldlM UdpPingTotals.addLine .initial := by
  have hsent : t.sent ≤ (pingLines info t).length := by
    rw [length_pingLines, t.sent_eq]
    exact Nat.mod_le _ _
  exact foldlM_range (fun _ _ => udpPingLine_eq) hsent

end Lines

/-! ## Pings -/

/-- The round-trip times of the pings with a reply, in order. -/
def roundTripsNs (lines : List UdpPingLine) : List Int := (replied lines).map UdpPingLine.roundTripNs

/-- The statistics are computed, and are the true ones of all the pings of the client: the count of the replies,
    the round-trip time of every reply, and the smallest and the largest of them, or -1. -/
def StatisticsAreTrue (info : UdpPingInfo) (t : UdpPingTimestamps) : Prop :=
  ∃ stats, udpPingStatistics info t = .ok stats ∧
    stats.total = (replied (pingLines info t)).length ∧
    stats.rttsNs = roundTripsNs (pingLines info t) ∧
    (∀ line ∈ replied (pingLines info t), ∃ latencies, (line, latencies) ∈ stats.lines ∧
      latencies.rttNs = line.roundTripNs) ∧
    (replied (pingLines info t) = [] → stats.minRttNs = -1 ∧ stats.maxRttNs = -1) ∧
    (replied (pingLines info t) ≠ [] →
      IsLeast {rtt | rtt ∈ roundTripsNs (pingLines info t)} stats.minRttNs ∧
      IsGreatest {rtt | rtt ∈ roundTripsNs (pingLines info t)} stats.maxRttNs)

/-- The counter of the client reaches all replies, their number is an `int`, and if there are any, one of them
    took at most 10000 s. -/
structure StatisticsFit (info : UdpPingInfo) (t : UdpPingTimestamps) : Prop where
  counted : ∀ line ∈ (pingLines info t).drop t.sent, line.replyArrived = false
  total_lt : (replied (pingLines info t)).length < 2 ^ 31
  seed : replied (pingLines info t) ≠ [] → ∃ rtt ∈ roundTripsNs (pingLines info t), rtt ≤ 10000000000000

section Pings

variable {info : UdpPingInfo} {t : UdpPingTimestamps}

/-- The replies that the counter does not reach. -/
theorem replied_take_eq_iff : replied ((pingLines info t).take t.sent) = replied (pingLines info t) ↔
    ∀ line ∈ (pingLines info t).drop t.sent, line.replyArrived = false := by
  have happend : replied (pingLines info t)
      = replied ((pingLines info t).take t.sent) ++ replied ((pingLines info t).drop t.sent) := by
    rw [replied, replied, replied, ← List.filter_append, List.take_append_drop]
  rw [happend, List.self_eq_append_right, replied, List.filter_eq_nil_iff]
  simp

/-- The lines that are written for the replies have their round-trip times. -/
theorem totalsOf_lines {lines : List UdpPingLine} : ∀ line ∈ replied lines, ∃ latencies,
    (line, latencies) ∈ (totalsOf lines).lines ∧ latencies.rttNs = line.roundTripNs := by
  intro line hline
  obtain ⟨hmem, harrived⟩ := List.mem_filter.mp hline
  exact ⟨_, List.mem_map.mpr ⟨line, hmem, rfl⟩, by rw [UdpPingLine.exactLatencies, if_pos harrived]⟩

/-- The two extremes that are computed from all the lines. -/
theorem finalize_extremes {lines : List UdpPingLine} (hlog : ∀ line ∈ lines, IsPingLogLine line) :
    (replied lines = [] → (totalsOf lines).finalize.minRttNs = -1 ∧ (totalsOf lines).finalize.maxRttNs = -1) ∧
    (replied lines ≠ [] →
      (IsLeast {rtt | rtt ∈ roundTripsNs lines} (totalsOf lines).finalize.minRttNs ↔
        ∃ rtt ∈ roundTripsNs lines, rtt ≤ initialMinRttNs) ∧
      IsGreatest {rtt | rtt ∈ roundTripsNs lines} (totalsOf lines).finalize.maxRttNs) := by
  constructor
  · intro hnone
    simp [UdpPingTotals.finalize, totalsOf, hnone]
  · intro hne
    have hlength : ¬ (roundTripsNs lines).length = 0 := by
      rw [roundTripsNs, List.length_map, List.length_eq_zero_iff]
      exact hne
    have hmin : (totalsOf lines).finalize.minRttNs = (roundTripsNs lines).foldl min initialMinRttNs :=
      if_neg hlength
    have hmax : (totalsOf lines).finalize.maxRttNs = (roundTripsNs lines).foldl max initialMaxRttNs :=
      if_neg hlength
    rw [hmin, hmax]
    refine ⟨isLeast_tail_iff (isLeast_foldl_min _ _), (isGreatest_tail_iff (isGreatest_foldl_max _ _)).mpr ?_⟩
    -- no round-trip time is below the seed of the maximum
    obtain ⟨line, hline⟩ := List.exists_mem_of_ne_nil _ hne
    obtain ⟨hmem, harrived⟩ := List.mem_filter.mp hline
    have h0 := (hlog line hmem).roundTripNs_nonneg harrived
    exact ⟨_, List.mem_map.mpr ⟨line, hline, rfl⟩, by rw [initialMaxRttNs]; omega⟩

/-- **When the statistics are true.** -/
theorem ping_statistics_are_true_iff (hlog : ∀ line ∈ pingLines info t, IsPingLogLine line) :
    StatisticsAreTrue info t ↔ StatisticsFit info t := by
  have htake : ∀ line ∈ (pingLines info t).take t.sent, IsPingLogLine line :=
    fun line h => hlog line (List.mem_of_mem_take h)
  obtain ⟨hnone, hsome⟩ := finalize_extremes htake
  have hrtts : replied ((pingLines info t).take t.sent) = replied (pingLines info t) →
      roundTripsNs ((pingLines info t).take t.sent) = roundTripsNs (pingLines info t) :=
    congrArg (List.map UdpPingLine.roundTripNs)
  constructor
  · rintro ⟨stats, hrun, htotal, -, -, -, hextremes⟩
    obtain ⟨totals, htotals, hstats⟩ := bind_eq_ok.mp hrun
    rw [udpPingTotals_eq, foldlM_addLine htake] at htotals
    obtain ⟨hlt, rfl⟩ := htotals
    cases hstats
    -- as many replies among the lines that are counted as among all, so they are the same
    have hlength : (replied ((pingLines info t).take t.sent)).length = (replied (pingLines info t)).length :=
      Int.ofNat.inj htotal
    have heq : replied ((pingLines info t).take t.sent) = replied (pingLines info t) :=
      ((List.take_sublist _ _).filter _).eq_of_length hlength
    rw [heq, hrtts heq] at hsome
    exact ⟨replied_take_eq_iff.mp heq, hlength ▸ hlt, fun hne => (hsome hne).1.mp (hextremes hne).1⟩
  · rintro ⟨hcounted, htotal, hseed⟩
    have heq := replied_take_eq_iff.mpr hcounted
    have hlines := @totalsOf_lines ((pingLines info t).take t.sent)
    rw [heq] at hnone hlines
    rw [heq, hrtts heq] at hsome
    refine ⟨_, ?_, ?_, hrtts heq, hlines, hnone, ?_⟩
    · rw [udpPingStatistics, udpPingTotals_eq, (foldlM_addLine htake).mpr ⟨heq ▸ htotal, rfl⟩, ok_bind]
    · exact congrArg (fun lines => ((List.length lines : Nat) : Int)) heq
    · intro hne
      exact ⟨(hsome hne).1.mpr (hseed hne), (hsome hne).2⟩

end Pings

/-- A client that sent one ping at time 0, which was replied to. -/
def singlePing (replyNs receiveReplyNs : Int) : UdpPingTimestamps :=
  ⟨1, [0], [replyNs], [receiveReplyNs], rfl, rfl, rfl⟩

/-- Its entry. -/
def singlePingInfo : UdpPingInfo := ⟨0, 0, 1, 0, ⟨1, 1, 0, [], []⟩⟩

theorem pingLines_singlePing (replyNs receiveReplyNs : Int) :
    pingLines singlePingInfo (singlePing replyNs receiveReplyNs) = [⟨0, 0, 0, replyNs, receiveReplyNs⟩] := rfl

theorem isPingLogLine_singlePing {replyNs receiveReplyNs : Int} (h0 : 0 ≤ replyNs) (hle : replyNs ≤ receiveReplyNs)
    (hlt : receiveReplyNs < 2 ^ 63) :
    ∀ line ∈ pingLines singlePingInfo (singlePing replyNs receiveReplyNs), IsPingLogLine line := by
  rw [pingLines_singlePing]
  intro line hline
  obtain rfl := List.mem_singleton.mp hline
  exact ⟨le_refl 0, by norm_num, .inr ⟨h0, hle, hlt⟩⟩

/-- A ping every 20 ns, four times. -/
def fourPingsInfo : UdpPingInfo := ⟨0, 0, 1, 0, ⟨20, 80, 0, [], []⟩⟩

/-- The first and the third have a reply, one after 10 ns and one after 7 ns. -/
def fourPings : UdpPingTimestamps :=
  ⟨4, [0, 20, 40, 60], [5, -1, 44, -1], [10, -1, 47, -1], rfl, rfl, rfl⟩

/-- The statistics count two replies, between 7 ns and 10 ns. -/
theorem ping_statistics_are_true_iff_fourPings : StatisticsAreTrue fourPingsInfo fourPings ∧
    (fun stats => (stats.total, stats.rttsNs, stats.minRttNs, stats.maxRttNs))
      <$> udpPingStatistics fourPingsInfo fourPings = .ok (2, [10, 7], 7, 10) := by
  have hlog : ∀ line ∈ pingLines fourPingsInfo fourPings, IsPingLogLine line := by
    have hlines : pingLines fourPingsInfo fourPings =
        [⟨0, 0, 0, 5, 10⟩, ⟨0, 1, 20, -1, -1⟩, ⟨0, 2, 40, 44, 47⟩, ⟨0, 3, 60, -1, -1⟩] := rfl
    rw [hlines]
    simp only [List.forall_mem_cons]
    exact ⟨⟨by decide, by decide, .inr (by decide)⟩, ⟨by decide, by decide, .inl (by decide)⟩,
      ⟨by decide, by decide, .inr (by decide)⟩, ⟨by decide, by decide, .inl (by decide)⟩, List.forall_mem_nil _⟩
  have hfit : StatisticsFit fourPingsInfo fourPings := ⟨by decide, by decide, fun _ => ⟨10, by decide, by decide⟩⟩
  exact ⟨(ping_statistics_are_true_iff hlog).mpr hfit, rfl⟩

/-- **A reply after more than 10000 s.** The smallest round-trip time that is reported is the seed. -/
theorem long_round_trip_is_cut :
    UdpPingTimestamps.handleReply (UdpPingTimestamps.empty.send 0) 0 5000000000000 10000000000001
      = .ok (singlePing 5000000000000 10000000000001) ∧
    (∀ line ∈ pingLines singlePingInfo (singlePing 5000000000000 10000000000001), IsPingLogLine line) ∧
    UdpPingStatistics.minRttNs <$> udpPingStatistics singlePingInfo (singlePing 5000000000000 10000000000001)
      = .ok 10000000000000 ∧
    ¬ StatisticsAreTrue singlePingInfo (singlePing 5000000000000 10000000000001) := by
  refine ⟨by decide, isPingLogLine_singlePing (by decide) (by decide) (by decide), by decide, ?_⟩
  rintro ⟨stats, hrun, -, -, -, -, hextremes⟩
  cases (show udpPingStatistics singlePingInfo (singlePing 5000000000000 10000000000001) = .ok _ from
    rfl).symm.trans hrun
  have hmem := (hextremes (by decide)).1.1
  revert hmem
  decide

/-! ## Bursts -/

/-- The duration in a result is what the simulation leaves of the duration of the burst. -/
structure IsExactDuration (simulationEndTimeNs : Int) (result : UdpBurstResult) : Prop where
  eq_min : result.effectiveDurationNs
    = min result.info.fields.durationNs (simulationEndTimeNs - result.info.startTimeNs)
  nonneg : 0 ≤ result.effectiveDurationNs
  pos : 0 < result.info.fields.durationNs → 0 < result.effectiveDurationNs
  le : result.effectiveDurationNs ≤ result.info.fields.durationNs

/-- Whatever was counted, the results of a burst are computed, with its exact duration. -/
structure HasExactDuration (simulationEndTimeNs : Int) (info : UdpBurstInfo) : Prop where
  outgoing : ∀ sizes sent, ∃ result, udpBurstOutgoingResult simulationEndTimeNs sizes sent info = .ok result ∧
    result.info = info ∧ IsExactDuration simulationEndTimeNs result
  incoming : ∀ sizes received, ∃ result,
    udpBurstIncomingResult simulationEndTimeNs sizes received info = .ok result ∧
    result.info = info ∧ IsExactDuration simulationEndTimeNs result

section Bursts

variable {endTimeNs : Int} {info : UdpBurstInfo}

/-- The computation for a burst that starts before the simulation ends. -/
theorem effectiveDurationNs_eq (h0 : 0 ≤ info.startTimeNs) (hd : 0 ≤ info.fields.durationNs)
    (hstart : info.startTimeNs < endTimeNs) (hend : endTimeNs < 2 ^ 63)
    (hlt : info.startTimeNs + info.fields.durationNs < 2 ^ 63) :
    effectiveDurationNs endTimeNs info = .ok (min info.fields.durationNs (endTimeNs - info.startTimeNs)) := by
  rw [effectiveDurationNs, int64_of_mem ⟨by omega, hlt⟩, ok_bind]
  split
  · rw [int64_of_mem ⟨by omega, by omega⟩, min_eq_right (by omega)]
  · rw [min_eq_left (by omega)]

theorem udpBurstResult_exact (h0 : 0 ≤ info.startTimeNs) (hd : 0 ≤ info.fields.durationNs)
    (hstart : info.startTimeNs < endTimeNs) (hend : endTimeNs < 2 ^ 63)
    (hlt : info.startTimeNs + info.fields.durationNs < 2 ^ 63) (sizes : UdpBurstSizes) (counter : BitVec 64) :
    ∃ result, udpBurstResult endTimeNs sizes counter info = .ok result ∧ result.info = info ∧
      IsExactDuration endTimeNs result := by
  refine ⟨_, by rw [udpBurstResult, effectiveDurationNs_eq h0 hd hstart hend hlt, ok_bind], rfl, rfl, ?_, ?_, ?_⟩
  · exact le_min hd (by omega)
  · exact fun hpos => lt_min hpos (by omega)
  · exact min_le_left _ _

/-- When the end of the burst is not an `int64_t`, the sum overflows. -/
theorem HasExactDuration.lt (h : HasExactDuration endTimeNs info) :
    info.startTimeNs + info.fields.durationNs < 2 ^ 63 := by
  obtain ⟨result, hrun, -⟩ := h.outgoing .default 0
  obtain ⟨_, hduration, -⟩ := bind_eq_ok.mp hrun
  obtain ⟨_, hsum, -⟩ := bind_eq_ok.mp hduration
  have hin : InInt64 (info.startTimeNs + info.fields.durationNs) := (int64_eq_ok.mp hsum).1
  exact hin.2

end Bursts

/-- **The duration that the rates refer to** is exact for the bursts whose end is an `int64_t`, and for no
    others. -/
theorem effective_durations_are_exact_iff {stod : Str → Except Exc (Double × Nat)} {filename : Str} {file : File}
    {topology : TopologyPtop} {endTimeNs : Int} {schedule : List UdpBurstInfo} (hend : InInt64 endTimeNs)
    (hread : readUdpBurstSchedule stod filename file topology endTimeNs = .ok schedule)
    {entry : UdpBurstInfo} (hentry : entry ∈ schedule) :
    HasExactDuration endTimeNs entry ↔ entry.startTimeNs + entry.fields.durationNs < 2 ^ 63 := by
  obtain ⟨⟨line, hline⟩, hlt⟩ := exists_line_of_mem (fun _ _ => says_udpBurst) hread hentry
  obtain ⟨_, _, _, _, _, _, -, -, -, -, -, hstart, hduration, -⟩ := hline
  have h0 := parsePositiveInt64_nonneg hstart
  have hd := parsePositiveInt64_nonneg hduration
  constructor
  · exact HasExactDuration.lt
  · intro hsum
    exact ⟨fun sizes sent => udpBurstResult_exact h0 hd hlt hend.2 hsum sizes _,
      fun sizes received => udpBurstResult_exact h0 hd hlt hend.2 hsum sizes _⟩

/-- A burst of a microsecond, in a simulation of a nanosecond. -/
theorem effective_durations_are_exact_iff_tenMegabit : HasExactDuration 1 (pairBurst (.finite 10)) :=
  (effective_durations_are_exact_iff (by decide) read_tenMegabitBurst List.mem_cons_self).mpr (by decide)

/-- A burst with the longest duration, at the nanosecond 1. -/
def longestBurst : UdpBurstInfo := ⟨0, 0, 1, 1, ⟨.finite 10, 9223372036854775807, [], []⟩⟩

/-- **The longest duration.** The burst is accepted, and the sum with its start time overflows. -/
theorem longest_burst_overflows :
    readUdpBurstSchedule wordStod [] (.content "0,0,1,10,1,9223372036854775807,,".toList) pairTopology 2
      = .ok [longestBurst] ∧
    effectiveDurationNs 2 longestBurst = .error (.undefined "signed 64-bit overflow") ∧
    ¬ HasExactDuration 2 longestBurst :=
  ⟨by decide, by decide, fun h => absurd h.lt (by decide)⟩

end BasicSim
