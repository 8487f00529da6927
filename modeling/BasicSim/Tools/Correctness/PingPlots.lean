import BasicSim.Apps.Correctness.ResultStatistics
import BasicSim.Apps.Correctness.UdpPingFinish
import BasicSim.Apps.Correctness.UdpPingHistories
import BasicSim.Lib.Grouping
import BasicSim.Tools.Correctness.OutOfOrder
import BasicSim.Tools.Correctness.Plotting

/-!
# `Tools.Correctness.PingPlots` — the plots of a ping show what the network did to it

The lines of `udp_pings.csv` are the time stamps of the clients, which are their history. The tool finds the lines of a
ping among those of all pings, and nothing wrong with them.

## Contents
- **The file.** `pingRow`, `udpPingResult_lines`, `writeUdpPingsCsv_eq`.
- **Its lines.** `pingResult_pingRow`, `pingResults_of_lines`.
- **Main result.** `PingPlotsTell`, `udp_ping_plots_tell`.
-/

namespace BasicSim

open Fallible Binning StepFunction Datagrams Grouping

/-! ## The file -/

/-- A line as the tool reads it. -/
def pingRow (p : UdpPingLine × UdpPingLatencies) : UdpPingRow :=
  ⟨p.1.udpPingId, p.1.seqNo, p.1.sendRequestNs, p.1.replyNs, p.1.receiveReplyNs, p.2.latencyToThereNs,
    p.2.latencyFromThereNs, p.2.rttNs, p.1.replyArrivedStr⟩

/-- A line with the latencies that it should have. -/
def UdpPingLine.complete (line : UdpPingLine) : UdpPingLine × UdpPingLatencies := (line, line.exactLatencies)

/-- The time stamps of a client that has counted all its pings; its last one is due within 64 bits. -/
structure PingsWritable (info : UdpPingInfo) (t : UdpPingTimestamps) : Prop where
  ends : InInt64 (info.startTimeNs + info.fields.durationNs)
  log : ∀ line ∈ pingLines info t, IsPingLogLine line
  sent : t.sent = t.sendRequestTimestamps.length
  few : t.sendRequestTimestamps.length < 2 ^ 31

section File

variable {info : UdpPingInfo} {t : UdpPingTimestamps}

theorem udpPingResult_lines (h : PingsWritable info t) :
    ∃ result, udpPingResult info t = .ok result ∧ result.1.lines = (pingLines info t).map UdpPingLine.complete := by
  have htake : (pingLines info t).take t.sent = pingLines info t :=
    List.take_of_length_le (by rw [length_pingLines, h.sent])
  have hfew : (replied (pingLines info t)).length < 2 ^ 31 := by
    refine lt_of_le_of_lt (List.length_filter_le _ _) ?_
    rw [length_pingLines]
    exact h.few
  have htotals : udpPingTotals info t = .ok (totalsOf (pingLines info t)) := by
    rw [udpPingTotals_eq, htake]
    exact (foldlM_addLine h.log).mpr ⟨hfew, rfl⟩
  refine ⟨((totalsOf (pingLines info t)).finalize, info.startTimeNs + info.fields.durationNs), ?_, rfl⟩
  rw [udpPingResult, udpPingStatistics, htotals, ok_bind, ok_bind, int64_of_mem h.ends, ok_bind]

/-- The file has the lines of all pings. -/
theorem writeUdpPingsCsv_eq {timestamps : UdpPingClient → UdpPingTimestamps} {s : UdpPingScheduler}
    (hlen : s.apps.length = s.schedule.length) (hlt : s.schedule.length < 2 ^ 31)
    (henabled : s.enabled = false → s.schedule = [])
    (h : ∀ p ∈ s.schedule.zip s.apps, PingsWritable p.1 (timestamps p.2)) :
    writeUdpPingsCsv timestamps s = .ok ((s.schedule.zip s.apps).flatMap fun p =>
      (pingLines p.1 (timestamps p.2)).map UdpPingLine.complete) := by
  obtain ⟨rows, hrows, hpairs, -⟩ := writeUdpPingResults_ok timestamps hlen hlt henabled
  obtain ⟨results, hresults, hlines⟩ := mapM_total (l := rows)
    (f := fun row => udpPingResult row.1 (timestamps row.2.1))
    (R := fun row result => result.1.lines = (pingLines row.1 (timestamps row.2.1)).map UdpPingLine.complete)
    fun row hrow => by
      refine udpPingResult_lines (h (row.1, row.2.1) ?_)
      rw [← hpairs]
      exact List.mem_map_of_mem hrow
  have hflat : (results.flatMap fun result => result.1.lines)
      = rows.flatMap fun row => (pingLines row.1 (timestamps row.2.1)).map UdpPingLine.complete := by
    rw [List.flatMap_def, List.flatMap_def, map_eq_map_of_forall₂ (fun _ _ hrow => hrow.symm) hlines]
  rw [writeUdpPingsCsv, hrows, ok_bind]
  refine (congrArg (· >>= _) hresults).trans ?_
  rw [ok_bind, hflat, ← hpairs, List.flatMap_map]

end File

/-! ## Its lines -/

/-- What the tool relies on: `parse_positive_int` of `exputil` reads what was written. -/
def ParsesPositiveInts (parsePositiveInt : Str → Except PyExc Int) : Prop :=
  ∀ v, 0 ≤ v → parsePositiveInt (toStr v) = .ok v

/-- The entry for a line. -/
def UdpPingLine.result (line : UdpPingLine) : PingResult where
  pingNo := line.seqNo
  sendRequestTimestamp := line.sendRequestNs
  replyTimestamp := line.replyNs
  receiveReplyTimestamp := line.receiveReplyNs
  latencyToThereNs := line.exactLatencies.latencyToThereNs
  latencyFromThereNs := line.exactLatencies.latencyFromThereNs
  rttNs := line.exactLatencies.rttNs
  isLost := !line.replyArrived

section Lines

variable {parsePositiveInt : Str → Except PyExc Int} {line : UdpPingLine} {lines : List UdpPingLine}

/-- **Step lemma.** The tool finds nothing wrong with the next line. -/
theorem pingResult_pingRow (hparse : ParsesPositiveInts parsePositiveInt) (hlog : IsPingLogLine line)
    {prevPingNo : Int} (hseq : prevPingNo + 1 = line.seqNo) :
    pingResult parsePositiveInt prevPingNo (pingRow line.complete) = .ok line.result := by
  have hno : (pingRow line.complete).pingNo = prevPingNo + 1 := hseq.symm
  rw [pingResult, throwIf_of_not (not_not.mpr hno), ok_bind]
  by_cases harrived : line.replyArrived = true
  · have hstr : (pingRow line.complete).arrived = "YES".toList := if_pos harrived
    have hlatencies : line.exactLatencies
        = ⟨line.replyNs - line.sendRequestNs, line.receiveReplyNs - line.replyNs, line.roundTripNs⟩ := if_pos harrived
    have hreply : line.replyNs ≠ -1 := of_decide_eq_true harrived
    have hsend := hlog.send_nonneg
    have hrtt := hlog.roundTripNs_nonneg harrived
    obtain ⟨hle, hle', -⟩ := hlog.outcome.resolve_left fun hlost => hreply hlost.1
    rw [hstr, isLost, if_pos rfl, ok_bind, checkTimestamps, if_neg Bool.false_ne_true]
    simp only [pingRow, UdpPingLine.complete, hlatencies]
    -- the five columns are read as what they are
    rw [hparse _ (by omega), ok_bind, hparse _ (by omega), ok_bind, hparse _ (by omega), ok_bind,
      hparse _ (by omega), ok_bind, hparse _ hrtt, ok_bind, ok_bind, UdpPingLine.result, hlatencies, harrived]
    rfl
  · have hstr : (pingRow line.complete).arrived = "LOST".toList := if_neg harrived
    have hlatencies : line.exactLatencies = ⟨-1, -1, -1⟩ := if_neg harrived
    have hreply : line.replyNs = -1 := by
      simpa [UdpPingLine.replyArrived] using harrived
    have hreceive : line.receiveReplyNs = -1 := by
      have hsend := hlog.send_nonneg
      rcases hlog.outcome with hlost | hset
      · exact hlost.2
      · omega
    rw [hstr, isLost, if_neg (by decide), if_pos rfl, ok_bind, checkTimestamps, if_pos rfl]
    simp only [pingRow, UdpPingLine.complete, hlatencies]
    rw [throwIf_of_not (by simp [hreply, hreceive]), ok_bind, UdpPingLine.result, hlatencies,
      Bool.eq_false_iff.mpr harrived]
    rfl

/-- **The tool finds the lines of a ping.** -/
theorem pingResults_of_lines (hparse : ParsesPositiveInts parsePositiveInt) {rows : List UdpPingRow} {id : Int}
    (hrows : rows.filter (fun row => row.udpPingId = id) = lines.map fun line => pingRow line.complete)
    (hlog : ∀ line ∈ lines, IsPingLogLine line) (hseq : ∀ (j : Nat) line, lines[j]? = some line → line.seqNo = j) :
    pingResults parsePositiveInt id rows = .ok (lines.map UdpPingLine.result) := by
  have hloop := foldlM_total (l := rows) (s := (([], -1) : List PingResult × Int))
    (f := fun st row => do
      if row.udpPingId = id then
        let entry ← pingResult parsePositiveInt st.2 row
        .ok (st.1 ++ [entry], st.2 + 1)
      else .ok (st.1, st.2))
    (fun done st => st.2 + 1 = ((done.filter fun row => row.udpPingId = id).length : Int) ∧
      st.1 = (lines.take (done.filter fun row => row.udpPingId = id).length).map UdpPingLine.result)
    (by
      rintro done row todo ⟨results, prevPingNo⟩ hl ⟨hprev, hresults⟩
      dsimp only at hprev hresults ⊢
      rw [List.filter_append]
      by_cases hid : row.udpPingId = id
      · -- it is the next line of the ping
        have hget : (lines.map fun line => pingRow line.complete)[(done.filter fun row => row.udpPingId = id).length]?
            = some row := by
          rw [← hrows, hl, List.filter_append, List.filter_cons_of_pos (by simpa using hid)]
          simp
        rw [List.getElem?_map, Option.map_eq_some_iff] at hget
        obtain ⟨line, hline, rfl⟩ := hget
        have hentry := pingResult_pingRow hparse (hlog line (List.mem_of_getElem? hline))
          (hprev.trans (congrArg Nat.cast (hseq _ line hline).symm))
        refine ⟨(results ++ [line.result], prevPingNo + 1), ?_, ?_, ?_⟩
        · rw [if_pos hid, hentry, ok_bind]
        · simp [hid, hprev]
        · rw [List.filter_cons_of_pos (by simpa using hid), List.filter_nil, List.length_append, List.length_singleton,
            List.take_add_one, hline, hresults]
          simp
      · refine ⟨(results, prevPingNo), ?_, ?_⟩
        · rw [if_neg hid]
        · rw [List.filter_cons_of_neg (by simpa using hid), List.filter_nil, List.append_nil]
          exact ⟨hprev, hresults⟩)
    ⟨rfl, rfl⟩
  obtain ⟨⟨results, prevPingNo⟩, hrun, -, hresults⟩ := hloop
  have hlength := congrArg List.length hrows
  rw [List.length_map] at hlength
  dsimp only at hresults
  rw [hlength, List.take_length] at hresults
  rw [pingResults]
  refine (congrArg (· >>= _) hrun).trans ?_
  rw [ok_bind, hresults]

end Lines

/-! ## The history of the lines -/

section History

variable {info : UdpPingInfo} {t : UdpPingTimestamps} {line : UdpPingLine}

/-- A line has the record of its ping. -/
theorem record?_of_getElem?_pingLines {n : Nat} (h : (pingLines info t)[n]? = some line) :
    ∃ r, t.record? n = some r ∧ line = ⟨info.id, n, r.sendRequestNs, r.replyNs, r.receiveReplyNs⟩ := by
  rw [pingLines, List.getElem?_mapIdx, Option.map_eq_some_iff] at h
  obtain ⟨p, hp, rfl⟩ := h
  obtain ⟨hsend, hp⟩ := List.getElem?_zip_eq_some.mp hp
  obtain ⟨hreply, hreceive⟩ := List.getElem?_zip_eq_some.mp hp
  exact ⟨⟨p.1, p.2.1, p.2.2⟩, UdpPingTimestamps.record?_eq_some.mpr ⟨hsend, hreply, hreceive⟩, rfl⟩

theorem PingRecord.Until.isPingLogLine {now : Int} {r : PingRecord} (h : r.Until now) (hnow : now < 2 ^ 63)
    (id : Int) (n : Nat) : IsPingLogLine ⟨id, n, r.sendRequestNs, r.replyNs, r.receiveReplyNs⟩ where
  send_nonneg := h.send_nonneg
  send_lt := lt_of_le_of_lt h.send_le hnow
  outcome := h.reply.imp_right fun hreply => ⟨hreply.1, hreply.2.1, lt_of_le_of_lt hreply.2.2 hnow⟩

theorem sendRequestNs_pingLines : (pingLines info t).map UdpPingLine.sendRequestNs = t.sendRequestTimestamps := by
  refine List.ext_getElem? fun n => ?_
  rw [List.getElem?_map]
  cases hline : (pingLines info t)[n]? with
  | none =>
      rw [List.getElem?_eq_none_iff, length_pingLines] at hline
      exact (List.getElem?_eq_none hline).symm
  | some line =>
      obtain ⟨r, hr, rfl⟩ := record?_of_getElem?_pingLines hline
      exact (UdpPingTimestamps.record?_eq_some.mp hr).1.symm

theorem seqNo_pingLines (n : Nat) (line : UdpPingLine) (h : (pingLines info t)[n]? = some line) : line.seqNo = n := by
  obtain ⟨r, -, rfl⟩ := record?_of_getElem?_pingLines h
  rfl

/-- The entry of a ping, with its record. -/
theorem exists_record {n : Nat} {entry : PingResult}
    (h : ((pingLines info t).map UdpPingLine.result)[n]? = some entry) :
    ∃ r, t.record? n = some r ∧ entry.sendRequestTimestamp = r.sendRequestNs ∧
      entry.receiveReplyTimestamp = r.receiveReplyNs ∧ (entry.isLost = true ↔ r.replyNs = -1) ∧
      entry.rttNs = if r.replyNs = -1 then -1 else r.receiveReplyNs - r.sendRequestNs := by
  rw [List.getElem?_map, Option.map_eq_some_iff] at h
  obtain ⟨line, hline, rfl⟩ := h
  obtain ⟨r, hr, rfl⟩ := record?_of_getElem?_pingLines hline
  refine ⟨r, hr, rfl, rfl, ?_, ?_⟩
  · simp [UdpPingLine.result, UdpPingLine.replyArrived]
  · simp only [UdpPingLine.result, UdpPingLine.exactLatencies, UdpPingLine.replyArrived, UdpPingLine.roundTripNs,
      decide_eq_true_eq]
    by_cases hreply : r.replyNs = -1 <;> simp [hreply]

end History

/-! ## Main result -/

section Run

variable {Byte κ : Type} [DecidableEq κ] {it : BufferIterator Byte} {clients : κ → UdpPingClient} {acts : List κ}
  {c : System ((κ → UdpPingTimestamps) × PingHistory Byte κ) (PingDatagram Byte)} {k : κ}

/-- When a client sent its pings. -/
def pingTimes (history : PingHistory Byte κ) (k : κ) : List Int := History.timesOf (fun j => decide (j = k)) history

/-- A ping was lost, or a later one was back before it. -/
def LateOrLost (it : BufferIterator Byte) (clients : κ → UdpPingClient) (history : PingHistory Byte κ) (k : κ)
    (n : Nat) : Prop :=
  (∀ t, ¬ ReceivedReply it clients history k n t) ∨
    ∃ m t t', n < m ∧ m < (pingTimes history k).length ∧ ReceivedReply it clients history k n t ∧
      ReceivedReply it clients history k m t' ∧ t' < t

/-- **What the plots of a ping show**: when each of its pings was sent, how long it was away, and how many of them were
    lost or late in each interval. A ping that is back after what the tool starts with counts as late. -/
structure PingPlotsTell (it : BufferIterator Byte) (clients : κ → UdpPingClient) (history : PingHistory Byte κ) (k : κ)
    (intervalNs : Int) (plots : UdpPingPlots) : Prop where
  sent : plots.rtt.map Prod.fst = pingTimes history k
  rtt : ∀ (n : Nat) t rtt, plots.rtt[n]? = some (t, rtt) →
    (∃ replyNs, Answered it clients history k n replyNs (t + rtt) ∧ t ≤ replyNs ∧ replyNs ≤ t + rtt) ∨
      rtt = 0 ∧ ∀ t', ¬ ReceivedReply it clients history k n t'
  outOfOrder : ∃ marks : List Bool, marks.length = (pingTimes history k).length ∧
    IsBinning intervalNs ((pingTimes history k).zip (marks.map fun mark => if mark = true then 1 else 0))
      plots.outOfOrder ∧
    ∀ n < marks.length, marks[n]? = some true ↔ LateOrLost it clients history k n ∨
      ∃ t, ReceivedReply it clients history k n t ∧ 1000000000000000 < t

/-- What a record says of the reply. -/
theorem PingHistoryInv.receivedReply_iff (h : PingHistoryInv it clients c) {n : Nat} {r : PingRecord}
    (hr : (c.state.1 k).record? n = some r) {t : Int} :
    ReceivedReply it clients c.state.2 k n t ↔ r.replyNs ≠ -1 ∧ t = r.receiveReplyNs := by
  constructor
  · exact h.received k n r hr t
  · rintro ⟨hset, rfl⟩
    exact (h.answered k n r hr hset).received

/-- Every entry has a mark. -/
theorem length_isOutOfOrder (results : List PingResult) : (isOutOfOrder results).length = results.length := by
  induction results with
  | nil => rfl
  | cons entry results ih => rw [isOutOfOrder_cons, List.length_cons, List.length_cons, ih]

/-- **The marks are right.** -/
theorem PingHistoryInv.marks_iff (h : PingHistoryInv it clients c) {info : UdpPingInfo} {n : Nat} {entry : PingResult}
    (hn : ((pingLines info (c.state.1 k)).map UdpPingLine.result)[n]? = some entry) :
    (isOutOfOrder ((pingLines info (c.state.1 k)).map UdpPingLine.result))[n]? = some true ↔
      LateOrLost it clients c.state.2 k n ∨
        ∃ t, ReceivedReply it clients c.state.2 k n t ∧ 1000000000000000 < t := by
  obtain ⟨r, hr, -, hreceive, hlost, -⟩ := exists_record hn
  have hlength : (pingTimes c.state.2 k).length = (pingLines info (c.state.1 k)).length := by
    rw [length_pingLines, h.sent k, pingTimes]
  rw [isOutOfOrder_eq_true_iff hn, hlost, hreceive]
  by_cases hset : r.replyNs = -1
  · -- it was lost
    have hnone : ∀ t, ¬ ReceivedReply it clients c.state.2 k n t := fun t ht =>
      ((h.receivedReply_iff hr).mp ht).1 hset
    exact iff_of_true (.inl hset) (.inl (.inl hnone))
  · have hreceived := (h.receivedReply_iff hr).mpr ⟨hset, rfl⟩
    constructor
    · rintro (hlost | hlate | ⟨m, later, hlt, hm, harrived, hbefore⟩)
      · exact absurd hlost hset
      · exact .inr ⟨_, hreceived, hlate⟩
      · obtain ⟨r', hr', -, hreceive', hlost', -⟩ := exists_record hm
        have hset' : r'.replyNs ≠ -1 := fun heq => by rw [hlost'.mpr heq] at harrived; cases harrived
        have hlt' := (List.getElem?_eq_some_iff.mp hm).1
        rw [List.length_map, ← hlength] at hlt'
        exact .inl (.inr ⟨m, _, _, hlt, hlt', hreceived, (h.receivedReply_iff hr').mpr ⟨hset', rfl⟩,
          hreceive' ▸ hbefore⟩)
    · rintro ((hnone | ⟨m, t, t', hlt, hlt', ht, ht', hbefore⟩) | ⟨t, ht, hlate⟩)
      · exact absurd hreceived (hnone _)
      · rw [hlength, ← List.length_map (f := UdpPingLine.result)] at hlt'
        have hm := List.getElem?_eq_getElem hlt'
        obtain ⟨r', hr', -, hreceive', hlost', -⟩ := exists_record hm
        obtain ⟨hset', rfl⟩ := (h.receivedReply_iff hr').mp ht'
        obtain ⟨-, rfl⟩ := (h.receivedReply_iff hr).mp ht
        refine .inr (.inr ⟨m, _, hlt, hm, ?_, hreceive' ▸ hbefore⟩)
        exact Bool.eq_false_iff.mpr fun heq => hset' (hlost'.mp heq)
      · obtain ⟨-, rfl⟩ := (h.receivedReply_iff hr).mp ht
        exact .inr (.inl hlate)

/-- The lines of a client are plotted as they should. -/
theorem plotUdpPing_of_inv {parsePositiveInt : Str → Except PyExc Int} (hparse : ParsesPositiveInts parsePositiveInt)
    (hbase : PingInv it clients acts ⟨c.now, c.state.1, c.net⟩) (h : PingHistoryInv it clients c)
    (hrecorded : Recorded 0 acts c) (hnow : c.now < 2 ^ 63) {info : UdpPingInfo} {id intervalNs : Int}
    {rows : List UdpPingRow} (hI : 1 ≤ intervalNs)
    (hrows : rows.filter (fun row => row.udpPingId = id)
      = (pingLines info (c.state.1 k)).map fun line => pingRow line.complete) :
    ∃ plots, plotUdpPing parsePositiveInt id intervalNs rows = .ok plots ∧
      PingPlotsTell it clients c.state.2 k intervalNs plots := by
  have hlog : ∀ line ∈ pingLines info (c.state.1 k), IsPingLogLine line := by
    intro line hline
    obtain ⟨n, hn⟩ := List.mem_iff_getElem?.mp hline
    obtain ⟨r, hr, rfl⟩ := record?_of_getElem?_pingLines hn
    exact (hbase.records k n r hr).isPingLogLine hnow info.id n
  have hresults := pingResults_of_lines hparse hrows hlog seqNo_pingLines
  have hsent : ((pingLines info (c.state.1 k)).map UdpPingLine.result).map PingResult.sendRequestTimestamp
      = pingTimes c.state.2 k := by
    rw [List.map_map, pingTimes, ← h.sent k]
    exact sendRequestNs_pingLines
  generalize hres : (pingLines info (c.state.1 k)).map UdpPingLine.result = results at hresults hsent
  have hlength : (isOutOfOrder results).length = results.length := length_isOutOfOrder results
  have htimes : AscendingTimes (pingTimes c.state.2 k) := hrecorded.ascendingTimes (History.timesOf_sublist _ _)
  have hsamples : outOfOrderSamples results = (pingTimes c.state.2 k).zip
      ((isOutOfOrder results).map fun mark => if mark = true then 1 else 0) := by
    rw [← hsent, List.zip_map, outOfOrderSamples]
    rfl
  have hcount : (pingTimes c.state.2 k).length = results.length := by
    rw [← hsent, List.length_map]
  have hasc : AscendingFrom 0 (outOfOrderSamples results) := by
    rw [hsamples]
    exact ascendingFrom_zip (by rw [List.length_map, hlength, hcount]) htimes.1 htimes.2
  obtain ⟨st, j, hrun, hbinned⟩ := outOfOrderIntervals_binned hI hasc
  refine ⟨⟨pingRtts results, st.intervals ++ [st.current]⟩, ?_, ?_⟩
  · rw [plotUdpPing, hresults, ok_bind, hrun, ok_bind]
  constructor
  case sent =>
    rw [← hsent]
    exact List.map_map
  case rtt =>
    intro n t rtt hn
    rw [pingRtts, List.getElem?_map, Option.map_eq_some_iff] at hn
    obtain ⟨entry, hentry, heq⟩ := hn
    obtain ⟨rfl, rfl⟩ := Prod.mk.inj heq
    rw [← hres] at hentry
    obtain ⟨r, hr, hsend, -, hlost, hrtt⟩ := exists_record hentry
    rw [hsend, hrtt]
    by_cases hset : r.replyNs = -1
    · rw [if_pos (hlost.mpr hset)]
      exact .inr ⟨rfl, fun t' ht' => ((h.receivedReply_iff hr).mp ht').1 hset⟩
    · rw [if_neg fun heq => hset (hlost.mp heq), if_neg hset, add_sub_cancel]
      have hordered := (hbase.records k n r hr).reply.resolve_left fun hlost => hset hlost.1
      exact .inl ⟨r.replyNs, h.answered k n r hr hset, hordered.1, hordered.2.1⟩
  case outOfOrder =>
    refine ⟨isOutOfOrder results, hlength.trans hcount.symm, hsamples ▸ hbinned.isBinning hI hasc, fun n hn => ?_⟩
    obtain ⟨entry, hentry⟩ : ∃ entry, results[n]? = some entry := ⟨_, List.getElem?_eq_getElem (hlength ▸ hn)⟩
    rw [← hres] at hentry ⊢
    exact h.marks_iff hentry

end Run

section Schedule

variable {schedule : List UdpPingInfo} {topology : TopologyPtop} {endTimeNs : Int}

/-- The identifiers of a short schedule are different, also as those of its clients. -/
theorem udpPingId_injective (hacc : Accepted topology endTimeNs schedule) (hlt : schedule.length < 2 ^ 31)
    {World Event : Type} {nodes : NodeContainer UdpPingClient World Event} {clientOf : UdpPingInfo → UdpPingClient}
    (hclients : ∀ e ∈ schedule, (clientOf e).BelongsTo nodes e) :
    Function.Injective fun e : {entry // entry ∈ schedule} => (clientOf e.1).udpPingId := by
  rintro ⟨e, he⟩ ⟨e', he'⟩ heq
  dsimp only at heq
  rw [(hclients e he).udpPingId, (hclients e' he').udpPingId] at heq
  obtain ⟨k, hk⟩ := List.mem_iff_getElem?.mp he
  obtain ⟨k', hk'⟩ := List.mem_iff_getElem?.mp he'
  have hlt' := (List.getElem?_eq_some_iff.mp hk).1
  have hlt'' := (List.getElem?_eq_some_iff.mp hk').1
  have hnat := congrArg BitVec.toNat heq
  rw [hacc.id_eq k e hk, hacc.id_eq k' e' hk', ← Int.natCast_inj, toNat_toUInt32 (by omega) (by omega),
    toNat_toUInt32 (by omega) (by omega), Int.natCast_inj] at hnat
  subst hnat
  exact Subtype.ext (Option.some.inj (hk.symm.trans hk'))

/-- The identifiers of a schedule that is shared are different. -/
theorem nodup_ids (hacc : Accepted topology endTimeNs schedule) {part : List UdpPingInfo}
    (hsub : part.Sublist schedule) : (part.map ScheduleEntry.id).Nodup := by
  refine (hsub.map ScheduleEntry.id).nodup (List.nodup_iff_getElem?_ne_getElem?.mpr fun i j hij hj heq => ?_)
  rw [List.length_map] at hj
  rw [List.getElem?_map, List.getElem?_map, List.getElem?_eq_getElem (hij.trans hj), List.getElem?_eq_getElem hj,
    Option.map_some, Option.map_some, Option.some.injEq, hacc.id_eq i _ (List.getElem?_eq_getElem _),
    hacc.id_eq j _ (List.getElem?_eq_getElem _)] at heq
  omega

end Schedule

/-- **The plots of every ping tell what happened to it**, whatever the network does except to duplicate packets. The
    clients are those of an accepted schedule, of which a system writes the part that it started; each sends fewer than
    `2 ^ 31` pings, and ends within 64 bits. -/
theorem udp_ping_plots_tell {Byte : Type} (it : BufferIterator Byte) {filename : Str} {file : File}
    {topology : TopologyPtop} {endTimeNs : Int} {schedule : List UdpPingInfo}
    (hread : readUdpPingSchedule filename file topology endTimeNs = .ok schedule) (hlt : schedule.length < 2 ^ 31)
    {World Event : Type} {nodes : NodeContainer UdpPingClient World Event} {clientOf : UdpPingInfo → UdpPingClient}
    (hclients : ∀ e ∈ schedule, (clientOf e).BelongsTo nodes e) {acts : List {entry // entry ∈ schedule}}
    {c : System (({entry // entry ∈ schedule} → UdpPingTimestamps) × PingHistory Byte {entry // entry ∈ schedule})
      (PingDatagram Byte)}
    (hrun : Run (pingProtocol it fun e : {entry // entry ∈ schedule} => clientOf e.1).recording recordedPingsStart
      acts c)
    (hfew : ∀ e, acts.countP (fun a => a = e) < 2 ^ 31) (hnow : c.now < 2 ^ 63) {s : UdpPingScheduler}
    (hsub : s.schedule.Sublist schedule) (happs : s.apps = s.schedule.map clientOf)
    (henabled : s.enabled = false → s.schedule = [])
    (hends : ∀ e ∈ s.schedule, InInt64 (e.startTimeNs + e.fields.durationNs))
    {timestamps : UdpPingClient → UdpPingTimestamps}
    (htimestamps : ∀ e : {entry // entry ∈ schedule}, timestamps (clientOf e.1) = c.state.1 e)
    {parsePositiveInt : Str → Except PyExc Int} (hparse : ParsesPositiveInts parsePositiveInt) :
    ∃ lines, writeUdpPingsCsv timestamps s = .ok lines ∧ ∀ intervalNs, 1 ≤ intervalNs →
      (∀ e : {entry // entry ∈ schedule}, e.1 ∈ s.schedule → ∃ plots,
        plotUdpPing parsePositiveInt e.1.id intervalNs (lines.map pingRow) = .ok plots ∧
        PingPlotsTell it (fun e : {entry // entry ∈ schedule} => clientOf e.1) c.state.2 e intervalNs plots) ∧
      ∀ id, id ∉ s.schedule.map ScheduleEntry.id →
        plotUdpPing parsePositiveInt id intervalNs (lines.map pingRow) = .ok ⟨[], [⟨0, intervalNs, 0⟩]⟩ := by
  obtain ⟨text, -, hacc, -⟩ := readSchedule_accepted hread
  have hid := udpPingId_injective hacc hlt hclients
  have hfew32 : ∀ e, acts.countP (fun a => a = e) < 2 ^ 32 := fun e => (hfew e).trans (by decide)
  have hbase := pingInv_of_recorded hid hrun hfew32 hnow
  have hinv := pingHistoryInv_run hid hrun hfew32 hnow
  have hrecorded : Recorded 0 acts c := hrun.recorded (recorded_start rfl 0)
  have hpairs : s.schedule.zip s.apps = s.schedule.map fun e => (e, clientOf e) := by
    rw [happs, List.map_prod_left_eq_zip]
  -- the file has the lines of each entry
  have hfile : writeUdpPingsCsv timestamps s = .ok (s.schedule.flatMap fun e =>
      (pingLines e (timestamps (clientOf e))).map UdpPingLine.complete) := by
    rw [writeUdpPingsCsv_eq (by rw [happs, List.length_map]) (lt_of_le_of_lt hsub.length_le hlt) henabled, hpairs,
      List.flatMap_map]
    intro p hp
    rw [hpairs] at hp
    obtain ⟨e, he, rfl⟩ := List.mem_map.mp hp
    dsimp only
    rw [htimestamps ⟨e, hsub.subset he⟩]
    have hlength := hbase.lengths ⟨e, hsub.subset he⟩
    dsimp only at hlength
    refine ⟨hends e he, fun line hline => ?_, ?_, hlength ▸ hfew _⟩
    · obtain ⟨n, hn⟩ := List.mem_iff_getElem?.mp hline
      obtain ⟨r, hr, rfl⟩ := record?_of_getElem?_pingLines hn
      exact (hbase.records _ n r hr).isPingLogLine hnow e.id n
    · rw [(c.state.1 _).sent_eq, hlength]
      exact Nat.mod_eq_of_lt (hfew32 _)
  refine ⟨_, hfile, fun intervalNs hI => ?_⟩
  have hrows : ∀ e ∈ s.schedule, ∀ row ∈ (pingLines e (timestamps (clientOf e))).map fun line => pingRow line.complete,
      row.udpPingId = e.id := by
    intro e _ row hrow
    obtain ⟨line, hline, rfl⟩ := List.mem_map.mp hrow
    obtain ⟨n, hn⟩ := List.mem_iff_getElem?.mp hline
    obtain ⟨r, -, rfl⟩ := record?_of_getElem?_pingLines hn
    rfl
  rw [List.map_flatMap]
  simp only [List.map_map]
  constructor
  · intro e he
    have hfilter := filter_rows (nodup_ids hacc hsub) hrows he
    rw [htimestamps e] at hfilter
    exact plotUdpPing_of_inv hparse hbase hinv hrecorded hnow hI hfilter
  · intro id hid
    have hfilter := filter_rows_of_not_mem hrows hid
    have hnil := hfilter.trans (List.map_nil (f := fun line : UdpPingLine => pingRow line.complete)).symm
    have hnone := pingResults_of_lines hparse hnil (List.forall_mem_nil _) fun _ _ h => nomatch h
    rw [plotUdpPing]
    refine (congrArg (· >>= _) hnone).trans ?_
    rfl

/-- The digits of a number as Python reads them. -/
def unsignedInt (s : Str) : Except PyExc Int := .ok (Nat.ofDigitChars 10 s 0)

theorem unsignedInt_parses : ParsesPositiveInts unsignedInt := by
  intro v hv
  obtain ⟨n, rfl⟩ := Int.eq_ofNat_of_zero_le hv
  unfold unsignedInt
  rw [toStr_natCast, Nat.ofDigitChars_ten_toDigits]

/-- The only entry of a schedule. -/
def tenNanosecondPing : {entry // entry ∈ [pairPing 10 25 10]} := ⟨pairPing 10 25 10, List.mem_cons_self⟩

/-- Its client. -/
def tenNanosecondClients (_ : {entry // entry ∈ [pairPing 10 25 10]}) : UdpPingClient := pairPingClientOf 10 25 10

/-- Its scheduler, at the end. -/
def tenNanosecondScheduler : UdpPingScheduler :=
  ⟨⟨true, [], ∅⟩, [pairPing 10 25 10], [pairPingClientOf 10 25 10]⟩

/-- It is answered after 2 ns, and the answer takes as long. -/
theorem run_tenNanosecondPing : ∃ c,
    Run (pingProtocol networkOrder tenNanosecondClients).recording recordedPingsStart [tenNanosecondPing] c ∧
      c.now = 9 ∧ (c.state.1 tenNanosecondPing).sendRequestTimestamps = [5] ∧
      (c.state.1 tenNanosecondPing).replyTimestamps = [7] ∧
      (c.state.1 tenNanosecondPing).receiveReplyTimestamps = [9] := by
  have hrequest : ∀ p, (pingProtocol networkOrder tenNanosecondClients).recording.Reaches (.request p) .server :=
    fun _ => trivial
  have hreply : ∀ p, (pingProtocol networkOrder tenNanosecondClients).recording.Reaches (.reply p)
      (.client tenNanosecondPing) := fun _ => trivial
  have h₁ : Run (pingProtocol networkOrder tenNanosecondClients).recording recordedPingsStart
      ([] ++ [tenNanosecondPing]) _ :=
    .step .start (.act (show (0 : Int) ≤ 5 by decide) rfl)
  have h₂ := h₁.step (.deliver (show (5 : Int) ≤ 7 by decide) (List.nil_append _).symm (hrequest _) rfl)
  have h₃ := h₂.step (.deliver (show (7 : Int) ≤ 9 by decide) (List.nil_append _).symm (hreply _) rfl)
  exact ⟨_, h₃, rfl, rfl, rfl, rfl⟩

theorem udp_ping_plots_tell_tenNanoseconds : ∃ c timestamps,
    Run (pingProtocol networkOrder tenNanosecondClients).recording recordedPingsStart [tenNanosecondPing] c ∧
    timestamps (tenNanosecondClients tenNanosecondPing) = c.state.1 tenNanosecondPing ∧
    ∃ lines, writeUdpPingsCsv timestamps tenNanosecondScheduler = .ok lines ∧
      lines.map pingRow = [⟨0, 0, 5, 7, 9, 2, 2, 4, "YES".toList⟩] ∧
      ∃ plots, plotUdpPing unsignedInt 0 10 (lines.map pingRow) = .ok plots ∧
        PingPlotsTell networkOrder tenNanosecondClients c.state.2 tenNanosecondPing 10 plots := by
  obtain ⟨c, hrun, hnow, hsent, hreply, hreceive⟩ := run_tenNanosecondPing
  have hclients : ∀ e ∈ [pairPing 10 25 10],
      (pairPingClientOf 10 25 10).BelongsTo (quietNodes UdpPingClient) e := by
    intro e he
    rw [List.mem_singleton.mp he]
    exact createUdpPingClient_belongs (createUdpPingClient_pairPing 10 25 10)
  have hfew : ∀ e, [tenNanosecondPing].countP (fun a => a = e) < 2 ^ 31 := fun e =>
    lt_of_le_of_lt List.countP_le_length (by decide)
  obtain ⟨timestamps, heq⟩ : ∃ timestamps, timestamps = fun _ : UdpPingClient => c.state.1 tenNanosecondPing :=
    ⟨_, rfl⟩
  have honly : ∀ e : {entry // entry ∈ [pairPing 10 25 10]},
      timestamps (pairPingClientOf 10 25 10) = c.state.1 e := by
    intro e
    rw [heq, show e = tenNanosecondPing from Subtype.ext (List.mem_singleton.mp e.2)]
  have hsub : tenNanosecondScheduler.schedule.Sublist [pairPing 10 25 10] := List.Sublist.refl _
  have hends : ∀ e ∈ tenNanosecondScheduler.schedule, InInt64 (e.startTimeNs + e.fields.durationNs) := by decide
  obtain ⟨lines, hlines, hplots⟩ := udp_ping_plots_tell networkOrder read_tenNanosecondPings (by decide) hclients
    hrun hfew (by rw [hnow]; decide) hsub rfl nofun hends honly unsignedInt_parses
  refine ⟨c, timestamps, hrun, honly _, lines, hlines, ?_,
    (hplots 10 (by decide)).1 tenNanosecondPing List.mem_cons_self⟩
  generalize c.state.1 tenNanosecondPing = stamps at heq hsent hreply hreceive
  obtain ⟨_, _, _, _, rfl, _, _⟩ := stamps
  subst heq hsent hreply hreceive
  rw [← Except.ok.inj hlines]
  rfl

end BasicSim
