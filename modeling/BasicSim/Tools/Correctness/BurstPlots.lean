import BasicSim.Apps.Correctness.UdpBurstLogs
import BasicSim.Tools.Correctness.Plotting

/-!
# `Tools.Correctness.BurstPlots` — the plots of a burst show what the network did to it

The files of a burst are its history, and the sequence numbers in them tell which packet arrived when. So the tool finds
nothing wrong with them, and the latencies are those of the packets that arrived.

## Contents
- **Amounts and rates.** `udpBurstAmounts_eq`, `udpBurstRate_binned`.
- **Latencies.** `arrivedAt_eq_some_iff`, `IsLatencies`, `udpBurstLatencies_spec`.
- **Main result.** `BurstPlotsTell`, `udp_burst_plots_tell`.
-/

namespace BasicSim

open Fallible Binning StepFunction Datagrams

/-- A line as the tool reads it. -/
def UdpBurstLogLine.row (line : UdpBurstLogLine) : UdpBurstRow := ⟨line.id.toNat, line.seq.toNat, line.timeNs⟩

/-! ## Amounts and rates -/

/-- After each packet, 1500 byte more. -/
def amountsAfter (timeNsList : List Int) : List (Int × Int) :=
  timeNsList.zipIdx.map fun p => (p.1, 1500 * ((p.2 : Int) + 1))

theorem udpBurstAmounts_eq (timeNsList : List Int) : udpBurstAmounts timeNsList = amountsAfter timeNsList := by
  have hfold : timeNsList.foldl (fun ((rows, prevAmount) : List (Int × Int) × Int) timeNs =>
      (rows ++ [(timeNs, prevAmount + 1500)], prevAmount + 1500)) ([], 0)
      = (amountsAfter timeNsList, 1500 * (timeNsList.length : Int)) := by
    induction timeNsList using List.reverseRecOn with
    | nil => rfl
    | append_singleton timeNsList t ih =>
        rw [List.foldl_append, ih]
        simp [amountsAfter, List.zipIdx_append, mul_add]
  rw [udpBurstAmounts, hfold]

/-- A sample of 1500 byte for each packet. -/
def packetSamples (timeNsList : List Int) : List (Int × Int) := timeNsList.map fun t => (t, 1500)

theorem udpBurstRate_binned {intervalNs : Int} {timeNsList : List Int} (hI : 1 ≤ intervalNs)
    (hasc : timeNsList.Pairwise (· ≤ ·)) (h0 : ∀ t ∈ timeNsList, 0 ≤ t) :
    ∃ rate, udpBurstRate intervalNs timeNsList = .ok rate ∧ IsBinning intervalNs (packetSamples timeNsList) rate := by
  have hzip : timeNsList.zip (List.replicate timeNsList.length 1500) = packetSamples timeNsList := by
    induction timeNsList with
    | nil => rfl
    | cons t timeNsList ih =>
        rw [List.length_cons, List.replicate_succ, List.zip_cons_cons,
          ih hasc.of_cons fun t ht => h0 t (List.mem_cons_of_mem _ ht)]
        rfl
  have hlength : timeNsList.length = (List.replicate timeNsList.length (1500 : Int)).length := by
    rw [List.length_replicate]
  have hsamples := ascendingFrom_zip hlength.le hasc h0
  obtain ⟨st, k, hrun, hbinned⟩ := sumUpIntoIntervals_binned hI hlength hsamples
  rw [hzip] at hbinned hsamples
  exact ⟨_, hrun, hbinned.isBinning hI hsamples⟩

/-! ## Latencies -/

/-- The dictionary has the time of each sequence number, if none arrived twice. -/
theorem arrivedAt_eq_some_iff {incoming : List UdpBurstRow} (hnodup : (incoming.map UdpBurstRow.seqNo).Nodup)
    {k t : Int} : arrivedAt incoming k = some t ↔ ∃ row ∈ incoming, row.seqNo = k ∧ row.timeNs = t := by
  unfold arrivedAt
  induction incoming using List.reverseRecOn with
  | nil => simp
  | append_singleton incoming row ih =>
      rw [List.map_append, List.map_singleton, List.nodup_append] at hnodup
      obtain ⟨hnodup, -, hnew⟩ := hnodup
      rw [List.foldl_append, List.foldl_cons, List.foldl_nil]
      by_cases hk : k = row.seqNo
      · subst hk
        rw [Function.update_self, Option.some.injEq]
        constructor
        · exact fun ht => ⟨row, by simp, rfl, ht⟩
        · rintro ⟨other, hmem, hseq, ht⟩
          rcases List.mem_append.mp hmem with hmem | hmem
          · exact absurd hseq (hnew _ (List.mem_map_of_mem hmem) _ (List.mem_singleton_self _))
          · rw [← List.mem_singleton.mp hmem, ht]
      · rw [Function.update_of_ne hk, ih hnodup]
        constructor
        · rintro ⟨other, hmem, hrow⟩
          exact ⟨other, List.mem_append_left _ hmem, hrow⟩
        · rintro ⟨other, hmem, hseq, ht⟩
          rcases List.mem_append.mp hmem with hmem | hmem
          · exact ⟨other, hmem, hseq, ht⟩
          · rw [List.mem_singleton.mp hmem] at hseq
            exact absurd hseq.symm hk

/-- **What the latencies must be**: one row for each packet that arrived, in the order of sending. -/
def IsLatencies (departures : List Int) (arrivals : List (Nat × Int)) (rows : List (Int × Int)) : Prop :=
  ∃ seqs : List Nat, seqs.Perm (arrivals.map Prod.fst) ∧ seqs.Pairwise (· < ·) ∧
    List.Forall₂ (fun k row => departures[k]? = some row.1 ∧ (k, row.1 + row.2) ∈ arrivals ∧ 0 ≤ row.2) seqs rows

section Latencies

variable {departures : List Int} {arrived : Nat → Option Int}

/-- The packets that arrived. -/
def arrivedSeqs (departures : List Int) (arrived : Nat → Option Int) : List Nat :=
  (List.range departures.length).filter fun k => (arrived k).isSome

/-- The loop over the packets that were sent. -/
theorem latencies_forall₂ (departures : List Int) (arrived : Nat → Option Int) :
    List.Forall₂ (fun k row => departures[k]? = some row.1 ∧ arrived k = some (row.1 + row.2))
      (arrivedSeqs departures arrived)
      (departures.zipIdx.filterMap fun p => (arrived p.2).map fun arrivedNs => (p.1, arrivedNs - p.1)) := by
  induction departures using List.reverseRecOn with
  | nil => exact .nil
  | append_singleton departures t ih =>
      -- the packets before are not concerned
      have hbefore : List.Forall₂ (fun k (row : Int × Int) =>
          (departures ++ [t])[k]? = some row.1 ∧ arrived k = some (row.1 + row.2))
          (arrivedSeqs departures arrived)
          (departures.zipIdx.filterMap fun p => (arrived p.2).map fun arrivedNs => (p.1, arrivedNs - p.1)) :=
        ih.imp fun k row h => ⟨by rw [List.getElem?_append_left (List.getElem?_eq_some_iff.mp h.1).1, h.1], h.2⟩
      rw [arrivedSeqs, List.length_append, List.length_singleton, List.range_succ, List.filter_append,
        List.zipIdx_append, List.filterMap_append]
      refine List.rel_append hbefore ?_
      cases harrived : arrived departures.length with
      | none => simp [harrived]
      | some arrivedNs => simp [harrived]

/-- **The latencies are those of the packets that arrived.** -/
theorem udpBurstLatencies_spec {outgoing incoming : List UdpBurstRow} {arrivals : List (Nat × Int)}
    (hincoming : incoming.map (fun row => (row.seqNo, row.timeNs)) = arrivals.map fun p => ((p.1 : Int), p.2))
    (hnodup : (arrivals.map Prod.fst).Nodup)
    (hsent : ∀ p ∈ arrivals, ∃ t, (outgoing.map UdpBurstRow.timeNs)[p.1]? = some t ∧ t ≤ p.2) :
    IsLatencies (outgoing.map UdpBurstRow.timeNs) arrivals (udpBurstLatencies outgoing incoming) := by
  have hseqs : (incoming.map UdpBurstRow.seqNo).Nodup := by
    have hmap := congrArg (List.map Prod.fst) hincoming
    rw [List.map_map, List.map_map] at hmap
    have hcast := hnodup.map (f := ((↑) : Nat → Int)) fun _ _ => Int.ofNat_inj.mp
    rw [List.map_map] at hcast
    exact hmap ▸ hcast
  -- the dictionary is the list of arrivals
  have harrived : ∀ (k : Nat) (t : Int), arrivedAt incoming k = some t ↔ (k, t) ∈ arrivals := by
    intro k t
    rw [arrivedAt_eq_some_iff hseqs]
    have hmem : ((k : Int), t) ∈ incoming.map (fun row => (row.seqNo, row.timeNs))
        ↔ ((k : Int), t) ∈ arrivals.map fun p => ((p.1 : Int), p.2) := by rw [hincoming]
    simpa using hmem
  have hrows : udpBurstLatencies outgoing incoming = (outgoing.map UdpBurstRow.timeNs).zipIdx.filterMap fun p =>
      (arrivedAt incoming p.2).map fun arrivedNs => (p.1, arrivedNs - p.1) := by
    rw [udpBurstLatencies, List.zipIdx_map, List.filterMap_map]
    rfl
  rw [hrows]
  refine ⟨arrivedSeqs (outgoing.map UdpBurstRow.timeNs) fun k => arrivedAt incoming k, ?_, ?_, ?_⟩
  · refine (List.perm_ext_iff_of_nodup (List.nodup_range.filter _) hnodup).mpr fun k => ?_
    rw [List.mem_filter, List.mem_range, Option.isSome_iff_exists, List.mem_map]
    constructor
    · rintro ⟨-, t, ht⟩
      exact ⟨(k, t), (harrived k t).mp ht, rfl⟩
    · rintro ⟨⟨k, t⟩, hmem, rfl⟩
      obtain ⟨s, hs, -⟩ := hsent _ hmem
      exact ⟨(List.getElem?_eq_some_iff.mp hs).1, t, (harrived k t).mpr hmem⟩
  · exact List.pairwise_lt_range.filter _
  · refine (latencies_forall₂ _ _).imp fun k row h => ?_
    have hmem := (harrived k _).mp h.2
    obtain ⟨s, hs, hle⟩ := hsent _ hmem
    rw [h.1, Option.some.injEq] at hs
    exact ⟨h.1, hmem, by omega⟩

end Latencies

/-! ## Main result -/

/-- **What the plots of a burst show**: each packet that was sent, each that arrived, and how long it took. -/
structure BurstPlotsTell (intervalNs : Int) (departures : List Int) (arrivals : List (Nat × Int))
    (plots : UdpBurstPlots) : Prop where
  sentAmount : plots.sentAmount = amountsAfter departures
  arrivedAmount : plots.arrivedAmount = amountsAfter (arrivals.map Prod.snd)
  sentRate : IsBinning intervalNs (packetSamples departures) plots.sentRate
  arrivedRate : IsBinning intervalNs (packetSamples (arrivals.map Prod.snd)) plots.arrivedRate
  oneWayLatency : IsLatencies departures arrivals plots.oneWayLatency

/-- Files that have the packets of a burst are plotted. -/
theorem plotUdpBurst_tells {id intervalNs : Int} {departures : List Int} {arrivals : List (Nat × Int)}
    (hI : 1 ≤ intervalNs) (hdepartures : AscendingTimes departures) (harrivals : AscendingTimes (arrivals.map Prod.snd))
    (hnodup : (arrivals.map Prod.fst).Nodup) (hsent : ∀ p ∈ arrivals, ∃ t, departures[p.1]? = some t ∧ t ≤ p.2) :
    ∃ plots, plotUdpBurst id intervalNs (departures.zipIdx.map fun p => ⟨id, p.2, p.1⟩)
        (arrivals.map fun p => ⟨id, p.1, p.2⟩) = .ok plots ∧
      BurstPlotsTell intervalNs departures arrivals plots := by
  obtain ⟨sentRate, hsentRate, hsentBinning⟩ := udpBurstRate_binned hI hdepartures.1 hdepartures.2
  obtain ⟨arrivedRate, harrivedRate, harrivedBinning⟩ := udpBurstRate_binned hI harrivals.1 harrivals.2
  generalize hout : (departures.zipIdx.map fun p => (⟨id, p.2, p.1⟩ : UdpBurstRow)) = outgoing
  generalize hin : (arrivals.map fun p => (⟨id, p.1, p.2⟩ : UdpBurstRow)) = incoming
  -- the columns of the files
  have houtTimes : outgoing.map UdpBurstRow.timeNs = departures := by
    rw [← hout, List.map_map]
    exact List.zipIdx_map_fst 0 departures
  have hinTimes : incoming.map UdpBurstRow.timeNs = arrivals.map Prod.snd := by
    rw [← hin, List.map_map]
    rfl
  have houtIds : outgoing.map UdpBurstRow.udpBurstId = List.replicate outgoing.length id := by
    rw [← hout, List.map_map, List.length_map]
    exact List.map_const' ..
  have hinIds : incoming.map UdpBurstRow.udpBurstId = List.replicate incoming.length id := by
    rw [← hin, List.map_map, List.length_map]
    exact List.map_const' ..
  have houtSeqs : outgoing.map UdpBurstRow.seqNo = (List.range outgoing.length).map Nat.cast := by
    rw [← hout, List.length_map, List.length_zipIdx, List.range_eq_range', ← List.zipIdx_map_snd 0 departures,
      List.map_map, List.map_map]
    rfl
  refine ⟨⟨udpBurstAmounts departures, udpBurstAmounts (arrivals.map Prod.snd), sentRate, arrivedRate,
    udpBurstLatencies outgoing incoming⟩, ?_, ?_⟩
  · rw [plotUdpBurst, throwIf_of_not (not_not.mpr houtIds), ok_bind, throwIf_of_not (not_not.mpr houtSeqs), ok_bind,
      throwIf_of_not (not_not.mpr hinIds), ok_bind]
    dsimp only
    rw [houtTimes, hinTimes, hsentRate, ok_bind, harrivedRate, ok_bind]
  · have hrows : incoming.map (fun row => (row.seqNo, row.timeNs)) = arrivals.map fun p => ((p.1 : Int), p.2) := by
      rw [← hin, List.map_map]
      rfl
    have hlatencies := udpBurstLatencies_spec hrows hnodup (houtTimes.symm ▸ hsent)
    rw [houtTimes] at hlatencies
    exact ⟨udpBurstAmounts_eq _, udpBurstAmounts_eq _, hsentBinning, harrivedBinning, hlatencies⟩

section Run

variable {Byte : Type} {it : BufferIterator Byte} {schedule : List UdpBurstInfo} {loggingIds : OrdSet Int}
  {topology : TopologyPtop} {clientOf : UdpBurstInfo → UdpBurstClient} {sizes : UdpBurstSizes}
  {acts : List {entry // entry ∈ schedule}}
  {c : System (LoggedBursts × BurstHistory Byte schedule) (BurstDatagram Byte)} {e : UdpBurstInfo}

/-- The rows of the packets that were sent. -/
theorem LoggedInv.outgoing_rows (h : LoggedInv it schedule loggingIds c) (he : e ∈ schedule)
    (hlog : e.id ∈ loggingIds) (h0 : 0 ≤ e.id) (hid : departures c.state.2 e.id ≠ [] → e.id < 2 ^ 32)
    (hfew : (departures c.state.2 e.id).length < 2 ^ 32) :
    (c.state.1.applications.clients e.id).outgoingLog.map UdpBurstLogLine.row
      = (departures c.state.2 e.id).zipIdx.map fun p => ⟨e.id, p.2, p.1⟩ := by
  rw [h.outgoing e he, if_pos hlog, List.map_map]
  refine List.map_congr_left fun p hp => ?_
  have hk := List.snd_lt_of_mem_zipIdx hp
  have hlt := hid (List.ne_nil_of_mem (List.fst_mem_of_mem_zipIdx hp))
  have hburst := toNat_toUInt32 h0 hlt
  have hseq : (BitVec.ofNat 32 p.2).toNat = p.2 := by
    rw [BitVec.toNat_ofNat]
    omega
  show (⟨((toUInt32 e.id).setWidth 64).toNat, ((BitVec.ofNat 32 p.2).setWidth 64).toNat, p.1⟩ : UdpBurstRow) = _
  rw [BitVec.toNat_setWidth, BitVec.toNat_setWidth, hseq]
  congr 1 <;> omega

/-- The rows of the packets that arrived. -/
theorem LoggedInv.incoming_rows (h : LoggedInv it schedule loggingIds c) (he : e ∈ schedule)
    (hlog : e.id ∈ loggingIds) (h0 : 0 ≤ e.id) (hid : e.id < 2 ^ 63)
    (hfew : (departures c.state.2 e.id).length < 2 ^ 32) :
    (c.state.1.incomingLogs (incomingFile e.id)).map UdpBurstLogLine.row
      = (arrivals it c.state.2 e.id).map fun p => ⟨e.id, p.1, p.2⟩ := by
  rw [h.incoming e he, if_pos hlog, List.map_map]
  refine List.map_congr_left fun p hp => ?_
  obtain ⟨t, ht, -⟩ := h.sent_before e.id p hp
  have hk := (List.getElem?_eq_some_iff.mp ht).1
  have hfile : ((incomingFile e.id).toNat : Int) = e.id := by
    rw [incomingFile, BitVec.toNat_ofInt]
    omega
  show (⟨((incomingFile e.id).toNat : Int), ((BitVec.ofNat 64 p.1).toNat : Int), p.2⟩ : UdpBurstRow) = _
  rw [hfile, BitVec.toNat_ofNat]
  congr 1
  omega

/-- As many packets arrived as the server counted. -/
theorem length_arrivals (hrecorded : Recorded 0 acts c) : (arrivals it c.state.2 e.id).length
    = c.net.delivered.countP fun m => m.burst = e.id := by
  have hlength : ((arrivals it c.state.2 e.id).map Prod.fst).length = _ :=
    congrArg List.length (arrivals_eq_map c.state.2 e.id)
  rw [List.length_map, List.length_map, hrecorded.received] at hlength
  rw [hlength, List.countP_eq_length_filter]

/-- **The plots of a burst show what happened**, if it is logged. -/
theorem plotUdpBurst_of_inv {intervalNs : Int} (hset : BurstSetting topology schedule clientOf)
    (hbase : BurstInv it topology schedule acts ⟨c.now, c.state.1.applications, c.net⟩) (hrecorded : Recorded 0 acts c)
    (h : LoggedInv it schedule loggingIds c) (hids : ∀ a ∈ acts, a.1.id < 2 ^ 32)
    (hfew : ∀ e ∈ schedule, sentBy acts e.id < 2 ^ 32) (he : e ∈ schedule) (hid64 : e.id < 2 ^ 63)
    (hlog : e.id ∈ loggingIds) (hI : 1 ≤ intervalNs) :
    ∃ plots, plotUdpBurst e.id intervalNs
        ((c.state.1.applications.clients e.id).outgoingLog.map UdpBurstLogLine.row)
        ((c.state.1.incomingLogs (incomingFile e.id)).map UdpBurstLogLine.row) = .ok plots ∧
      BurstPlotsTell intervalNs (departures c.state.2 e.id) (arrivals it c.state.2 e.id) plots := by
  have hlength : (departures c.state.2 e.id).length = sentBy acts e.id := by
    rw [length_departures, hrecorded.acts]
  have hid : departures c.state.2 e.id ≠ [] → e.id < 2 ^ 32 := by
    intro hne
    have hpos : 0 < sentBy acts e.id := hlength ▸ List.length_pos_of_ne_nil hne
    obtain ⟨a, ha, heq⟩ := List.countP_pos_iff.mp hpos
    rw [← of_decide_eq_true heq]
    exact hids a ha
  rw [h.outgoing_rows he hlog (hset.id_nonneg e he) hid (hlength ▸ hfew e he),
    h.incoming_rows he hlog (hset.id_nonneg e he) hid64 (hlength ▸ hfew e he)]
  refine plotUdpBurst_tells hI (hrecorded.ascendingTimes (History.timesOf_sublist _ _))
    (hrecorded.ascendingTimes (arrivals_sublist _ _)) ?_ (h.sent_before e.id)
  -- no packet arrives twice
  have hconserved : BurstsConserved it schedule clientOf .default ⟨c.now, c.state.1.applications, c.net⟩ :=
    hbase.burstsConserved hset hids hfew
  have hnodup := (hconserved.distinct e he).map (f := BitVec.toNat) fun _ _ => BitVec.eq_of_toNat_eq
  rw [List.map_map] at hnodup
  rw [arrivals_eq_map, hrecorded.received]
  exact hnodup

end Run

/-- **The plots of every burst tell what happened to its packets**, whatever the network does except to duplicate them,
    as long as the bursts that send have identifiers below `2 ^ 32` and send fewer than `2 ^ 32` packets. -/
theorem udp_burst_plots_tell {Byte : Type} (it : BufferIterator Byte)
    {stod : Str → Except Exc (Double × Nat)} {filename : Str} {file : File} {topology : TopologyPtop}
    {endTimeNs : Int} {schedule : List UdpBurstInfo}
    (hread : readUdpBurstSchedule stod filename file topology endTimeNs = .ok schedule)
    (hnames : EntriesNameEndpoints topology schedule) {World Event : Type}
    {nodes : NodeContainer UdpBurstClient World Event} {settings : SchedulerSettings}
    {clientOf : UdpBurstInfo → UdpBurstClient}
    (hclients : ∀ e ∈ schedule, (clientOf e).BelongsTo nodes settings e) {sizes : UdpBurstSizes}
    {acts : List {entry // entry ∈ schedule}}
    {c : System (LoggedBursts × BurstHistory Byte schedule) (BurstDatagram Byte)}
    (hrun : Run (loggedBurstProtocol it schedule clientOf sizes).recording
      (loggedBurstsStart topology schedule settings.enableLoggingForIds) acts c)
    (hfew : ∀ e ∈ schedule, sentBy acts e.id < 2 ^ 32) (hids : ∀ a ∈ acts, a.1.id < 2 ^ 32) {intervalNs : Int}
    (hI : 1 ≤ intervalNs) :
    ∀ e ∈ schedule,
      (departures c.state.2 e.id).length = (c.state.1.applications.clients e.id).sent.toNat ∧
      counterAt c.state.1.applications e.toNodeId e.id = some (.ok (arrivals it c.state.2 e.id).length) ∧
      if e.id ∈ settings.enableLoggingForIds then
        ∃ plots, plotUdpBurst e.id intervalNs
            ((c.state.1.applications.clients e.id).outgoingLog.map UdpBurstLogLine.row)
            ((c.state.1.incomingLogs (incomingFile e.id)).map UdpBurstLogLine.row) = .ok plots ∧
          BurstPlotsTell intervalNs (departures c.state.2 e.id) (arrivals it c.state.2 e.id) plots
      else (c.state.1.applications.clients e.id).outgoingLog = [] ∧
        c.state.1.incomingLogs (incomingFile e.id) = [] := by
  have hset := burstSetting_of_read hread hnames hclients
  have hlogs : ClientsLog schedule clientOf settings.enableLoggingForIds := fun e he => (hclients e he).logging
  have hids64 : ∀ e ∈ schedule, e.id < 2 ^ 63 := by
    obtain ⟨text, -, hacc, -⟩ := readSchedule_accepted hread
    intro e he
    obtain ⟨k, hk⟩ := List.mem_iff_getElem?.mp he
    have hlt := (List.getElem?_eq_some_iff.mp hk).1
    have hle := hacc.length_le
    rw [hacc.id_eq k e hk]
    omega
  have hbase := burstInv_of_logged hset hrun hids
  have hrecorded := recorded_of_logged hrun
  have hinv := loggedInv_run hset hlogs hids64 hrun hids
  intro e he
  have hfew' := hfew e he
  refine ⟨?_, ?_, ?_⟩
  · rw [length_departures, hrecorded.acts]
    exact (hbase.sent_toNat hfew').symm
  · -- fewer arrived than were sent, so the counter did not wrap around
    have hsent := hbase.conserved.countP fun m => m.burst = e.id
    rw [hbase.countP_sent] at hsent
    dsimp only at hsent
    rw [hbase.counterAt hset he, length_arrivals hrecorded]
    dsimp only
    rw [Nat.mod_eq_of_lt (by omega)]
  · split
    case isTrue hlog => exact plotUdpBurst_of_inv hset hbase hrecorded hinv hids hfew he (hids64 e he) hlog hI
    case isFalse hlog =>
      rw [hinv.outgoing e he, hinv.incoming e he, if_neg hlog, if_neg hlog]
      exact ⟨rfl, rfl⟩

/-- The client of a burst that is logged. -/
def loggingBurstClient (e : UdpBurstInfo) : UdpBurstClient :=
  { quietBurstClient e with enableDetailedLoggingToFile := decide (e.id ∈ (∅ : OrdSet Int).insert 0) }

/-- A burst of one packet, which arrives 7 ns later. -/
theorem udp_burst_plots_tell_pairBurst : ∃ c,
    Run (loggedBurstProtocol networkOrder [pairBurst (.finite 10)] loggingBurstClient .default).recording
      (loggedBurstsStart pairTopology [pairBurst (.finite 10)] ((∅ : OrdSet Int).insert 0))
      [⟨pairBurst (.finite 10), List.mem_cons_self⟩] c ∧
    departures c.state.2 0 = [3] ∧ arrivals networkOrder c.state.2 0 = [(0, 10)] ∧
    ∃ plots, plotUdpBurst 0 5 ((c.state.1.applications.clients 0).outgoingLog.map UdpBurstLogLine.row)
        ((c.state.1.incomingLogs (incomingFile 0)).map UdpBurstLogLine.row) = .ok plots ∧
      BurstPlotsTell 5 [3] [(0, 10)] plots := by
  have hclients : ∀ e ∈ [pairBurst (.finite 10)], (loggingBurstClient e).BelongsTo (quietNodes UdpBurstClient)
      ⟨true, [], (∅ : OrdSet Int).insert 0⟩ e := by
    intro e he
    have hquiet := quietBurstClient_belongs e
    exact ⟨hquiet.nodeId, hquiet.localAddress, hquiet.remoteAddress, hquiet.udpBurstId, hquiet.targetRate,
      hquiet.durationNs, hquiet.additionalParameters, decide_eq_true_iff⟩
  have hnames : EntriesNameEndpoints pairTopology [pairBurst (.finite 10)] := by
    intro e he
    rw [List.mem_singleton.mp he]
    decide
  have hsent : Run (loggedBurstProtocol networkOrder [pairBurst (.finite 10)] loggingBurstClient .default).recording
      (loggedBurstsStart pairTopology [pairBurst (.finite 10)] ((∅ : OrdSet Int).insert 0))
      ([] ++ [⟨pairBurst (.finite 10), List.mem_cons_self⟩]) _ :=
    .step .start (.act (show (0 : Int) ≤ 3 by decide) rfl)
  have hrun := hsent.step (.deliver (show (3 : Int) ≤ 10 by decide) (List.nil_append _).symm rfl rfl)
  have hids : ∀ a ∈ [(⟨pairBurst (.finite 10), List.mem_cons_self⟩ : {entry // entry ∈ [pairBurst (.finite 10)]})],
      a.1.id < 2 ^ 32 := by
    intro a ha
    rw [List.mem_singleton.mp ha]
    decide
  have hfew : ∀ e ∈ [pairBurst (.finite 10)],
      sentBy [(⟨pairBurst (.finite 10), List.mem_cons_self⟩ : {entry // entry ∈ [pairBurst (.finite 10)]})] e.id
        < 2 ^ 32 := by
    intro e he
    rw [List.mem_singleton.mp he]
    decide
  obtain ⟨-, -, hplots⟩ := udp_burst_plots_tell networkOrder read_tenMegabitBurst hnames hclients hrun hfew hids
    (show (1 : Int) ≤ 5 by decide) _ List.mem_cons_self
  exact ⟨_, hrun, rfl, rfl, hplots⟩

end BasicSim
