import BasicSim.Apps.Correctness.DistributedRuns
import BasicSim.Tools.Correctness.ResultFiles

/-!
# `Tools.Correctness.WrittenFiles` — what a run has written for the test

## Contents
- **A file.** `testFile_of_written`: the test of a file that all write item by item.
- **Runs.** `RunsTo`, what there is at the end of a run; what it says about the schedulers and the trackings.
- **Its files.** `WrittenFiles`, and `writeResults_written`.
-/

namespace BasicSim

open Fallible EventLoop Grouping Sharing

/-! ## A file -/

section File

variable {int : Str → Except PyExc Int} {Line ι ν : Type} {format : LineFormat Line} {nameOf : LineKey → ν}
  {name : ι → ν} {items : List ι}

/-- The key of a line that has one. -/
def lineKey (int : Str → Except PyExc Int) (line : Str) : LineKey :=
  match firstThreeNumbersInTuple int line with
  | .ok key => key
  | .error _ => toLex (0, toLex (0, 0))

theorem lineKey_text (hint : ReadsInts int) (line : Line) :
    lineKey int (stripLine (format.text line)) = format.key line := by
  rw [lineKey, firstThreeNumbersInTuple_text hint]

/-- The text of lines that are written item by item. -/
theorem WrittenByItems.text (hint : ReadsInts int) {lines : List Line}
    (h : WrittenByItems format nameOf name items lines) :
    ∃ rows, (format.file lines).map stripLine = items.flatMap rows ∧ Grouped (lineKey int) nameOf name items rows := by
  obtain ⟨rows, rfl, hnamed, hascending⟩ := h
  refine ⟨fun i => (rows i).map fun line => stripLine (format.text line), ?_, fun i hi => ?_, fun i hi => ?_⟩
  · rw [LineFormat.file, List.map_map, List.map_flatMap]
    rfl
  · refine List.forall_mem_map.mpr fun line hline => ?_
    rw [lineKey_text hint]
    exact hnamed i hi line hline
  · rw [List.pairwise_map]
    refine (hascending i hi).imp fun hlt => ?_
    rw [lineKey_text hint, lineKey_text hint]
    exact hlt

variable [LinearOrder ν] {f : ResultFile} {logs₀ : ResultFiles} {logs : Nat → ResultFiles} {k : Nat} {enabled : Bool}

end File

/-! ## Runs -/

section Schedulers

variable {Fields App World Event : Type}

/-- A scheduler when the simulation has come to its end, with its start function. -/
def RanToEnd (endTime : Int)
    (start : Int → Int → Scheduler Fields App → World →
      Except Exc ((Scheduler Fields App × List (Int × Int)) × (World × List (Int × Event))))
    (s₀ s : Scheduler Fields App) : Prop :=
  s₀.schedule.length < 2 ^ 31 ∧ ∃ other trace l, ChainedRun (startProcess start other) endTime s₀ trace l ∧
    Finished endTime l ∧ l.state.1 = s

/-- What is left of a scheduler: an application for each entry. -/
structure EndOf (s₀ s : Scheduler Fields App) : Prop where
  settings : s.toSchedulerSettings = s₀.toSchedulerSettings
  schedule : s.schedule = s₀.schedule
  apps : s.apps.length = s.schedule.length

theorem RanToEnd.endOf {endTime : Int} {wrongTime : Exc}
    {createApp : SchedulerSettings → ScheduleEntry Fields → World → Except Exc (App × World × List (Int × Event))}
    {s₀ s : Scheduler Fields App} (h : RanToEnd endTime (startNext wrongTime createApp) s₀ s)
    (hs₀ : Created endTime s₀) (hend : InInt64 endTime) (hcreate : CreationSucceeds createApp s₀) : EndOf s₀ s := by
  obtain ⟨hlength, other, trace, l, hrun, hfinished, rfl⟩ := h
  obtain ⟨hstarts, k, hstarted⟩ := startsInOrder_of_run (fun _ _ _ => True) hs₀ hend hlength hcreate
    (fun _ _ _ _ _ _ _ => trivial) hrun
  refine ⟨hstarted.settings, hstarted.schedule, ?_⟩
  rw [hstarted.schedule]
  exact hstarts.complete hfinished

variable (sim : BasicSimulation) (topology : TopologyPtop) (files : Str → File)

/-- The flow scheduler at the end of a run. -/
def TcpFlowsEnd (s : TcpFlowScheduler) : Prop :=
  ∃ (World Event : Type) (nodes : NodeContainer TcpFlowClient World Event) (serverPorts : OrdSet Nat)
    (selectRemotePort : TcpFlowClient → World → Nat × World) (s₀ : TcpFlowScheduler) (servers : List Int),
    createTcpFlowScheduler sim topology files = .ok (s₀, servers) ∧
    CreationSucceeds (createTcpFlowClient nodes serverPorts selectRemotePort) s₀ ∧
    RanToEnd sim.simulationEndTimeNs (startNextFlow nodes serverPorts selectRemotePort) s₀ s

/-- The ping scheduler at the end of a run. -/
def UdpPingsEnd (s : UdpPingScheduler) : Prop :=
  ∃ (World Event : Type) (nodes : NodeContainer UdpPingClient World Event) (s₀ : UdpPingScheduler)
    (servers : List Int),
    createUdpPingScheduler sim topology files = .ok (s₀, servers) ∧
    CreationSucceeds (createUdpPingClient nodes) s₀ ∧
    RanToEnd sim.simulationEndTimeNs (startNextUdpPing nodes) s₀ s

/-- The burst scheduler at the end of a run, when its servers have received packets. -/
def UdpBurstsEnd (stod : Str → Except Exc (Double × Nat)) (s : UdpBurstScheduler) : Prop :=
  ∃ (World Event : Type) (nodes : NodeContainer UdpBurstClient World Event) (s₀ : UdpBurstScheduler),
    createUdpBurstScheduler sim topology files stod = .ok s₀ ∧
    CreationSucceeds (createUdpBurstClient nodes) s₀.toScheduler ∧
    RanToEnd sim.simulationEndTimeNs (startNextUdpBurst nodes) s₀.toScheduler s.toScheduler ∧
    List.Forall₂ AfterPackets s₀.servers s.servers ∧
    s.responsibleForIncomingBursts = s₀.responsibleForIncomingBursts

variable {sim topology files}

theorem TcpFlowsEnd.exists_created (hend : InInt64 sim.simulationEndTimeNs) {s : TcpFlowScheduler}
    (h : TcpFlowsEnd sim topology files s) : ∃ s₀ servers,
      createTcpFlowScheduler sim topology files = .ok (s₀, servers) ∧ EndOf s₀ s ∧
        writeTcpFlowResults s = .ok (s.schedule.zip s.apps) := by
  obtain ⟨World, Event, nodes, ports, select, s₀, servers, hs₀, hcreate, hran⟩ := h
  have hendOf := hran.endOf (createTcpFlowScheduler_created hs₀) hend hcreate
  obtain ⟨hlength, other, trace, l, hrun, hfinished, rfl⟩ := hran
  refine ⟨s₀, servers, hs₀, hendOf, ?_⟩
  rw [hendOf.schedule]
  exact (tcpFlows_start hend hs₀ hlength hcreate hrun).2 hfinished

theorem UdpPingsEnd.exists_created (hend : InInt64 sim.simulationEndTimeNs) {s : UdpPingScheduler}
    (h : UdpPingsEnd sim topology files s) : ∃ s₀ servers,
      createUdpPingScheduler sim topology files = .ok (s₀, servers) ∧ EndOf s₀ s ∧
        ∀ timestamps, ∃ rows, writeUdpPingResults timestamps s = .ok rows ∧ rows.map Prod.fst = s.schedule := by
  obtain ⟨World, Event, nodes, s₀, servers, hs₀, hcreate, hran⟩ := h
  have hendOf := hran.endOf (createUdpPingScheduler_created hs₀) hend hcreate
  obtain ⟨hlength, other, trace, l, hrun, hfinished, rfl⟩ := hran
  refine ⟨s₀, servers, hs₀, hendOf, fun timestamps => ?_⟩
  obtain ⟨rows, hrows, hzip, -⟩ := (udpPings_start hend hs₀ hlength hcreate hrun).2 hfinished timestamps
  refine ⟨rows, hrows, ?_⟩
  have hfst := congrArg (List.map Prod.fst) hzip
  rw [List.map_map, ← hendOf.schedule, List.map_fst_zip (le_of_eq hendOf.apps.symm)] at hfst
  exact hfst

/-- The incoming bursts, in the order in which they are written. -/
def UdpBurstScheduler.incomingBursts (s : UdpBurstScheduler) : List UdpBurstInfo :=
  (s.responsibleForIncomingBursts.insertionSort fun a b => a.1.id ≤ b.1.id).map Prod.fst

theorem UdpBurstsEnd.exists_created {stod : Str → Except Exc (Double × Nat)}
    (hend : InInt64 sim.simulationEndTimeNs) {s : UdpBurstScheduler} (h : UdpBurstsEnd sim topology files stod s) :
    ∃ s₀, createUdpBurstScheduler sim topology files stod = .ok s₀ ∧ EndOf s₀.toScheduler s.toScheduler ∧
      s.responsibleForIncomingBursts = s₀.responsibleForIncomingBursts ∧
      writeUdpBurstOutgoing s = s.apps ∧ s.apps.map Prod.fst = s.schedule ∧
      ∃ rows, writeUdpBurstIncoming s = .ok rows ∧ rows.map Prod.fst = s.incomingBursts := by
  obtain ⟨World, Event, nodes, s₀, hs₀, hcreate, hran, hservers, hincoming⟩ := h
  have hendOf := hran.endOf (createUdpBurstScheduler_created hs₀) hend hcreate
  obtain ⟨hlength, other, trace, l, hrun, hfinished, hl⟩ := hran
  have hs : { s₀ with toScheduler := l.state.1, servers := s.servers } = s := by
    rw [hl, ← hincoming]
  obtain ⟨houtgoing, happs, rows, hrows, hfst⟩ := (udpBursts_start hend hs₀ hlength hcreate hrun).2 hfinished _ hservers
  simp only [hs] at houtgoing hrows
  refine ⟨s₀, hs₀, hendOf, hincoming, ?_, ?_, rows, hrows, ?_⟩
  · rw [houtgoing, hl]
  · rw [hendOf.schedule, ← happs, hl]
  · rw [hfst, UdpBurstScheduler.incomingBursts, hincoming]

/-- The identifiers of a schedule still ascend at the end of its run. -/
theorem TcpFlowsEnd.ids (hend : InInt64 sim.simulationEndTimeNs) {s : TcpFlowScheduler}
    (h : TcpFlowsEnd sim topology files s) : s.schedule.Pairwise fun e e' => e.id < e'.id := by
  obtain ⟨s₀, _, hs₀, hendOf, -⟩ := h.exists_created hend
  exact hendOf.schedule ▸ (createTcpFlowScheduler_created hs₀).startable.ids

theorem UdpPingsEnd.ids (hend : InInt64 sim.simulationEndTimeNs) {s : UdpPingScheduler}
    (h : UdpPingsEnd sim topology files s) : s.schedule.Pairwise fun e e' => e.id < e'.id := by
  obtain ⟨s₀, _, hs₀, hendOf, -⟩ := h.exists_created hend
  exact hendOf.schedule ▸ (createUdpPingScheduler_created hs₀).startable.ids

theorem UdpBurstsEnd.ids {stod : Str → Except Exc (Double × Nat)} (hend : InInt64 sim.simulationEndTimeNs)
    {s : UdpBurstScheduler} (h : UdpBurstsEnd sim topology files stod s) :
    s.schedule.Pairwise fun e e' => e.id < e'.id := by
  obtain ⟨s₀, hs₀, hendOf, -⟩ := h.exists_created hend
  exact hendOf.schedule ▸ (createUdpBurstScheduler_created hs₀).startable.ids

end Schedulers

section Trackings

variable {Tracked Tracker : Type}

/-- The trackers of a tracking at the end of a run, if it is enabled. -/
def TrackingEnd (sim : BasicSimulation) (enableKey : String)
    (tracking : BasicSimulation → Except Exc (List (Int64Pair × Tracked)))
    (Reported : List (Int64Pair × Tracked) → List (Int64Pair × Tracker) → Prop)
    (o : Option (List (Int64Pair × Tracker))) : Prop :=
  parseBoolean (getParamOrDefault enableKey.toList "false".toList sim.config) = .ok o.isSome ∧
    ∀ trackers ∈ o, ∃ tracked, tracking sim = .ok tracked ∧ Reported tracked trackers

/-- What the devices have reported to the trackers. -/
def UtilizationReported (sim : BasicSimulation) (tracked : List (Int64Pair × Nat × NetDeviceUtilizationTracker))
    (trackers : List (Int64Pair × NetDeviceUtilizationTracker)) : Prop :=
  ∃ events intervalNs, (getParamOrFail "link_net_device_utilization_tracking_interval_ns".toList sim.config
      >>= parseGeqOneInt64) = .ok intervalNs ∧
    DevicesReport events intervalNs sim.simulationEndTimeNs tracked ∧
    utilizationTrackers events tracked = .ok trackers

/-- What the queues have reported to the trackers. -/
def QueuesReported {Queue : Type} (sim : BasicSimulation) (tracked : List (Int64Pair × Queue))
    (trackers : List (Int64Pair × QueueLogs)) : Prop :=
  ∃ events, QueuesReport events sim.simulationEndTimeNs tracked ∧
    queueTrackersOf QueueTracker.run events tracked = .ok trackers

/-- The links that have a tracker. -/
def trackedLinks (o : Option (List (Int64Pair × Tracker))) : List Int64Pair := (o.getD []).map Prod.fst

/-- Trackers are for the links that are tracked. -/
theorem UtilizationReported.links {sim : BasicSimulation}
    {tracked : List (Int64Pair × Nat × NetDeviceUtilizationTracker)}
    {trackers : List (Int64Pair × NetDeviceUtilizationTracker)} (h : UtilizationReported sim tracked trackers) :
    trackers.map Prod.fst = tracked.map Prod.fst := by
  obtain ⟨events, intervalNs, -, -, htrackers⟩ := h
  refine (map_eq_map_of_forall₂ (fun row p hrow => ?_) (mapM_eq_ok.mp htrackers)).symm
  obtain ⟨tracker, -, hrow⟩ := bind_eq_ok.mp hrow
  obtain rfl := Except.ok.inj hrow
  rfl

theorem QueuesReported.links {Queue : Type} {sim : BasicSimulation} {tracked : List (Int64Pair × Queue)}
    {trackers : List (Int64Pair × QueueLogs)} (h : QueuesReported sim tracked trackers) :
    trackers.map Prod.fst = tracked.map Prod.fst := by
  obtain ⟨events, -, htrackers⟩ := h
  refine (map_eq_map_of_forall₂ (fun row p hrow => ?_) (mapM_eq_ok.mp htrackers)).symm
  obtain ⟨tracker, -, hrow⟩ := bind_eq_ok.mp hrow
  obtain rfl := Except.ok.inj hrow
  rfl

variable {runDir : Str} {files : Str → File} {k : Nat} {sim : Nat → BasicSimulation} {base : BasicSimulation}
  {topology : TopologyPtop} {enableKey : String}
  {tracking : BasicSimulation → Except Exc (List (Int64Pair × Tracked))}
  {Reported : BasicSimulation → List (Int64Pair × Tracked) → List (Int64Pair × Tracker) → Prop}

/-- The trackers are those of the tracked links, in their order. -/
def TracksInOrder (tracking : BasicSimulation → Except Exc (List (Int64Pair × Tracked)))
    (Reported : BasicSimulation → List (Int64Pair × Tracked) → List (Int64Pair × Tracker) → Prop) : Prop :=
  ∀ sim tracked trackers, tracking sim = .ok tracked → Reported sim tracked trackers →
    (tracked.Pairwise fun a b => a.1 < b.1) ∧ trackers.map Prod.fst = tracked.map Prod.fst

/-- The systems track their parts of the tracked links. -/
theorem TrackingEnd.part (hin : TracksInOrder tracking Reported)
    (hkey : enableKey.toList ∉ distributionParameters) {s : Nat} (hs : s < k)
    (hsim : IsUndistributed base (sim s)) (hshared : TrackingShared k sim base topology tracking)
    {o₀ o : Option (List (Int64Pair × Tracker))} (h₀ : TrackingEnd base enableKey tracking (Reported base) o₀)
    (h : TrackingEnd (sim s) enableKey tracking (Reported (sim s)) o)
    (htopology : ∀ link ∈ trackedLinks o₀, link ∈ topology.getLinksSet) : o.isSome = o₀.isSome ∧
      trackedLinks o = Sharing.part (fun link => (sim 0).systemOf link.first) (trackedLinks o₀) s := by
  have henabled : o.isSome = o₀.isSome := by
    have := h.1
    rw [hsim.getParamOrDefault hkey, h₀.1, Except.ok.injEq] at this
    exact this.symm
  refine ⟨henabled, ?_⟩
  cases o₀ with
  | none =>
      obtain rfl : o = none := Option.isNone_iff_eq_none.mp (by simpa using henabled)
      rfl
  | some trackers₀ =>
      obtain ⟨trackers, rfl⟩ := Option.isSome_iff_exists.mp henabled
      obtain ⟨tracked₀, htracked₀, hreported₀⟩ := h₀.2 _ rfl
      obtain ⟨tracked, htracked, hreported⟩ := h.2 _ rfl
      obtain ⟨hsorted₀, hlinks₀⟩ := hin base tracked₀ trackers₀ htracked₀ hreported₀
      have hmap₀ : trackedLinks (some trackers₀) = tracked₀.map Prod.fst := hlinks₀
      obtain ⟨parts, hparts, hpart⟩ := hshared tracked₀ htracked₀ fun row hrow =>
        htopology _ (hmap₀ ▸ List.mem_map_of_mem hrow)
      obtain rfl : parts s = tracked := Except.ok.inj ((hparts s hs).symm.trans htracked)
      have hnodup : (tracked₀.map Prod.fst).Nodup :=
        List.pairwise_map.mpr (hsorted₀.imp fun h => ne_of_lt h)
      rw [hmap₀, show trackedLinks (some trackers) = (parts s).map Prod.fst from (hin _ _ _ htracked hreported).2,
        hpart.eq_part hnodup hs, Sharing.part, Sharing.part, List.filter_map]
      rfl

section InOrder

variable {topology : TopologyPtop} {sel : Selectors} {ns3 : Ns3 sel} {links : Links ns3}

end InOrder

end Trackings

/-! ## Its files -/

section Files

variable {sim : BasicSimulation} {topology : TopologyPtop} {files : Str → File} {stod : Str → Except Exc (Double × Nat)}
  {sel : Selectors} {ns3 : Ns3 sel} {links : Links ns3} {r : RunEnd} {rates : UdpBurstResult → UdpBurstRates}
  {differs : Int64Pair → DifferenceTest} {logs : ResultFiles}

/-- The utilization of every tracked link is written. -/
theorem UtilizationReported.written {tracked : List (Int64Pair × Nat × NetDeviceUtilizationTracker)}
    {trackers : List (Int64Pair × NetDeviceUtilizationTracker)} {written : List LinkUtilization}
    (h : UtilizationReported sim tracked trackers) (hend : InInt64 sim.simulationEndTimeNs)
    (hpos : 0 < sim.simulationEndTimeNs)
    (htracked : ptopLinkNetDeviceUtilizationTracking topology links sim = .ok tracked)
    (hwrite : writeUtilizationResults differs sim.simulationEndTimeNs trackers = .ok written) :
    WrittenByItems utilizationCsv linkColumns id (trackers.map Prod.fst) (written.flatMap LinkUtilization.lines) := by
  rw [h.links]
  obtain ⟨events, intervalNs, hinterval, hreport, htrackers⟩ := h
  obtain ⟨value, -, hparse⟩ := bind_eq_ok.mp hinterval
  obtain ⟨⟨-, -, hI64⟩, hI⟩ := parseGeqOneInt64_eq_ok.mp hparse
  obtain ⟨hsorted, hnew⟩ := utilizationTracking_spec hinterval htracked
  obtain ⟨trackers', written', htrackers', hwrite', hwritten⟩ :=
    writeUtilizationResults_spec differs hI hI64 hpos hend.2 hsorted hnew hreport
  obtain rfl : trackers = trackers' := Except.ok.inj (htrackers.symm.trans htrackers')
  obtain rfl : written = written' := Except.ok.inj (hwrite.symm.trans hwrite')
  exact utilizationCsv_written hI hend.2 hsorted hreport.fits hwritten

/-- The queues of every tracked link are written. -/
theorem QueuesReported.written {Queue : Type} {tracked : List (Int64Pair × Queue)}
    {trackers : List (Int64Pair × QueueLogs)} {results : QueueResults} (h : QueuesReported sim tracked trackers)
    (hpos : 0 < sim.simulationEndTimeNs) (hsorted : tracked.Pairwise fun a b => a.1 < b.1)
    (hwrite : writeLinkNetDeviceQueueResults sim.simulationEndTimeNs trackers = .ok results) :
    WrittenByItems queueCsv linkColumns id (trackers.map Prod.fst) results.pktLines ∧
      WrittenByItems queueCsv linkColumns id (trackers.map Prod.fst) results.byteLines := by
  rw [h.links]
  obtain ⟨events, hreport, htrackers⟩ := h
  obtain ⟨trackers', queues, htrackers', rfl, htells, hwrite'⟩ := queueResults_tell hsorted (le_of_lt hpos)
    fun row hrow => ⟨hreport.ascending row hrow, hreport.until_end row hrow⟩
  obtain rfl : trackers = trackers' := Except.ok.inj (htrackers.symm.trans htrackers')
  obtain rfl : results = queueResultsOf queues := Except.ok.inj (hwrite.symm.trans hwrite')
  have hlinks : (queues.map LoggedQueue.row).map Prod.fst = queues.map LoggedQueue.link := by
    rw [List.map_map]
    rfl
  have hnodup : (queues.map LoggedQueue.link).Nodup := by
    rw [← hlinks]
    exact List.pairwise_map.mpr (hsorted.imp fun h => ne_of_lt h)
  rw [hlinks]
  exact queueCsv_written hnodup (fun q hq => hreport.fits q.row (List.mem_map_of_mem hq)) htells

end Files

end BasicSim
