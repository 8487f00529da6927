import BasicSim.Apps.Correctness.ScheduledStarts
import BasicSim.Apps.Correctness.SharedSchedules

/-!
# `Apps.Correctness.DistributedRuns` — a distributed run does the work of one system

Runs to the end of all systems, compared with a run that is not distributed: the systems share what is started,
what is registered, what is tracked and what is written. As for a single system, the size of the schedule must
be an `int`.

## Contents
- **Outcomes.** What is started and written in a run of each kind, and that it is the whole schedule.
- **Sharing.** `SchedulersShare`, and `distributed_run_shares_the_work`.
- **Two systems.** A run that is shared, and one in which flows are started nowhere.
-/

namespace BasicSim

open Fallible EventLoop Sharing

/-! ## Outcomes -/

section Outcomes

variable {Fields App World Event : Type}

/-- The entries whose start was executed. -/
def startedEntries (schedule : List (ScheduleEntry Fields)) (trace : List (Int × (Int ⊕ Event))) :
    List (ScheduleEntry Fields) :=
  (ownEvents trace).filterMap fun p => schedule[p.2.toNat]?

/-- What a run comes to: the entries that were started, and the entries of the result file. -/
structure Outcome (Fields : Type) where
  started : List (ScheduleEntry Fields)
  results : Except Exc (List (ScheduleEntry Fields))

theorem startedEntries_of_complete {P : Process Exc (Scheduler Fields App) World Int Event}
    {Belongs : ScheduleEntry Fields → App → Prop} {schedule : List (ScheduleEntry Fields)} {endTime : Int}
    {trace : List (Int × (Int ⊕ Event))} {l : Loop (Scheduler Fields App × World) (Int ⊕ Event)}
    (h : StartsInOrder P Belongs schedule endTime trace l) (hfinished : Finished endTime l) :
    startedEntries schedule trace = schedule := by
  unfold startedEntries
  rw [h.starts, h.complete hfinished, List.take_of_length_le (by simp [startTimes]), startTimes,
    List.filterMap_map]
  have hat : ∀ p ∈ schedule.zipIdx, schedule[p.2]? = some p.1 := fun p hp =>
    List.mem_zipIdx_iff_getElem?.mp hp
  calc schedule.zipIdx.filterMap (fun p => schedule[(p.2 : Int).toNat]?)
      = schedule.zipIdx.filterMap (fun p => some p.1) := List.filterMap_congr fun p hp => hat p hp
    _ = schedule.zipIdx.map Prod.fst := congrFun List.filterMap_eq_map' _
    _ = schedule := List.zipIdx_map_fst 0 schedule

/-- A run of the flows to the end. -/
def TcpFlowRun (endTime : Int) (s : TcpFlowScheduler) (o : Outcome TcpFlowFields) : Prop :=
  ∃ (World Event : Type) (nodes : NodeContainer TcpFlowClient World Event) (serverPorts : OrdSet Nat)
    (selectRemotePort : TcpFlowClient → World → Nat × World)
    (other : Event → Int → World → Except Exc (World × List (Int × Event)))
    (trace : List (Int × (Int ⊕ Event))) (l : Loop (TcpFlowScheduler × World) (Int ⊕ Event)),
    CreationSucceeds (createTcpFlowClient nodes serverPorts selectRemotePort) s ∧
    ChainedRun (startProcess (startNextFlow nodes serverPorts selectRemotePort) other) endTime s trace l ∧
    Finished endTime l ∧ o.started = startedEntries s.schedule trace ∧
    o.results = (fun rows => rows.map Prod.fst) <$> writeTcpFlowResults l.state.1

/-- A run of the pings to the end. -/
def UdpPingRun (endTime : Int) (s : UdpPingScheduler) (o : Outcome UdpPingFields) : Prop :=
  ∃ (World Event : Type) (nodes : NodeContainer UdpPingClient World Event)
    (other : Event → Int → World → Except Exc (World × List (Int × Event)))
    (trace : List (Int × (Int ⊕ Event))) (l : Loop (UdpPingScheduler × World) (Int ⊕ Event))
    (timestamps : UdpPingClient → UdpPingTimestamps),
    CreationSucceeds (createUdpPingClient nodes) s ∧
    ChainedRun (startProcess (startNextUdpPing nodes) other) endTime s trace l ∧
    Finished endTime l ∧ o.started = startedEntries s.schedule trace ∧
    o.results = (fun rows => rows.map Prod.fst) <$> writeUdpPingResults timestamps l.state.1

/-- A run of the bursts to the end, with the outgoing bursts in `o` and the incoming ones. -/
def UdpBurstRun (endTime : Int) (s : UdpBurstScheduler) (o : Outcome UdpBurstFields)
    (incoming : Except Exc (List UdpBurstInfo)) : Prop :=
  ∃ (World Event : Type) (nodes : NodeContainer UdpBurstClient World Event)
    (other : Event → Int → World → Except Exc (World × List (Int × Event)))
    (trace : List (Int × (Int ⊕ Event)))
    (l : Loop (Scheduler UdpBurstFields (UdpBurstInfo × UdpBurstClient) × World) (Int ⊕ Event))
    (servers : List UdpBurstServer),
    CreationSucceeds (createUdpBurstClient nodes) s.toScheduler ∧
    ChainedRun (startProcess (startNextUdpBurst nodes) other) endTime s.toScheduler trace l ∧
    Finished endTime l ∧ List.Forall₂ AfterPackets s.servers servers ∧
    o.started = startedEntries s.schedule trace ∧
    o.results = .ok ((writeUdpBurstOutgoing
      { s with toScheduler := l.state.1, servers := servers }).map Prod.fst) ∧
    incoming = (fun rows => rows.map Prod.fst) <$>
      writeUdpBurstIncoming { s with toScheduler := l.state.1, servers := servers }

variable {sim : BasicSimulation} {topology : TopologyPtop} {files : Str → File}

/-- A run of the flows comes to the whole schedule. -/
theorem TcpFlowRun.complete (hend : InInt64 sim.simulationEndTimeNs) {s : TcpFlowScheduler} {servers : List Int}
    (hs : createTcpFlowScheduler sim topology files = .ok (s, servers)) (hlen : s.schedule.length < 2 ^ 31)
    {o : Outcome TcpFlowFields} (h : TcpFlowRun sim.simulationEndTimeNs s o) :
    o.started = s.schedule ∧ o.results = .ok s.schedule := by
  obtain ⟨World, Event, nodes, ports, select, other, trace, l, hcreate, hrun, hfinished, hstarted, hresults⟩ := h
  obtain ⟨hstarts, hwrite⟩ := tcpFlows_start hend hs hlen hcreate hrun
  refine ⟨hstarted.trans (startedEntries_of_complete hstarts hfinished), ?_⟩
  rw [hresults, hwrite hfinished, map_ok, List.map_fst_zip (le_of_eq (hstarts.complete hfinished).symm)]

/-- A run of the pings comes to the whole schedule. -/
theorem UdpPingRun.complete (hend : InInt64 sim.simulationEndTimeNs) {s : UdpPingScheduler} {servers : List Int}
    (hs : createUdpPingScheduler sim topology files = .ok (s, servers)) (hlen : s.schedule.length < 2 ^ 31)
    {o : Outcome UdpPingFields} (h : UdpPingRun sim.simulationEndTimeNs s o) :
    o.started = s.schedule ∧ o.results = .ok s.schedule := by
  obtain ⟨World, Event, nodes, other, trace, l, stamps, hcreate, hrun, hfinished, hstarted, hresults⟩ := h
  obtain ⟨hstarts, hwrite⟩ := udpPings_start hend hs hlen hcreate hrun
  refine ⟨hstarted.trans (startedEntries_of_complete hstarts hfinished), ?_⟩
  obtain ⟨rows, hrows, hzip, -⟩ := hwrite hfinished stamps
  have hfst := congrArg (List.map Prod.fst) hzip
  rw [List.map_map, List.map_fst_zip (le_of_eq (hstarts.complete hfinished).symm)] at hfst
  rw [hresults, hrows, map_ok]
  exact congrArg Except.ok hfst

/-- A run of the bursts comes to the whole schedule, and to everything that is registered. -/
theorem UdpBurstRun.complete (hend : InInt64 sim.simulationEndTimeNs) {s : UdpBurstScheduler}
    {stod : Str → Except Exc (Double × Nat)} (hs : createUdpBurstScheduler sim topology files stod = .ok s)
    (hlen : s.schedule.length < 2 ^ 31) {o : Outcome UdpBurstFields} {incoming : Except Exc (List UdpBurstInfo)}
    (h : UdpBurstRun sim.simulationEndTimeNs s o incoming) :
    o.started = s.schedule ∧ o.results = .ok s.schedule ∧ incoming =
      .ok ((s.responsibleForIncomingBursts.insertionSort fun a b => a.1.id ≤ b.1.id).map Prod.fst) := by
  obtain ⟨World, Event, nodes, other, trace, l, servers, hcreate, hrun, hfinished, hservers, hstarted, hresults,
    hincoming⟩ := h
  obtain ⟨hstarts, hwrite⟩ := udpBursts_start hend hs hlen hcreate hrun
  obtain ⟨houtgoing, happs, rows, hrows, hfst⟩ := hwrite hfinished servers hservers
  refine ⟨hstarted.trans (startedEntries_of_complete hstarts hfinished), ?_, ?_⟩
  · rw [hresults, houtgoing, happs]
  · rw [hincoming, hrows, map_ok, hfst]

end Outcomes

/-! ## Sharing -/

section Sharing

variable {Fields σ : Type}

/-- `k` systems have written the result rows of a schedule: what each has written is merged into what one system
    writes, which is a row for every entry. -/
def ResultsShared (owner : ScheduleEntry Fields → Nat) (k : Nat) (schedule : List (ScheduleEntry Fields))
    (results₀ : Except Exc (List (ScheduleEntry Fields)))
    (results : Nat → Except Exc (List (ScheduleEntry Fields))) : Prop :=
  results₀ = .ok schedule ∧
    ∃ rows, (∀ s < k, results s = .ok (rows s)) ∧ Shared owner ScheduleEntry.id k rows schedule

/-- **`k` schedulers share the work of one**: they share the schedule, and if its size is an `int` they have
    shared the starts and the results at the end of any runs. -/
structure SchedulersShare (owner : ScheduleEntry Fields → Nat) (k : Nat)
    (schedule : σ → List (ScheduleEntry Fields)) (Ends : σ → Outcome Fields → Prop) (s₀ : σ) (parts : Nat → σ) :
    Prop where
  kept : Shared owner ScheduleEntry.id k (fun s => schedule (parts s)) (schedule s₀)
  runs : (schedule s₀).length < 2 ^ 31 → ∀ (o₀ : Outcome Fields) (o : Nat → Outcome Fields), Ends s₀ o₀ →
    (∀ s < k, Ends (parts s) (o s)) → o₀.started = schedule s₀ ∧
    Shared owner ScheduleEntry.id k (fun s => (o s).started) (schedule s₀) ∧
    ResultsShared owner k (schedule s₀) o₀.results fun s => (o s).results

/-- Schedulers that share a schedule share the work when every run comes to the schedule. -/
theorem schedulersShare_of_kept {owner : ScheduleEntry Fields → Nat} {k : Nat}
    {schedule : σ → List (ScheduleEntry Fields)} {Ends : σ → Outcome Fields → Prop} {s₀ : σ} {parts : Nat → σ}
    (hkept : Shared owner ScheduleEntry.id k (fun s => schedule (parts s)) (schedule s₀))
    (hends₀ : (schedule s₀).length < 2 ^ 31 → ∀ o, Ends s₀ o →
      o.started = schedule s₀ ∧ o.results = .ok (schedule s₀))
    (hends : ∀ s < k, (schedule (parts s)).length < 2 ^ 31 → ∀ o, Ends (parts s) o →
      o.started = schedule (parts s) ∧ o.results = .ok (schedule (parts s))) :
    SchedulersShare owner k schedule Ends s₀ parts where
  kept := hkept
  runs := by
    intro hlen o₀ o h₀ h
    obtain ⟨hstarted₀, hresults₀⟩ := hends₀ hlen o₀ h₀
    have hpart : ∀ s < k, (o s).started = schedule (parts s) ∧ (o s).results = .ok (schedule (parts s)) :=
      fun s hs => hends s hs (lt_of_le_of_lt (hkept.subsequence s hs).length_le hlen) _ (h s hs)
    exact ⟨hstarted₀, hkept.congr (fun s hs => (hpart s hs).1) rfl, hresults₀, _,
      fun s hs => (hpart s hs).2, hkept⟩

end Sharing

section Systems

variable {runDir : Str} {files : Str → File} {k : Nat} {sim : Nat → BasicSimulation} {base : BasicSimulation}
  {topologyConfig : Config} {all : Bool} {topology : TopologyPtop} {Fields App : Type}

theorem Systems.endTime (h : Systems runDir files k sim) (hbase : IsUndistributed base (sim 0)) :
    InInt64 base.simulationEndTimeNs := by
  rw [hbase.simulationEndTimeNs]
  exact created_endTime (h.created 0 h.pos)

/-- A burst is registered once, on the system of its second node. -/
theorem udpBursts_registered {base sim : BasicSimulation} {stod : Str → Except Exc (Double × Nat)}
    {s₀ : UdpBurstScheduler}
    (hs₀ : createUdpBurstScheduler base topology files stod = .ok s₀)
    (hnames : EntriesNameEndpoints topology s₀.schedule) {entry : UdpBurstInfo} (hentry : entry ∈ s₀.schedule)
    (s : Nat) :
    registrations (s₀.onSystem sim topology s).servers entry.id
      = if s = toSystem sim entry then [entry.toNodeId] else [] := by
  have hcreated := createUdpBurstScheduler_created hs₀
  have henabled : s₀.enabled = true := by
    cases henabled : s₀.enabled with
    | true => rfl
    | false =>
        rw [hcreated.enabled henabled] at hentry
        cases hentry
  have hmem : entry.toNodeId ∈ part sim.systemOf topology.getEndpoints.toList s
      ↔ s = toSystem sim entry := by
    rw [mem_part]
    exact ⟨fun hto => hto.2.symm, fun hto => ⟨(hnames entry hentry).2, hto.symm⟩⟩
  unfold UdpBurstScheduler.onSystem
  dsimp only
  rw [if_pos henabled, registrations_serverOf hcreated.startable.ids
    (topology.getEndpoints.nodup.sublist (part_sublist s)) hentry]
  simp only [hmem]

variable (h : Systems runDir files k sim) (hbase : IsUndistributed base (sim 0))
  (htopology : parseTopologyGraph topologyConfig all (some (sim 0).distributedNodeSystemIdAssignment)
    = .ok topology)

include h htopology

/-- The parts of a schedule are shared. -/
theorem schedule_shared {s₀ : Scheduler Fields App} {endTime : Int} (hs₀ : Created endTime s₀)
    (hnames : EntriesNameEndpoints topology s₀.schedule) :
    Shared (fromSystem (sim 0)) ScheduleEntry.id k (fun s => (s₀.onSystem (sim 0) s).schedule) s₀.schedule :=
  shared_of_parts hs₀.startable.ids (fun entry hentry => h.system_lt htopology (hnames entry hentry).1)
    fun _ _ => rfl

include hbase

/-- Flows. -/
theorem tcpFlows_shared {s₀ : TcpFlowScheduler} {servers₀ : List Int}
    (hs₀ : createTcpFlowScheduler base topology files = .ok (s₀, servers₀))
    (hnames : EntriesNameEndpoints topology s₀.schedule) :
    SchedulersShare (fromSystem (sim 0)) k Scheduler.schedule (TcpFlowRun base.simulationEndTimeNs) s₀
      (s₀.onSystem (sim 0)) := by
  have hend := h.endTime hbase
  refine schedulersShare_of_kept (schedule_shared h htopology (createTcpFlowScheduler_created hs₀) hnames)
    (fun hlen o ho => ho.complete hend hs₀ hlen) ?_
  intro s hs hlen o ho
  obtain ⟨servers, hcreated⟩ := createTcpFlowScheduler_onSystem h hbase htopology hs₀ hnames hs
  rw [(h.undistributed hbase hs).simulationEndTimeNs] at hend ho
  exact ho.complete hend hcreated hlen

/-- Pings. -/
theorem udpPings_shared {s₀ : UdpPingScheduler} {servers₀ : List Int}
    (hs₀ : createUdpPingScheduler base topology files = .ok (s₀, servers₀))
    (hnames : EntriesNameEndpoints topology s₀.schedule) :
    SchedulersShare (fromSystem (sim 0)) k Scheduler.schedule (UdpPingRun base.simulationEndTimeNs) s₀
      (s₀.onSystem (sim 0)) := by
  have hend := h.endTime hbase
  refine schedulersShare_of_kept (schedule_shared h htopology (createUdpPingScheduler_created hs₀) hnames)
    (fun hlen o ho => ho.complete hend hs₀ hlen) ?_
  intro s hs hlen o ho
  obtain ⟨servers, hcreated⟩ := createUdpPingScheduler_onSystem h hbase htopology hs₀ hnames hs
  rw [(h.undistributed hbase hs).simulationEndTimeNs] at hend ho
  exact ho.complete hend hcreated hlen

/-- Outgoing bursts. -/
theorem udpBursts_shared {stod : Str → Except Exc (Double × Nat)} {s₀ : UdpBurstScheduler}
    (hs₀ : createUdpBurstScheduler base topology files stod = .ok s₀)
    (hnames : EntriesNameEndpoints topology s₀.schedule) :
    SchedulersShare (fromSystem (sim 0)) k (fun s : UdpBurstScheduler => s.schedule)
      (fun s o => ∃ incoming, UdpBurstRun base.simulationEndTimeNs s o incoming) s₀
      (s₀.onSystem (sim 0) topology) := by
  have hend := h.endTime hbase
  refine schedulersShare_of_kept (schedule_shared h htopology (createUdpBurstScheduler_created hs₀) hnames)
    (fun hlen o ⟨_, ho⟩ => ?_) fun s hs hlen o ⟨_, ho⟩ => ?_
  · obtain ⟨hstarted, hresults, -⟩ := ho.complete hend hs₀ hlen
    exact ⟨hstarted, hresults⟩
  · have hcreated := createUdpBurstScheduler_onSystem h hbase htopology hs₀ hnames hs
    rw [(h.undistributed hbase hs).simulationEndTimeNs] at hend ho
    obtain ⟨hstarted, hresults, -⟩ := ho.complete hend hcreated hlen
    exact ⟨hstarted, hresults⟩

/-- Incoming bursts. -/
theorem udpBursts_incoming_shared {stod : Str → Except Exc (Double × Nat)} {s₀ : UdpBurstScheduler}
    (hs₀ : createUdpBurstScheduler base topology files stod = .ok s₀)
    (hnames : EntriesNameEndpoints topology s₀.schedule) (hlen : s₀.schedule.length < 2 ^ 31)
    {incoming₀ : Except Exc (List UdpBurstInfo)} {incoming : Nat → Except Exc (List UdpBurstInfo)}
    (hrun₀ : ∃ o, UdpBurstRun base.simulationEndTimeNs s₀ o incoming₀)
    (hrun : ∀ s < k, ∃ o,
      UdpBurstRun base.simulationEndTimeNs (s₀.onSystem (sim 0) topology s) o (incoming s)) :
    ResultsShared (toSystem (sim 0)) k s₀.schedule incoming₀ incoming := by
  have hend := h.endTime hbase
  have hcreated := createUdpBurstScheduler_created hs₀
  have hids := hcreated.startable.ids
  have hnodup := topology.getEndpoints.nodup
  refine ⟨?_, part (toSystem (sim 0)) s₀.schedule, ?_,
    shared_of_parts hids (fun entry hentry => h.system_lt htopology (hnames entry hentry).2) fun _ _ => rfl⟩
  · -- the run that is not distributed reports every burst
    obtain ⟨o, ho⟩ := hrun₀
    rw [(ho.complete hend hs₀ hlen).2.2]
    rcases createUdpBurstScheduler_registers hs₀ with ⟨hdisabled, -, hincoming⟩ |
      ⟨-, complete, endpoints, -, hendpoints, hfilter, -, hincoming⟩
    · rw [hincoming, hcreated.enabled hdisabled]
      rfl
    · rw [hbase.serverNodes] at hendpoints
      rw [hbase.filterSchedule] at hfilter
      cases hendpoints
      cases Except.ok.inj hfilter
      have hto : ∀ entry ∈ s₀.schedule, decide (entry.toNodeId ∈ topology.getEndpoints.toList) = true :=
        fun entry hentry => decide_eq_true (hnames entry hentry).2
      rw [hincoming, map_fst_incoming hids hnodup, List.filter_eq_self.mpr hto]
  · -- system `s` reports the bursts to its own nodes
    intro s hs
    obtain ⟨o, ho⟩ := hrun s hs
    rw [(h.undistributed hbase hs).simulationEndTimeNs] at hend ho
    rw [(ho.complete hend (createUdpBurstScheduler_onSystem h hbase htopology hs₀ hnames hs)
      (lt_of_le_of_lt (part_sublist s).length_le hlen)).2.2]
    cases henabled : s₀.enabled with
    | false =>
        have hempty := hcreated.enabled henabled
        simp [UdpBurstScheduler.onSystem, henabled, hempty, incomingOf, part]
    | true =>
        unfold UdpBurstScheduler.onSystem
        dsimp only
        rw [if_pos henabled, map_fst_incoming hids (hnodup.sublist (part_sublist s))]
        refine congrArg Except.ok (List.filter_congr ?_)
        intro entry hentry
        rw [Bool.eq_iff_iff, decide_eq_true_iff, decide_eq_true_iff, mem_part]
        exact ⟨fun hto => hto.2, fun hto => ⟨(hnames entry hentry).2, hto⟩⟩

end Systems

/-- **The systems of a distributed run share the work of a run that is not distributed.** Every entry is started
    on the system of its first node and every burst is registered on the system of its second node, each once;
    every link is tracked on the system of its first node; and the results can be merged. This is for schedules
    that name endpoints, and as far as runs are concerned for schedules whose size is an `int`. -/
theorem distributed_run_shares_the_work {runDir : Str} {files : Str → File} {k : Nat}
    {sim : Nat → BasicSimulation} {base : BasicSimulation} {topologyConfig : Config} {all : Bool}
    {topology : TopologyPtop} (h : Systems runDir files k sim) (hbase : IsUndistributed base (sim 0))
    (htopology : parseTopologyGraph topologyConfig all (some (sim 0).distributedNodeSystemIdAssignment)
      = .ok topology) :
    parseTopologyGraph topologyConfig all none = .ok topology ∧
    (∀ s₀ servers₀, createTcpFlowScheduler base topology files = .ok (s₀, servers₀) →
      EntriesNameEndpoints topology s₀.schedule →
      (∀ s < k, ∃ servers, createTcpFlowScheduler (sim s) topology files
        = .ok (s₀.onSystem (sim 0) s, servers)) ∧
      SchedulersShare (fromSystem (sim 0)) k Scheduler.schedule (TcpFlowRun base.simulationEndTimeNs) s₀
        (s₀.onSystem (sim 0))) ∧
    (∀ s₀ servers₀, createUdpPingScheduler base topology files = .ok (s₀, servers₀) →
      EntriesNameEndpoints topology s₀.schedule →
      (∀ s < k, ∃ servers, createUdpPingScheduler (sim s) topology files
        = .ok (s₀.onSystem (sim 0) s, servers)) ∧
      SchedulersShare (fromSystem (sim 0)) k Scheduler.schedule (UdpPingRun base.simulationEndTimeNs) s₀
        (s₀.onSystem (sim 0))) ∧
    (∀ stod s₀, createUdpBurstScheduler base topology files stod = .ok s₀ →
      EntriesNameEndpoints topology s₀.schedule →
      (∀ s < k, createUdpBurstScheduler (sim s) topology files stod
        = .ok (s₀.onSystem (sim 0) topology s)) ∧
      SchedulersShare (fromSystem (sim 0)) k (fun s : UdpBurstScheduler => s.schedule)
        (fun s o => ∃ incoming, UdpBurstRun base.simulationEndTimeNs s o incoming) s₀
        (s₀.onSystem (sim 0) topology) ∧
      (∀ entry ∈ s₀.schedule, toSystem (sim 0) entry < k ∧ ∀ s,
        registrations (s₀.onSystem (sim 0) topology s).servers entry.id
          = if s = toSystem (sim 0) entry then [entry.toNodeId] else []) ∧
      (s₀.schedule.length < 2 ^ 31 → ∀ incoming₀ incoming,
        (∃ o, UdpBurstRun base.simulationEndTimeNs s₀ o incoming₀) →
        (∀ s < k, ∃ o,
          UdpBurstRun base.simulationEndTimeNs (s₀.onSystem (sim 0) topology s) o (incoming s)) →
        ResultsShared (toSystem (sim 0)) k s₀.schedule incoming₀ incoming)) ∧
    ∀ {s : Selectors} {ns3 : Ns3 s} (links : Links ns3),
      TrackingShared k sim base topology (ptopLinkNetDeviceUtilizationTracking topology links) ∧
      TrackingShared k sim base topology (ptopLinkNetDeviceQueueTracking topology links) ∧
      TrackingShared k sim base topology (ptopLinkInterfaceTcQdiscQueueTracking topology links) :=
  ⟨parseTopologyGraph_undistributed htopology,
    fun _ _ hs₀ hnames => ⟨fun _ hs => createTcpFlowScheduler_onSystem h hbase htopology hs₀ hnames hs,
      tcpFlows_shared h hbase htopology hs₀ hnames⟩,
    fun _ _ hs₀ hnames => ⟨fun _ hs => createUdpPingScheduler_onSystem h hbase htopology hs₀ hnames hs,
      udpPings_shared h hbase htopology hs₀ hnames⟩,
    fun _ _ hs₀ hnames => ⟨fun _ hs => createUdpBurstScheduler_onSystem h hbase htopology hs₀ hnames hs,
      udpBursts_shared h hbase htopology hs₀ hnames,
      fun entry hentry => ⟨h.system_lt htopology (hnames entry hentry).2,
        udpBursts_registered hs₀ hnames hentry⟩,
      fun hlen _ _ => udpBursts_incoming_shared h hbase htopology hs₀ hnames hlen⟩,
    linkTrackings_shared h hbase htopology⟩

/-! ## Two systems -/

/-- The run directory of early flows, distributed over two systems. -/
def twoSystemsFiles (schedule : Str) (filename : Str) : File :=
  if filename = "run/config_ns3.properties".toList then .content
    ("simulation_end_time_ns=1000\nsimulation_seed=1\nenable_tcp_flow_scheduler=true\n"
      ++ "tcp_flow_schedule_filename=flows.csv\nenable_distributed=true\n"
      ++ "distributed_simulator_implementation_type=default\ndistributed_systems_count=2\n"
      ++ "distributed_node_system_id_assignment=list(0,1)\n").toList
  else .content schedule

/-- The systems of that directory: each has one node. -/
def flowSystem (s : Nat) : BasicSimulation :=
  { flowSim with
    config := (((flowSim.config.insert "enable_distributed".toList "true".toList).insert
      "distributed_simulator_implementation_type".toList "default".toList).insert
      "distributed_systems_count".toList "2".toList).insert
      "distributed_node_system_id_assignment".toList "list(0,1)".toList
    enableDistributed := true
    distributedNodeSystemIdAssignment := [0, 1]
    systemId := s
    systemsCount := 2 }

theorem systems_flowSystem (schedule : Str) : Systems "run".toList (twoSystemsFiles schedule) 2 flowSystem := by
  have hconfig : readConfig "run/config_ns3.properties".toList
      (twoSystemsFiles schedule "run/config_ns3.properties".toList) = .ok (flowSystem 0).config := by
    rw [twoSystemsFiles, if_pos rfl, String.toList_append, String.toList_append, String.toList_append]
    decide +kernel
  have hcreate : BasicSimulation.create "run".toList (twoSystemsFiles schedule) ⟨0, 2⟩ = .ok (flowSystem 0) := by
    unfold BasicSimulation.create
    rw [show "run".toList ++ "/config_ns3.properties".toList = "run/config_ns3.properties".toList from rfl]
    dsimp only
    rw [hconfig]
    decide +kernel
  exact ⟨by decide, fun s _ => create_of_system hcreate rfl, rfl⟩

theorem isUndistributed_flowSim : IsUndistributed flowSim (flowSystem 0) := by
  refine ⟨rfl, rfl, rfl, ?_⟩
  intro key hkey
  simp only [distributionParameters, List.mem_cons, List.not_mem_nil, or_false, not_or] at hkey
  obtain ⟨h₁, h₂, h₃, h₄⟩ := hkey
  unfold flowSystem
  dsimp only
  rw [OrdMap.find?_insert, if_neg h₄, OrdMap.find?_insert, if_neg h₃, OrdMap.find?_insert, if_neg h₂,
    OrdMap.find?_insert, if_neg h₁]

theorem parseTopologyGraph_twoSystems :
    parseTopologyGraph pairConfig true (some (flowSystem 0).distributedNodeSystemIdAssignment)
      = .ok pairTopology := by
  decide +kernel

/-- All early flows start at the node of the first system. -/
theorem onSystem_zero (n : Nat) : (flowScheduler n).onSystem (flowSystem 0) 0 = flowScheduler n := by
  have hpart : part (fromSystem (flowSystem 0)) (earlyFlows n) 0 = earlyFlows n := part_eq_self fun entry hentry => by
    obtain ⟨i, -, rfl⟩ := List.mem_map.mp hentry
    rfl
  exact congrArg (fun schedule => { flowScheduler n with schedule := schedule }) hpart

theorem schedule_onSystem_of_ne {n s : Nat} (hs : s ≠ 0) :
    ((flowScheduler n).onSystem (flowSystem 0) s).schedule = [] :=
  part_eq_nil fun entry hentry heq => hs <| by
    obtain ⟨i, -, rfl⟩ := List.mem_map.mp hentry
    exact heq.symm

/-- Early flows name endpoints. -/
theorem entriesNameEndpoints_earlyFlows (n : Nat) :
    EntriesNameEndpoints pairTopology (flowScheduler n).schedule := by
  intro entry hentry
  obtain ⟨i, -, rfl⟩ := List.mem_map.mp hentry
  show 0 ∈ pairTopology.getEndpoints ∧ 1 ∈ pairTopology.getEndpoints
  decide

/-- What a run of early flows comes to. -/
theorem tcpFlowRun_earlyFlows {n : Nat} {trace : List (Int × (Int ⊕ Empty))}
    {l : Loop (TcpFlowScheduler × Unit) (Int ⊕ Empty)}
    (hrun : ChainedRun earlyFlowProcess 1000 (flowScheduler n) trace l)
    (hfinished : Finished 1000 l) : TcpFlowRun 1000 (flowScheduler n)
      ⟨startedEntries (earlyFlows n) trace, (fun rows => rows.map Prod.fst) <$> writeTcpFlowResults l.state.1⟩ :=
  ⟨Unit, Empty, quietNodes TcpFlowClient, OrdSet.ofList [defaultServerPort],
    fun _ world => (defaultServerPort, world), noEvents, trace, l, creationSucceeds_earlyFlows n, hrun, hfinished,
    rfl, rfl⟩

/-- A system without flows has nothing to do. -/
theorem tcpFlowRun_of_nil {s : TcpFlowScheduler} (hs : s.schedule = []) : TcpFlowRun 1000 s ⟨[], .ok []⟩ := by
  have hrun : ChainedRun earlyFlowProcess 1000 s [] ⟨0, (s, ()), []⟩ :=
    ⟨(), [], by unfold firstStart; rw [hs]; rfl, .start⟩
  have hwrite : writeTcpFlowResults s = .ok [] := by
    unfold writeTcpFlowResults
    rw [hs]
    split <;> rfl
  refine ⟨Unit, Empty, quietNodes TcpFlowClient, OrdSet.ofList [defaultServerPort],
    fun _ world => (defaultServerPort, world), noEvents, [], _, ?_, hrun,
    fun _ h => (nomatch h), rfl, ?_⟩
  · intro entry hentry
    rw [hs] at hentry
    cases hentry
  · show _ = (fun rows => rows.map Prod.fst) <$> writeTcpFlowResults s
    rw [hwrite]
    rfl

/-- The outcomes on two systems when the second has nothing to do. -/
def onFirstSystem (o : Outcome TcpFlowFields) (s : Nat) : Outcome TcpFlowFields :=
  if s = 0 then o else ⟨[], .ok []⟩

theorem tcpFlowRun_onFirstSystem {n : Nat} {o : Outcome TcpFlowFields}
    (h : TcpFlowRun 1000 (flowScheduler n) o) (s : Nat) :
    TcpFlowRun 1000 ((flowScheduler n).onSystem (flowSystem 0) s) (onFirstSystem o s) := by
  unfold onFirstSystem
  split
  · next hs =>
      rw [hs, onSystem_zero]
      exact h
  · next hs => exact tcpFlowRun_of_nil (schedule_onSystem_of_ne hs)

/-- Two flows, both started on the first of two systems. -/
theorem distributed_run_shares_the_work_twoSystems :
    ∃ (o₀ : Outcome TcpFlowFields) (o : Nat → Outcome TcpFlowFields), TcpFlowRun 1000 (flowScheduler 2) o₀ ∧
      (∀ s < 2, TcpFlowRun 1000 ((flowScheduler 2).onSystem (flowSystem 0) s) (o s)) ∧
      o₀.started = earlyFlows 2 ∧
      Shared (fromSystem (flowSystem 0)) ScheduleEntry.id 2 (fun s => (o s).started) (earlyFlows 2) ∧
      ResultsShared (fromSystem (flowSystem 0)) 2 (earlyFlows 2) o₀.results fun s => (o s).results := by
  obtain ⟨trace, l, hrun, hfinished, -⟩ := run_twoFlows
  have hrun₀ := tcpFlowRun_earlyFlows hrun hfinished
  have hflows := (distributed_run_shares_the_work (systems_flowSystem (earlyFlowsFile 2)) isUndistributed_flowSim
    parseTopologyGraph_twoSystems).2.1 (flowScheduler 2) [0, 1] (create_flowScheduler rfl (by decide))
    (entriesNameEndpoints_earlyFlows 2)
  exact ⟨_, _, hrun₀, fun s _ => tcpFlowRun_onFirstSystem hrun₀ s,
    hflows.2.runs (by decide) _ _ hrun₀ fun s _ => tcpFlowRun_onFirstSystem hrun₀ s⟩

/-- When the size of the schedule becomes 1 as an `int`, no system starts the second flow. -/
theorem tcpFlowRun_of_size_one {n : Nat} (hsize : toInt32 (n + 2 : Nat) = 1) :
    ∃ results, TcpFlowRun 1000 (flowScheduler (n + 2)) ⟨[earlyFlow 0], results⟩ := by
  obtain ⟨trace, l, hrun, hfinished, hevents, -⟩ := run_of_size_one hsize
  have hstarted : startedEntries (earlyFlows (n + 2)) trace = [earlyFlow 0] := by
    obtain ⟨rest, hrest⟩ := earlyFlows_cons_cons n
    rw [startedEntries, hevents, hrest]
    rfl
  have hrun₀ := tcpFlowRun_earlyFlows hrun hfinished
  rw [hstarted] at hrun₀
  exact ⟨_, hrun₀⟩

/-- No system starts the second flow, so the starts are not shared. -/
theorem starts_not_shared_of_size_one {n : Nat} (hsize : toInt32 (n + 2 : Nat) = 1) :
    ∃ o : Nat → Outcome TcpFlowFields,
      (∀ s < 2, TcpFlowRun 1000 ((flowScheduler (n + 2)).onSystem (flowSystem 0) s) (o s)) ∧
      (∃ entry ∈ (flowScheduler (n + 2)).schedule, ∀ s < 2,
        ((o s).started.map ScheduleEntry.id).count entry.id = 0) ∧
      ¬ Shared (fromSystem (flowSystem 0)) ScheduleEntry.id 2 (fun s => (o s).started)
        (flowScheduler (n + 2)).schedule := by
  obtain ⟨results, hrun⟩ := tcpFlowRun_of_size_one hsize
  have hmem : earlyFlow 1 ∈ (flowScheduler (n + 2)).schedule := by
    obtain ⟨rest, hrest⟩ := earlyFlows_cons_cons n
    rw [show (flowScheduler (n + 2)).schedule = earlyFlow 0 :: earlyFlow 1 :: rest from hrest]
    exact List.mem_cons_of_mem _ List.mem_cons_self
  have hnone : ∀ s, ((onFirstSystem ⟨[earlyFlow 0], results⟩ s).started.map ScheduleEntry.id).count
      (earlyFlow 1).id = 0 := by
    intro s
    unfold onFirstSystem
    split <;> rfl
  refine ⟨onFirstSystem ⟨[earlyFlow 0], results⟩, fun s _ => tcpFlowRun_onFirstSystem hrun s,
    ⟨_, hmem, fun s _ => hnone s⟩, ?_⟩
  intro hshared
  have hone := hshared.once _ hmem 0 (by decide)
  rw [hnone 0] at hone
  exact absurd hone (by decide)

/-- Of `2 ^ 32 + 1` flows on two systems, there are flows that no system has started when the run is finished. -/
theorem flow_is_started_on_no_system :
    Systems "run".toList (twoSystemsFiles (earlyFlowsFile 4294967297)) 2 flowSystem ∧
    IsUndistributed flowSim (flowSystem 0) ∧
    parseTopologyGraph pairConfig true (some (flowSystem 0).distributedNodeSystemIdAssignment)
      = .ok pairTopology ∧
    ∃ s₀ servers₀, createTcpFlowScheduler flowSim pairTopology (twoSystemsFiles (earlyFlowsFile 4294967297))
        = .ok (s₀, servers₀) ∧
      EntriesNameEndpoints pairTopology s₀.schedule ∧
      (∀ s < 2, ∃ servers, createTcpFlowScheduler (flowSystem s) pairTopology
        (twoSystemsFiles (earlyFlowsFile 4294967297)) = .ok (s₀.onSystem (flowSystem 0) s, servers)) ∧
      ∃ o : Nat → Outcome TcpFlowFields,
        (∀ s < 2, TcpFlowRun 1000 (s₀.onSystem (flowSystem 0) s) (o s)) ∧
        (∃ entry ∈ s₀.schedule, ∀ s < 2, ((o s).started.map ScheduleEntry.id).count entry.id = 0) ∧
        ¬ Shared (fromSystem (flowSystem 0)) ScheduleEntry.id 2 (fun s => (o s).started) s₀.schedule := by
  have hsize : toInt32 ((4294967295 + 2 : Nat) : Int) = 1 := by decide
  have hcreated : createTcpFlowScheduler flowSim pairTopology (twoSystemsFiles (earlyFlowsFile 4294967297))
      = .ok (flowScheduler 4294967297, [0, 1]) := create_flowScheduler rfl (by decide)
  have hnames := entriesNameEndpoints_earlyFlows 4294967297
  obtain ⟨o, hruns, hnone, hshared⟩ := starts_not_shared_of_size_one hsize
  exact ⟨systems_flowSystem _, isUndistributed_flowSim, parseTopologyGraph_twoSystems, _, _, hcreated, hnames,
    fun s hs => createTcpFlowScheduler_onSystem (systems_flowSystem _) isUndistributed_flowSim
      parseTopologyGraph_twoSystems hcreated hnames hs, o, hruns, hnone, hshared⟩

end BasicSim
