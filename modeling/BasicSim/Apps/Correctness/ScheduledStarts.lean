import BasicSim.Apps.Correctness.BurstServers
import BasicSim.Apps.Correctness.ScheduleFormats

/-!
# `Apps.Correctness.ScheduledStarts` — the schedulers start every entry

From the creation of a scheduler to its results: in every run the entries are started in order and on time, and
the results are complete. The size of the schedule must be an `int`. A schedule of `2 ^ 32 + 1` flows is
accepted, but only its first flow is started, and writing the results throws.

## Contents
- **The schedulers.** One theorem for each kind, and `schedulers_start_every_entry` for all.
- **Early flows.** `earlyFlowsFile` is read as `earlyFlows`, by a scheduler in a simulation.
- **Two flows.** A run that starts two flows at the same time.
- **Too many flows.** `manyFlows_are_not_started`.
-/

namespace BasicSim

open Fallible EventLoop

/-! ## The schedulers -/

section Schedulers

variable {World Event : Type} {sim : BasicSimulation} {topology : TopologyPtop} {files : Str → File}
  {other : Event → Int → World → Except Exc (World × List (Int × Event))}
  {trace : List (Int × (Int ⊕ Event))}

theorem created_endTime {runDir : Str} {mpi : MpiInterface}
    (h : BasicSimulation.create runDir files mpi = .ok sim) : InInt64 sim.simulationEndTimeNs := by
  obtain ⟨config, -, h⟩ := bind_eq_ok.mp h
  obtain ⟨_, -, h⟩ := bind_eq_ok.mp h
  obtain ⟨endTime, hend, h⟩ := bind_eq_ok.mp h
  have hmem : InInt64 endTime := parseInt64_inInt64 (parsePositiveInt64_eq_ok.mp hend).1
  obtain ⟨_, -, h⟩ := bind_eq_ok.mp h
  obtain ⟨_, -, h⟩ := bind_eq_ok.mp h
  obtain ⟨distributed, -, h⟩ := bind_eq_ok.mp h
  split at h
  · obtain ⟨_, -, h⟩ := bind_eq_ok.mp h
    cases h
    exact hmem
  · cases h
    exact hmem

/-- Flows: the results pair every flow with its application. -/
theorem tcpFlows_start (hend : InInt64 sim.simulationEndTimeNs)
    {nodes : NodeContainer TcpFlowClient World Event} {serverPorts : OrdSet Nat}
    {selectRemotePort : TcpFlowClient → World → Nat × World} {s : TcpFlowScheduler} {servers : List Int}
    {l : Loop (TcpFlowScheduler × World) (Int ⊕ Event)}
    (hs : createTcpFlowScheduler sim topology files = .ok (s, servers)) (hlen : s.schedule.length < 2 ^ 31)
    (hcreate : CreationSucceeds (createTcpFlowClient nodes serverPorts selectRemotePort) s)
    (hrun : ChainedRun (startProcess (startNextFlow nodes serverPorts selectRemotePort) other)
      sim.simulationEndTimeNs s trace l) :
    StartsInOrder (startProcess (startNextFlow nodes serverPorts selectRemotePort) other)
        (fun entry client => client.BelongsTo nodes s.toSchedulerSettings entry) s.schedule
        sim.simulationEndTimeNs trace l ∧
      (Finished sim.simulationEndTimeNs l →
        writeTcpFlowResults l.state.1 = .ok (s.schedule.zip l.state.1.apps)) := by
  have hcreated := createTcpFlowScheduler_created hs
  obtain ⟨hstarts, k, hstarted⟩ := startsInOrder_of_run
    (fun settings entry (client : TcpFlowClient) => client.BelongsTo nodes settings entry)
    hcreated hend hlen hcreate (fun _ _ _ _ _ _ h => createTcpFlowClient_belongs h) hrun
  refine ⟨hstarts, ?_⟩
  intro hfinished
  have hwrite := writeTcpFlowResults_eq (s := l.state.1)
    (by rw [hstarted.schedule]; exact hstarts.complete hfinished) (by rw [hstarted.schedule]; exact hlen)
    (by rw [hstarted.schedule, hstarted.settings]; exact hcreated.enabled)
  rwa [hstarted.schedule] at hwrite

/-- Pings: the results have every ping with its client, and one line for every ping packet that was sent. -/
theorem udpPings_start (hend : InInt64 sim.simulationEndTimeNs)
    {nodes : NodeContainer UdpPingClient World Event} {s : UdpPingScheduler} {servers : List Int}
    {l : Loop (UdpPingScheduler × World) (Int ⊕ Event)}
    (hs : createUdpPingScheduler sim topology files = .ok (s, servers)) (hlen : s.schedule.length < 2 ^ 31)
    (hcreate : CreationSucceeds (createUdpPingClient nodes) s)
    (hrun : ChainedRun (startProcess (startNextUdpPing nodes) other) sim.simulationEndTimeNs s trace l) :
    StartsInOrder (startProcess (startNextUdpPing nodes) other)
        (fun entry client => client.BelongsTo nodes entry) s.schedule sim.simulationEndTimeNs trace l ∧
      (Finished sim.simulationEndTimeNs l → ∀ timestamps : UdpPingClient → UdpPingTimestamps,
        ∃ rows, writeUdpPingResults timestamps l.state.1 = .ok rows ∧
          rows.map (fun row => (row.1, row.2.1)) = s.schedule.zip l.state.1.apps ∧
          ∀ row ∈ rows, row.2.2.length = (timestamps row.2.1).sent) := by
  have hcreated := createUdpPingScheduler_created hs
  obtain ⟨hstarts, k, hstarted⟩ := startsInOrder_of_run
    (fun _ entry (client : UdpPingClient) => client.BelongsTo nodes entry)
    hcreated hend hlen hcreate (fun _ _ _ _ _ _ h => createUdpPingClient_belongs h) hrun
  refine ⟨hstarts, ?_⟩
  intro hfinished timestamps
  have hwrite := writeUdpPingResults_ok timestamps (s := l.state.1)
    (by rw [hstarted.schedule]; exact hstarts.complete hfinished) (by rw [hstarted.schedule]; exact hlen)
    (by rw [hstarted.schedule, hstarted.settings]; exact hcreated.enabled)
  rwa [hstarted.schedule] at hwrite

/-- Bursts that are recorded in the order of the schedule are written in that order. -/
theorem writeUdpBurstOutgoing_eq {s : UdpBurstScheduler}
    (hids : s.schedule.Pairwise fun e e' => e.id < e'.id) (happs : s.apps.map Prod.fst = s.schedule)
    (henabled : s.enabled = false → s.schedule = []) : writeUdpBurstOutgoing s = s.apps := by
  unfold writeUdpBurstOutgoing
  split
  · next hdisabled =>
      rw [henabled hdisabled, List.map_eq_nil_iff] at happs
      exact happs.symm
  · refine List.Pairwise.insertionSort_eq ?_
    rw [← happs, List.pairwise_map] at hids
    exact hids.imp fun h => le_of_lt h

/-- Bursts: the outgoing ones are written in the order of the schedule, and every incoming one finds its
    counter, whatever packets the servers have received. -/
theorem udpBursts_start (hend : InInt64 sim.simulationEndTimeNs)
    {stod : Str → Except Exc (Double × Nat)} {nodes : NodeContainer UdpBurstClient World Event}
    {s : UdpBurstScheduler}
    {l : Loop (Scheduler UdpBurstFields (UdpBurstInfo × UdpBurstClient) × World) (Int ⊕ Event)}
    (hs : createUdpBurstScheduler sim topology files stod = .ok s) (hlen : s.schedule.length < 2 ^ 31)
    (hcreate : CreationSucceeds (createUdpBurstClient nodes) s.toScheduler)
    (hrun : ChainedRun (startProcess (startNextUdpBurst nodes) other) sim.simulationEndTimeNs s.toScheduler
      trace l) :
    StartsInOrder (startProcess (startNextUdpBurst nodes) other)
        (fun entry app => app.1 = entry ∧ app.2.BelongsTo nodes s.toSchedulerSettings entry) s.schedule
        sim.simulationEndTimeNs trace l ∧
      (Finished sim.simulationEndTimeNs l → ∀ servers, List.Forall₂ AfterPackets s.servers servers →
        let s' : UdpBurstScheduler := { s with toScheduler := l.state.1, servers := servers }
        writeUdpBurstOutgoing s' = l.state.1.apps ∧ l.state.1.apps.map Prod.fst = s.schedule ∧
          ∃ rows, writeUdpBurstIncoming s' = .ok rows ∧ rows.map Prod.fst =
            (s.responsibleForIncomingBursts.insertionSort fun a b => a.1.id ≤ b.1.id).map Prod.fst) := by
  have hcreated := createUdpBurstScheduler_created hs
  obtain ⟨hstarts, k, hstarted⟩ := startsInOrder_of_run
    (fun settings entry (app : UdpBurstInfo × UdpBurstClient) =>
      app.1 = entry ∧ app.2.BelongsTo nodes settings entry)
    hcreated hend hlen hcreate (fun _ _ _ _ _ _ h => createUdpBurstClient_belongs h) hrun
  refine ⟨hstarts, ?_⟩
  intro hfinished servers hservers
  -- every application of a finished run belongs to its entry
  have happs : l.state.1.apps.map Prod.fst = s.schedule := by
    have hall := hstarts.apps
    rw [hstarts.complete hfinished, List.take_length] at hall
    exact (eq_map_of_forall₂ (fun _ _ h => h.1.symm) hall).symm
  refine ⟨writeUdpBurstOutgoing_eq (by rw [show _ = _ from hstarted.schedule]; exact hcreated.startable.ids)
    (by rw [happs]; exact hstarted.schedule.symm)
    (by rw [hstarted.schedule, hstarted.settings]; exact hcreated.enabled), happs, ?_⟩
  rcases createUdpBurstScheduler_registers hs with ⟨hdisabled, -, hincoming⟩ |
    ⟨henabled, complete, endpoints, -, -, -, hservers', hincoming⟩
  · refine ⟨[], ?_, by rw [hincoming]; rfl⟩
    unfold writeUdpBurstIncoming
    rw [if_pos (by rw [hstarted.settings]; exact hdisabled)]
  · rw [hincoming]
    rw [hservers'] at hservers
    exact writeUdpBurstIncoming_ok hservers rfl
      ((congrArg SchedulerSettings.enabled hstarted.settings).trans henabled)

end Schedulers

/-- **Every entry is started exactly once, on time and in order**, and the results are complete. This is for
    every schedule that a reader has accepted, as a whole or filtered for a system, whose size is an `int`. -/
theorem schedulers_start_every_entry {runDir : Str} {files : Str → File} {mpi : MpiInterface}
    {sim : BasicSimulation} (hsim : BasicSimulation.create runDir files mpi = .ok sim)
    (topology : TopologyPtop) :
    (∀ {World Event : Type} (nodes : NodeContainer TcpFlowClient World Event) serverPorts selectRemotePort
        other s servers trace l,
      createTcpFlowScheduler sim topology files = .ok (s, servers) → s.schedule.length < 2 ^ 31 →
      CreationSucceeds (createTcpFlowClient nodes serverPorts selectRemotePort) s →
      ChainedRun (startProcess (startNextFlow nodes serverPorts selectRemotePort) other)
        sim.simulationEndTimeNs s trace l →
      StartsInOrder (startProcess (startNextFlow nodes serverPorts selectRemotePort) other)
          (fun entry client => client.BelongsTo nodes s.toSchedulerSettings entry) s.schedule
          sim.simulationEndTimeNs trace l ∧
        (Finished sim.simulationEndTimeNs l →
          writeTcpFlowResults l.state.1 = .ok (s.schedule.zip l.state.1.apps))) ∧
    (∀ {World Event : Type} (nodes : NodeContainer UdpPingClient World Event) other s servers trace l,
      createUdpPingScheduler sim topology files = .ok (s, servers) → s.schedule.length < 2 ^ 31 →
      CreationSucceeds (createUdpPingClient nodes) s →
      ChainedRun (startProcess (startNextUdpPing nodes) other) sim.simulationEndTimeNs s trace l →
      StartsInOrder (startProcess (startNextUdpPing nodes) other)
          (fun entry client => client.BelongsTo nodes entry) s.schedule sim.simulationEndTimeNs trace l ∧
        (Finished sim.simulationEndTimeNs l → ∀ timestamps : UdpPingClient → UdpPingTimestamps,
          ∃ rows, writeUdpPingResults timestamps l.state.1 = .ok rows ∧
            rows.map (fun row => (row.1, row.2.1)) = s.schedule.zip l.state.1.apps ∧
            ∀ row ∈ rows, row.2.2.length = (timestamps row.2.1).sent)) ∧
    ∀ {World Event : Type} (nodes : NodeContainer UdpBurstClient World Event) stod other s trace l,
      createUdpBurstScheduler sim topology files stod = .ok s → s.schedule.length < 2 ^ 31 →
      CreationSucceeds (createUdpBurstClient nodes) s.toScheduler →
      ChainedRun (startProcess (startNextUdpBurst nodes) other) sim.simulationEndTimeNs s.toScheduler trace l →
      StartsInOrder (startProcess (startNextUdpBurst nodes) other)
          (fun entry app => app.1 = entry ∧ app.2.BelongsTo nodes s.toSchedulerSettings entry) s.schedule
          sim.simulationEndTimeNs trace l ∧
        (Finished sim.simulationEndTimeNs l → ∀ servers, List.Forall₂ AfterPackets s.servers servers →
          let s' : UdpBurstScheduler := { s with toScheduler := l.state.1, servers := servers }
          writeUdpBurstOutgoing s' = l.state.1.apps ∧ l.state.1.apps.map Prod.fst = s.schedule ∧
            ∃ rows, writeUdpBurstIncoming s' = .ok rows ∧ rows.map Prod.fst =
              (s.responsibleForIncomingBursts.insertionSort fun a b => a.1.id ≤ b.1.id).map Prod.fst) := by
  have hend := created_endTime hsim
  exact ⟨fun nodes serverPorts selectRemotePort other s servers trace l => tcpFlows_start hend,
    fun nodes other s servers trace l => udpPings_start hend,
    fun nodes stod other s trace l => udpBursts_start hend⟩

/-! ## Early flows -/

/-- A flow of 100 byte from node 0 to node 1 at the start of the simulation. -/
def earlyFlow (k : Nat) : TcpFlowScheduleEntry := ⟨k, 0, 1, 0, ⟨100, [], []⟩⟩

/-- The fields of its line. -/
def earlyFlowFields (k : Nat) : List Str :=
  [toStr k, "0".toList, "1".toList, "100".toList, "0".toList, [], []]

def earlyFlows (n : Nat) : List TcpFlowScheduleEntry := (List.range n).map earlyFlow

/-- The schedule file of `n` such flows. -/
def earlyFlowsFile (n : Nat) : Str :=
  unlines ((List.range n).map fun k => [','].intercalate (earlyFlowFields k))

theorem earlyFlowsFile_eq (n : Nat) : earlyFlowsFile n = writeSchedule writeTcpFlow (earlyFlows n) := by
  unfold earlyFlowsFile earlyFlows writeSchedule
  rw [List.map_map]
  rfl

theorem mem_earlyFlows {n : Nat} {e : TcpFlowScheduleEntry} :
    e ∈ earlyFlows n ↔ ∃ k < n, earlyFlow k = e := by
  simp [earlyFlows]

theorem conforming_earlyFlows (n : Nat) : Conforming pairTopology 1000 (earlyFlows n) := by
  have hall : ∀ {p : TcpFlowScheduleEntry → Prop}, (∀ k, p (earlyFlow k)) → ∀ e ∈ earlyFlows n, p e := by
    intro p hp e he
    obtain ⟨k, -, rfl⟩ := mem_earlyFlows.mp he
    exact hp k
  constructor
  · intro k e hget
    rw [earlyFlows, List.getElem?_map, Option.map_eq_some_iff] at hget
    obtain ⟨i, hi, rfl⟩ := hget
    obtain ⟨_, rfl⟩ := List.getElem?_eq_some_iff.mp hi
    rw [List.getElem_range]
    rfl
  · refine List.pairwise_of_forall_mem_list ?_
    intro e he e' he'
    obtain ⟨k, -, rfl⟩ := mem_earlyFlows.mp he
    obtain ⟨k', -, rfl⟩ := mem_earlyFlows.mp he'
    exact le_refl 0
  · exact hall fun _ => show (0 : Int) < 1000 by decide
  · exact hall fun _ => show (0 : Int) ≠ 1 by decide
  · exact hall fun _ => show pairTopology.isValidEndpoint 0 = true by decide
  · exact hall fun _ => show pairTopology.isValidEndpoint 1 = true by decide

theorem writable_earlyFlow {k : Nat} (hk : k < 2 ^ 63) : WritableTcpFlow (earlyFlow k) where
  id := ⟨Int.natCast_nonneg k, show (k : Int) < 2 ^ 63 by exact_mod_cast hk⟩
  fromNodeId := show IsPositiveInt64 0 by decide
  toNodeId := show IsPositiveInt64 1 by decide
  startTimeNs := show IsPositiveInt64 0 by decide
  sizeByte := show IsPositiveInt64 100 by decide
  additionalParameters := show IsFieldText [] by decide
  metadata := show IsFieldText [] by decide

theorem read_earlyFlows (filename : Str) {n : Nat} (hn : n ≤ 2 ^ 63) :
    readTcpFlowSchedule filename (.content (earlyFlowsFile n)) pairTopology 1000 = .ok (earlyFlows n) := by
  rw [earlyFlowsFile_eq]
  refine readTcpFlowSchedule_written ?_ (conforming_earlyFlows n)
  intro e he
  obtain ⟨k, hk, rfl⟩ := mem_earlyFlows.mp he
  exact writable_earlyFlow (by omega)

/-- A run directory with the given schedule of flows, which enables the flow scheduler. -/
def flowFiles (schedule : Str) (filename : Str) : File :=
  if filename = "run/config_ns3.properties".toList then .content
    ("simulation_end_time_ns=1000\nsimulation_seed=1\nenable_tcp_flow_scheduler=true\n"
      ++ "tcp_flow_schedule_filename=flows.csv\n").toList
  else .content schedule

/-- The simulation of that directory. -/
def flowSim : BasicSimulation where
  runDir := "run".toList
  config := [("simulation_end_time_ns", "1000"), ("simulation_seed", "1"),
    ("enable_tcp_flow_scheduler", "true"), ("tcp_flow_schedule_filename", "flows.csv")].foldl
    (fun (config : Config) entry => config.insert entry.1.toList entry.2.toList) ∅
  simulationEndTimeNs := 1000
  enableDistributed := false
  distributedNodeSystemIdAssignment := []
  systemId := 0
  systemsCount := 1

theorem create_flowSim (schedule : Str) :
    BasicSimulation.create "run".toList (flowFiles schedule) ⟨0, 1⟩ = .ok flowSim := by
  have hconfig : readConfig "run/config_ns3.properties".toList
      (flowFiles schedule "run/config_ns3.properties".toList) = .ok flowSim.config := by
    rw [flowFiles, if_pos rfl, String.toList_append]
    decide +kernel
  unfold BasicSimulation.create
  rw [show "run".toList ++ "/config_ns3.properties".toList = "run/config_ns3.properties".toList from rfl]
  dsimp only
  rw [hconfig]
  decide

/-- The scheduler of `n` early flows. -/
def flowScheduler (n : Nat) : TcpFlowScheduler :=
  ⟨⟨true, "run/logs_ns3".toList, ∅⟩, earlyFlows n, []⟩

theorem create_flowScheduler {files : Str → File} {n : Nat}
    (hfile : files "run/flows.csv".toList = .content (earlyFlowsFile n)) (hn : n ≤ 2 ^ 63) :
    createTcpFlowScheduler flowSim pairTopology files = .ok (flowScheduler n, [0, 1]) := by
  have hread : readConfiguredSchedule flowSim files "tcp_flow_schedule_filename"
      (fun filename file => readTcpFlowSchedule filename file pairTopology flowSim.simulationEndTimeNs)
      = .ok (earlyFlows n) := by
    unfold readConfiguredSchedule
    rw [show getParamOrFail "tcp_flow_schedule_filename".toList flowSim.config = .ok "flows.csv".toList by decide,
      ok_bind]
    dsimp only
    rw [show flowSim.runDir ++ "/".toList ++ "flows.csv".toList = "run/flows.csv".toList from rfl, hfile]
    exact read_earlyFlows _ hn
  have hids : parseLoggingIds flowSim "tcp_flow_enable_logging_for_tcp_flow_ids" "TCP flow" (earlyFlows n).length
      = .ok ∅ := by
    unfold parseLoggingIds
    rw [show getParamOrDefault "tcp_flow_enable_logging_for_tcp_flow_ids".toList "set()".toList flowSim.config
      = "set()".toList by decide]
    rfl
  unfold createTcpFlowScheduler
  rw [show parseBoolean (getParamOrDefault "enable_tcp_flow_scheduler".toList "false".toList flowSim.config)
    = .ok true by decide, ok_bind, if_neg (by decide), hread, ok_bind, hids, ok_bind]
  rfl

/-- Nodes on which every application can be installed, and nothing happens. -/
def quietNodes (App : Type) : NodeContainer App Unit Empty where
  getAddress _ := .ok 0
  install _ world := .ok (world, [])

/-- The start of early flows on such nodes. -/
def startEarlyFlow : Int → Int → TcpFlowScheduler → Unit →
    Except Exc ((TcpFlowScheduler × List (Int × Int)) × (Unit × List (Int × Empty))) :=
  startNextFlow (quietNodes TcpFlowClient) (OrdSet.ofList [defaultServerPort])
    fun _ world => (defaultServerPort, world)

/-- The simulation has no other events. -/
def noEvents : Empty → Int → Unit → Except Exc (Unit × List (Int × Empty)) := nofun

def earlyFlowProcess : Process Exc TcpFlowScheduler Unit Int Empty := startProcess startEarlyFlow noEvents

theorem creationSucceeds_earlyFlows (n : Nat) :
    CreationSucceeds (createTcpFlowClient (quietNodes TcpFlowClient) (OrdSet.ofList [defaultServerPort])
      fun _ world => (defaultServerPort, world)) (flowScheduler n) := by
  intro entry hentry world
  obtain ⟨k, -, rfl⟩ := List.mem_map.mp hentry
  exact ⟨_, _, _, rfl, fun e he => nomatch he⟩

/-- The client of an early flow. -/
def earlyFlowClient (k : Nat) : TcpFlowClient where
  nodeId := 0
  localAddress := ⟨0, 0⟩
  remoteAddress := ⟨0, defaultServerPort⟩
  tcpFlowId := k
  flowSizeByte := 100
  additionalParameters := []
  enableDetailedLoggingToFile := false
  baseLogsDir := "run/logs_ns3".toList

/-- A run that starts two early flows. -/
theorem run_twoFlows : ∃ trace l, ChainedRun earlyFlowProcess 1000 (flowScheduler 2) trace l ∧ Finished 1000 l ∧
    ownEvents trace = [(0, 0), (0, 1)] ∧ l.state.1.apps = [earlyFlowClient 0, earlyFlowClient 1] := by
  have hfirst : earlyFlowProcess.handler (.inl 0) 0 (flowScheduler 2, ()) =
      .ok (({ flowScheduler 2 with apps := [earlyFlowClient 0] }, ()), [(0, .inl 1)]) := rfl
  have hsecond : earlyFlowProcess.handler (.inl 1) 0
        ({ flowScheduler 2 with apps := [earlyFlowClient 0] }, ()) =
      .ok (({ flowScheduler 2 with apps := [earlyFlowClient 0, earlyFlowClient 1] }, ()), []) := rfl
  have hstep₀ : Step earlyFlowProcess.handler ⟨0, (flowScheduler 2, ()), [(0, .inl 0)]⟩ (0, .inl 0)
      ⟨0, ({ flowScheduler 2 with apps := [earlyFlowClient 0] }, ()), [(0, .inl 1)]⟩ :=
    Step.single hfirst (by decide)
  have hstep₁ : Step earlyFlowProcess.handler
      ⟨0, ({ flowScheduler 2 with apps := [earlyFlowClient 0] }, ()), [(0, .inl 1)]⟩ (0, .inl 1)
      ⟨0, ({ flowScheduler 2 with apps := [earlyFlowClient 0, earlyFlowClient 1] }, ()), []⟩ :=
    Step.single hsecond (by decide)
  have hrun : ChainedRun earlyFlowProcess 1000 (flowScheduler 2) _ _ :=
    ⟨(), _, rfl, .step (.step .start hstep₀ (by decide)) hstep₁ (by decide)⟩
  exact ⟨_, _, hrun, fun _ h => (nomatch h), rfl, rfl⟩

/-- Both of two early flows are started at the start of the simulation. -/
theorem schedulers_start_every_entry_twoFlows :
    ∃ trace l, ChainedRun earlyFlowProcess 1000 (flowScheduler 2) trace l ∧ Finished 1000 l ∧
      StartsInOrder earlyFlowProcess
        (fun entry client => client.BelongsTo (quietNodes TcpFlowClient) (flowScheduler 2).toSchedulerSettings
          entry) (earlyFlows 2) 1000 trace l ∧
      ownEvents trace = [(0, 0), (0, 1)] ∧
      writeTcpFlowResults l.state.1 = .ok ((earlyFlows 2).zip [earlyFlowClient 0, earlyFlowClient 1]) := by
  obtain ⟨trace, l, hrun, hfinished, hevents, happs⟩ := run_twoFlows
  obtain ⟨hstarts, hwrite⟩ := (schedulers_start_every_entry (create_flowSim (earlyFlowsFile 2)) pairTopology).1
    (quietNodes TcpFlowClient) (OrdSet.ofList [defaultServerPort]) (fun _ world => (defaultServerPort, world))
    noEvents (flowScheduler 2) [0, 1] trace l (create_flowScheduler rfl (by decide)) (by decide)
    (creationSucceeds_earlyFlows 2) hrun
  have hrows := hwrite hfinished
  rw [happs] at hrows
  exact ⟨trace, l, hrun, hfinished, hstarts, hevents, hrows⟩

theorem earlyFlows_cons_cons (n : Nat) : ∃ rest, earlyFlows (n + 2) = earlyFlow 0 :: earlyFlow 1 :: rest := by
  unfold earlyFlows
  rw [List.range_succ_eq_map, List.map_cons, List.range_succ_eq_map, List.map_cons, List.map_cons]
  exact ⟨_, rfl⟩

theorem firstStart_flowScheduler (n : Nat) : firstStart (flowScheduler (n + 2)) = [(0, 0)] := by
  obtain ⟨rest, hrest⟩ := earlyFlows_cons_cons n
  unfold firstStart
  rw [show (flowScheduler (n + 2)).schedule = earlyFlow 0 :: earlyFlow 1 :: rest from hrest]
  rfl

/-- When the size of the schedule becomes 1 as an `int`, the start of the first flow schedules nothing. -/
theorem start_first_of_size_one {n : Nat} (hsize : toInt32 (n + 2 : Nat) = 1) :
    earlyFlowProcess.handler (.inl 0) 0 (flowScheduler (n + 2), ()) =
      .ok (({ flowScheduler (n + 2) with apps := [earlyFlowClient 0] }, ()), []) := by
  obtain ⟨rest, hrest⟩ := earlyFlows_cons_cons n
  have hat : vectorAt (flowScheduler (n + 2)).schedule 0 = .ok (earlyFlow 0) := by
    rw [show (flowScheduler (n + 2)).schedule = earlyFlow 0 :: earlyFlow 1 :: rest from hrest]
    rfl
  have hnext : scheduleNext (flowScheduler (n + 2)).schedule 0 0 = .ok [] := by
    unfold scheduleNext
    rw [show (flowScheduler (n + 2)).schedule.length = n + 2 by simp [flowScheduler, earlyFlows], hsize]
    rfl
  have hclient : createTcpFlowClient (quietNodes TcpFlowClient) (OrdSet.ofList [defaultServerPort])
      (fun _ world => (defaultServerPort, world)) (flowScheduler (n + 2)).toSchedulerSettings (earlyFlow 0) ()
        = .ok (earlyFlowClient 0, (), []) := rfl
  have hstart : startEarlyFlow 0 0 (flowScheduler (n + 2)) () =
      .ok (({ flowScheduler (n + 2) with apps := [earlyFlowClient 0] }, []), ((), [])) := by
    unfold startEarlyFlow startNextFlow startNext
    rw [hat, ok_bind, throwIf_of_not (show ¬ (0 : Int) ≠ (earlyFlow 0).startTimeNs from not_not.mpr rfl),
      ok_bind, hclient, ok_bind]
    dsimp only
    rw [hnext]
    rfl
  show (do
    let ((s, as), (r, xs)) ← startEarlyFlow 0 0 (flowScheduler (n + 2)) ()
    .ok ((s, r), inOwn as ++ inOther xs)) = _
  rw [hstart]
  rfl

/-- Writing the results of at least two flows with one application throws. -/
theorem writeTcpFlowResults_of_one_app (n : Nat) (client : TcpFlowClient) :
    writeTcpFlowResults { flowScheduler (n + 2) with apps := [client] } =
      .error (.outOfRange "vector::at") := by
  obtain ⟨rest, hrest⟩ := earlyFlows_cons_cons n
  show (do
    let st ← (earlyFlows (n + 2)).foldlM (tcpFlowRow [client]) ([], 0)
    .ok st.1) = _
  rw [hrest]
  rfl

/-- A finished run that has started only the first of at least two flows. -/
theorem run_of_size_one {n : Nat} (hsize : toInt32 (n + 2 : Nat) = 1) :
    ∃ trace l, ChainedRun earlyFlowProcess 1000 (flowScheduler (n + 2)) trace l ∧ Finished 1000 l ∧
      ownEvents trace = [(0, 0)] ∧ l.state.1.apps.length = 1 ∧
      writeTcpFlowResults l.state.1 = .error (.outOfRange "vector::at") := by
  have hstep : Step earlyFlowProcess.handler ⟨0, (flowScheduler (n + 2), ()), [(0, .inl 0)]⟩ (0, .inl 0)
      ⟨0, ({ flowScheduler (n + 2) with apps := [earlyFlowClient 0] }, ()), []⟩ :=
    Step.single (start_first_of_size_one hsize) (fun _ h => nomatch h)
  have hrun : ChainedRun earlyFlowProcess 1000 (flowScheduler (n + 2)) _ _ :=
    ⟨(), [(0, .inl 0)], (firstStart_flowScheduler n).symm, .step .start hstep (by decide)⟩
  exact ⟨_, _, hrun, fun _ h => (nomatch h), rfl, rfl, writeTcpFlowResults_of_one_app n _⟩

/-- A schedule of `2 ^ 32 + 1` flows is accepted, but a run that is finished has started only the first flow,
    and writing the results throws. -/
theorem manyFlows_are_not_started :
    parseTopologyGraph pairConfig true none = .ok pairTopology ∧
    BasicSimulation.create "run".toList (flowFiles (earlyFlowsFile 4294967297)) ⟨0, 1⟩ = .ok flowSim ∧
    ∃ s servers, createTcpFlowScheduler flowSim pairTopology (flowFiles (earlyFlowsFile 4294967297))
        = .ok (s, servers) ∧
      s.schedule.length = 4294967297 ∧
      CreationSucceeds (createTcpFlowClient (quietNodes TcpFlowClient) (OrdSet.ofList [defaultServerPort])
        fun _ world => (defaultServerPort, world)) s ∧
      ∃ trace l, ChainedRun earlyFlowProcess 1000 s trace l ∧ Finished 1000 l ∧
        ownEvents trace = [(0, 0)] ∧
        writeTcpFlowResults l.state.1 = .error (.outOfRange "vector::at") ∧
        ¬ StartsInOrder earlyFlowProcess
          (fun entry client => client.BelongsTo (quietNodes TcpFlowClient) s.toSchedulerSettings entry)
          s.schedule 1000 trace l := by
  have hlength : (flowScheduler 4294967297).schedule.length = 4294967297 := by
    rw [flowScheduler, earlyFlows, List.length_map, List.length_range]
  have hsize : toInt32 ((4294967295 + 2 : Nat) : Int) = 1 := by decide
  obtain ⟨trace, l, hrun, hfinished, hstarts, happs, hwrite⟩ := run_of_size_one hsize
  refine ⟨parseTopologyGraph_pairConfig, create_flowSim _, _, _, create_flowScheduler rfl (by decide), hlength,
    creationSucceeds_earlyFlows _, trace, l, hrun, hfinished, hstarts, hwrite, ?_⟩
  intro horder
  have hcomplete := horder.complete hfinished
  rw [happs, hlength] at hcomplete
  exact absurd hcomplete (by decide)

end BasicSim
