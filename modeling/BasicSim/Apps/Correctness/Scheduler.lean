import BasicSim.Apps.Correctness.ScheduleReader
import BasicSim.Apps.Scheduler

/-!
# `Apps.Correctness.Scheduler` — every entry is started, on time and in order

The start of an entry schedules the start of the next. That a schedule is worked through is an instance of the
rule for timetables; what it needs is that the size of the schedule is an `int`.

## Contents
- **Schedules.** `Startable`, what a schedule promises a scheduler, also when it is filtered.
- **Clients.** `BelongsTo` of the three kinds.
- **Starting.** `scheduleNext_spec`, `startNext_timetable`, `startsInOrder_of_run`.
- **Results.** What is written when every entry was started.
-/

namespace BasicSim

open Fallible EventLoop

/-! ## Schedules -/

section Schedules

variable {Fields App : Type} {schedule schedule' : List (ScheduleEntry Fields)} {endTime : Int}
  {topology : TopologyPtop} {sim : BasicSimulation} {files : Str → File}

/-- What the start functions rely on. -/
structure Startable (endTime : Int) (schedule : List (ScheduleEntry Fields)) : Prop where
  ids : schedule.Pairwise fun e e' => e.id < e'.id
  ascending : schedule.Pairwise fun e e' => e.startTimeNs ≤ e'.startTimeNs
  start_nonneg : ∀ e ∈ schedule, 0 ≤ e.startTimeNs
  start_lt : ∀ e ∈ schedule, e.startTimeNs < endTime

theorem Accepted.ids_lt (h : Accepted topology endTime schedule) :
    schedule.Pairwise fun e e' => e.id < e'.id := by
  refine List.pairwise_iff_getElem.mpr ?_
  intro i j hi hj hij
  rw [h.id_eq i _ (List.getElem?_eq_getElem hi), h.id_eq j _ (List.getElem?_eq_getElem hj)]
  exact Int.ofNat_lt.mpr hij

theorem Accepted.startable (h : Accepted topology endTime schedule) : Startable endTime schedule :=
  ⟨h.ids_lt, h.ascending, h.start_nonneg, fun e he => (h.entry e he).start_lt⟩

theorem Startable.sublist (h : Startable endTime schedule) (hsub : schedule'.Sublist schedule) :
    Startable endTime schedule' :=
  ⟨h.ids.sublist hsub, h.ascending.sublist hsub, fun e he => h.start_nonneg e (hsub.subset he),
    fun e he => h.start_lt e (hsub.subset he)⟩

theorem startable_nil : Startable endTime ([] : List (ScheduleEntry Fields)) :=
  ⟨.nil, .nil, fun _ h => (nomatch h), fun _ h => (nomatch h)⟩

theorem filterSchedule_sublist (h : filterSchedule sim schedule = .ok schedule') :
    schedule'.Sublist schedule := by
  unfold filterSchedule at h
  split at h
  · obtain ⟨q, -, rfl⟩ := filterLoop_eq_ok h
    exact List.filter_sublist
  · cases h
    exact List.Sublist.refl _

/-- A schedule that was read by one of the readers is accepted. -/
theorem readConfiguredSchedule_accepted {key : String} {format : ScheduleFormat Fields}
    {simulationEndTimeNs : Int}
    (h : readConfiguredSchedule sim files key (fun filename file =>
      readSchedule format topology simulationEndTimeNs filename file) = .ok schedule) :
    Accepted topology simulationEndTimeNs schedule := by
  obtain ⟨name, -, h⟩ := bind_eq_ok.mp h
  obtain ⟨_, -, haccepted, -⟩ := readSchedule_accepted h
  exact haccepted

/-- What the creation of a scheduler leaves: nothing is started yet. -/
structure Created (endTime : Int) (s : Scheduler Fields App) : Prop where
  startable : Startable endTime s.schedule
  apps : s.apps = []
  enabled : s.enabled = false → s.schedule = []

theorem created_disabled : Created endTime (Scheduler.disabled sim : Scheduler Fields App) :=
  ⟨startable_nil, rfl, fun _ => rfl⟩

theorem createTcpFlowScheduler_created {s : TcpFlowScheduler} {servers : List Int}
    (h : createTcpFlowScheduler sim topology files = .ok (s, servers)) :
    Created sim.simulationEndTimeNs s := by
  obtain ⟨enabled, -, h⟩ := bind_eq_ok.mp h
  split at h
  · cases h
    exact created_disabled
  · obtain ⟨complete, hread, h⟩ := bind_eq_ok.mp h
    obtain ⟨ids, -, h⟩ := bind_eq_ok.mp h
    obtain ⟨schedule, hfilter, h⟩ := bind_eq_ok.mp h
    obtain ⟨_, -, h⟩ := bind_eq_ok.mp h
    cases h
    exact ⟨(readConfiguredSchedule_accepted hread).startable.sublist (filterSchedule_sublist hfilter), rfl,
      fun h => (nomatch h)⟩

theorem createUdpPingScheduler_created {s : UdpPingScheduler} {servers : List Int}
    (h : createUdpPingScheduler sim topology files = .ok (s, servers)) :
    Created sim.simulationEndTimeNs s := by
  obtain ⟨enabled, -, h⟩ := bind_eq_ok.mp h
  split at h
  · cases h
    exact created_disabled
  · obtain ⟨complete, hread, h⟩ := bind_eq_ok.mp h
    obtain ⟨schedule, hfilter, h⟩ := bind_eq_ok.mp h
    obtain ⟨_, -, h⟩ := bind_eq_ok.mp h
    cases h
    exact ⟨(readConfiguredSchedule_accepted hread).startable.sublist (filterSchedule_sublist hfilter), rfl,
      fun h => (nomatch h)⟩

theorem createUdpBurstScheduler_created {stod : Str → Except Exc (Double × Nat)} {s : UdpBurstScheduler}
    (h : createUdpBurstScheduler sim topology files stod = .ok s) :
    Created sim.simulationEndTimeNs s.toScheduler := by
  obtain ⟨enabled, -, h⟩ := bind_eq_ok.mp h
  split at h
  · cases h
    exact created_disabled
  · obtain ⟨complete, hread, h⟩ := bind_eq_ok.mp h
    obtain ⟨ids, -, h⟩ := bind_eq_ok.mp h
    obtain ⟨_, -, h⟩ := bind_eq_ok.mp h
    obtain ⟨schedule, hfilter, h⟩ := bind_eq_ok.mp h
    cases h
    exact ⟨(readConfiguredSchedule_accepted hread).startable.sublist (filterSchedule_sublist hfilter), rfl,
      fun h => (nomatch h)⟩

end Schedules

/-! ## Clients -/

section Clients

variable {World Event : Type}

/-- The client of a flow. -/
structure TcpFlowClient.BelongsTo (nodes : NodeContainer TcpFlowClient World Event)
    (settings : SchedulerSettings) (entry : TcpFlowScheduleEntry) (client : TcpFlowClient) : Prop where
  nodeId : client.nodeId = entry.fromNodeId
  localAddress : nodes.getAddress entry.fromNodeId = .ok client.localAddress.ipv4
  remoteAddress : nodes.getAddress entry.toNodeId = .ok client.remoteAddress.ipv4
  tcpFlowId : client.tcpFlowId = entry.id
  flowSizeByte : client.flowSizeByte = entry.fields.sizeByte
  additionalParameters : client.additionalParameters = entry.fields.additionalParameters
  logging : client.enableDetailedLoggingToFile = true ↔ entry.id ∈ settings.enableLoggingForIds

/-- The client of a ping. -/
structure UdpPingClient.BelongsTo (nodes : NodeContainer UdpPingClient World Event)
    (entry : UdpPingInfo) (client : UdpPingClient) : Prop where
  nodeId : client.nodeId = entry.fromNodeId
  localAddress : nodes.getAddress entry.fromNodeId = .ok client.localAddress.ipv4
  remoteAddress : nodes.getAddress entry.toNodeId = .ok client.remoteAddress.ipv4
  udpPingId : client.udpPingId = toUInt32 entry.id
  intervalNs : client.intervalNs = entry.fields.intervalNs
  durationNs : client.durationNs = entry.fields.durationNs
  waitAfterwardsNs : client.waitAfterwardsNs = entry.fields.waitAfterwardsNs
  additionalParameters : client.additionalParameters = entry.fields.additionalParameters

/-- The client of a burst. -/
structure UdpBurstClient.BelongsTo (nodes : NodeContainer UdpBurstClient World Event)
    (settings : SchedulerSettings) (entry : UdpBurstInfo) (client : UdpBurstClient) : Prop where
  nodeId : client.nodeId = entry.fromNodeId
  localAddress : nodes.getAddress entry.fromNodeId = .ok client.localAddress.ipv4
  remoteAddress : nodes.getAddress entry.toNodeId = .ok client.remoteAddress.ipv4
  udpBurstId : client.udpBurstId = toUInt32 entry.id
  targetRate : client.targetRateMegabitPerSec = entry.fields.targetRateMegabitPerS
  durationNs : client.durationNs = entry.fields.durationNs
  additionalParameters : client.additionalParameters = entry.fields.additionalParameters
  logging : client.enableDetailedLoggingToFile = true ↔ entry.id ∈ settings.enableLoggingForIds

variable {settings : SchedulerSettings} {world world' : World} {events : List (Int × Event)}

theorem createTcpFlowClient_belongs {nodes : NodeContainer TcpFlowClient World Event}
    {serverPorts : OrdSet Nat} {selectRemotePort : TcpFlowClient → World → Nat × World}
    {entry : TcpFlowScheduleEntry} {client : TcpFlowClient}
    (h : createTcpFlowClient nodes serverPorts selectRemotePort settings entry world
      = .ok (client, world', events)) : client.BelongsTo nodes settings entry := by
  obtain ⟨client', hclient, h⟩ := bind_eq_ok.mp h
  obtain ⟨_, -, h⟩ := bind_eq_ok.mp h
  obtain ⟨-, h⟩ := throwIf_bind_eq_ok.mp h
  cases h
  obtain ⟨_, hlocal, hclient⟩ := bind_eq_ok.mp hclient
  obtain ⟨_, hremote, hclient⟩ := bind_eq_ok.mp hclient
  obtain ⟨-, hclient⟩ := throwIf_bind_eq_ok.mp hclient
  cases hclient
  exact ⟨rfl, hlocal, hremote, rfl, rfl, rfl, decide_eq_true_iff⟩

theorem createUdpPingClient_belongs {nodes : NodeContainer UdpPingClient World Event}
    {entry : UdpPingInfo} {client : UdpPingClient}
    (h : createUdpPingClient nodes settings entry world = .ok (client, world', events)) :
    client.BelongsTo nodes entry := by
  obtain ⟨client', hclient, h⟩ := bind_eq_ok.mp h
  obtain ⟨_, -, h⟩ := bind_eq_ok.mp h
  cases h
  obtain ⟨_, hlocal, hclient⟩ := bind_eq_ok.mp hclient
  obtain ⟨_, hremote, hclient⟩ := bind_eq_ok.mp hclient
  cases hclient
  exact ⟨rfl, hlocal, hremote, rfl, rfl, rfl, rfl, rfl⟩

theorem createUdpBurstClient_belongs {nodes : NodeContainer UdpBurstClient World Event}
    {entry : UdpBurstInfo} {app : UdpBurstInfo × UdpBurstClient}
    (h : createUdpBurstClient nodes settings entry world = .ok (app, world', events)) :
    app.1 = entry ∧ app.2.BelongsTo nodes settings entry := by
  obtain ⟨client', hclient, h⟩ := bind_eq_ok.mp h
  obtain ⟨_, -, h⟩ := bind_eq_ok.mp h
  cases h
  obtain ⟨_, hlocal, hclient⟩ := bind_eq_ok.mp hclient
  obtain ⟨_, hremote, hclient⟩ := bind_eq_ok.mp hclient
  obtain ⟨-, hclient⟩ := throwIf_bind_eq_ok.mp hclient
  cases hclient
  exact ⟨rfl, rfl, hlocal, hremote, rfl, rfl, rfl, rfl, decide_eq_true_iff⟩

/-- Only a client whose rate is a number is created. -/
theorem createUdpBurstClient_passesChecker {nodes : NodeContainer UdpBurstClient World Event}
    {entry : UdpBurstInfo} {app : UdpBurstInfo × UdpBurstClient}
    (h : createUdpBurstClient nodes settings entry world = .ok (app, world', events)) :
    entry.fields.targetRateMegabitPerS.passesChecker = true := by
  obtain ⟨_, hclient, -⟩ := bind_eq_ok.mp h
  obtain ⟨_, -, hclient⟩ := bind_eq_ok.mp hclient
  obtain ⟨_, -, hclient⟩ := bind_eq_ok.mp hclient
  exact Bool.not_eq_false _ ▸ (throwIf_bind_eq_ok.mp hclient).1

end Clients

/-! ## Starting -/

section Start

variable {Fields App World Event : Type} {schedule : List (ScheduleEntry Fields)} {endTime : Int}

/-- The timetable of a schedule: the start times, each with the index of its entry. -/
def startTimes (schedule : List (ScheduleEntry Fields)) : List (Int × Int) :=
  schedule.zipIdx.map fun p => (p.1.startTimeNs, (p.2 : Int))

/-- The start time of the entry `k`. -/
def startTime (schedule : List (ScheduleEntry Fields)) (k : Nat) : Int :=
  (schedule[k]?.map ScheduleEntry.startTimeNs).getD 0

theorem startTime_of_lt {k : Nat} (hk : k < schedule.length) :
    startTime schedule k = schedule[k].startTimeNs := by
  rw [startTime, List.getElem?_eq_getElem hk]
  rfl

theorem take_startTimes {k : Nat} (hk : k ≤ schedule.length) :
    (startTimes schedule).take k = (List.range k).map fun i => (startTime schedule i, (i : Int)) := by
  refine List.ext_getElem (by simp [startTimes, hk]) ?_
  intro i hi hi'
  have hik : i < k := by simpa using hi'
  simp [startTimes, startTime_of_lt (Nat.lt_of_lt_of_le hik hk)]

theorem Startable.startTime_lt (h : Startable endTime schedule) {k : Nat} (hk : k < schedule.length) :
    startTime schedule k < endTime := by
  rw [startTime_of_lt hk]
  exact h.start_lt _ (List.getElem_mem hk)

theorem Startable.startTime_mono (h : Startable endTime schedule) {k : Nat} (hk : k + 1 < schedule.length) :
    startTime schedule k ≤ startTime schedule (k + 1) := by
  rw [startTime_of_lt (by omega), startTime_of_lt hk]
  exact List.pairwise_iff_getElem.mp h.ascending k (k + 1) (by omega) hk (Nat.lt_succ_self k)

/-- The next start is scheduled exactly if there is a next entry, for exactly its start time. -/
theorem scheduleNext_spec (h : Startable endTime schedule) (hend : InInt64 endTime)
    (hlen : schedule.length < 2 ^ 31) {k : Nat} (hk : k < schedule.length) :
    scheduleNext schedule k (startTime schedule k) =
      .ok (if k + 1 < schedule.length then
        [(startTime schedule (k + 1) - startTime schedule k, ((k + 1 : Nat) : Int))] else []) := by
  unfold scheduleNext
  rw [int32_of_mem ⟨by omega, by omega⟩, ok_bind, toInt32_of_mem ⟨by omega, by omega⟩]
  by_cases hlt : k + 1 < schedule.length
  · have hat : vectorAt schedule ((k : Int) + 1) = .ok schedule[k + 1] :=
      vectorAt_eq_ok.mpr ⟨by omega, by rw [show ((k : Int) + 1).toNat = k + 1 by omega];
                                       exact List.getElem?_eq_getElem hlt⟩
    have hnonneg := h.start_nonneg _ (List.getElem_mem hk)
    have hmono := h.startTime_mono hlt
    have hlt' := h.startTime_lt hlt
    have hend' := hend.2
    rw [← startTime_of_lt hk] at hnonneg
    rw [if_pos (by omega), if_pos hlt, hat, ok_bind, ← startTime_of_lt hlt,
      int64_of_mem ⟨by omega, by omega⟩, ok_bind]
    rfl
  · rw [if_neg (by omega), if_neg hlt]

/-- ns-3 creates a client for every entry, and does not schedule anything in the past. -/
def CreationSucceeds
    (createApp : SchedulerSettings → ScheduleEntry Fields → World →
      Except Exc (App × World × List (Int × Event)))
    (s : Scheduler Fields App) : Prop :=
  ∀ entry ∈ s.schedule, ∀ world, ∃ app world' events,
    createApp s.toSchedulerSettings entry world = .ok (app, world', events) ∧ ∀ e ∈ events, 0 ≤ e.1

/-- The invariant of starting: the first `k` entries have their applications, in order. -/
structure Started (Belongs : SchedulerSettings → ScheduleEntry Fields → App → Prop)
    (s₀ : Scheduler Fields App) (k : Nat) (s : Scheduler Fields App) : Prop where
  settings : s.toSchedulerSettings = s₀.toSchedulerSettings
  schedule : s.schedule = s₀.schedule
  apps : List.Forall₂ (Belongs s₀.toSchedulerSettings) (s₀.schedule.take k) s.apps

/-- A scheduler and its start function, within a simulation that does anything else. -/
abbrev startProcess
    (start : Int → Int → Scheduler Fields App → World →
      Except Exc ((Scheduler Fields App × List (Int × Int)) × (World × List (Int × Event))))
    (other : Event → Int → World → Except Exc (World × List (Int × Event))) :
    Process Exc (Scheduler Fields App) World Int Event := ⟨start, other⟩

variable {wrongTime : Exc}
  {createApp : SchedulerSettings → ScheduleEntry Fields → World →
    Except Exc (App × World × List (Int × Event))}
  {other : Event → Int → World → Except Exc (World × List (Int × Event))}
  {Belongs : SchedulerSettings → ScheduleEntry Fields → App → Prop} {s₀ : Scheduler Fields App}

/-- **Step lemma.** The start functions keep to the timetable of the schedule. -/
theorem startNext_timetable (h : Startable endTime s₀.schedule) (hend : InInt64 endTime)
    (hlen : s₀.schedule.length < 2 ^ 31) (hcreate : CreationSucceeds createApp s₀)
    (hbelongs : ∀ settings entry world app world' events,
      createApp settings entry world = .ok (app, world', events) → Belongs settings entry app) :
    Timetable (startProcess (startNext wrongTime createApp) other) (Started Belongs s₀)
      (fun k => (k : Int)) (startTime s₀.schedule) s₀.schedule.length where
  ascending := fun _ hk => h.startTime_mono hk
  executes := by
    intro k s world hk hs
    obtain ⟨app, world', events, happ, hevents⟩ := hcreate _ (List.getElem_mem hk) world
    have hat : vectorAt s.schedule k = .ok s₀.schedule[k] := by
      rw [hs.schedule]
      exact vectorAt_eq_ok.mpr ⟨Int.natCast_nonneg k, List.getElem?_eq_getElem hk⟩
    refine ⟨{ s with apps := s.apps ++ [app] }, world', events, ?_, ⟨hs.settings, hs.schedule, ?_⟩, hevents⟩
    · show startNext wrongTime createApp k (startTime s₀.schedule k) s world = _
      unfold startNext
      rw [hat, ok_bind, throwIf_of_not (not_not.mpr (startTime_of_lt hk)), ok_bind, hs.settings, happ, ok_bind]
      dsimp only
      rw [hs.schedule, scheduleNext_spec h hend hlen hk, ok_bind]
    · rw [List.take_succ_eq_append_getElem hk]
      exact forall₂_concat hs.apps (hbelongs _ _ _ _ _ _ happ)

/-- **What holds at every moment of a run.** The starts so far are the first of the schedule, in order and
    each at its time; each has its application; the next one, when it is pending, neither throws nor
    schedules with a negative delay; and in the end no entry is missing. -/
structure StartsInOrder (P : Process Exc (Scheduler Fields App) World Int Event)
    (Belongs : ScheduleEntry Fields → App → Prop) (schedule : List (ScheduleEntry Fields)) (endTime : Int)
    (trace : List (Int × (Int ⊕ Event))) (l : Loop (Scheduler Fields App × World) (Int ⊕ Event)) : Prop where
  starts : ownEvents trace = (startTimes schedule).take l.state.1.apps.length
  apps : List.Forall₂ Belongs (schedule.take l.state.1.apps.length) l.state.1.apps
  executes : ∀ t i, (t, .inl i) ∈ l.pending →
    ∃ state new, P.handler (.inl i) t l.state = .ok (state, new) ∧ ∀ p ∈ new, 0 ≤ p.1
  complete : Finished endTime l → l.state.1.apps.length = schedule.length

/-- A run of the simulation since the creation of the scheduler. -/
def ChainedRun (P : Process Exc (Scheduler Fields App) World Int Event) (endTime : Int)
    (s₀ : Scheduler Fields App) (trace : List (Int × (Int ⊕ Event)))
    (l : Loop (Scheduler Fields App × World) (Int ⊕ Event)) : Prop :=
  ∃ world pending, ownEvents pending = firstStart s₀ ∧
    Run P.handler endTime ⟨0, (s₀, world), pending⟩ trace l

variable {trace : List (Int × (Int ⊕ Event))} {l : Loop (Scheduler Fields App × World) (Int ⊕ Event)}

/-- **Run lemma.** Every run starts the entries in order, and the scheduler keeps its settings and its
    schedule. -/
theorem startsInOrder_of_run (Belongs : SchedulerSettings → ScheduleEntry Fields → App → Prop)
    (hs₀ : Created endTime s₀) (hend : InInt64 endTime)
    (hlen : s₀.schedule.length < 2 ^ 31) (hcreate : CreationSucceeds createApp s₀)
    (hbelongs : ∀ settings entry world app world' events,
      createApp settings entry world = .ok (app, world', events) → Belongs settings entry app)
    (hrun : ChainedRun (startProcess (startNext wrongTime createApp) other) endTime s₀ trace l) :
    StartsInOrder (startProcess (startNext wrongTime createApp) other) (Belongs s₀.toSchedulerSettings)
        s₀.schedule endTime trace l ∧
      ∃ k, Started Belongs s₀ k l.state.1 := by
  obtain ⟨world, pending, hpending, hrun⟩ := hrun
  have htable : Timetable (startProcess (startNext wrongTime createApp) other) (Started Belongs s₀)
      (fun k => (k : Int)) (startTime s₀.schedule) s₀.schedule.length :=
    startNext_timetable hs₀.startable hend hlen hcreate hbelongs
  -- the constructor schedules the first entry, as the timetable says
  have hfirst : firstStart s₀ = due (fun k => (k : Int)) (startTime s₀.schedule) s₀.schedule.length 0 := by
    unfold firstStart due startTime
    cases s₀.schedule with
    | nil => rfl
    | cons e es => rfl
  obtain ⟨k, hk⟩ := htable.run (by rw [← hfirst]; exact hpending)
    ⟨rfl, rfl, by rw [hs₀.apps]; exact .nil⟩ hrun
  have hlength : l.state.1.apps.length = k := by
    rw [← hk.inv.apps.length_eq, List.length_take, min_eq_left hk.le]
  refine ⟨⟨?_, ?_, fun t i hmem => hk.executes htable hmem, ?_⟩, k, hk.inv⟩
  · rw [hlength, take_startTimes hk.le]
    exact hk.executed
  · rw [hlength]
    exact hk.inv.apps
  · intro hfinished
    rw [hlength]
    exact hk.complete hfinished fun i hi => hs₀.startable.startTime_lt hi

end Start

/-! ## Results -/

/-- When every flow has its application, the results pair them up in order. -/
theorem writeTcpFlowResults_eq {s : TcpFlowScheduler} (hlen : s.apps.length = s.schedule.length)
    (hlt : s.schedule.length < 2 ^ 31) (henabled : s.enabled = false → s.schedule = []) :
    writeTcpFlowResults s = .ok (s.schedule.zip s.apps) := by
  unfold writeTcpFlowResults
  split
  · next hdisabled => rw [henabled hdisabled, List.zip_nil_left]
  · obtain ⟨st, hrun, hrows, -⟩ := foldlM_total (f := tcpFlowRow s.apps)
      (fun done st => st.1 = (s.schedule.zip s.apps).take done.length ∧ st.2 = done.length)
      (l := s.schedule) (s := ([], 0)) (fun done entry todo st hl hst => by
        have hdone : done.length < s.schedule.length := by rw [hl]; simp
        have hentry : s.schedule[done.length] = entry := by simp [hl]
        have hat : vectorAt s.apps st.2 = .ok s.apps[done.length] :=
          vectorAt_eq_ok.mpr ⟨by omega, by rw [hst.2]; exact List.getElem?_eq_getElem (by omega)⟩
        refine ⟨_, by rw [tcpFlowRow, hat]; rfl, ?_, ?_⟩
        · rw [List.length_append, List.length_singleton,
            List.take_succ_eq_append_getElem (by rw [List.length_zip]; omega), List.getElem_zip, hentry,
            hst.1]
        · show (st.2 + 1) % 2 ^ 32 = _
          rw [hst.2, List.length_append, List.length_singleton]
          omega)
      ⟨rfl, rfl⟩
    rw [hrun, ok_bind, hrows, List.take_of_length_le (by rw [List.length_zip]; omega)]

/-- The time stamps of a client always have the lines of its pings. -/
theorem udpPingLine_ok (info : UdpPingInfo) (t : UdpPingTimestamps) {j : Nat} (hj : j < t.sent) :
    ∃ line, udpPingLine info t j = .ok line := by
  have hsent : t.sent ≤ t.sendRequestTimestamps.length := t.sent_eq ▸ Nat.mod_le _ _
  obtain ⟨a, ha⟩ := vectorAt_of_lt (v := t.replyTimestamps) (Int.natCast_nonneg j)
    (by rw [t.length_reply]; omega)
  obtain ⟨b, hb⟩ := vectorAt_of_lt (v := t.sendRequestTimestamps) (Int.natCast_nonneg j) (by omega)
  obtain ⟨c, hc⟩ := vectorAt_of_lt (v := t.receiveReplyTimestamps) (Int.natCast_nonneg j)
    (by rw [t.length_receiveReply]; omega)
  exact ⟨_, by rw [udpPingLine, ha, ok_bind, hb, ok_bind, hc, ok_bind]⟩

/-- When every ping has its client, the results have them in order, each with one line for every ping that
    it sent. -/
theorem writeUdpPingResults_ok (timestamps : UdpPingClient → UdpPingTimestamps) {s : UdpPingScheduler}
    (hlen : s.apps.length = s.schedule.length) (hlt : s.schedule.length < 2 ^ 31)
    (henabled : s.enabled = false → s.schedule = []) :
    ∃ rows, writeUdpPingResults timestamps s = .ok rows ∧
      rows.map (fun row => (row.1, row.2.1)) = s.schedule.zip s.apps ∧
      ∀ row ∈ rows, row.2.2.length = (timestamps row.2.1).sent := by
  unfold writeUdpPingResults
  split
  · next hdisabled =>
      exact ⟨[], rfl, by rw [henabled hdisabled, List.zip_nil_left]; rfl, List.forall_mem_nil _⟩
  · rw [show (min (s.apps.length : Int) (2 ^ 32)) = s.apps.length by omega,
      throwIf_of_not (show ¬ 2 ^ 32 ≤ s.apps.length by omega)]
    -- one row for each application, from the schedule entry with the same index
    obtain ⟨rows, hrows, hall⟩ := mapM_total (f := udpPingRow timestamps s) (l := upTo s.apps.length)
      (R := fun i row => (s.schedule.zip s.apps)[i.toNat]? = some (row.1, row.2.1) ∧
        row.2.2.length = (timestamps row.2.1).sent) fun i hi => by
      obtain ⟨h0, hi⟩ := mem_upTo.mp hi
      have hinfo : vectorAt s.schedule i = .ok s.schedule[i.toNat] :=
        vectorAt_eq_ok.mpr ⟨h0, List.getElem?_eq_getElem (by omega)⟩
      have hclient : vectorAt s.apps i = .ok s.apps[i.toNat] :=
        vectorAt_eq_ok.mpr ⟨h0, List.getElem?_eq_getElem (by omega)⟩
      -- and in it one line for each request sent
      obtain ⟨lines, hlines, hlength⟩ := mapM_total (R := fun _ _ => True)
        (f := udpPingLine s.schedule[i.toNat] (timestamps s.apps[i.toNat]))
        (l := List.range (timestamps s.apps[i.toNat]).sent) fun j hj => by
          obtain ⟨line, hline⟩ := udpPingLine_ok s.schedule[i.toNat] (timestamps s.apps[i.toNat])
            (List.mem_range.mp hj)
          exact ⟨line, hline, trivial⟩
      refine ⟨(s.schedule[i.toNat], s.apps[i.toNat], lines), ?_, ?_, ?_⟩
      · rw [udpPingRow, hinfo, ok_bind, hclient, ok_bind]
        dsimp only
        rw [hlines, ok_bind]
      · rw [List.getElem?_eq_getElem (by rw [List.length_zip]; omega), List.getElem_zip]
      · rw [← hlength.length_eq, List.length_range]
    rw [hrows, ok_bind, ok_bind]
    refine ⟨rows, rfl, ?_, ?_⟩
    · -- the rows are in the order of the indices
      have hlength := hall.length_eq
      rw [length_upTo] at hlength
      refine List.ext_getElem (by simp; omega) ?_
      intro i hi hi'
      have hi : i < rows.length := by simpa using hi
      have hrow := (hall.get (by rw [length_upTo]; omega) hi).1
      rw [List.get_eq_getElem, List.get_eq_getElem] at hrow
      simp only [upTo, List.getElem_map, List.getElem_range, Int.toNat_natCast] at hrow
      rw [List.getElem_map]
      exact (List.getElem?_eq_some_iff.mp hrow).2.symm
    · intro row hrow
      obtain ⟨_, _, hrow⟩ := exists_left_of_forall₂ hall hrow
      exact hrow.2

end BasicSim
