import BasicSim.Apps.Correctness.Scheduler

/-!
# `Apps.Correctness.BurstServers` — where incoming bursts are registered

A burst is registered at the server of its node, and the scheduler remembers the two together. The loops that
do so are given in closed form, so that a result row finds its counter.

## Contents
- **Registration.** `burstsTo`, `serverOf`, `incomingOf`, and the loops `foldl_registerBurst` and
  `foldl_installBurstServer`.
- **Creation.** `createUdpBurstScheduler_registers`.
- **Counting.** `AfterPackets`, a server after any packets.
- **Results.** `writeUdpBurstIncoming_ok`.
-/

namespace BasicSim

open Fallible

variable {complete : List UdpBurstInfo} {loggingIds : OrdSet Int}

/-! ## Registration -/

/-- The bursts to a node. -/
def burstsTo (complete : List UdpBurstInfo) (endpoint : Int) : List UdpBurstInfo :=
  complete.filter fun entry => entry.toNodeId = endpoint

/-- A server with the bursts to its node registered. -/
def serverOf (complete : List UdpBurstInfo) (loggingIds : OrdSet Int) (endpoint : Int) : UdpBurstServer :=
  (burstsTo complete endpoint).foldl
    (fun server entry => server.registerIncomingBurst entry.id (decide (entry.id ∈ loggingIds)))
    (UdpBurstServer.create endpoint)

/-- What the scheduler remembers about the servers on the endpoints, from the position `idx` on. -/
def incomingOf (complete : List UdpBurstInfo) (endpoints : List Int) (idx : Nat) : List (UdpBurstInfo × Nat) :=
  (endpoints.zipIdx idx).flatMap fun p => (burstsTo complete p.1).map fun entry => (entry, p.2)

theorem burstsTo_cons_of_eq {entry : UdpBurstInfo} {endpoint : Int} (h : entry.toNodeId = endpoint) :
    burstsTo (entry :: complete) endpoint = entry :: burstsTo complete endpoint :=
  List.filter_cons_of_pos (by simpa using h)

theorem burstsTo_cons_of_ne {entry : UdpBurstInfo} {endpoint : Int} (h : entry.toNodeId ≠ endpoint) :
    burstsTo (entry :: complete) endpoint = burstsTo complete endpoint :=
  List.filter_cons_of_neg (by simpa using h)

theorem mem_burstsTo {entry : UdpBurstInfo} {endpoint : Int} :
    entry ∈ burstsTo complete endpoint ↔ entry ∈ complete ∧ entry.toNodeId = endpoint := by
  simp [burstsTo]

/-- The registration loop of one server is the registration of the bursts to its node. -/
theorem foldl_registerBurst (endpoint : Int) (idx : Nat) (server : UdpBurstServer)
    (incoming : List (UdpBurstInfo × Nat)) :
    complete.foldl (registerBurst loggingIds endpoint idx) (server, incoming) =
      ((burstsTo complete endpoint).foldl
        (fun server entry => server.registerIncomingBurst entry.id (decide (entry.id ∈ loggingIds))) server,
        incoming ++ (burstsTo complete endpoint).map fun entry => (entry, idx)) := by
  induction complete generalizing server incoming with
  | nil => simp [burstsTo]
  | cons entry complete ih =>
      rw [List.foldl_cons, registerBurst]
      by_cases hto : entry.toNodeId = endpoint
      · rw [if_pos hto, ih, burstsTo_cons_of_eq hto]
        simp
      · rw [if_neg hto, ih, burstsTo_cons_of_ne hto]

/-- The loop over the endpoints. -/
theorem foldl_installBurstServer (endpoints : List Int) (servers : List UdpBurstServer)
    (incoming : List (UdpBurstInfo × Nat)) :
    endpoints.foldl (installBurstServer complete loggingIds) (servers, incoming) =
      (servers ++ endpoints.map (serverOf complete loggingIds),
        incoming ++ incomingOf complete endpoints servers.length) := by
  induction endpoints generalizing servers incoming with
  | nil => simp [incomingOf]
  | cons endpoint endpoints ih =>
      rw [List.foldl_cons, installBurstServer]
      dsimp only
      rw [foldl_registerBurst, ih]
      simp [serverOf, incomingOf]

/-- What a server knows after registrations. -/
theorem foldl_registerIncomingBurst (bursts : List UdpBurstInfo) (server : UdpBurstServer) :
    let server' := bursts.foldl
      (fun server entry => server.registerIncomingBurst entry.id (decide (entry.id ∈ loggingIds))) server
    server'.nodeId = server.nodeId ∧
      server'.incomingBursts = server.incomingBursts ++ bursts.map ScheduleEntry.id ∧
      ∀ id, id ∈ server'.incomingBurstsReceivedCounter.keys ↔
        id ∈ server.incomingBurstsReceivedCounter.keys ∨ id ∈ bursts.map ScheduleEntry.id := by
  induction bursts generalizing server with
  | nil => simp
  | cons entry bursts ih =>
      obtain ⟨hnode, hbursts, hkeys⟩ :=
        ih (server.registerIncomingBurst entry.id (decide (entry.id ∈ loggingIds)))
      refine ⟨hnode, ?_, ?_⟩
      · rw [List.foldl_cons, hbursts]
        simp [UdpBurstServer.registerIncomingBurst]
      · intro id
        rw [List.foldl_cons, hkeys, UdpBurstServer.registerIncomingBurst, OrdMap.mem_keys_insert,
          List.map_cons, List.mem_cons]
        tauto

@[simp] theorem serverOf_nodeId (endpoint : Int) :
    (serverOf complete loggingIds endpoint).nodeId = endpoint :=
  (foldl_registerIncomingBurst _ _).1

theorem serverOf_incomingBursts (endpoint : Int) :
    (serverOf complete loggingIds endpoint).incomingBursts
      = (burstsTo complete endpoint).map ScheduleEntry.id :=
  (foldl_registerIncomingBurst _ _).2.1.trans (List.nil_append _)

theorem mem_keys_serverOf {endpoint id : Int} :
    id ∈ (serverOf complete loggingIds endpoint).incomingBurstsReceivedCounter.keys
      ↔ id ∈ (burstsTo complete endpoint).map ScheduleEntry.id :=
  ((foldl_registerIncomingBurst _ _).2.2 id).trans (or_iff_right (OrdMap.not_mem_keys_empty id))

/-! ## Creation -/

/-- A scheduler that is enabled has registered the whole schedule at the endpoints of its system. -/
theorem createUdpBurstScheduler_registers {sim : BasicSimulation} {topology : TopologyPtop}
    {files : Str → File} {stod : Str → Except Exc (Double × Nat)} {s : UdpBurstScheduler}
    (h : createUdpBurstScheduler sim topology files stod = .ok s) :
    (s.enabled = false ∧ s.servers = [] ∧ s.responsibleForIncomingBursts = []) ∨
    s.enabled = true ∧ ∃ complete endpoints,
      readConfiguredSchedule sim files "udp_burst_schedule_filename" (fun filename file =>
        readUdpBurstSchedule stod filename file topology sim.simulationEndTimeNs) = .ok complete ∧
      serverNodes sim topology = .ok endpoints ∧ filterSchedule sim complete = .ok s.schedule ∧
      s.servers = endpoints.map (serverOf complete s.enableLoggingForIds) ∧
      s.responsibleForIncomingBursts = incomingOf complete endpoints 0 := by
  obtain ⟨enabled, -, h⟩ := bind_eq_ok.mp h
  split at h
  · cases h
    exact .inl ⟨rfl, rfl, rfl⟩
  · obtain ⟨complete, hread, h⟩ := bind_eq_ok.mp h
    obtain ⟨ids, -, h⟩ := bind_eq_ok.mp h
    obtain ⟨endpoints, hendpoints, h⟩ := bind_eq_ok.mp h
    obtain ⟨schedule, hfilter, h⟩ := bind_eq_ok.mp h
    rw [foldl_installBurstServer] at h
    cases h
    exact .inr ⟨rfl, complete, endpoints, hread, hendpoints, hfilter, rfl, rfl⟩

/-! ## Counting -/

/-- A server after it has received any packets. -/
def AfterPackets (server server' : UdpBurstServer) : Prop :=
  ∃ received : List Int, received.foldlM UdpBurstServer.countPacket server = .ok server'

/-- Packets register no bursts, and forget none. -/
theorem AfterPackets.keys {server server' : UdpBurstServer} (h : AfterPackets server server') :
    server'.incomingBurstsReceivedCounter.keys = server.incomingBurstsReceivedCounter.keys := by
  obtain ⟨received, h⟩ := h
  refine foldlM_inv (fun _ server' => server'.incomingBurstsReceivedCounter.keys
    = server.incomingBurstsReceivedCounter.keys) ?_ rfl h
  intro _ id server₁ server₂ hkeys hstep
  obtain ⟨_, -, hstep⟩ := bind_eq_ok.mp hstep
  obtain ⟨_, -, hstep⟩ := bind_eq_ok.mp hstep
  cases hstep
  exact (OrdMap.keys_modify _ _ _).trans hkeys

/-! ## Results -/

/-- Every incoming burst finds its counter. -/
theorem writeUdpBurstIncoming_ok {endpoints : List Int} {s : UdpBurstScheduler}
    (hservers : List.Forall₂ AfterPackets (endpoints.map (serverOf complete loggingIds)) s.servers)
    (hincoming : s.responsibleForIncomingBursts = incomingOf complete endpoints 0) (henabled : s.enabled = true) :
    ∃ rows, writeUdpBurstIncoming s = .ok rows ∧ rows.map Prod.fst =
      ((incomingOf complete endpoints 0).insertionSort fun a b => a.1.id ≤ b.1.id).map Prod.fst := by
  unfold writeUdpBurstIncoming
  rw [if_neg (by rw [henabled]; decide), hincoming]
  obtain ⟨rows, hrows, hall⟩ := mapM_total (f := udpBurstIncomingRow s.servers)
    (R := fun p row => row.1 = p.1) (l := (incomingOf complete endpoints 0).insertionSort
      fun a b => a.1.id ≤ b.1.id) fun p hp => by
    rw [List.mem_insertionSort] at hp
    obtain ⟨⟨endpoint, idx⟩, hmem, hp⟩ := List.mem_flatMap.mp hp
    obtain ⟨entry, hentry, rfl⟩ := List.mem_map.mp hp
    obtain ⟨hidx, hget⟩ := List.getElem?_eq_some_iff.mp (List.mem_zipIdx_iff_getElem?.mp hmem)
    have hlength := hservers.length_eq
    rw [List.length_map] at hlength
    have hidx' : idx < s.servers.length := by
      rw [← hlength]
      exact hidx
    -- the server is the one of the endpoint, after its packets
    have hafter := hservers.get (by rw [List.length_map]; exact hidx) hidx'
    rw [List.get_eq_getElem, List.get_eq_getElem, List.getElem_map, hget] at hafter
    have hkey : entry.id ∈ s.servers[idx].incomingBurstsReceivedCounter.keys := by
      rw [hafter.keys, mem_keys_serverOf]
      exact List.mem_map_of_mem hentry
    obtain ⟨count, hcount⟩ := Option.isSome_iff_exists.mp (OrdMap.find?_isSome.mpr hkey)
    have hrow : s.servers[idx].getReceivedCounterOf entry.id = .ok count := by
      rw [UdpBurstServer.getReceivedCounterOf, mapAt, hcount]
    refine ⟨(entry, count), ?_, rfl⟩
    rw [udpBurstIncomingRow, List.getElem?_eq_getElem hidx']
    dsimp only
    rw [hrow, ok_bind]
  exact ⟨rows, hrows, (map_eq_map_of_forall₂ (fun _ _ h => h.symm) hall).symm⟩

end BasicSim
