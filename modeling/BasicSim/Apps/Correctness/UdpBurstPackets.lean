import BasicSim.Apps.Correctness.UdpBurstPacing

/-!
# `Apps.Correctness.UdpBurstPackets` — burst packets are conserved end to end

The clients and servers of an accepted schedule exchange packets over a network that may lose, delay and
reorder them. A packet names its burst by the identifier of the client, which is a `uint32_t`. As long as the
bursts that send have identifiers below `2 ^ 32`, every packet finds the counter of its burst, and the counters
are the packets that were sent less those that are lost or in flight. The packets of a burst with a larger
identifier name another burst.

## Contents
- **A server.** `ServerCounts`, `handlePacket_counts`, `ServerCounts.counted`.
- **The start.** `burstsStart`, with the servers of the schedulers (`create_installs`).
- **The invariant.** `BurstInv`, with the step lemmas `BurstInv.send` and `BurstInv.receive`.
- **Main result.** `BurstsConserved`, `bursts_conserved`.
- **A burst that is out of range.** `burst_is_not_registered`.
-/

namespace BasicSim

open Fallible Datagrams

variable {Byte : Type} {it : BufferIterator Byte} {schedule : List UdpBurstInfo} {loggingIds : OrdSet Int}

/-! ## A server -/

/-- The two maps of a server have the same bursts. -/
def UdpBurstServer.Aligned (server : UdpBurstServer) : Prop :=
  server.incomingBurstsEnablePreciseLogging.keys = server.incomingBurstsReceivedCounter.keys

/-- A server that has not received anything. -/
structure UdpBurstServer.Fresh (server : UdpBurstServer) : Prop where
  aligned : server.Aligned
  zero : ∀ id count, server.incomingBurstsReceivedCounter.find? id = some count → count = 0

theorem fresh_create (nodeId : Int) : (UdpBurstServer.create nodeId).Fresh :=
  ⟨rfl, fun _ _ h => nomatch h⟩

theorem UdpBurstServer.Fresh.register {server : UdpBurstServer} (h : server.Fresh) (id : Int)
    (precise : Bool) : (server.registerIncomingBurst id precise).Fresh := by
  constructor
  · show OrdMap.keys (OrdMap.insert _ _ _) = OrdMap.keys (OrdMap.insert _ _ _)
    rw [OrdMap.keys_insert, OrdMap.keys_insert, h.aligned]
  · intro id' count hfind
    rw [UdpBurstServer.registerIncomingBurst, OrdMap.find?_insert] at hfind
    split at hfind
    · cases hget : server.incomingBurstsReceivedCounter.find? id with
      | none =>
          rw [hget] at hfind
          exact (Option.some.inj hfind).symm
      | some old =>
          rw [hget] at hfind
          exact h.zero id count (hget.trans hfind)
    · exact h.zero id' count hfind

theorem fresh_serverOf (nodeId : Int) : (serverOf schedule loggingIds nodeId).Fresh := by
  unfold serverOf
  generalize UdpBurstServer.create nodeId = server, fresh_create nodeId = hfresh
  induction burstsTo schedule nodeId generalizing server with
  | nil => exact hfresh
  | cons entry bursts ih => exact ih _ (hfresh.register entry.id _)

/-- The server of a node knows the bursts to it, and has counted what was delivered for them. -/
structure ServerCounts (schedule : List UdpBurstInfo) (delivered : List (BurstDatagram Byte)) (nodeId : Int)
    (server : UdpBurstServer) : Prop where
  aligned : server.Aligned
  counts : ∀ e ∈ burstsTo schedule nodeId, server.incomingBurstsReceivedCounter.find? e.id
    = some (delivered.countP (fun m => m.burst = e.id) % 2 ^ 64)

theorem serverCounts_serverOf (nodeId : Int) : ServerCounts schedule ([] : List (BurstDatagram Byte)) nodeId
    (serverOf schedule loggingIds nodeId) := by
  have hfresh : (serverOf schedule loggingIds nodeId).Fresh := fresh_serverOf nodeId
  refine ⟨hfresh.aligned, ?_⟩
  intro e he
  have hkey : e.id ∈ (serverOf schedule loggingIds nodeId).incomingBurstsReceivedCounter.keys :=
    mem_keys_serverOf.mpr (List.mem_map_of_mem he)
  obtain ⟨count, hcount⟩ := Option.isSome_iff_exists.mp (OrdMap.find?_isSome.mpr hkey)
  rw [hcount, hfresh.zero _ _ hcount]
  rfl

/-- A server that has counted one more packet of a burst. -/
def UdpBurstServer.counted (server : UdpBurstServer) (id : Int) : UdpBurstServer :=
  { server with
    incomingBurstsReceivedCounter :=
      server.incomingBurstsReceivedCounter.modify id fun count => (count + 1) % 2 ^ 64 }

theorem UdpBurstServer.Aligned.counted {server : UdpBurstServer} (h : server.Aligned) (id : Int) :
    (server.counted id).Aligned := by
  show server.incomingBurstsEnablePreciseLogging.keys = OrdMap.keys (OrdMap.modify _ _ _)
  rw [OrdMap.keys_modify]
  exact h

/-- A packet of a registered burst is counted. -/
theorem handlePacket_counts {server : UdpBurstServer} (h : server.Aligned) {header : UdpBurstHeader}
    {count : Nat} (hcount : server.incomingBurstsReceivedCounter.find? header.id.toInt = some count)
    (nowNs : Int) : ∃ line, server.handlePacket header nowNs = .ok (server.counted header.id.toInt, line) := by
  have hkey : header.id.toInt ∈ server.incomingBurstsEnablePreciseLogging.keys := by
    rw [h]
    exact OrdMap.find?_isSome.mp (by rw [hcount]; rfl)
  obtain ⟨precise, hprecise⟩ := Option.isSome_iff_exists.mp (OrdMap.find?_isSome.mpr hkey)
  have hcounter : mapAt server.incomingBurstsReceivedCounter header.id.toInt = .ok count := by
    rw [mapAt, hcount]
  have hlogging : mapAt server.incomingBurstsEnablePreciseLogging header.id.toInt = .ok precise := by
    rw [mapAt, hprecise]
  have hrun : server.countPacket header.id.toInt = .ok (server.counted header.id.toInt) := by
    rw [UdpBurstServer.countPacket, hcounter, ok_bind, hlogging, ok_bind]
    rfl
  refine ⟨if precise = true then some ⟨header.id, header.seq, nowNs⟩ else none, ?_⟩
  rw [UdpBurstServer.handlePacket, hrun, ok_bind]
  show (mapAt server.incomingBurstsEnablePreciseLogging header.id.toInt >>= fun precise => _) = _
  rw [hlogging, ok_bind]

section Delivered

variable {delivered : List (BurstDatagram Byte)} {nodeId : Int} {server : UdpBurstServer} {m : BurstDatagram Byte}

theorem countP_concat (id : Int) : (delivered ++ [m]).countP (fun m' => m'.burst = id) =
    delivered.countP (fun m' => m'.burst = id) + if m.burst = id then 1 else 0 := by
  rw [List.countP_append, List.countP_singleton]
  simp only [decide_eq_true_eq]

/-- The server that counts a packet keeps up with what was delivered. -/
theorem ServerCounts.counted (h : ServerCounts schedule delivered nodeId server) :
    ServerCounts schedule (delivered ++ [m]) nodeId (server.counted m.burst) := by
  refine ⟨h.aligned.counted m.burst, ?_⟩
  intro e he
  rw [UdpBurstServer.counted, OrdMap.find?_modify, h.counts e he, countP_concat]
  by_cases hid : e.id = m.burst
  · rw [if_pos hid, if_pos hid.symm, Option.map_some]
    congr 1
    omega
  · rw [if_neg hid, if_neg fun h => hid h.symm, Nat.add_zero]

/-- The others are not concerned. -/
theorem ServerCounts.other (h : ServerCounts schedule delivered nodeId server)
    (hne : ∀ e ∈ burstsTo schedule nodeId, m.burst ≠ e.id) :
    ServerCounts schedule (delivered ++ [m]) nodeId server := by
  refine ⟨h.aligned, ?_⟩
  intro e he
  rw [h.counts e he, countP_concat, if_neg (hne e he), Nat.add_zero]

end Delivered

/-! ## The start -/

/-- Every endpoint has a server with the bursts to it. -/
def installedServers (topology : TopologyPtop) (schedule : List UdpBurstInfo) (loggingIds : OrdSet Int)
    (nodeId : Int) : Option UdpBurstServer :=
  if nodeId ∈ topology.getEndpoints then some (serverOf schedule loggingIds nodeId) else none

/-- Nothing was sent yet. -/
def burstsStart (topology : TopologyPtop) (schedule : List UdpBurstInfo) (loggingIds : OrdSet Int) :
    System BurstApplications (BurstDatagram Byte) where
  now := 0
  state := ⟨fun _ => .initial, installedServers topology schedule loggingIds⟩
  net := .empty

/-- These are the servers that the schedulers of this schedule install, each for the endpoints of its own system. -/
def InstalledBySchedulers (topology : TopologyPtop) (stod : Str → Except Exc (Double × Nat))
    (schedule : List UdpBurstInfo) (loggingIds : OrdSet Int) : Prop :=
  ∀ (sim : BasicSimulation) (files : Str → File) (s : UdpBurstScheduler),
    createUdpBurstScheduler sim topology files stod = .ok s → s.enabled = true →
    readConfiguredSchedule sim files "udp_burst_schedule_filename" (fun filename file =>
      readUdpBurstSchedule stod filename file topology sim.simulationEndTimeNs) = .ok schedule →
    s.enableLoggingForIds = loggingIds →
    (∀ server ∈ s.servers, installedServers topology schedule loggingIds server.nodeId = some server) ∧
      ∀ nodeId ∈ topology.getEndpoints, sim.isResponsibleFor nodeId = .ok true →
        ∃ server ∈ s.servers, server.nodeId = nodeId

theorem create_installs (topology : TopologyPtop) (stod : Str → Except Exc (Double × Nat))
    (schedule : List UdpBurstInfo) (loggingIds : OrdSet Int) :
    InstalledBySchedulers topology stod schedule loggingIds := by
  rintro sim files s h henabled hschedule rfl
  rcases createUdpBurstScheduler_registers h with ⟨hdisabled, -⟩ | ⟨-, complete, endpoints, hread, hnodes, -,
    hservers, -⟩
  · rw [henabled] at hdisabled
    cases hdisabled
  · obtain rfl : complete = schedule := Except.ok.inj (hread.symm.trans hschedule)
    obtain ⟨q, hq, hkept⟩ := filterLoop_eq_ok hnodes
    constructor
    · intro server hserver
      rw [hservers] at hserver
      obtain ⟨nodeId, hmem, rfl⟩ := List.mem_map.mp hserver
      have hnode : nodeId ∈ topology.getEndpoints := by
        rw [hkept] at hmem
        exact List.mem_of_mem_filter hmem
      rw [serverOf_nodeId, installedServers, if_pos hnode]
    · intro nodeId hnode hresp
      refine ⟨serverOf complete s.enableLoggingForIds nodeId, ?_, serverOf_nodeId nodeId⟩
      rw [hservers]
      refine List.mem_map_of_mem ?_
      rw [hkept]
      exact List.mem_filter.mpr ⟨hnode, Except.ok.inj ((hq nodeId hnode).symm.trans hresp)⟩

/-! ## The invariant -/

/-- What holds of the entries of an accepted schedule, and of the clients that are created for them. -/
structure BurstSetting (topology : TopologyPtop) (schedule : List UdpBurstInfo)
    (clientOf : UdpBurstInfo → UdpBurstClient) : Prop where
  endpoint : ∀ e ∈ schedule, e.toNodeId ∈ topology.getEndpoints
  id_nonneg : ∀ e ∈ schedule, 0 ≤ e.id
  id_inj : ∀ e ∈ schedule, ∀ e' ∈ schedule, e.id = e'.id → e = e'
  clientId : ∀ e ∈ schedule, (clientOf e).udpBurstId = toUInt32 e.id

/-- How often the client of a burst sent. -/
def sentBy (acts : List {entry // entry ∈ schedule}) (id : Int) : Nat := acts.countP fun a => a.1.id = id

/-- The header of the packet `k` of a burst. -/
def burstHeaderAt (id : Int) (k : Nat) : UdpBurstHeader :=
  ⟨(toUInt32 id).setWidth 64, (BitVec.ofNat 32 k).setWidth 64⟩

/-- The header that a packet arrives with. -/
def headerOf (it : BufferIterator Byte) (m : BurstDatagram Byte) : UdpBurstHeader :=
  (UdpBurstHeader.deserialize it m.packet.headers).1

/-- **The invariant of a run.** -/
structure BurstInv (it : BufferIterator Byte) (topology : TopologyPtop) (schedule : List UdpBurstInfo)
    (acts : List {entry // entry ∈ schedule}) (c : System BurstApplications (BurstDatagram Byte)) :
    Prop where
  servers : ∀ nodeId ∈ topology.getEndpoints, ∃ server, c.state.servers nodeId = some server ∧
    ServerCounts schedule c.net.delivered nodeId server
  clients : ∀ id, (c.state.clients id).sent = BitVec.ofNat 32 (sentBy acts id)
  headers : ∀ id, (c.net.sent.filter fun m => m.burst = id).map (headerOf it)
    = (List.range (sentBy acts id)).map (burstHeaderAt id)
  origin : ∀ m ∈ c.net.sent, ∃ a ∈ acts, m.burst = a.1.id ∧ m.toNodeId = a.1.toNodeId
  conserved : c.net.Conserved

theorem burstInv_start (topology : TopologyPtop) :
    BurstInv it topology schedule [] (burstsStart topology schedule loggingIds) where
  servers nodeId hnode := ⟨_, if_pos hnode, serverCounts_serverOf nodeId⟩
  clients _ := rfl
  headers _ := rfl
  origin _ hm := nomatch hm
  conserved := Net.conserved_empty

section Steps

variable {topology : TopologyPtop} {clientOf : UdpBurstInfo → UdpBurstClient} {sizes : UdpBurstSizes}
  {acts : List {entry // entry ∈ schedule}} {c : System BurstApplications (BurstDatagram Byte)}

theorem sentBy_append_singleton (a : {entry // entry ∈ schedule}) (id : Int) :
    sentBy (acts ++ [a]) id = if a.1.id = id then sentBy acts id + 1 else sentBy acts id := by
  unfold sentBy
  rw [List.countP_append, List.countP_singleton]
  split <;> simp_all

/-- **Step lemma.** A client sends its next packet. -/
theorem BurstInv.send (hset : BurstSetting topology schedule clientOf) (h : BurstInv it topology schedule acts c)
    {a : {entry // entry ∈ schedule}} {now : Int} {apps : BurstApplications}
    {ms : List (BurstDatagram Byte)}
    (hact : (burstProtocol it schedule clientOf sizes).act a now c.state = .ok (apps, ms)) :
    BurstInv it topology schedule (acts ++ [a]) ⟨now, apps, c.net.send ms⟩ := by
  cases hact
  -- the header carries the number of packets the client has sent before
  have hheader : headerOf it ⟨a.1.id, a.1.toNodeId,
      ((clientOf a.1).sendPacket it sizes now (c.state.clients a.1.id)).1⟩
      = burstHeaderAt a.1.id (sentBy acts a.1.id) := by
    show (UdpBurstHeader.deserialize it (UdpBurstHeader.serialize it _ ++ [])).1 = _
    rw [UdpBurstHeader.deserialize_serialize]
    show (⟨(clientOf a.1).udpBurstId.setWidth 64, (c.state.clients a.1.id).sent.setWidth 64⟩
      : UdpBurstHeader) = _
    rw [hset.clientId a.1 a.2, h.clients]
    rfl
  refine ⟨h.servers, ?_, ?_, ?_, h.conserved.send _⟩
  · -- the counters of the clients
    intro id
    rw [sentBy_append_singleton]
    show (Function.update c.state.clients a.1.id _ id).sent = _
    by_cases hid : a.1.id = id
    · subst hid
      rw [Function.update_self, if_pos rfl]
      show (c.state.clients a.1.id).sent + 1 = _
      rw [h.clients]
      exact (BitVec.ofNat_add _ 1).symm
    · rw [Function.update_of_ne fun h => hid h.symm, if_neg hid, h.clients]
  · intro id
    rw [sentBy_append_singleton]
    show ((c.net.sent ++ [_]).filter _).map _ = _
    rw [List.filter_append, List.map_append, h.headers]
    by_cases hid : a.1.id = id
    · subst hid
      rw [if_pos rfl, List.range_succ, List.map_append, List.filter_cons_of_pos (by simp),
        List.filter_nil, List.map_singleton, List.map_singleton]
      exact congrArg (_ ++ [·]) hheader
    · rw [if_neg hid, List.filter_cons_of_neg (by simpa using hid), List.filter_nil, List.map_nil,
        List.append_nil]
  · intro m hm
    rcases List.mem_append.mp hm with hm | hm
    · obtain ⟨b, hb, heq⟩ := h.origin m hm
      exact ⟨b, List.mem_append_left _ hb, heq⟩
    · rw [List.mem_singleton.mp hm]
      exact ⟨a, by simp, rfl, rfl⟩

/-- A packet that was sent carries the identifier of its burst, if it fits. -/
theorem BurstInv.header_id (hset : BurstSetting topology schedule clientOf) (h : BurstInv it topology schedule acts c)
    (hids : ∀ a ∈ acts, a.1.id < 2 ^ 32) {m : BurstDatagram Byte} (hm : m ∈ c.net.sent) :
    (headerOf it m).id.toInt = m.burst ∧ ∃ e ∈ burstsTo schedule m.toNodeId, e.id = m.burst := by
  obtain ⟨a, ha, hburst, hnode⟩ := h.origin m hm
  have hmem : headerOf it m ∈ (c.net.sent.filter fun m' => m'.burst = m.burst).map (headerOf it) :=
    List.mem_map_of_mem (List.mem_filter.mpr ⟨hm, by simp⟩)
  rw [h.headers] at hmem
  obtain ⟨k, -, hk⟩ := List.mem_map.mp hmem
  refine ⟨?_, a.1, mem_burstsTo.mpr ⟨a.2, hnode.symm⟩, hburst.symm⟩
  have hnonneg := hset.id_nonneg a.1 a.2
  have hlt := hids a ha
  rw [← hburst] at hnonneg hlt
  have htoNat := toNat_toUInt32 hnonneg hlt
  rw [← hk]
  show ((toUInt32 m.burst).setWidth 64).toInt = m.burst
  rw [BitVec.toInt_eq_toNat_cond, BitVec.toNat_setWidth]
  omega

/-- A packet is received by the server of the node. -/
theorem burstProtocol_receive {nodeId nowNs : Int} {m : BurstDatagram Byte} {apps : BurstApplications}
    {server : UdpBurstServer} (h : apps.servers nodeId = some server) :
    (burstProtocol it schedule clientOf sizes).receive nodeId m nowNs apps =
      (server.handlePacket (headerOf it m) nowNs >>= fun p =>
        .ok (⟨apps.clients, Function.update apps.servers nodeId (some p.1)⟩, [])) := by
  unfold burstProtocol
  dsimp only
  rw [h]
  rfl

/-- **A packet in flight is counted where it arrives**, whatever the time is. -/
theorem BurstInv.counts (hset : BurstSetting topology schedule clientOf)
    (h : BurstInv it topology schedule acts c) (hids : ∀ a ∈ acts, a.1.id < 2 ^ 32) {m : BurstDatagram Byte}
    (hm : m ∈ c.net.inFlight) (sizes : UdpBurstSizes) (nowNs : Int) :
    ∃ server, c.state.servers m.toNodeId = some server ∧
      (burstProtocol it schedule clientOf sizes).receive m.toNodeId m nowNs c.state = .ok
        (⟨c.state.clients, Function.update c.state.servers m.toNodeId (some (server.counted m.burst))⟩, []) ∧
      ServerCounts schedule c.net.delivered m.toNodeId server := by
  obtain ⟨hid, e, he, heq⟩ := h.header_id hset hids (h.conserved.mem_sent (.inl hm))
  have hnode : m.toNodeId ∈ topology.getEndpoints := by
    rw [← (mem_burstsTo.mp he).2]
    exact hset.endpoint e (mem_burstsTo.mp he).1
  obtain ⟨server, hserver, hcounts⟩ := h.servers m.toNodeId hnode
  have hcount := hcounts.counts e he
  rw [heq, ← hid] at hcount
  obtain ⟨line, hrun⟩ := handlePacket_counts hcounts.aligned hcount nowNs
  refine ⟨server, hserver, ?_, hcounts⟩
  rw [burstProtocol_receive hserver, hrun, ok_bind, hid]

/-- **Step lemma.** A server receives a packet. -/
theorem BurstInv.receive (hset : BurstSetting topology schedule clientOf)
    (h : BurstInv it topology schedule acts c) (hids : ∀ a ∈ acts, a.1.id < 2 ^ 32)
    {before after : List (BurstDatagram Byte)} {m : BurstDatagram Byte}
    (hm : c.net.inFlight = before ++ m :: after) {now : Int} {apps : BurstApplications}
    {ms : List (BurstDatagram Byte)}
    (hreceive : (burstProtocol it schedule clientOf sizes).receive m.toNodeId m now c.state = .ok (apps, ms)) :
    BurstInv it topology schedule acts ⟨now, apps, (c.net.deliver before m after).send ms⟩ := by
  have hflight : m ∈ c.net.inFlight := by simp [hm]
  obtain ⟨-, e, he, heq⟩ := h.header_id hset hids (h.conserved.mem_sent (.inl hflight))
  obtain ⟨server, hserver, hresult, hcounts⟩ := h.counts hset hids hflight sizes now
  rw [hresult] at hreceive
  cases hreceive
  have hsent : ((c.net.deliver before m after).send []).sent = c.net.sent := List.append_nil _
  refine ⟨?_, h.clients, ?_, ?_, (h.conserved.deliver hm).send []⟩
  · intro nodeId hnode
    by_cases hto : nodeId = m.toNodeId
    · subst hto
      exact ⟨server.counted m.burst, Function.update_self .., hcounts.counted⟩
    · obtain ⟨other, hother, hothers⟩ := h.servers nodeId hnode
      refine ⟨other, (Function.update_of_ne hto ..).trans hother, hothers.other ?_⟩
      intro e' he' hid
      -- a burst to another node has another identifier
      have hsame := hset.id_inj e (mem_burstsTo.mp he).1 e' (mem_burstsTo.mp he').1 (heq.trans hid)
      exact hto ((mem_burstsTo.mp he').2.symm.trans (hsame ▸ (mem_burstsTo.mp he).2))
  · intro id
    rw [hsent]
    exact h.headers id
  · intro m' hm'
    rw [hsent] at hm'
    exact h.origin m' hm'

end Steps

/-- **Run lemma.** -/
theorem burstInv_run {topology : TopologyPtop} {clientOf : UdpBurstInfo → UdpBurstClient}
    {sizes : UdpBurstSizes} {acts : List {entry // entry ∈ schedule}}
    {c : System BurstApplications (BurstDatagram Byte)} (hset : BurstSetting topology schedule clientOf)
    (h : Run (burstProtocol it schedule clientOf sizes) (burstsStart topology schedule loggingIds) acts c)
    (hids : ∀ a ∈ acts, a.1.id < 2 ^ 32) : BurstInv it topology schedule acts c := by
  revert hids
  refine h.invariant (fun acts c => (∀ a ∈ acts, a.1.id < 2 ^ 32) → BurstInv it topology schedule acts c) ?_
    fun _ => burstInv_start topology
  intro acts c a c' ih hstep hids
  have hinv := ih fun b hb => hids b (List.mem_append_left _ hb)
  cases hstep with
  | act _ hacted => exact hinv.send hset hacted
  | lose hm =>
      rw [Option.toList_none, List.append_nil]
      exact ⟨hinv.servers, hinv.clients, hinv.headers, hinv.origin, hinv.conserved.lose hm⟩
  | deliver _ hm hreaches hreceived =>
      cases hreaches
      rw [Option.toList_none, List.append_nil]
      rw [Option.toList_none, List.append_nil] at hids
      exact hinv.receive hset hids hm hreceived

/-! ## Main result -/

/-- What `GetReceivedCounterOf` answers at the server of a node, if it has one. -/
def counterAt (apps : BurstApplications) (nodeId id : Int) : Option (Except Exc Nat) :=
  (apps.servers nodeId).map fun server => server.getReceivedCounterOf id

/-- **The packets of every burst are accounted for.** -/
structure BurstsConserved (it : BufferIterator Byte) (schedule : List UdpBurstInfo)
    (clientOf : UdpBurstInfo → UdpBurstClient) (sizes : UdpBurstSizes)
    (c : System BurstApplications (BurstDatagram Byte)) : Prop where
  /-- what was sent is counted, in flight, or lost -/
  counter : ∀ e ∈ schedule, ∃ count, counterAt c.state e.toNodeId e.id = some (.ok count) ∧
    count + c.net.inFlight.countP (fun m => m.burst = e.id) + c.net.lost.countP (fun m => m.burst = e.id)
      = (c.state.clients e.id).sent.toNat
  /-- the identifier in a packet is registered where the packet arrives -/
  registered : ∀ m ∈ c.net.inFlight, ∀ nodeId, (burstProtocol it schedule clientOf sizes).Reaches m nodeId →
    ∃ count, counterAt c.state nodeId (headerOf it m).id.toInt = some (.ok count)
  /-- it can be received, which changes the counter of no other burst -/
  received : ∀ m ∈ c.net.inFlight, ∀ nodeId, (burstProtocol it schedule clientOf sizes).Reaches m nodeId →
    ∀ nowNs, ∃ apps, (burstProtocol it schedule clientOf sizes).receive nodeId m nowNs c.state = .ok (apps, []) ∧
      ∀ e ∈ schedule, e.id ≠ m.burst → counterAt apps e.toNodeId e.id = counterAt c.state e.toNodeId e.id
  distinct : ∀ e ∈ schedule,
    ((c.net.delivered.filter fun m => m.burst = e.id).map fun m => (headerOf it m).seq).Nodup
  below : ∀ e ∈ schedule, ∀ m ∈ c.net.delivered, m.burst = e.id →
    (headerOf it m).seq < (c.state.clients e.id).sent.setWidth 64

section Conserved

variable {topology : TopologyPtop} {clientOf : UdpBurstInfo → UdpBurstClient} {sizes : UdpBurstSizes}
  {acts : List {entry // entry ∈ schedule}} {c : System BurstApplications (BurstDatagram Byte)}

/-- The sequence numbers of the packets of a burst that were sent. -/
theorem BurstInv.seqs (h : BurstInv it topology schedule acts c) (id : Int) :
    (c.net.sent.filter fun m => m.burst = id).map (fun m => (headerOf it m).seq)
      = (List.range (sentBy acts id)).map fun k => (BitVec.ofNat 32 k).setWidth 64 := by
  have hheaders := congrArg (List.map UdpBurstHeader.seq) (h.headers id)
  rw [List.map_map, List.map_map] at hheaders
  exact hheaders

theorem BurstInv.countP_sent (h : BurstInv it topology schedule acts c) (id : Int) :
    c.net.sent.countP (fun m => m.burst = id) = sentBy acts id := by
  have hlength := congrArg List.length (h.headers id)
  rw [List.length_map, List.length_map, List.length_range] at hlength
  rw [List.countP_eq_length_filter, hlength]

theorem BurstInv.sent_toNat (h : BurstInv it topology schedule acts c) {id : Int}
    (hfew : sentBy acts id < 2 ^ 32) : (c.state.clients id).sent.toNat = sentBy acts id := by
  rw [h.clients, BitVec.toNat_ofNat]
  omega

theorem BurstInv.counterAt (hset : BurstSetting topology schedule clientOf)
    (h : BurstInv it topology schedule acts c) {e : UdpBurstInfo} (he : e ∈ schedule) :
    counterAt c.state e.toNodeId e.id
      = some (.ok (c.net.delivered.countP (fun m => m.burst = e.id) % 2 ^ 64)) := by
  obtain ⟨server, hserver, hcounts⟩ := h.servers e.toNodeId (hset.endpoint e he)
  have hcount := hcounts.counts e (mem_burstsTo.mpr ⟨he, rfl⟩)
  rw [BasicSim.counterAt, hserver, Option.map_some, UdpBurstServer.getReceivedCounterOf, mapAt, hcount]

theorem BurstInv.burstsConserved (hset : BurstSetting topology schedule clientOf)
    (h : BurstInv it topology schedule acts c) (hids : ∀ a ∈ acts, a.1.id < 2 ^ 32)
    (hfew : ∀ e ∈ schedule, sentBy acts e.id < 2 ^ 32) : BurstsConserved it schedule clientOf sizes c where
  counter e he := by
    -- sent is delivered, lost or under way; the counter has the delivered
    have hsent := h.conserved.countP fun m => m.burst = e.id
    have hlt := hfew e he
    rw [h.countP_sent] at hsent
    refine ⟨_, h.counterAt hset he, ?_⟩
    rw [h.sent_toNat hlt]
    omega
  registered m hm nodeId hreaches := by
    cases hreaches
    -- the header names the burst that sent it, whose server has a counter for it
    obtain ⟨hid, e, he, heq⟩ := h.header_id hset hids (h.conserved.mem_sent (.inl hm))
    have hcounter := h.counterAt hset (mem_burstsTo.mp he).1
    rw [hid, ← heq, ← (mem_burstsTo.mp he).2]
    exact ⟨_, hcounter⟩
  received m hm nodeId hreaches nowNs := by
    cases hreaches
    obtain ⟨server, hserver, hresult, -⟩ := h.counts hset hids hm sizes nowNs
    refine ⟨_, hresult, ?_⟩
    intro e _ hne
    unfold BasicSim.counterAt
    dsimp only
    -- only one counter of the server that receives it changes
    by_cases hto : e.toNodeId = m.toNodeId
    · rw [hto, Function.update_self, hserver, Option.map_some, Option.map_some,
        UdpBurstServer.getReceivedCounterOf, UdpBurstServer.counted, mapAt, OrdMap.find?_modify, if_neg hne]
      rfl
    · rw [Function.update_of_ne hto]
  distinct e he := by
    refine h.conserved.nodup_delivered _ _ ?_
    rw [h.seqs]
    refine List.Nodup.map_on ?_ List.nodup_range
    -- two numbers below 2^32 that agree modulo 2^64 are equal
    intro k hk k' hk' heq
    have hlt := hfew e he
    rw [List.mem_range] at hk hk'
    have heq' := congrArg BitVec.toNat heq
    rw [BitVec.toNat_setWidth, BitVec.toNat_setWidth, BitVec.toNat_ofNat, BitVec.toNat_ofNat] at heq'
    omega
  below e he m hm hburst := by
    have hmem : (headerOf it m).seq ∈
        (c.net.sent.filter fun m => m.burst = e.id).map fun m => (headerOf it m).seq :=
      List.mem_map_of_mem (List.mem_filter.mpr ⟨h.conserved.mem_sent (.inr hm), by simpa using hburst⟩)
    rw [h.seqs] at hmem
    obtain ⟨k, hk, heq⟩ := List.mem_map.mp hmem
    have hlt := hfew e he
    rw [List.mem_range] at hk
    rw [← heq, BitVec.lt_def, BitVec.toNat_setWidth, BitVec.toNat_setWidth, BitVec.toNat_ofNat, h.sent_toNat hlt]
    omega

end Conserved

/-- The entries of an accepted schedule have different identifiers. -/
theorem burstSetting_of_read {stod : Str → Except Exc (Double × Nat)} {filename : Str} {file : File}
    {topology : TopologyPtop} {endTimeNs : Int}
    (hread : readUdpBurstSchedule stod filename file topology endTimeNs = .ok schedule)
    (hnames : EntriesNameEndpoints topology schedule) {World Event : Type}
    {nodes : NodeContainer UdpBurstClient World Event} {settings : SchedulerSettings}
    {clientOf : UdpBurstInfo → UdpBurstClient}
    (hclients : ∀ e ∈ schedule, (clientOf e).BelongsTo nodes settings e) :
    BurstSetting topology schedule clientOf := by
  obtain ⟨text, -, hacc, -⟩ := readSchedule_accepted hread
  refine ⟨fun e he => (hnames e he).2, ?_, ?_, fun e he => (hclients e he).udpBurstId⟩
  · intro e he
    obtain ⟨k, hk⟩ := List.mem_iff_getElem?.mp he
    rw [hacc.id_eq k e hk]
    exact Int.natCast_nonneg k
  · intro e he e' he' heq
    obtain ⟨k, hk⟩ := List.mem_iff_getElem?.mp he
    obtain ⟨k', hk'⟩ := List.mem_iff_getElem?.mp he'
    rw [hacc.id_eq k e hk, hacc.id_eq k' e' hk', Nat.cast_inj] at heq
    subst heq
    exact Option.some.inj (hk.symm.trans hk')

/-- **The packets of every burst are accounted for as long as the bursts that send have identifiers below
    `2 ^ 32`**, and each of them sends fewer than `2 ^ 32` packets. The servers that receive them are those of the
    schedulers. -/
theorem bursts_conserved {Byte : Type} (it : BufferIterator Byte)
    {stod : Str → Except Exc (Double × Nat)} {filename : Str} {file : File} {topology : TopologyPtop}
    {endTimeNs : Int} {schedule : List UdpBurstInfo}
    (hread : readUdpBurstSchedule stod filename file topology endTimeNs = .ok schedule)
    (hnames : EntriesNameEndpoints topology schedule) {World Event : Type}
    {nodes : NodeContainer UdpBurstClient World Event} {settings : SchedulerSettings}
    {clientOf : UdpBurstInfo → UdpBurstClient}
    (hclients : ∀ e ∈ schedule, (clientOf e).BelongsTo nodes settings e) {sizes : UdpBurstSizes}
    {loggingIds : OrdSet Int} {acts : List {entry // entry ∈ schedule}}
    {c : System BurstApplications (BurstDatagram Byte)}
    (hrun : Run (burstProtocol it schedule clientOf sizes) (burstsStart topology schedule loggingIds) acts c)
    (hfew : ∀ e ∈ schedule, sentBy acts e.id < 2 ^ 32) (hids : ∀ a ∈ acts, a.1.id < 2 ^ 32) :
    InstalledBySchedulers topology stod schedule loggingIds ∧ BurstsConserved it schedule clientOf sizes c := by
  have hset := burstSetting_of_read hread hnames hclients
  exact ⟨create_installs topology stod schedule loggingIds,
    (burstInv_run hset hrun hids).burstsConserved hset hids hfew⟩

/-- The client that is created for a burst on nodes that let everything happen. -/
def quietBurstClient (e : UdpBurstInfo) : UdpBurstClient where
  nodeId := e.fromNodeId
  localAddress := ⟨0, 0⟩
  remoteAddress := ⟨0, 1025⟩
  udpBurstId := toUInt32 e.id
  targetRateMegabitPerSec := e.fields.targetRateMegabitPerS
  durationNs := e.fields.durationNs
  additionalParameters := e.fields.additionalParameters
  enableDetailedLoggingToFile := decide (e.id ∈ (∅ : OrdSet Int))
  baseLogsDir := []

theorem quietBurstClient_belongs (e : UdpBurstInfo) :
    (quietBurstClient e).BelongsTo (quietNodes UdpBurstClient) ⟨true, [], ∅⟩ e := by
  refine ⟨rfl, rfl, rfl, rfl, rfl, rfl, rfl, ?_⟩
  show decide (e.id ∈ (∅ : OrdSet Int)) = true ↔ e.id ∈ (∅ : OrdSet Int)
  exact decide_eq_true_iff

/-- A burst of one packet, which arrives. -/
theorem bursts_conserved_pairBurst : ∃ c,
    Run (burstProtocol networkOrder [pairBurst (.finite 10)] quietBurstClient .default)
      (burstsStart pairTopology [pairBurst (.finite 10)] ∅) [⟨pairBurst (.finite 10), List.mem_cons_self⟩] c ∧
    c.net.delivered.length = 1 ∧
    BurstsConserved networkOrder [pairBurst (.finite 10)] quietBurstClient .default c := by
  have hclients : ∀ e ∈ [pairBurst (.finite 10)],
      (quietBurstClient e).BelongsTo (quietNodes UdpBurstClient) ⟨true, [], ∅⟩ e :=
    fun e _ => quietBurstClient_belongs e
  have hnames : EntriesNameEndpoints pairTopology [pairBurst (.finite 10)] := by
    intro e he
    rw [List.mem_singleton.mp he]
    decide
  have hset := burstSetting_of_read read_tenMegabitBurst hnames hclients
  have hsent : Run (burstProtocol networkOrder [pairBurst (.finite 10)] quietBurstClient .default)
      (burstsStart pairTopology [pairBurst (.finite 10)] ∅)
      ([] ++ [⟨pairBurst (.finite 10), List.mem_cons_self⟩]) _ :=
    .step .start (.act (le_refl 0) rfl)
  have hids : ∀ a ∈ [(⟨pairBurst (.finite 10), List.mem_cons_self⟩ : {entry // entry ∈ [pairBurst (.finite 10)]})],
      a.1.id < 2 ^ 32 := by
    intro a ha
    rw [List.mem_singleton.mp ha]
    decide
  obtain ⟨_, -, hreceived, -⟩ := (burstInv_run hset hsent hids).counts hset hids
    List.mem_cons_self .default 0
  have hrun := hsent.step (.deliver (le_refl 0) (List.nil_append _).symm rfl hreceived)
  refine ⟨_, hrun, rfl, (bursts_conserved networkOrder read_tenMegabitBurst hnames hclients hrun ?_ hids).2⟩
  intro e he
  rw [List.mem_singleton.mp he]
  decide

/-! ## A burst that is out of range -/

/-- A burst at time 0 between nodes of `pairTopology`. -/
def burstBetween (k : Nat) (fromNodeId toNodeId : Int) : UdpBurstInfo :=
  ⟨k, fromNodeId, toNodeId, 0, ⟨.finite 10, 1000, [], []⟩⟩

/-- `n` bursts from node 0 to node 1, and one back. -/
def burstsAndBack (n : Nat) : List UdpBurstInfo :=
  ((List.range n).map fun k => burstBetween k 0 1) ++ [burstBetween n 1 0]

/-- The second of two systems, with node 1. -/
def burstSystem : BasicSimulation := ⟨"run".toList, ∅, 1000, true, [0, 1], 1, 2⟩

theorem mem_burstsAndBack {n : Nat} {e : UdpBurstInfo} :
    e ∈ burstsAndBack n ↔ (∃ k < n, e = burstBetween k 0 1) ∨ e = burstBetween n 1 0 := by
  simp [burstsAndBack, eq_comm]

theorem id_burstsAndBack {n k : Nat} {e : UdpBurstInfo} (h : (burstsAndBack n)[k]? = some e) : e.id = k := by
  unfold burstsAndBack at h
  rcases Nat.lt_trichotomy k n with hk | hk | hk
  · rw [List.getElem?_append_left (by simpa using hk), List.getElem?_map, List.getElem?_range hk] at h
    cases h
    rfl
  · rw [List.getElem?_append_right (by simp [hk]), List.length_map, List.length_range, hk, Nat.sub_self] at h
    cases h
    exact congrArg Nat.cast hk.symm
  · rw [List.getElem?_eq_none (by simp; omega)] at h
    cases h

theorem endpoints_burstsAndBack {n : Nat} {e : UdpBurstInfo} (he : e ∈ burstsAndBack n) :
    e.fromNodeId = 0 ∧ e.toNodeId = 1 ∨ e.fromNodeId = 1 ∧ e.toNodeId = 0 := by
  rcases mem_burstsAndBack.mp he with ⟨k, -, rfl⟩ | rfl
  · exact .inl ⟨rfl, rfl⟩
  · exact .inr ⟨rfl, rfl⟩

theorem start_burstsAndBack {n : Nat} {e : UdpBurstInfo} (he : e ∈ burstsAndBack n) : e.startTimeNs = 0 := by
  rcases mem_burstsAndBack.mp he with ⟨k, -, rfl⟩ | rfl <;> rfl

theorem namesEndpoints_burstsAndBack (n : Nat) : EntriesNameEndpoints pairTopology (burstsAndBack n) := by
  intro e he
  rcases endpoints_burstsAndBack he with ⟨hfrom, hto⟩ | ⟨hfrom, hto⟩ <;> rw [hfrom, hto] <;> decide

theorem conforming_burstsAndBack (n : Nat) : Conforming pairTopology 1 (burstsAndBack n) where
  id_eq _ _ := id_burstsAndBack
  ascending := List.pairwise_of_forall_mem_list fun e he e' he' => by
    rw [start_burstsAndBack he, start_burstsAndBack he']
  start_lt e he := by rw [start_burstsAndBack he]; decide
  ne e he := by
    rcases endpoints_burstsAndBack he with ⟨hfrom, hto⟩ | ⟨hfrom, hto⟩ <;> rw [hfrom, hto] <;> decide
  from_valid e he := by
    rcases endpoints_burstsAndBack he with ⟨hfrom, -⟩ | ⟨hfrom, -⟩ <;> rw [hfrom] <;> decide
  to_valid e he := by
    rcases endpoints_burstsAndBack he with ⟨-, hto⟩ | ⟨-, hto⟩ <;> rw [hto] <;> decide

theorem writable_burstBetween {k : Nat} {fromNodeId toNodeId : Int} (hk : k < 2 ^ 63)
    (hfrom : IsPositiveInt64 fromNodeId) (hto : IsPositiveInt64 toNodeId) :
    WritableUdpBurst wordStod (fun _ => "10".toList) (burstBetween k fromNodeId toNodeId) where
  id := ⟨Int.natCast_nonneg k, show (k : Int) < 2 ^ 63 by exact_mod_cast hk⟩
  fromNodeId := hfrom
  toNodeId := hto
  startTimeNs := show IsPositiveInt64 0 by decide
  rateText := by decide
  rate := show parsePositiveDouble wordStod "10".toList = .ok (.finite 10) by decide
  rate_ne := show Double.finite 10 ≠ .finite 0 by decide
  durationNs := show IsPositiveInt64 1000 by decide
  additionalParameters := show IsFieldText [] by decide
  metadata := show IsFieldText [] by decide

/-- It is an accepted schedule. -/
theorem read_burstsAndBack {n : Nat} (hn : n < 2 ^ 63) :
    readUdpBurstSchedule wordStod [] (.content (writeSchedule (writeUdpBurst fun _ => "10".toList)
      (burstsAndBack n))) pairTopology 1 = .ok (burstsAndBack n) := by
  refine readUdpBurstSchedule_written ?_ (conforming_burstsAndBack n)
  intro e he
  rcases mem_burstsAndBack.mp he with ⟨k, hk, rfl⟩ | rfl
  · exact writable_burstBetween (by omega) (by decide) (by decide)
  · exact writable_burstBetween hn (by decide) (by decide)

/-- The second system starts only the burst back. -/
theorem filterSchedule_burstsAndBack (n : Nat) :
    filterSchedule burstSystem (burstsAndBack n) = .ok [burstBetween n 1 0] := by
  have hnode : ∀ e ∈ burstsAndBack n,
      burstSystem.isNodeAssignedToThisSystem e.fromNodeId = .ok (decide (e.fromNodeId = 1)) := by
    intro e he
    rcases endpoints_burstsAndBack he with ⟨hfrom, -⟩ | ⟨hfrom, -⟩ <;> rw [hfrom] <;> decide
  rw [filterSchedule, if_pos (show burstSystem.enableDistributed = true from rfl), filterLoop_of hnode,
    burstsAndBack, List.filter_append,
    List.filter_eq_nil_iff.mpr]
  · rfl
  · intro e he
    obtain ⟨k, -, rfl⟩ := List.mem_map.mp he
    simp [burstBetween]

/-- The packet of the burst back, when it is the first one. -/
def packetBack (n : Nat) : BurstDatagram Nat :=
  ⟨n, 0, ((quietBurstClient (burstBetween n 1 0)).sendPacket networkOrder .default 0 .initial).1⟩

/-- It does not carry the identifier of its burst. -/
theorem header_packetBack {n : Nat} (hn : 2 ^ 32 ≤ n) : (headerOf networkOrder (packetBack n)).id.toInt ≠ n := by
  have hheader : headerOf networkOrder (packetBack n) = ⟨(toUInt32 n).setWidth 64, 0⟩ := by
    show (UdpBurstHeader.deserialize networkOrder (UdpBurstHeader.serialize networkOrder _ ++ [])).1 = _
    rw [UdpBurstHeader.deserialize_serialize]
    rfl
  rw [hheader]
  show ((toUInt32 n).setWidth 64).toInt ≠ n
  have hlt := (toUInt32 n).isLt
  rw [BitVec.toInt_eq_toNat_cond, BitVec.toNat_setWidth]
  omega

/-- So its burst is not registered at node 0. -/
theorem mapAt_packetBack {n : Nat} (hn : 2 ^ 32 ≤ n) :
    mapAt (serverOf (burstsAndBack n) ∅ 0).incomingBurstsReceivedCounter
        (headerOf networkOrder (packetBack n)).id.toInt
      = .error (.outOfRange "map::at") := by
  have hfind : (serverOf (burstsAndBack n) ∅ 0).incomingBurstsReceivedCounter.find?
      (headerOf networkOrder (packetBack n)).id.toInt = none := by
    rw [← Option.not_isSome_iff_eq_none, OrdMap.find?_isSome, mem_keys_serverOf]
    intro hmem
    obtain ⟨e, he, hid⟩ := List.mem_map.mp hmem
    obtain ⟨he, hto⟩ := mem_burstsTo.mp he
    rcases mem_burstsAndBack.mp he with ⟨k, -, rfl⟩ | rfl
    · exact absurd (show (1 : Int) = 0 from hto) (by decide)
    · exact header_packetBack hn hid.symm
  rw [mapAt, hfind]

/-- The packet cannot be received. -/
theorem receive_packetBack {n : Nat} (hn : 2 ^ 32 ≤ n) (clients : Int → UdpBurstClientState) :
    (burstProtocol networkOrder (burstsAndBack n) quietBurstClient .default).receive 0 (packetBack n) 0
      ⟨clients, installedServers pairTopology (burstsAndBack n) ∅⟩ = .error (.outOfRange "map::at") := by
  have hserver : installedServers pairTopology (burstsAndBack n) ∅ 0 = some (serverOf (burstsAndBack n) ∅ 0) :=
    if_pos (by decide)
  have hhandle : (serverOf (burstsAndBack n) ∅ 0).handlePacket (headerOf networkOrder (packetBack n)) 0
      = .error (.outOfRange "map::at") := by
    rw [UdpBurstServer.handlePacket, UdpBurstServer.countPacket, mapAt_packetBack hn]
    rfl
  rw [burstProtocol_receive hserver, hhandle]
  rfl

/-- A burst whose identifier does not fit sends one packet, which its destination cannot count. -/
theorem run_packetBack {n : Nat} (hn : 2 ^ 32 ≤ n) : ∃ acts c,
    Run (burstProtocol networkOrder (burstsAndBack n) quietBurstClient .default)
      (burstsStart pairTopology (burstsAndBack n) ∅) acts c ∧
    (∀ a ∈ acts, a.1 = burstBetween n 1 0) ∧ acts.length = 1 ∧ packetBack n ∈ c.net.inFlight ∧
    (burstProtocol networkOrder (burstsAndBack n) quietBurstClient .default).receive 0 (packetBack n) 0 c.state
      = .error (.outOfRange "map::at") ∧
    ¬ BurstsConserved networkOrder (burstsAndBack n) quietBurstClient .default c := by
  have hrun : Run (burstProtocol networkOrder (burstsAndBack n) quietBurstClient .default)
      (burstsStart pairTopology (burstsAndBack n) ∅)
      ([] ++ [⟨burstBetween n 1 0, mem_burstsAndBack.mpr (.inr rfl)⟩]) _ :=
    .step .start (.act (le_refl 0) rfl)
  have hreceive := receive_packetBack hn
  refine ⟨_, _, hrun, by simp, rfl, List.mem_singleton.mpr rfl, hreceive _, ?_⟩
  intro h
  obtain ⟨apps, hreceived, -⟩ := h.received (packetBack n) (List.mem_singleton.mpr rfl) 0 rfl 0
  have herror := (hreceive _).symm.trans hreceived
  cases herror

/-- A schedule of `2 ^ 32 + 2` bursts is accepted. The last burst, which is the only one of its system, sends
    one packet with the identifier 1, and looking up its counter throws. -/
theorem burst_is_not_registered :
    readUdpBurstSchedule wordStod [] (.content (writeSchedule (writeUdpBurst fun _ => "10".toList)
      (burstsAndBack 4294967297))) pairTopology 1 = .ok (burstsAndBack 4294967297) ∧
    EntriesNameEndpoints pairTopology (burstsAndBack 4294967297) ∧
    filterSchedule burstSystem (burstsAndBack 4294967297) = .ok [burstBetween 4294967297 1 0] ∧
    (∀ e ∈ burstsAndBack 4294967297,
      (quietBurstClient e).BelongsTo (quietNodes UdpBurstClient) ⟨true, [], ∅⟩ e) ∧
    ∃ acts c, Run (burstProtocol networkOrder (burstsAndBack 4294967297) quietBurstClient .default)
        (burstsStart pairTopology (burstsAndBack 4294967297) ∅) acts c ∧
      (∀ a ∈ acts, a.1 = burstBetween 4294967297 1 0) ∧
      (∀ e ∈ burstsAndBack 4294967297, sentBy acts e.id < 2 ^ 32) ∧ packetBack 4294967297 ∈ c.net.inFlight ∧
      (burstProtocol networkOrder (burstsAndBack 4294967297) quietBurstClient .default).receive 0
        (packetBack 4294967297) 0 c.state = .error (.outOfRange "map::at") ∧
      ¬ BurstsConserved networkOrder (burstsAndBack 4294967297) quietBurstClient .default c := by
  have hlarge : 2 ^ 32 ≤ 4294967297 := by decide
  obtain ⟨acts, c, hrun, honly, hlength, hflight, herror, hnot⟩ := run_packetBack hlarge
  refine ⟨read_burstsAndBack (by decide), namesEndpoints_burstsAndBack _, filterSchedule_burstsAndBack _,
    fun e _ => quietBurstClient_belongs e,
    acts, c, hrun, honly, ?_, hflight, herror, hnot⟩
  intro e _
  have hle : sentBy acts e.id ≤ acts.length := List.countP_le_length
  omega

end BasicSim
