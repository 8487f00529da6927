import BasicSim.Apps.Correctness.UdpBurstPackets
import BasicSim.Apps.UdpBurstLogs

/-!
# `Apps.Correctness.UdpBurstLogs` — the log files of a burst are its history

In a run that is recorded, the file of the packets that a client sent has a line for each time at which it acted, and
the file of the packets that arrived has a line for each packet of the burst that a server received. A packet arrives
after it was sent.

## Contents
- **The history of a burst.** `departures`, `arrivals`.
- **A server.** `find?_logging_serverOf`, `handlePacket_line`.
- **The invariant.** `LoggedInv`, with the step lemmas `LoggedInv.send` and `LoggedInv.receive`, and `loggedInv_run`.
-/

namespace BasicSim

open Fallible Datagrams

variable {Byte : Type} {it : BufferIterator Byte} {schedule : List UdpBurstInfo} {loggingIds : OrdSet Int}

/-! ## The history of a burst -/

/-- What the applications did and received. -/
abbrev BurstHistory (Byte : Type) (schedule : List UdpBurstInfo) :=
  History {entry // entry ∈ schedule} Int (BurstDatagram Byte)

/-- When the client of a burst sent. -/
def departures (history : BurstHistory Byte schedule) (id : Int) : List Int :=
  History.timesOf (fun a => a.1.id = id) history

/-- The sequence numbers of the packets of a burst that were received, and when. -/
def arrivals (it : BufferIterator Byte) (history : BurstHistory Byte schedule) (id : Int) : List (Nat × Int) :=
  history.filterMap fun
    | (_, .inl _) => none
    | (nowNs, .inr (_, m)) => if m.burst = id then some ((headerOf it m).seq.toNat, nowNs) else none

section History

variable {history : BurstHistory Byte schedule} {nowNs id : Int}

theorem departures_acted (a : {entry // entry ∈ schedule}) : departures (history ++ [(nowNs, .inl a)]) id
    = if a.1.id = id then departures history id ++ [nowNs] else departures history id := by
  rw [departures, History.timesOf_acted]
  simp only [decide_eq_true_eq]
  rfl

@[simp] theorem departures_received (nodeId : Int) (m : BurstDatagram Byte) :
    departures (history ++ [(nowNs, .inr (nodeId, m))]) id = departures history id :=
  History.timesOf_received nodeId m

/-- A client sends as often as it acts. -/
theorem length_departures (history : BurstHistory Byte schedule) (id : Int) :
    (departures history id).length = sentBy (History.acts history) id := History.length_timesOf _ history

@[simp] theorem arrivals_acted (a : {entry // entry ∈ schedule}) :
    arrivals it (history ++ [(nowNs, .inl a)]) id = arrivals it history id := by
  simp [arrivals]

theorem arrivals_received (nodeId : Int) (m : BurstDatagram Byte) : arrivals it (history ++ [(nowNs, .inr (nodeId, m))]) id
    = if m.burst = id then arrivals it history id ++ [((headerOf it m).seq.toNat, nowNs)]
      else arrivals it history id := by
  unfold arrivals
  rw [List.filterMap_append]
  split <;> simp_all

theorem arrivals_eq_map (history : BurstHistory Byte schedule) (id : Int) :
    (arrivals it history id).map Prod.fst
      = ((History.received history).filter fun m => m.burst = id).map fun m => (headerOf it m).seq.toNat := by
  induction history using List.reverseRecOn with
  | nil => rfl
  | append_singleton history e ih =>
      obtain ⟨nowNs, a | ⟨nodeId, m⟩⟩ := e
      · rw [arrivals_acted, History.received_acted, ih]
      · rw [arrivals_received, History.received_received, List.filter_append, List.map_append, ← ih]
        by_cases hid : m.burst = id <;> simp [hid]

/-- The times are those of the history. -/
theorem arrivals_sublist (history : BurstHistory Byte schedule) (id : Int) :
    ((arrivals it history id).map Prod.snd).Sublist (history.map Prod.fst) := by
  induction history using List.reverseRecOn with
  | nil => exact List.Sublist.refl _
  | append_singleton history e ih =>
      obtain ⟨nowNs, a | ⟨nodeId, m⟩⟩ := e
      · rw [arrivals_acted, List.map_append]
        exact ih.trans (List.sublist_append_left _ _)
      · rw [arrivals_received, List.map_append]
        split
        · rw [List.map_append]
          exact ih.append (List.Sublist.refl _)
        · exact ih.trans (List.sublist_append_left _ _)

end History

/-! ## A server -/

/-- A server logs the bursts that are to be logged. -/
theorem find?_logging_serverOf {e : UdpBurstInfo} {nodeId : Int} (he : e ∈ burstsTo schedule nodeId) :
    (serverOf schedule loggingIds nodeId).incomingBurstsEnablePreciseLogging.find? e.id
      = some (decide (e.id ∈ loggingIds)) := by
  -- what a server knows of a burst is right, however many bursts are registered
  have hright : ∀ (bursts : List UdpBurstInfo) (server : UdpBurstServer),
      (∀ id precise, server.incomingBurstsEnablePreciseLogging.find? id = some precise →
        precise = decide (id ∈ loggingIds)) →
      ∀ id precise, (bursts.foldl (fun server entry =>
          server.registerIncomingBurst entry.id (decide (entry.id ∈ loggingIds)))
        server).incomingBurstsEnablePreciseLogging.find? id = some precise → precise = decide (id ∈ loggingIds) := by
    intro bursts
    induction bursts with
    | nil => exact fun _ h => h
    | cons entry bursts ih =>
        intro server h
        refine ih _ fun id precise (hfind : OrdMap.find? (OrdMap.insert _ _ _) _ = _) => ?_
        rw [OrdMap.find?_insert] at hfind
        split at hfind
        case isFalse => exact h id precise hfind
        case isTrue hid =>
          subst hid
          cases hold : server.incomingBurstsEnablePreciseLogging.find? entry.id with
          | none =>
              rw [hold] at hfind
              exact (Option.some.inj hfind).symm
          | some old =>
              rw [hold] at hfind
              exact h entry.id precise (hold.trans hfind)
  have hkey : e.id ∈ (serverOf schedule loggingIds nodeId).incomingBurstsEnablePreciseLogging.keys := by
    rw [(fresh_serverOf nodeId).aligned, mem_keys_serverOf]
    exact List.mem_map_of_mem he
  obtain ⟨precise, hprecise⟩ := Option.isSome_iff_exists.mp (OrdMap.find?_isSome.mpr hkey)
  rw [hprecise, hright _ (UdpBurstServer.create nodeId) (fun _ _ h => nomatch h) _ _ hprecise]

/-- The line for a packet of a registered burst. -/
theorem handlePacket_line {server server' : UdpBurstServer} {header : UdpBurstHeader} {nowNs : Int}
    {line : Option UdpBurstLogLine} {precise : Bool}
    (hprecise : server.incomingBurstsEnablePreciseLogging.find? header.id.toInt = some precise)
    (h : server.handlePacket header nowNs = .ok (server', line)) :
    server'.incomingBurstsEnablePreciseLogging = server.incomingBurstsEnablePreciseLogging ∧
      line = if precise = true then some ⟨header.id, header.seq, nowNs⟩ else none := by
  obtain ⟨counted, hcount, h⟩ := bind_eq_ok.mp h
  obtain ⟨_, -, hcount⟩ := bind_eq_ok.mp hcount
  obtain ⟨_, -, hcount⟩ := bind_eq_ok.mp hcount
  cases hcount
  obtain ⟨value, hvalue, h⟩ := bind_eq_ok.mp h
  rw [mapAt, hprecise] at hvalue
  cases hvalue
  cases h
  exact ⟨rfl, rfl⟩

/-! ## The invariant -/

/-- Nothing was sent yet, and the files are empty. -/
def loggedBurstsStart (topology : TopologyPtop) (schedule : List UdpBurstInfo) (loggingIds : OrdSet Int) :
    System (LoggedBursts × BurstHistory Byte schedule) (BurstDatagram Byte) where
  now := 0
  state := (⟨(burstsStart topology schedule loggingIds : System _ (BurstDatagram Byte)).state, fun _ => []⟩, [])
  net := .empty

/-- A packet is received by the server of the node, which may write a line. -/
theorem loggedBurstProtocol_receive {clientOf : UdpBurstInfo → UdpBurstClient} {sizes : UdpBurstSizes}
    {nodeId nowNs : Int} {m : BurstDatagram Byte} {bursts : LoggedBursts} {server : UdpBurstServer}
    (h : bursts.applications.servers nodeId = some server) :
    (loggedBurstProtocol it schedule clientOf sizes).receive nodeId m nowNs bursts =
      (server.handlePacket (headerOf it m) nowNs >>= fun p =>
        .ok (⟨⟨bursts.applications.clients, Function.update bursts.applications.servers nodeId (some p.1)⟩,
          appendLine bursts.incomingLogs p.2⟩, [])) := by
  unfold loggedBurstProtocol
  dsimp only
  rw [h]
  rfl

/-- Without the files, it is a run of the applications. -/
theorem loggedBurstProtocol_extends {clientOf : UdpBurstInfo → UdpBurstClient} {sizes : UdpBurstSizes} :
    Extends (loggedBurstProtocol it schedule clientOf sizes) (burstProtocol it schedule clientOf sizes)
      LoggedBursts.applications where
  act h := by
    obtain ⟨_, hact, h⟩ := bind_eq_ok.mp h
    cases h
    exact hact
  reaches h := h
  receive {nodeId m nowNs bursts bursts' ms} h := by
    cases hserver : bursts.applications.servers nodeId with
    | none =>
        rw [loggedBurstProtocol] at h
        simp only [hserver] at h
        cases h
        simp only [burstProtocol, hserver]
    | some server =>
        rw [loggedBurstProtocol_receive hserver] at h
        obtain ⟨_, hhandle, h⟩ := bind_eq_ok.mp h
        cases h
        rw [burstProtocol_receive hserver, hhandle, ok_bind]

/-- The file of the burst. -/
def incomingFile (id : Int) : BitVec 64 := BitVec.ofInt 64 id

/-- The line for the packet `k`, when a client sends it. -/
def outgoingLine (id : Int) (p : Int × Nat) : UdpBurstLogLine :=
  ⟨(burstHeaderAt id p.2).id, (burstHeaderAt id p.2).seq, p.1⟩

/-- The line for a packet that arrives. -/
def incomingLine (id : Int) (p : Nat × Int) : UdpBurstLogLine := ⟨incomingFile id, BitVec.ofNat 64 p.1, p.2⟩

/-- **The invariant**: the files say what happened. -/
structure LoggedInv (it : BufferIterator Byte) (schedule : List UdpBurstInfo) (loggingIds : OrdSet Int)
    (c : System (LoggedBursts × BurstHistory Byte schedule) (BurstDatagram Byte)) : Prop where
  outgoing : ∀ e ∈ schedule, (c.state.1.applications.clients e.id).outgoingLog
    = if e.id ∈ loggingIds then (departures c.state.2 e.id).zipIdx.map (outgoingLine e.id) else []
  incoming : ∀ e ∈ schedule, c.state.1.incomingLogs (incomingFile e.id)
    = if e.id ∈ loggingIds then (arrivals it c.state.2 e.id).map (incomingLine e.id) else []
  logging : ∀ nodeId server, c.state.1.applications.servers nodeId = some server →
    server.incomingBurstsEnablePreciseLogging
      = (serverOf schedule loggingIds nodeId).incomingBurstsEnablePreciseLogging
  sent_before : ∀ id, ∀ p ∈ arrivals it c.state.2 id, ∃ t, (departures c.state.2 id)[p.1]? = some t ∧ t ≤ p.2

theorem loggedInv_start (topology : TopologyPtop) :
    LoggedInv it schedule loggingIds (loggedBurstsStart topology schedule loggingIds) where
  outgoing _ _ := by split <;> rfl
  incoming _ _ := by split <;> rfl
  logging nodeId server h := by
    have hserver : installedServers topology schedule loggingIds nodeId = some server := h
    rw [installedServers] at hserver
    split at hserver
    · rw [Option.some.inj hserver]
    · cases hserver
  sent_before _ _ h := nomatch h

section Steps

variable {topology : TopologyPtop} {clientOf : UdpBurstInfo → UdpBurstClient} {sizes : UdpBurstSizes}
  {acts : List {entry // entry ∈ schedule}}
  {c : System (LoggedBursts × BurstHistory Byte schedule) (BurstDatagram Byte)} {now : Int}
  {s : LoggedBursts × BurstHistory Byte schedule} {ms : List (BurstDatagram Byte)}

/-- A client logs if its burst is to be logged. -/
def ClientsLog (schedule : List UdpBurstInfo) (clientOf : UdpBurstInfo → UdpBurstClient) (loggingIds : OrdSet Int) :
    Prop := ∀ e ∈ schedule, (clientOf e).enableDetailedLoggingToFile = true ↔ e.id ∈ loggingIds

/-- **Step lemma.** A client writes the line for its next packet. -/
theorem LoggedInv.send (hset : BurstSetting topology schedule clientOf) (hlogs : ClientsLog schedule clientOf loggingIds)
    (hbase : BurstInv it topology schedule acts ⟨c.now, c.state.1.applications, c.net⟩)
    (hrecorded : Recorded 0 acts c) (h : LoggedInv it schedule loggingIds c) {a : {entry // entry ∈ schedule}}
    (hact : (loggedBurstProtocol it schedule clientOf sizes).recording.act a now c.state = .ok (s, ms)) :
    LoggedInv it schedule loggingIds ⟨now, s, c.net.send ms⟩ := by
  obtain ⟨bursts, history⟩ := s
  obtain ⟨hact, rfl⟩ := recording_act_eq_ok.mp hact
  cases hact
  constructor
  case outgoing =>
    intro e he
    show (Function.update c.state.1.applications.clients a.1.id _ e.id).outgoingLog = _
    rw [departures_acted]
    by_cases hid : a.1.id = e.id
    · obtain rfl : a.1 = e := hset.id_inj a.1 a.2 e he hid
      rw [Function.update_self, if_pos rfl]
      show (if (clientOf a.1).enableDetailedLoggingToFile = true then
        (c.state.1.applications.clients a.1.id).outgoingLog ++ [_] else _) = _
      rw [h.outgoing a.1 a.2]
      by_cases hlog : a.1.id ∈ loggingIds
      · -- the line has the number of packets that were sent before
        rw [if_pos ((hlogs a.1 a.2).mpr hlog), if_pos hlog, if_pos hlog, List.zipIdx_append, List.map_append]
        have hcount : (c.state.1.applications.clients a.1.id).sent
            = BitVec.ofNat 32 (departures c.state.2 a.1.id).length := by
          rw [length_departures, hrecorded.acts]
          exact hbase.clients a.1.id
        rw [UdpBurstClient.nextHeader, hset.clientId a.1 a.2, hcount]
        simp [outgoingLine, burstHeaderAt]
      · rw [if_neg fun hlogs' => hlog ((hlogs a.1 a.2).mp hlogs'), if_neg hlog, if_neg hlog]
    · rw [Function.update_of_ne fun h => hid h.symm, if_neg hid, h.outgoing e he]
  case incoming =>
    intro e he
    rw [arrivals_acted]
    exact h.incoming e he
  case logging => exact h.logging
  case sent_before =>
    intro id p hp
    rw [arrivals_acted] at hp
    obtain ⟨t, ht, hle⟩ := h.sent_before id p hp
    refine ⟨t, ?_, hle⟩
    rw [departures_acted]
    split
    · rw [List.getElem?_append_left (List.getElem?_eq_some_iff.mp ht).1, ht]
    · exact ht

/-- A packet that is under way was sent, before now. -/
theorem exists_departure (hbase : BurstInv it topology schedule acts ⟨c.now, c.state.1.applications, c.net⟩)
    (hrecorded : Recorded 0 acts c) {m : BurstDatagram Byte} (hm : m ∈ c.net.inFlight) :
    ∃ t, (departures c.state.2 m.burst)[(headerOf it m).seq.toNat]? = some t ∧ t ≤ c.now := by
  have hsent : headerOf it m ∈ (c.net.sent.filter fun m' => m'.burst = m.burst).map (headerOf it) :=
    List.mem_map_of_mem (List.mem_filter.mpr ⟨hbase.conserved.mem_sent (.inl hm), by simp⟩)
  have hheaders := hbase.headers m.burst
  dsimp only at hheaders
  rw [hheaders] at hsent
  obtain ⟨k, hk, heq⟩ := List.mem_map.mp hsent
  -- the sequence number is a `uint32_t`, which is at most the number of the packet
  have hseq : (headerOf it m).seq.toNat ≤ k := by
    rw [← heq, burstHeaderAt, BitVec.toNat_setWidth, BitVec.toNat_ofNat]
    exact (Nat.mod_le _ _).trans (Nat.mod_le _ _)
  have hlt : (headerOf it m).seq.toNat < (departures c.state.2 m.burst).length := by
    rw [length_departures, hrecorded.acts]
    exact lt_of_le_of_lt hseq (List.mem_range.mp hk)
  refine ⟨_, List.getElem?_eq_getElem hlt, ?_⟩
  obtain ⟨e, he, hnow⟩ := List.mem_map.mp ((History.timesOf_sublist _ _).subset (List.getElem_mem hlt))
  rw [← hnow]
  exact hrecorded.until_now e he

theorem toInt_incomingFile {id : Int} (h0 : 0 ≤ id) (h : id < 2 ^ 63) : (incomingFile id).toInt = id := by
  rw [incomingFile, BitVec.toInt_ofInt]
  exact Int.bmod_eq_of_le (by omega) (by omega)

/-- **Step lemma.** A server writes the line for a packet that it receives. -/
theorem LoggedInv.receive (hset : BurstSetting topology schedule clientOf) (hids : ∀ a ∈ acts, a.1.id < 2 ^ 32)
    (hids64 : ∀ e ∈ schedule, e.id < 2 ^ 63)
    (hbase : BurstInv it topology schedule acts ⟨c.now, c.state.1.applications, c.net⟩)
    (hrecorded : Recorded 0 acts c) (h : LoggedInv it schedule loggingIds c) {before after : List (BurstDatagram Byte)}
    {m : BurstDatagram Byte} (hm : c.net.inFlight = before ++ m :: after) (later : c.now ≤ now)
    (hreceive : (loggedBurstProtocol it schedule clientOf sizes).recording.receive m.toNodeId m now c.state
      = .ok (s, ms)) :
    LoggedInv it schedule loggingIds ⟨now, s, (c.net.deliver before m after).send ms⟩ := by
  obtain ⟨bursts, history⟩ := s
  obtain ⟨hreceive, rfl⟩ := recording_receive_eq_ok.mp hreceive
  have hflight : m ∈ c.net.inFlight := by simp [hm]
  obtain ⟨hid, e', he', heq'⟩ := hbase.header_id hset hids (hbase.conserved.mem_sent (.inl hflight))
  obtain ⟨server, hserver, -, -⟩ := hbase.counts hset hids hflight sizes now
  rw [loggedBurstProtocol_receive hserver] at hreceive
  obtain ⟨⟨server', line⟩, hhandle, hreceive⟩ := bind_eq_ok.mp hreceive
  cases hreceive
  have hprecise : server.incomingBurstsEnablePreciseLogging.find? (headerOf it m).id.toInt
      = some (decide (m.burst ∈ loggingIds)) := by
    rw [h.logging _ _ hserver, hid, ← heq', find?_logging_serverOf he']
  obtain ⟨hkeep, rfl⟩ := handlePacket_line hprecise hhandle
  constructor
  case outgoing =>
    intro e he
    rw [departures_received]
    exact h.outgoing e he
  case incoming =>
    intro e he
    rw [arrivals_received]
    dsimp only
    by_cases hburst : m.burst = e.id
    · have hfile : (headerOf it m).id = incomingFile e.id := by
        rw [incomingFile, ← hburst, ← hid, BitVec.ofInt_toInt]
      rw [if_pos hburst, hburst]
      by_cases hlog : e.id ∈ loggingIds
      · rw [if_pos (decide_eq_true hlog), if_pos hlog, appendLine]
        dsimp only
        rw [hfile, Function.update_self, h.incoming e he, if_pos hlog, List.map_append]
        simp [incomingLine]
      · rw [if_neg (by simpa using hlog), if_neg hlog, appendLine, h.incoming e he, if_neg hlog]
    · -- the line is for another file
      have hfile : incomingFile e.id ≠ (headerOf it m).id := by
        intro heq
        refine hburst ?_
        rw [← hid, ← heq, toInt_incomingFile (hset.id_nonneg e he) (hids64 e he)]
      rw [if_neg hburst, ← h.incoming e he]
      split
      · exact Function.update_of_ne hfile ..
      · rfl
  case logging =>
    intro nodeId other hother
    by_cases hnode : nodeId = m.toNodeId
    · subst hnode
      dsimp only at hother
      rw [Function.update_self, Option.some.injEq] at hother
      rw [← hother, hkeep]
      exact h.logging _ _ hserver
    · dsimp only at hother
      rw [Function.update_of_ne hnode] at hother
      exact h.logging nodeId other hother
  case sent_before =>
    intro id p hp
    rw [departures_received]
    rw [arrivals_received] at hp
    split at hp
    case isFalse => exact h.sent_before id p hp
    case isTrue hburst =>
      rcases List.mem_append.mp hp with hp | hp
      · exact h.sent_before id p hp
      · obtain ⟨t, ht, hle⟩ := exists_departure hbase hrecorded hflight
        rw [List.mem_singleton.mp hp, ← hburst]
        exact ⟨t, ht, hle.trans later⟩

end Steps

section Run

variable {topology : TopologyPtop} {clientOf : UdpBurstInfo → UdpBurstClient} {sizes : UdpBurstSizes}
  {acts : List {entry // entry ∈ schedule}}
  {c : System (LoggedBursts × BurstHistory Byte schedule) (BurstDatagram Byte)}

/-- A run with files and a record is a run of the applications. -/
theorem burstInv_of_logged (hset : BurstSetting topology schedule clientOf)
    (h : Run (loggedBurstProtocol it schedule clientOf sizes).recording
      (loggedBurstsStart topology schedule loggingIds) acts c) (hids : ∀ a ∈ acts, a.1.id < 2 ^ 32) :
    BurstInv it topology schedule acts ⟨c.now, c.state.1.applications, c.net⟩ := by
  have hrun : Run (burstProtocol it schedule clientOf sizes) (burstsStart topology schedule loggingIds) acts
      ⟨c.now, c.state.1.applications, c.net⟩ := (h.toInner recording_extends).toInner loggedBurstProtocol_extends
  exact burstInv_run hset hrun hids

theorem recorded_of_logged (h : Run (loggedBurstProtocol it schedule clientOf sizes).recording
    (loggedBurstsStart topology schedule loggingIds) acts c) : Recorded 0 acts c :=
  h.recorded (recorded_start rfl 0)

/-- **Run lemma.** -/
theorem loggedInv_run (hset : BurstSetting topology schedule clientOf) (hlogs : ClientsLog schedule clientOf loggingIds)
    (hids64 : ∀ e ∈ schedule, e.id < 2 ^ 63)
    (h : Run (loggedBurstProtocol it schedule clientOf sizes).recording
      (loggedBurstsStart topology schedule loggingIds) acts c) (hids : ∀ a ∈ acts, a.1.id < 2 ^ 32) :
    LoggedInv it schedule loggingIds c := by
  induction h with
  | start => exact loggedInv_start topology
  | @step acts c c' a hrun hstep ih =>
      have hids' : ∀ a ∈ acts, a.1.id < 2 ^ 32 := fun b hb => hids b (List.mem_append_left _ hb)
      have hbase := burstInv_of_logged hset hrun hids'
      have hrecorded := recorded_of_logged hrun
      cases hstep with
      | act _ hacted => exact (ih hids').send hset hlogs hbase hrecorded hacted
      | lose _ => exact ⟨(ih hids').outgoing, (ih hids').incoming, (ih hids').logging, (ih hids').sent_before⟩
      | deliver later hm hreaches hreceived =>
          cases hreaches
          exact (ih hids').receive hset hids' hids64 hbase hrecorded hm later hreceived

end Run

end BasicSim
