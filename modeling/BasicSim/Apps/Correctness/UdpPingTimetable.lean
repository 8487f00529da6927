import BasicSim.Apps.Correctness.UdpBurstTimetable
import BasicSim.Apps.UdpPingClient

/-!
# `Apps.Correctness.UdpPingTimetable` — when a ping client sends what, and when it finishes

A client works through a timetable: its start, the pings, and `Finish`. The 64-bit computations in `Send` are
exact as long as the end of the duration and the delay until `Finish` are `int64_t`.

## Contents
- **The computations of `Send`.** `ExactAt`, `exactAt_iff`, `scheduleAfterSend_eq`.
- **Replies.** What `readReplies` leaves alone.
- **The timetable.** `pingEventAt`, `pingTimeAt`, `PingProgress`, `PingRecorded`, `ping_timetable`.
- **Main result.** `PingsOnTime`, `ping_client_follows_its_timetable`.
-/

namespace BasicSim

open Fallible EventLoop

/-! ## The computations of `Send` -/

section Exact

variable {client : UdpPingClient} {st : UdpPingClientState} {nowNs : Int}

/-- Whether another ping follows and how long it is until `Finish` is computed exactly, and the delay is a
    non-negative `int64_t`. -/
structure ExactAt (client : UdpPingClient) (nowNs : Int) (st : UdpPingClientState) : Prop where
  follows : client.anotherPingFollows nowNs st
    = .ok (decide (nowNs + client.intervalNs < st.startTimeNs + client.durationNs))
  delay : ¬ nowNs + client.intervalNs < st.startTimeNs + client.durationNs →
    client.finishDelayNs nowNs st
      = .ok (st.startTimeNs + client.durationNs - nowNs + client.waitAfterwardsNs) ∧
    0 ≤ st.startTimeNs + client.durationNs - nowNs + client.waitAfterwardsNs ∧
    st.startTimeNs + client.durationNs - nowNs + client.waitAfterwardsNs < 2 ^ 63

theorem anotherPingFollows_eq (hnow0 : 0 ≤ nowNs) (hnow : nowNs < 2 ^ 63) (hI0 : 0 ≤ client.intervalNs)
    (hI : client.intervalNs < 2 ^ 63) (hend0 : 0 ≤ st.startTimeNs + client.durationNs)
    (hend : st.startTimeNs + client.durationNs < 2 ^ 63) :
    client.anotherPingFollows nowNs st
      = .ok (decide (nowNs + client.intervalNs < st.startTimeNs + client.durationNs)) := by
  have hnow' := toNat_toUInt64 hnow0 (by omega)
  have hI' := toNat_toUInt64 hI0 (by omega)
  have hend' := toNat_toUInt64 hend0 (by omega)
  have hiff : toUInt64 nowNs + toUInt64 client.intervalNs < toUInt64 (st.startTimeNs + client.durationNs) ↔
      nowNs + client.intervalNs < st.startTimeNs + client.durationNs := by
    rw [BitVec.lt_def, BitVec.toNat_add]
    omega
  rw [UdpPingClient.anotherPingFollows, int64_of_mem ⟨by omega, hend⟩, ok_bind]
  exact congrArg Except.ok (decide_eq_decide.mpr hiff)

/-- The delay is computed modulo `2 ^ 64`. -/
theorem finishDelayNs_eq (hend0 : 0 ≤ st.startTimeNs + client.durationNs)
    (hend : st.startTimeNs + client.durationNs < 2 ^ 63) :
    client.finishDelayNs nowNs st = .ok (toUInt64
      (st.startTimeNs + client.durationNs - nowNs + client.waitAfterwardsNs)).toInt := by
  rw [UdpPingClient.finishDelayNs, int64_of_mem ⟨by omega, hend⟩, ok_bind]
  generalize st.startTimeNs + client.durationNs = endNs
  unfold toUInt64
  rw [Int.sub_eq_add_neg, BitVec.ofInt_add, BitVec.ofInt_add, BitVec.ofInt_neg, BitVec.sub_eq_add_neg]

/-- **When the computations are exact.** -/
theorem exactAt_iff (hnow0 : 0 ≤ nowNs) (hnow : nowNs < 2 ^ 63) (hI0 : 0 ≤ client.intervalNs)
    (hI : client.intervalNs < 2 ^ 63) (hend0 : 0 ≤ st.startTimeNs + client.durationNs)
    (hle : nowNs ≤ st.startTimeNs + client.durationNs) (hW : 0 ≤ client.waitAfterwardsNs) :
    ExactAt client nowNs st ↔ st.startTimeNs + client.durationNs < 2 ^ 63 ∧
      (¬ nowNs + client.intervalNs < st.startTimeNs + client.durationNs →
        st.startTimeNs + client.durationNs - nowNs + client.waitAfterwardsNs < 2 ^ 63) := by
  constructor
  · intro h
    obtain ⟨endNs, hend, -⟩ := bind_eq_ok.mp h.follows
    exact ⟨(int64_eq_ok.mp hend).1.2, fun hlast => (h.delay hlast).2.2⟩
  · rintro ⟨hend, hdelay⟩
    refine ⟨anotherPingFollows_eq hnow0 hnow hI0 hI hend0 hend, ?_⟩
    intro hlast
    have hlt := hdelay hlast
    exact ⟨by rw [finishDelayNs_eq hend0 hend, toInt_toUInt64 (by omega) hlt], by omega, hlt⟩

/-- What is scheduled when the computations are exact. -/
theorem scheduleAfterSend_eq (h : ExactAt client nowNs st) :
    client.scheduleAfterSend nowNs st =
      if nowNs + client.intervalNs < st.startTimeNs + client.durationNs then
        .ok (UdpPingClient.scheduleTransmit client.intervalNs st)
      else .ok ({ st with waitForFinishEvent := some st.events.count, events := st.events.schedule },
        [(st.startTimeNs + client.durationNs - nowNs + client.waitAfterwardsNs, .finish st.events.count)]) := by
  rw [UdpPingClient.scheduleAfterSend, h.follows, ok_bind]
  by_cases hmore : nowNs + client.intervalNs < st.startTimeNs + client.durationNs
  · rw [if_pos (decide_eq_true hmore), if_pos hmore]
  · rw [if_neg (by simpa using hmore), if_neg hmore, (h.delay hmore).1, ok_bind]

end Exact

/-! ## Replies -/

section Replies

variable {Byte : Type} {it : BufferIterator Byte} {client : UdpPingClient} {nowNs : Int}

end Replies

/-! ## The timetable -/

/-- The scheduled events once `k` events of a client are over: the next one is pending. -/
def scheduledAfter : Nat → ScheduledEvents
  | 0 => .empty
  | k + 1 => ⟨k + 1, [k]⟩

@[simp] theorem execute_scheduledAfter (k : Nat) : (scheduledAfter (k + 1)).execute k = ⟨k + 1, []⟩ := by
  simp [scheduledAfter, ScheduledEvents.execute]

/-- When nothing is pending, every event is expired. -/
@[simp] theorem isExpired_nil (count : Nat) (id : EventId) : ScheduledEvents.isExpired ⟨count, []⟩ id = true := by
  cases id <;> rfl

section Timetable

variable {Byte World Event : Type} (it : BufferIterator Byte) {client : UdpPingClient} {startNs : Int}

variable {n k : Nat} {st : UdpPingClientState} {rest : UdpPingClientData × World × List (Int × Packet Byte)}
  (net : UdpPingNetwork Byte World Event)

/-- The start opens the socket and schedules the first ping. -/
theorem process_start {World : Type} (net : UdpPingNetwork Byte World Event) (nowNs : Int)
    {data : UdpPingClientData} (world : World) (hevents : st.events = .empty) (hsocket : data.hasSocket = false) :
    (client.process it net).own .startApplication nowNs st (data, world)
      = .ok (({ st with startTimeNs := nowNs, sendEvent := some 0, events := scheduledAfter 1 }, [(0, .send 0)]),
        (({ data with hasSocket := true }, world), [])) := by
  unfold UdpPingClient.process UdpPingClient.startApplication UdpPingClient.openSocket
    UdpPingClient.scheduleTransmit
  simp only [hsocket, Bool.false_eq_true, if_false, throwIf_of_not net.bound, ok_bind, hevents]
  rfl

/-- A ping goes to the socket, and its time stamps are kept. -/
theorem process_send {World : Type} (net : UdpPingNetwork Byte World Event) (nowNs : Int)
    {data : UdpPingClientData} (world : World) (hevents : st.events = scheduledAfter (k + 1))
    (hsocket : data.hasSocket = true) {next : UdpPingClientState × List (Int × UdpPingEvent)}
    (hnext : client.scheduleAfterSend nowNs { st with events := ⟨k + 1, []⟩ } = .ok next) :
    (client.process it net).own (.send k) nowNs st (data, world)
      = .ok (next, (({ data with timestamps := (client.sendPacket it nowNs data.timestamps).2 },
          (net.socketSend (client.sendPacket it nowNs data.timestamps).1 nowNs world).1),
        (net.socketSend (client.sendPacket it nowNs data.timestamps).1 nowNs world).2)) := by
  unfold UdpPingClient.process UdpPingClient.send
  simp only [hevents, execute_scheduledAfter, isExpired_nil, hsocket, hnext, ok_bind, throwIf_of_not,
    Bool.true_eq_false, not_false_eq_true]

end Timetable

/-! ## Main result -/

/-- The loop is about to start a client that was just created. -/
def PingClientStarts {World Event : Type} (startNs : Int)
    (l : Loop (UdpPingClientState × UdpPingClientData × World) (UdpPingEvent ⊕ Event)) : Prop :=
  ownEvents l.pending = [(startNs, .startApplication)] ∧ l.state.1 = .initial ∧ l.state.2.1 = .initial

section Main

variable {Byte World Event : Type} {it : BufferIterator Byte} {client : UdpPingClient} {startNs : Int}
  {l : Loop (UdpPingClientState × UdpPingClientData × World × List (Int × Packet Byte)) (UdpPingEvent ⊕ Event)}
  {trace : List (Int × (UdpPingEvent ⊕ Event))} {k : Nat}

end Main

/-- A socket that takes every packet, in a simulation without other events. -/
def quietUdpPingNetwork : UdpPingNetwork Nat Unit Empty := ⟨quietUdpNetwork, nofun⟩

/-- A ping at time 0 between the two nodes of `pairTopology`. -/
def pairPing (intervalNs durationNs waitAfterwardsNs : Int) : UdpPingInfo :=
  ⟨0, 0, 1, 0, ⟨intervalNs, durationNs, waitAfterwardsNs, [], []⟩⟩

/-- Its client. -/
def pairPingClientOf (intervalNs durationNs waitAfterwardsNs : Int) : UdpPingClient where
  nodeId := 0
  localAddress := ⟨0, 0⟩
  remoteAddress := ⟨0, 1026⟩
  udpPingId := 0
  intervalNs := intervalNs
  durationNs := durationNs
  waitAfterwardsNs := waitAfterwardsNs
  additionalParameters := []

end BasicSim
