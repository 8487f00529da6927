import BasicSim.Apps.Correctness.ScheduleFormats
import BasicSim.Apps.Scheduler
import BasicSim.Apps.TcpFlowClient

/-!
# `Apps.Correctness.TcpFlowClient` — the sender of a flow keeps its accounts

One activation of `SendData` makes a sequence of full calls, and ends with a short one unless all of the flow
was sent. Over any sequence of events, what was sent is what the socket accepted.

## Contents
- **Creation.** `accepted_flows_can_be_created_iff`.
- **One activation.** `Sends` and its consequences, `sendLoop_sends`.
- **Termination.** `send_data_terminates_iff`.
- **Accounts.** `Books`, the invariant, with a lemma for each callback.
- **Runs.** `TcpRun`, `tcp_flow_client_keeps_accounts`.
-/

namespace BasicSim

open Fallible TcpFlow

/-! ## Creation -/

/-- The values of an entry are admitted by the attributes of the client, so that the client of the entry can
    be created between any two addresses. -/
structure CanBeCreated (e : TcpFlowScheduleEntry) : Prop where
  tcpFlowId : tcpFlowIdChecker.Admits e.id
  flowSizeByte : flowSizeByteChecker.Admits e.fields.sizeByte
  create : ∀ (World Event : Type) (nodes : NodeContainer TcpFlowClient World Event)
    (settings : SchedulerSettings) (localAddress remoteAddress : Ipv4Address),
    nodes.getAddress e.fromNodeId = .ok localAddress → nodes.getAddress e.toNodeId = .ok remoteAddress →
    ∃ client, tcpFlowClient nodes settings e = .ok client

/-- The size field of a line. -/
def lineSizeByte (line : Str) : Except Exc Int := do
  let commaSplit ← splitString line ",".toList
  parsePositiveInt64 (← vectorAt commaSplit 3)

theorem IsTcpFlowLine.lineSizeByte {line : Str} {e : TcpFlowScheduleEntry} (h : IsTcpFlowLine line e) :
    lineSizeByte line = .ok e.fields.sizeByte := by
  obtain ⟨_, _, _, sizeByte, _, hsplit, _, _, _, hsize, _⟩ := h
  rw [BasicSim.lineSizeByte, show (",".toList : Str) = [','] from rfl, splitString_singleton, ok_bind,
    hsplit]
  exact hsize

/-- The client of an entry that a line spells out can be created unless its size is zero. -/
theorem IsTcpFlowLine.canBeCreated_iff {line : Str} {e : TcpFlowScheduleEntry} (h : IsTcpFlowLine line e) :
    CanBeCreated e ↔ e.fields.sizeByte ≠ 0 := by
  obtain ⟨_, _, _, _, _, _, hid, _, _, hsize, _⟩ := h
  have hid0 := parsePositiveInt64_nonneg hid
  have hidlt := parsePositiveInt64_lt hid
  have hsize0 := parsePositiveInt64_nonneg hsize
  have hsizelt := parsePositiveInt64_lt hsize
  constructor
  · intro hcreated hzero
    have hmin := hcreated.flowSizeByte.1
    simp [flowSizeByteChecker, hzero] at hmin
  · intro hne
    refine ⟨⟨hid0, ?_⟩, ⟨?_, ?_⟩, ?_⟩
    · simp only [tcpFlowIdChecker]
      omega
    · simp only [flowSizeByteChecker]
      omega
    · simp only [flowSizeByteChecker]
      omega
    · intro World Event nodes settings localAddress remoteAddress hlocal hremote
      rw [tcpFlowClient, hlocal, ok_bind, hremote, ok_bind, throwIf_of_not (by omega), ok_bind]
      exact ⟨_, rfl⟩

/-- **When the accepted flows can be started**: every entry of an accepted schedule satisfies the attributes
    of the client, and its client can be created, exactly when no line has size zero. -/
theorem accepted_flows_can_be_created_iff {filename : Str} {file : File} {topology : TopologyPtop}
    {endTime : Int} {schedule : List TcpFlowScheduleEntry}
    (h : readTcpFlowSchedule filename file topology endTime = .ok schedule) :
    (∀ e ∈ schedule, CanBeCreated e) ↔
      ∀ text, file = .content text → ∀ line ∈ getlines text, lineSizeByte line ≠ .ok 0 := by
  cases file with
  | missing => cases h
  | unreadable => cases h
  | content text =>
      obtain ⟨hlines, _⟩ := readTcpFlowSchedule_iff.mp h
      constructor
      · rintro hcreated _ ⟨⟩ line hline hzero
        obtain ⟨e, he, hsaid⟩ := exists_right_of_forall₂ hlines hline
        rw [hsaid.lineSizeByte, Except.ok.injEq] at hzero
        exact hsaid.canBeCreated_iff.mp (hcreated e he) hzero
      · intro hsizes e he
        obtain ⟨line, hline, hsaid⟩ := exists_left_of_forall₂ hlines he
        apply hsaid.canBeCreated_iff.mpr
        intro hzero
        apply hsizes text rfl line hline
        rw [hsaid.lineSizeByte, hzero]

theorem accepted_flows_can_be_created_iff_pairTopology :
    (∀ e ∈ [(⟨0, 0, 1, 5, ⟨100, [], []⟩⟩ : TcpFlowScheduleEntry)], CanBeCreated e) ↔
      ∀ text, File.content "0,0,1,100,5,,".toList = .content text →
        ∀ line ∈ getlines text, lineSizeByte line ≠ .ok 0 := by
  have hread : readTcpFlowSchedule "flows.csv".toList (.content "0,0,1,100,5,,".toList) pairTopology 1000
      = .ok [⟨0, 0, 1, 5, ⟨100, [], []⟩⟩] := by decide
  exact accepted_flows_can_be_created_iff hread

/-- A flow of zero bytes is accepted, but its client cannot be created. -/
theorem accepted_flow_without_bytes :
    readTcpFlowSchedule "flows.csv".toList (.content "0,0,1,0,5,,".toList) pairTopology 1000
        = .ok [⟨0, 0, 1, 5, ⟨0, [], []⟩⟩] ∧
      ¬ CanBeCreated (⟨0, 0, 1, 5, ⟨0, [], []⟩⟩ : TcpFlowScheduleEntry) ∧
      ∀ (nodes : NodeContainer TcpFlowClient Unit Unit) (settings : SchedulerSettings),
        nodes.getAddress 0 = .ok 1 → nodes.getAddress 1 = .ok 2 →
        tcpFlowClient nodes settings ⟨0, 0, 1, 5, ⟨0, [], []⟩⟩
          = .error (.abort "Attribute FlowSizeByte is out of range") := by
  refine ⟨by decide, ?_, ?_⟩
  · intro h
    exact absurd h.flowSizeByte (by decide)
  · intro nodes settings hlocal hremote
    rw [tcpFlowClient, hlocal, ok_bind, hremote, ok_bind]
    rfl

/-! ## One activation -/

/-- The calls of an activation of `SendData` and the total it leaves: full calls as long as something is left
    to send, and nothing after a call that does not accept all. -/
inductive Sends (sendStepSize flowSizeByte : Nat) : Nat → List SendCall → Nat → Prop where
  | nothing {totBytes : Nat} (h : flowSizeByte ≤ totBytes) :
      Sends sendStepSize flowSizeByte totBytes [] totBytes
  | short {totBytes : Nat} {actual : Int} (h : totBytes < flowSizeByte)
      (hanswer : IsAnswer (min sendStepSize (flowSizeByte - totBytes)) actual)
      (hne : actual ≠ (min sendStepSize (flowSizeByte - totBytes) : Nat)) :
      Sends sendStepSize flowSizeByte totBytes [⟨min sendStepSize (flowSizeByte - totBytes), actual⟩]
        (totBytes + actual.toNat)
  | full {totBytes totBytes' : Nat} {calls : List SendCall} (h : totBytes < flowSizeByte)
      (rest : Sends sendStepSize flowSizeByte (totBytes + min sendStepSize (flowSizeByte - totBytes)) calls
        totBytes') :
      Sends sendStepSize flowSizeByte totBytes
        (⟨min sendStepSize (flowSizeByte - totBytes),
          (min sendStepSize (flowSizeByte - totBytes) : Nat)⟩ :: calls) totBytes'

section Activation

variable {sendStepSize flowSizeByte : Nat} {send : SendBehaviour}

theorem IsAnswer.toNat_le {requested : Nat} {actual : Int} (h : IsAnswer requested actual) :
    actual.toNat ≤ requested := by
  rcases h with h | ⟨_, hle⟩ <;> omega

/-- The exit test of the loop, for a request below the unsigned value of -1. -/
theorem IsAnswer.exit_iff {requested : Nat} {actual : Int} (h : IsAnswer requested actual)
    (hlt : requested < 2 ^ 32 - 1) : (toUInt32 actual).toNat ≠ requested ↔ actual ≠ requested := by
  rw [toUInt32, BitVec.toNat_ofInt]
  rcases h with h | ⟨h0, hle⟩
  · subst h
    constructor
    · intro _
      omega
    · intro _
      simp
      omega
  · have hmod : actual % 2 ^ 32 = actual := by omega
    rw [show ((2 ^ 32 : Nat) : Int) = 2 ^ 32 from rfl, hmod]
    omega

/-- **The loop ends.** As long as no request equals the unsigned value of -1, the loop of `SendData` goes
    through an activation. The measure is what is left to send. -/
theorem sendLoop_sends (hvalid : send.Valid) (hflow : flowSizeByte < 2 ^ 64) (hstep : 1 ≤ sendStepSize) :
    ∀ (fuel totBytes : Nat) (before : List SendCall), flowSizeByte - totBytes < fuel →
      min sendStepSize (flowSizeByte - totBytes) < 2 ^ 32 - 1 →
      ∃ calls totBytes', sendLoop sendStepSize flowSizeByte send fuel totBytes before
          = some (totBytes', before ++ calls) ∧
        Sends sendStepSize flowSizeByte totBytes calls totBytes' := by
  intro fuel
  induction fuel with
  | zero =>
      intro totBytes before hfuel _
      exact absurd hfuel (Nat.not_lt_zero _)
  | succ fuel ih =>
      intro totBytes before hfuel hreq
      by_cases h : totBytes < flowSizeByte
      · have hanswer := hvalid before (min sendStepSize (flowSizeByte - totBytes))
        have hle := hanswer.toNat_le
        -- a negative answer changes nothing, and the total does not wrap around
        have htot : (if send before (min sendStepSize (flowSizeByte - totBytes)) > 0 then
            (totBytes + (send before (min sendStepSize (flowSizeByte - totBytes))).toNat) % 2 ^ 64
            else totBytes)
            = totBytes + (send before (min sendStepSize (flowSizeByte - totBytes))).toNat := by
          split
          · apply Nat.mod_eq_of_lt
            omega
          · omega
        simp only [sendLoop, if_pos h, htot]
        by_cases hexit : send before (min sendStepSize (flowSizeByte - totBytes))
            = (min sendStepSize (flowSizeByte - totBytes) : Nat)
        · rw [if_neg (by rw [hanswer.exit_iff hreq]; exact not_not.mpr hexit), hexit, Int.toNat_natCast]
          obtain ⟨calls, totBytes', hrun, hsends⟩ := ih
            (totBytes + min sendStepSize (flowSizeByte - totBytes))
            (before ++ [⟨min sendStepSize (flowSizeByte - totBytes),
              (min sendStepSize (flowSizeByte - totBytes) : Nat)⟩]) (by omega) (by omega)
          refine ⟨_, totBytes', ?_, .full h hsends⟩
          rw [hrun, List.append_assoc, List.singleton_append]
        · rw [if_pos ((hanswer.exit_iff hreq).mpr hexit)]
          exact ⟨_, _, rfl, .short h hanswer hexit⟩
      · refine ⟨[], totBytes, ?_, .nothing (by omega)⟩
        simp [sendLoop, h]

variable {totBytes totBytes' : Nat} {calls : List SendCall}

@[simp] theorem acceptedBytes_nil : acceptedBytes [] = 0 := rfl

@[simp] theorem acceptedBytes_cons (call : SendCall) (calls : List SendCall) :
    acceptedBytes (call :: calls) = call.actual.toNat + acceptedBytes calls := by
  simp [acceptedBytes]

/-- The total grows by what was accepted. -/
theorem Sends.total (h : Sends sendStepSize flowSizeByte totBytes calls totBytes') :
    totBytes' = totBytes + acceptedBytes calls := by
  induction h with
  | nothing _ => simp
  | short _ _ _ => simp
  | full _ _ ih =>
      rw [ih]
      simp
      omega

/-- No more is sent than the flow has. -/
theorem Sends.total_le (h : Sends sendStepSize flowSizeByte totBytes calls totBytes')
    (hle : totBytes ≤ flowSizeByte) : totBytes' ≤ flowSizeByte := by
  induction h with
  | nothing _ => exact hle
  | short _ hanswer _ =>
      have := hanswer.toNat_le
      omega
  | full _ _ ih => exact ih (by omega)

/-- Every call asks for at least a byte, and for at most the step and what is left at that moment. -/
theorem Sends.requested (h : Sends sendStepSize flowSizeByte totBytes calls totBytes')
    (hstep : 1 ≤ sendStepSize) {before after : List SendCall} {call : SendCall}
    (hcalls : calls = before ++ call :: after) :
    1 ≤ call.requested ∧
      call.requested ≤ min sendStepSize (flowSizeByte - (totBytes + acceptedBytes before)) := by
  induction h generalizing before with
  | nothing _ => simp at hcalls
  | short hlt _ _ =>
      cases before with
      | nil =>
          obtain ⟨rfl, _⟩ := List.cons_eq_cons.mp hcalls
          simp
          omega
      | cons _ before => simp at hcalls
  | full hlt _ ih =>
      cases before with
      | nil =>
          obtain ⟨rfl, _⟩ := List.cons_eq_cons.mp hcalls
          simp
          omega
      | cons first before =>
          obtain ⟨rfl, hrest⟩ := List.cons_eq_cons.mp hcalls
          have := ih hrest
          rw [acceptedBytes_cons, Int.toNat_natCast, ← Nat.add_assoc]
          exact this

/-- Nothing comes after a call that does not accept all that it was asked for. -/
theorem Sends.stops (h : Sends sendStepSize flowSizeByte totBytes calls totBytes')
    {before after : List SendCall} {call : SendCall} (hcalls : calls = before ++ call :: after)
    (hshort : call.actual ≠ call.requested) : after = [] := by
  induction h generalizing before with
  | nothing _ => simp at hcalls
  | short _ _ _ =>
      cases before with
      | nil => exact (List.cons_eq_cons.mp hcalls).2.symm
      | cons _ before => simp at hcalls
  | full _ _ ih =>
      cases before with
      | nil =>
          obtain ⟨rfl, _⟩ := List.cons_eq_cons.mp hcalls
          exact absurd rfl hshort
      | cons first before => exact ih (List.cons_eq_cons.mp hcalls).2

end Activation

/-! ## Termination -/

/-- What is expected of `SendData` for one behaviour of the socket: it returns, every call asks for at least one
    byte and at most for the step and for what is left, the first call that does not accept all is the last,
    and the total grows by what was accepted. -/
def SendsAsMeant (send : SendBehaviour) (sendStepSize flowSizeByte totBytes : Nat) : Prop :=
  ∃ fuel totBytes' calls,
    sendLoop sendStepSize flowSizeByte send fuel totBytes [] = some (totBytes', calls) ∧
    totBytes' = totBytes + acceptedBytes calls ∧
    ∀ before call after, calls = before ++ call :: after →
      1 ≤ call.requested ∧
      call.requested ≤ min sendStepSize (flowSizeByte - (totBytes + acceptedBytes before)) ∧
      (call.actual ≠ call.requested → after = [])

/-- A socket that does not take anything. -/
def refuse : SendBehaviour := fun _ _ => -1

theorem refuse_valid : refuse.Valid := fun _ _ => .inl rfl

/-- The exit test takes -1 for a full call when as many bytes were requested as its unsigned value. -/
theorem sendLoop_refuse {sendStepSize flowSizeByte totBytes : Nat} (hstep : sendStepSize = 2 ^ 32 - 1)
    (hleft : 2 ^ 32 - 1 ≤ flowSizeByte - totBytes) (fuel : Nat) (calls : List SendCall) :
    sendLoop sendStepSize flowSizeByte refuse fuel totBytes calls = none := by
  induction fuel generalizing calls with
  | zero => rfl
  | succ fuel ih =>
      have hlt : totBytes < flowSizeByte := by omega
      have hsend : min sendStepSize (flowSizeByte - totBytes) = 2 ^ 32 - 1 := by omega
      have hexit : (toUInt32 (-1)).toNat = 2 ^ 32 - 1 := by decide
      simp only [sendLoop, if_pos hlt, hsend]
      rw [show refuse calls (2 ^ 32 - 1) = -1 from rfl, if_neg (by decide : ¬ (-1 : Int) > 0),
        if_neg (not_not.mpr hexit)]
      exact ih _

/-- **When `SendData` does as meant**, for an admitted step and every behaviour of the socket: unless a request
    is as large as the unsigned value of -1. -/
theorem send_data_terminates_iff {sendStepSize flowSizeByte totBytes : Nat}
    (hstep : sendStepSizeChecker.Admits sendStepSize) (hflow : flowSizeByte < 2 ^ 64) :
    (∀ send : SendBehaviour, send.Valid → SendsAsMeant send sendStepSize flowSizeByte totBytes) ↔
      ¬ (sendStepSize = 2 ^ 32 - 1 ∧ 2 ^ 32 - 1 ≤ flowSizeByte - totBytes) := by
  obtain ⟨hmin, hmax⟩ := hstep
  simp only [sendStepSizeChecker] at hmin hmax
  constructor
  · rintro hall ⟨hstep, hleft⟩
    obtain ⟨fuel, _, _, hrun, _⟩ := hall refuse refuse_valid
    rw [sendLoop_refuse hstep hleft] at hrun
    cases hrun
  · intro hcond send hvalid
    have hreq : min sendStepSize (flowSizeByte - totBytes) < 2 ^ 32 - 1 := by omega
    obtain ⟨calls, totBytes', hrun, hsends⟩ := sendLoop_sends hvalid hflow (by omega)
      (flowSizeByte - totBytes + 1) totBytes [] (Nat.lt_succ_self _) hreq
    refine ⟨_, totBytes', calls, hrun, hsends.total, ?_⟩
    intro before call after hcalls
    obtain ⟨hlo, hhi⟩ := hsends.requested (by omega) hcalls
    exact ⟨hlo, hhi, hsends.stops hcalls⟩

theorem send_data_terminates_iff_default :
    (∀ send : SendBehaviour, send.Valid → SendsAsMeant send 100000 250000 0) ↔
      ¬ (100000 = 2 ^ 32 - 1 ∧ 2 ^ 32 - 1 ≤ 250000 - 0) :=
  send_data_terminates_iff (by decide) (by decide)

/-- With the largest step, a flow of `2 ^ 32` bytes and a socket that takes nothing, `SendData` does not
    return. -/
theorem send_data_hangs :
    sendStepSizeChecker.Admits ((2 ^ 32 - 1 : Nat) : Int) ∧ refuse.Valid ∧
      ¬ SendsAsMeant refuse (2 ^ 32 - 1) (2 ^ 32) 0 := by
  refine ⟨by decide, refuse_valid, ?_⟩
  rintro ⟨fuel, _, _, hrun, _⟩
  rw [sendLoop_refuse rfl (by decide)] at hrun
  cases hrun

/-! ## Accounts -/

/-- The invariant of a client and its socket: the calls of `Send` so far account for the total, and `Close` is
    the last call if it was made. -/
structure Books (flowSizeByte : Nat) (flow : TcpFlow) (sends : List SendCall) (closed : Bool) : Prop where
  calls : flow.socket.calls = sends.map .send ++ if closed = true then [.close] else []
  total : flow.client.totBytes = acceptedBytes sends
  total_le : flow.client.totBytes ≤ flowSizeByte
  buffer_le : flow.socket.txBuffer ≤ flow.client.totBytes
  closed : closed = true → flow.client.totBytes = flowSizeByte ∧ flow.client.connected = false ∧
    flow.socket.phase ≠ .connecting
  connecting : flow.socket.phase = .connecting → flow.client.connected = false ∧ flow.client.totBytes = 0

/-- The members of a client whose socket is not over. -/
structure Live (flow : TcpFlow) : Prop where
  phase : flow.socket.phase ≠ .over
  hasSocket : flow.client.hasSocket = true
  connFailed : flow.client.connFailed = false
  closedNormally : flow.client.closedNormally = false
  closedByError : flow.client.closedByError = false
  isCompleted : flow.client.isCompleted = false

/-- The members of a client whose socket is over. -/
structure Over (flowSizeByte : Nat) (flow : TcpFlow) : Prop where
  phase : flow.socket.phase = .over
  one : [flow.client.connFailed, flow.client.closedNormally, flow.client.closedByError].count true = 1
  acked_le : flow.client.ackedBytes ≤ flowSizeByte
  isCompleted : flow.client.isCompleted = true ↔
    flow.client.closedNormally = true ∧ flow.client.ackedBytes = flowSizeByte

/-- The bytes that count as acknowledged. -/
def progress (flow : TcpFlow) : Nat :=
  if flow.socket.phase = .over then flow.client.ackedBytes
  else flow.client.totBytes - flow.socket.txBuffer

/-- What every reachable client and socket satisfy. -/
def InOrder (flowSizeByte : Nat) (flow : TcpFlow) : Prop :=
  (∃ sends closed, Books flowSizeByte flow sends closed) ∧ (Live flow ∨ Over flowSizeByte flow)

section Accounts

variable {sendStepSize flowSizeByte rounds : Nat} {flow : TcpFlow} {sends : List SendCall} {closed : Bool}

theorem Books.unbufferedBytes (h : Books flowSizeByte flow sends closed) (hflow : flowSizeByte < 2 ^ 63) :
    unbufferedBytes flow = flow.client.totBytes - flow.socket.txBuffer := by
  have hle := h.total_le
  have hbuffer := h.buffer_le
  rw [TcpFlow.unbufferedBytes, BitVec.toNat_ofInt]
  omega

theorem Live.getAckedBytes (hlive : Live flow) (h : Books flowSizeByte flow sends closed)
    (hflow : flowSizeByte < 2 ^ 63) : getAckedBytes flow = .ok (progress flow) := by
  have hle := h.total_le
  simp [TcpFlow.getAckedBytes, progress, hlive.phase, hlive.hasSocket, hlive.connFailed,
    hlive.closedNormally, hlive.closedByError, throwIf, h.unbufferedBytes hflow]
  apply toInt64_of_lt
  omega

theorem Over.getAckedBytes (hover : Over flowSizeByte flow) (hflow : flowSizeByte < 2 ^ 63) :
    getAckedBytes flow = .ok (progress flow) := by
  have hflag : flow.client.connFailed = true ∨ flow.client.closedNormally = true ∨
      flow.client.closedByError = true := by
    have hone := hover.one
    revert hone
    cases flow.client.connFailed <;> cases flow.client.closedNormally <;>
      cases flow.client.closedByError <;> decide
  have hle := hover.acked_le
  rw [TcpFlow.getAckedBytes, if_pos hflag, progress, if_pos hover.phase, toInt64_of_lt (by omega)]

/-- The state after an activation of `SendData` that made these calls. -/
def afterSendData (flowSizeByte : Nat) (flow : TcpFlow) (calls : List SendCall) : TcpFlow :=
  let totBytes := flow.client.totBytes + acceptedBytes calls
  { client := { flow.client with totBytes := totBytes, connected := decide (totBytes ≠ flowSizeByte) }
    socket := { flow.socket with
      txBuffer := flow.socket.txBuffer + acceptedBytes calls
      calls := flow.socket.calls ++ calls.map .send ++
        if totBytes = flowSizeByte then [.close] else [] } }

/-- **Spec of `SendData`** for a connected client. -/
theorem sendData_spec {send : SendBehaviour} (hvalid : send.Valid) (hflow : flowSizeByte < 2 ^ 63)
    (hstep : 1 ≤ sendStepSize) (hstep' : sendStepSize ≤ 2 ^ 31 - 1) (hrounds : flowSizeByte < rounds)
    (hsocket : flow.client.hasSocket = true) (hconnected : flow.client.connected = true)
    (hle : flow.client.totBytes ≤ flowSizeByte) :
    ∃ calls, sendData sendStepSize flowSizeByte send rounds flow
        = .ok (afterSendData flowSizeByte flow calls) ∧
      flow.client.totBytes + acceptedBytes calls ≤ flowSizeByte := by
  have hflow64 : flowSizeByte < 2 ^ 64 := by omega
  have hreq : min sendStepSize (flowSizeByte - flow.client.totBytes) < 2 ^ 32 - 1 := by omega
  obtain ⟨calls, totBytes', hrun, hsends⟩ := sendLoop_sends hvalid hflow64 hstep rounds
    flow.client.totBytes [] (by omega) hreq
  have htotal := hsends.total
  have htotal_le := hsends.total_le hle
  refine ⟨calls, ?_, by omega⟩
  rw [sendData, throwIf_of_not (by simp [hsocket]), ok_bind, hrun, htotal]
  by_cases hall : flow.client.totBytes + acceptedBytes calls = flowSizeByte
  · simp [afterSendData, TcpSocket.afterSends, TcpSocket.afterClose, hall, hconnected]
  · simp [afterSendData, TcpSocket.afterSends, hall, hconnected]

theorem Books.afterSendData (h : Books flowSizeByte flow sends false)
    (hphase : flow.socket.phase ≠ .connecting) {calls : List SendCall}
    (hle : flow.client.totBytes + acceptedBytes calls ≤ flowSizeByte) :
    Books flowSizeByte (afterSendData flowSizeByte flow calls) (sends ++ calls)
      (decide (flow.client.totBytes + acceptedBytes calls = flowSizeByte)) where
  calls := by simp [BasicSim.afterSendData, h.calls]
  total := by simp [BasicSim.afterSendData, h.total, acceptedBytes]
  total_le := hle
  buffer_le := by
    have := h.buffer_le
    simp only [BasicSim.afterSendData]
    omega
  closed hclosed := by
    have hall := of_decide_eq_true hclosed
    exact ⟨hall, by simp [BasicSim.afterSendData, hall], hphase⟩
  connecting hconnecting := absurd hconnecting hphase

theorem Live.afterSendData (h : Live flow) (calls : List SendCall) :
    Live (afterSendData flowSizeByte flow calls) :=
  ⟨h.phase, h.hasSocket, h.connFailed, h.closedNormally, h.closedByError, h.isCompleted⟩

/-- Sent bytes are in the buffer, so sending is no progress. -/
theorem Live.progress_afterSendData (h : Live flow) (calls : List SendCall) :
    progress (BasicSim.afterSendData flowSizeByte flow calls) = progress flow := by
  simp only [progress, BasicSim.afterSendData, h.phase, if_false]
  omega

/-- What an event leads to: a state in order, no less progress, and nothing new for a client whose socket
    is over. -/
def LeadsInOrder (flowSizeByte : Nat) (flow : TcpFlow) (result : Except Exc TcpFlow) : Prop :=
  ∃ flow', result = .ok flow' ∧ InOrder flowSizeByte flow' ∧ progress flow ≤ progress flow' ∧
    (flow.socket.phase = .over → flow'.client = flow.client)

/-- The part shared by the callbacks that send: the client is connected and has not closed the socket. -/
theorem sendData_leadsInOrder {send : SendBehaviour} (hvalid : send.Valid) (hflow : flowSizeByte < 2 ^ 63)
    (hstep : 1 ≤ sendStepSize) (hstep' : sendStepSize ≤ 2 ^ 31 - 1) (hrounds : flowSizeByte < rounds)
    (hlive : Live flow) (hbooks : Books flowSizeByte flow sends false)
    (hphase : flow.socket.phase ≠ .connecting) (hconnected : flow.client.connected = true) :
    LeadsInOrder flowSizeByte flow (sendData sendStepSize flowSizeByte send rounds flow) := by
  obtain ⟨calls, hrun, hle⟩ := sendData_spec hvalid hflow hstep hstep' hrounds hlive.hasSocket hconnected
    hbooks.total_le
  refine ⟨_, hrun, ⟨⟨_, _, hbooks.afterSendData hphase hle⟩, .inl (hlive.afterSendData calls)⟩, ?_, ?_⟩
  · rw [hlive.progress_afterSendData]
  · intro hover
    exact absurd hover hlive.phase

theorem InOrder.live (h : InOrder flowSizeByte flow) (hphase : flow.socket.phase ≠ .over) : Live flow :=
  h.2.resolve_right fun hover => hphase hover.phase

theorem handle_connectionSucceeded {send : SendBehaviour} {nowNs : Int} (hflow : flowSizeByte < 2 ^ 63)
    (hstep : 1 ≤ sendStepSize) (hstep' : sendStepSize ≤ 2 ^ 31 - 1) (hrounds : flowSizeByte < rounds)
    (h : InOrder flowSizeByte flow) (hcan : flow.socket.Can (.connectionSucceeded send)) :
    LeadsInOrder flowSizeByte flow
      (flow.handle sendStepSize flowSizeByte rounds nowNs (.connectionSucceeded send)) := by
  obtain ⟨hphase, hvalid⟩ := hcan
  have hlive := h.live (by rw [hphase]; decide)
  obtain ⟨⟨sends, closed, hbooks⟩, _⟩ := h
  have hclosed : closed = false := by
    rw [← Bool.not_eq_true]
    intro hclosed
    exact (hbooks.closed hclosed).2.2 hphase
  subst hclosed
  have hlive' : Live ⟨{ flow.client with connected := true }, { flow.socket with phase := .connected }⟩ :=
    ⟨by simp, hlive.hasSocket, hlive.connFailed, hlive.closedNormally, hlive.closedByError,
      hlive.isCompleted⟩
  have hbooks' : Books flowSizeByte
      ⟨{ flow.client with connected := true }, { flow.socket with phase := .connected }⟩ sends false :=
    ⟨hbooks.calls, hbooks.total, hbooks.total_le, hbooks.buffer_le, by simp, by simp⟩
  obtain ⟨flow', hrun, hinorder, hprogress, _⟩ :=
    sendData_leadsInOrder hvalid hflow hstep hstep' hrounds hlive' hbooks' (by simp) rfl
  refine ⟨flow', hrun, hinorder, ?_, ?_⟩
  · simpa [progress, hphase] using hprogress
  · simp [hphase]

theorem handle_dataSend {send : SendBehaviour} {nowNs : Int} (hflow : flowSizeByte < 2 ^ 63)
    (hstep : 1 ≤ sendStepSize) (hstep' : sendStepSize ≤ 2 ^ 31 - 1) (hrounds : flowSizeByte < rounds)
    (h : InOrder flowSizeByte flow) (hcan : flow.socket.Can (.dataSend send)) :
    LeadsInOrder flowSizeByte flow
      (flow.handle sendStepSize flowSizeByte rounds nowNs (.dataSend send)) := by
  obtain ⟨hphase, hvalid⟩ := hcan
  have hlive := h.live hphase
  show LeadsInOrder flowSizeByte flow (dataSend sendStepSize flowSizeByte send rounds flow)
  unfold dataSend
  by_cases hconnected : flow.client.connected = true
  · rw [if_pos hconnected]
    obtain ⟨⟨sends, closed, hbooks⟩, _⟩ := h
    have hclosed : closed = false := by
      rw [← Bool.not_eq_true]
      intro hclosed
      simp [(hbooks.closed hclosed).2.1] at hconnected
    subst hclosed
    apply sendData_leadsInOrder hvalid hflow hstep hstep' hrounds hlive hbooks _ hconnected
    intro hconnecting
    simp [(hbooks.connecting hconnecting).1] at hconnected
  · rw [if_neg hconnected]
    exact ⟨flow, rfl, h, le_rfl, fun _ => rfl⟩

theorem handle_acknowledged {bytes : Nat} {nowNs : Int} (h : InOrder flowSizeByte flow) :
    LeadsInOrder flowSizeByte flow
      (flow.handle sendStepSize flowSizeByte rounds nowNs (.acknowledged bytes)) := by
  obtain ⟨⟨sends, closed, hbooks⟩, hstate⟩ := h
  have hbuffer := hbooks.buffer_le
  refine ⟨_, rfl, ⟨⟨sends, closed, hbooks.calls, hbooks.total, hbooks.total_le, ?_, hbooks.closed,
    hbooks.connecting⟩, ?_⟩, ?_, fun _ => rfl⟩
  · simp only [TcpSocket.after]
    omega
  · rcases hstate with hlive | hover
    · exact .inl ⟨hlive.phase, hlive.hasSocket, hlive.connFailed, hlive.closedNormally,
        hlive.closedByError, hlive.isCompleted⟩
    · exact .inr ⟨hover.phase, hover.one, hover.acked_le, hover.isCompleted⟩
  · by_cases hover : flow.socket.phase = .over
    · simp [progress, TcpSocket.after, hover]
    · simp [progress, TcpSocket.after, hover]
      omega

theorem handle_connectionFailed {nowNs : Int} (h : InOrder flowSizeByte flow)
    (hcan : flow.socket.Can .connectionFailed) :
    LeadsInOrder flowSizeByte flow
      (flow.handle sendStepSize flowSizeByte rounds nowNs .connectionFailed) := by
  have hphase : flow.socket.phase = .connecting := hcan
  have hlive := h.live (by rw [hphase]; decide)
  obtain ⟨⟨sends, closed, hbooks⟩, _⟩ := h
  obtain ⟨hconnected, htotal⟩ := hbooks.connecting hphase
  refine ⟨_, rfl, ⟨⟨sends, closed, hbooks.calls, hbooks.total, hbooks.total_le, hbooks.buffer_le, ?_, ?_⟩,
    .inr ⟨rfl, ?_, Nat.zero_le _, ?_⟩⟩, ?_, ?_⟩
  · intro hclosed
    exact ⟨(hbooks.closed hclosed).1, hconnected, by simp [connectionFailed, TcpSocket.after]⟩
  · simp [connectionFailed, TcpSocket.after]
  · simp [connectionFailed]
  · simp [connectionFailed]
  · simp [progress, hphase, htotal]
  · simp [hphase]

/-- The state after the socket was closed, normally or by an error. -/
def afterClosed (flow : TcpFlow) (nowNs : Int) (byError isCompleted : Bool) : TcpFlow where
  client := { flow.client with
    completionTimeNs := nowNs
    connFailed := false
    closedByError := byError
    closedNormally := !byError
    ackedBytes := flow.client.totBytes - flow.socket.txBuffer
    isCompleted := isCompleted
    hasSocket := false }
  socket := { flow.socket with phase := .over }

/-- The part shared by the two close callbacks. -/
theorem afterClosed_leadsInOrder {nowNs : Int} {byError isCompleted : Bool}
    (h : InOrder flowSizeByte flow) (hphase : flow.socket.phase ≠ .over)
    (hcompleted : isCompleted = true ↔
      byError = false ∧ flow.client.totBytes - flow.socket.txBuffer = flowSizeByte) :
    LeadsInOrder flowSizeByte flow (.ok (afterClosed flow nowNs byError isCompleted)) := by
  obtain ⟨⟨sends, closed, hbooks⟩, _⟩ := h
  have htotal := hbooks.total_le
  refine ⟨_, rfl, ⟨⟨sends, closed, hbooks.calls, hbooks.total, hbooks.total_le, hbooks.buffer_le, ?_, ?_⟩,
    .inr ⟨rfl, ?_, ?_, ?_⟩⟩, ?_, ?_⟩
  · intro hclosed
    exact ⟨(hbooks.closed hclosed).1, (hbooks.closed hclosed).2.1, by simp [afterClosed]⟩
  · simp [afterClosed]
  · cases byError <;> simp [afterClosed]
  · simp only [afterClosed]
    omega
  · simpa [afterClosed] using hcompleted
  · simp [progress, hphase, afterClosed]
  · intro hover
    exact absurd hover hphase

theorem handle_closedNormal {nowNs : Int} (hflow : flowSizeByte < 2 ^ 63)
    (h : InOrder flowSizeByte flow) (hcan : flow.socket.Can .closedNormal) :
    LeadsInOrder flowSizeByte flow
      (flow.handle sendStepSize flowSizeByte rounds nowNs .closedNormal) := by
  obtain ⟨hphase, hempty⟩ := hcan
  have hsocket := (h.live hphase).hasSocket
  obtain ⟨⟨sends, closed, hbooks⟩, _⟩ := id h
  have hunbuffered : TcpFlow.unbufferedBytes { flow with socket := flow.socket.after .closedNormal }
      = flow.client.totBytes - flow.socket.txBuffer := hbooks.unbufferedBytes hflow
  have hrun : flow.handle sendStepSize flowSizeByte rounds nowNs .closedNormal
      = .ok (afterClosed flow nowNs false
        (decide (flow.client.totBytes - flow.socket.txBuffer = flowSizeByte))) := by
    show socketClosedNormal flowSizeByte nowNs _ = _
    rw [socketClosedNormal, hunbuffered, throwIf_of_not (by simp [hsocket]), ok_bind,
      throwIf_of_not (by simp [TcpSocket.after, hempty]), ok_bind]
    rfl
  rw [hrun]
  apply afterClosed_leadsInOrder h hphase
  simp

theorem handle_closedError {nowNs : Int} (hflow : flowSizeByte < 2 ^ 63)
    (h : InOrder flowSizeByte flow) (hcan : flow.socket.Can .closedError) :
    LeadsInOrder flowSizeByte flow
      (flow.handle sendStepSize flowSizeByte rounds nowNs .closedError) := by
  have hphase : flow.socket.phase ≠ .over := hcan
  have hsocket := (h.live hphase).hasSocket
  obtain ⟨⟨sends, closed, hbooks⟩, _⟩ := id h
  have hunbuffered : TcpFlow.unbufferedBytes { flow with socket := flow.socket.after .closedError }
      = flow.client.totBytes - flow.socket.txBuffer := hbooks.unbufferedBytes hflow
  have hrun : flow.handle sendStepSize flowSizeByte rounds nowNs .closedError
      = .ok (afterClosed flow nowNs true false) := by
    show socketClosedError nowNs _ = _
    rw [socketClosedError, hunbuffered, throwIf_of_not (by simp [hsocket]), ok_bind]
    rfl
  rw [hrun]
  apply afterClosed_leadsInOrder h hphase
  simp

/-- **Step lemma.** Every event that the socket can produce is handled, and leads to a state in order. -/
theorem handle_leadsInOrder (hflow : flowSizeByte < 2 ^ 63) (hstep : 1 ≤ sendStepSize)
    (hstep' : sendStepSize ≤ 2 ^ 31 - 1) (hrounds : flowSizeByte < rounds)
    (h : InOrder flowSizeByte flow) {event : TcpSocketEvent} (hcan : flow.socket.Can event) (nowNs : Int) :
    LeadsInOrder flowSizeByte flow (flow.handle sendStepSize flowSizeByte rounds nowNs event) := by
  cases event with
  | connectionSucceeded send => exact handle_connectionSucceeded hflow hstep hstep' hrounds h hcan
  | connectionFailed => exact handle_connectionFailed h hcan
  | dataSend send => exact handle_dataSend hflow hstep hstep' hrounds h hcan
  | acknowledged bytes => exact handle_acknowledged h
  | closedNormal => exact handle_closedNormal hflow h hcan
  | closedError => exact handle_closedError hflow h hcan

theorem InOrder.getAckedBytes (h : InOrder flowSizeByte flow) (hflow : flowSizeByte < 2 ^ 63) :
    getAckedBytes flow = .ok (progress flow) := by
  obtain ⟨⟨sends, closed, hbooks⟩, hlive | hover⟩ := h
  · exact hlive.getAckedBytes hbooks hflow
  · exact hover.getAckedBytes hflow

end Accounts

/-! ## Runs -/

/-- The states that a client and its socket come to from a state, one event after the other. -/
inductive TcpRun (sendStepSize flowSizeByte rounds : Nat) (start : TcpFlow) : TcpFlow → Prop where
  | start : TcpRun sendStepSize flowSizeByte rounds start start
  | event {flow flow' : TcpFlow} {nowNs : Int} {event : TcpSocketEvent}
      (run : TcpRun sendStepSize flowSizeByte rounds start flow) (hcan : flow.socket.Can event)
      (h : flow.handle sendStepSize flowSizeByte rounds nowNs event = .ok flow') :
      TcpRun sendStepSize flowSizeByte rounds start flow'

theorem startApplication_inOrder {flowSizeByte : Nat} {bindResult connectResult nowNs : Int}
    {start : TcpFlow} (h : startApplication bindResult connectResult nowNs = .ok start) :
    InOrder flowSizeByte start := by
  obtain ⟨_, h⟩ := throwIf_bind_eq_ok.mp h
  have hbooks : ∀ client socket, client.totBytes = 0 → client.connected = false → socket.txBuffer = 0 →
      socket.calls = [] → ∃ sends closed, Books flowSizeByte ⟨client, socket⟩ sends closed := by
    intro client socket htotal hconnected hbuffer hcalls
    exact ⟨[], false, by simpa using hcalls, by simpa using htotal, by simp [htotal], by simp [hbuffer],
      by simp, fun _ => ⟨hconnected, htotal⟩⟩
  by_cases hconnect : connectResult = -1
  · rw [if_pos hconnect] at h
    cases h
    refine ⟨hbooks _ _ rfl rfl rfl rfl, .inr ⟨rfl, rfl, Nat.zero_le _, by simp [connectionFailed]⟩⟩
  · rw [if_neg hconnect] at h
    cases h
    refine ⟨hbooks _ _ rfl rfl rfl rfl, .inl ⟨by simp, rfl, rfl, rfl, rfl, rfl⟩⟩

/-- **Run lemma.** -/
theorem TcpRun.inOrder {sendStepSize flowSizeByte rounds : Nat} (hflow : flowSizeByte < 2 ^ 63)
    (hstep : 1 ≤ sendStepSize) (hstep' : sendStepSize ≤ 2 ^ 31 - 1) (hrounds : flowSizeByte < rounds)
    {start flow : TcpFlow} (hstart : InOrder flowSizeByte start)
    (h : TcpRun sendStepSize flowSizeByte rounds start flow) : InOrder flowSizeByte flow := by
  induction h with
  | start => exact hstart
  | event _ hcan hhandle ih =>
      obtain ⟨flow', hrun, hinorder, _⟩ :=
        handle_leadsInOrder hflow hstep hstep' hrounds ih hcan _
      rw [hhandle] at hrun
      cases hrun
      exact hinorder

/-- The calls of `Send` among the calls of a socket. -/
def sendCalls (calls : List SocketCall) : List SendCall :=
  calls.filterMap fun call => match call with
    | .send call => some call
    | .close => none

/-- The accounts of a flow at one moment. -/
structure KeepsAccounts (flowSizeByte : Nat) (flow : TcpFlow) : Prop where
  total_le : flow.client.totBytes ≤ flowSizeByte
  total_eq : flow.client.totBytes = acceptedBytes (sendCalls flow.socket.calls)
  /-- `Close` is called when the whole flow was accepted, and no call follows it -/
  close_last : ∀ before after, flow.socket.calls = before ++ .close :: after →
    acceptedBytes (sendCalls before) = flowSizeByte ∧ after = []
  one_flag :
    [flow.client.connFailed, flow.client.closedNormally, flow.client.closedByError].count true ≤ 1
  acked : ∃ acked : Nat, getAckedBytes flow = .ok (acked : Int) ∧ acked ≤ flowSizeByte
  completed : flow.client.isCompleted = true ↔
    flow.client.closedNormally = true ∧ getAckedBytes flow = .ok (flowSizeByte : Int)

section Calls

theorem sendCalls_map_send (sends : List SendCall) : sendCalls (sends.map .send) = sends := by
  induction sends with
  | nil => rfl
  | cons call sends ih => simp [sendCalls]

theorem sendCalls_append (xs ys : List SocketCall) :
    sendCalls (xs ++ ys) = sendCalls xs ++ sendCalls ys := List.filterMap_append

variable {flowSizeByte : Nat} {flow : TcpFlow} {sends : List SendCall} {closed : Bool}

theorem Books.sendCalls (h : Books flowSizeByte flow sends closed) :
    sendCalls flow.socket.calls = sends := by
  rw [h.calls, sendCalls_append, sendCalls_map_send]
  cases closed <;> simp [BasicSim.sendCalls]

theorem Books.close_last (h : Books flowSizeByte flow sends closed) {before after : List SocketCall}
    (hcalls : flow.socket.calls = before ++ .close :: after) :
    acceptedBytes (BasicSim.sendCalls before) = flowSizeByte ∧ after = [] := by
  have hnot : SocketCall.close ∉ sends.map SocketCall.send := by simp
  rw [h.calls] at hcalls
  cases hclosed : closed with
  | false =>
      exfalso
      rw [hclosed] at hcalls
      apply hnot
      simp only [Bool.false_eq_true, if_false, List.append_nil] at hcalls
      rw [hcalls]
      simp
  | true =>
      rw [hclosed, if_pos rfl] at hcalls
      obtain ⟨hbefore, _, hafter⟩ :=
        (List.append_cons_inj_of_notMem hnot List.not_mem_nil).mp hcalls
      rw [← hbefore, sendCalls_map_send, ← h.total]
      exact ⟨(h.closed hclosed).1, hafter.symm⟩

theorem InOrder.keepsAccounts (h : InOrder flowSizeByte flow) (hflow : flowSizeByte < 2 ^ 63) :
    KeepsAccounts flowSizeByte flow := by
  have hacked := h.getAckedBytes hflow
  obtain ⟨⟨sends, closed, hbooks⟩, hstate⟩ := h
  have hle := hbooks.total_le
  have hprogress : progress flow ≤ flowSizeByte := by
    unfold progress
    rcases hstate with hlive | hover
    · rw [if_neg hlive.phase]
      omega
    · rw [if_pos hover.phase]
      exact hover.acked_le
  refine ⟨hle, by rw [hbooks.sendCalls, hbooks.total], fun before after => hbooks.close_last, ?_,
    ⟨_, hacked, hprogress⟩, ?_⟩
  · rcases hstate with hlive | hover
    · simp [hlive.connFailed, hlive.closedNormally, hlive.closedByError]
    · exact hover.one.le
  · rw [hacked, Except.ok.injEq, Nat.cast_inj]
    rcases hstate with hlive | hover
    · simp [hlive.isCompleted, hlive.closedNormally]
    · rw [hover.isCompleted, progress, if_pos hover.phase]

end Calls

/-- **The client keeps exact accounts** under any order of the callbacks. After any events, the accounts are
    kept, and every event that the socket can produce is handled: no less counts as acknowledged than before,
    and once the socket is over the client does not change any more. -/
theorem tcp_flow_client_keeps_accounts {sendStepSize flowSizeByte rounds : Nat}
    (hflow : flowSizeByte < 2 ^ 63) (hstep : 1 ≤ sendStepSize) (hstep' : sendStepSize ≤ 2 ^ 31 - 1)
    (hrounds : flowSizeByte < rounds) {bindResult connectResult startNs : Int} {start flow : TcpFlow}
    (hstart : startApplication bindResult connectResult startNs = .ok start)
    (hrun : TcpRun sendStepSize flowSizeByte rounds start flow) :
    KeepsAccounts flowSizeByte flow ∧
      ∀ nowNs event, flow.socket.Can event →
        ∃ flow', flow.handle sendStepSize flowSizeByte rounds nowNs event = .ok flow' ∧
          (∃ acked acked' : Nat, getAckedBytes flow = .ok (acked : Int) ∧
            getAckedBytes flow' = .ok (acked' : Int) ∧ acked ≤ acked') ∧
          (flow.socket.phase = .over → flow'.client = flow.client) := by
  have hinorder := hrun.inOrder hflow hstep hstep' hrounds (startApplication_inOrder hstart)
  refine ⟨hinorder.keepsAccounts hflow, ?_⟩
  intro nowNs event hcan
  obtain ⟨flow', hhandle, hinorder', hprogress, hover⟩ :=
    handle_leadsInOrder hflow hstep hstep' hrounds hinorder hcan nowNs
  exact ⟨flow', hhandle, ⟨_, _, hinorder.getAckedBytes hflow, hinorder'.getAckedBytes hflow, hprogress⟩,
    hover⟩

/-- A socket that takes everything. -/
def takeAll : SendBehaviour := fun _ requested => min (requested : Int) (2 ^ 31 - 1)

theorem takeAll_valid : takeAll.Valid := by
  intro _ requested
  right
  refine ⟨?_, le_rfl⟩
  simp only [takeAll]
  omega

/-- A flow that was started. -/
def startedFlow : TcpFlow where
  client := { TcpFlowClientState.initial with hasSocket := true }
  socket := ⟨.connecting, 0, []⟩

/-- A flow of 10 bytes that was sent in steps of 4 bytes when the connection was there. -/
def sentFlow : TcpFlow where
  client := { TcpFlowClientState.initial with hasSocket := true, totBytes := 10 }
  socket := ⟨.connected, 10, [.send ⟨4, 4⟩, .send ⟨4, 4⟩, .send ⟨2, 2⟩, .close]⟩

theorem tcp_flow_client_keeps_accounts_sentFlow : KeepsAccounts 10 sentFlow := by
  have hstart : startApplication 0 0 0 = .ok startedFlow := rfl
  have hcan : startedFlow.socket.Can (.connectionSucceeded takeAll) := ⟨rfl, takeAll_valid⟩
  have hsent : startedFlow.handle 4 10 11 5 (.connectionSucceeded takeAll) = .ok sentFlow := rfl
  exact (tcp_flow_client_keeps_accounts (by decide) (by decide) (by decide) (Nat.lt_succ_self 10) hstart
    (.event .start hcan hsent)).1

end BasicSim
