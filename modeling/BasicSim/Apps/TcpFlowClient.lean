import BasicSim.Core.Cpp

/-!
# `Apps.TcpFlowClient` — the sender of a flow (`model/apps/tcp-flow-client.cc`)

The client writes its flow into the send buffer of a TCP socket, as much at a time as the buffer takes, and
closes the socket when everything is in it. It is driven by the callbacks of the socket. Afterwards the
progress is what was sent less what is still in the buffer.

The socket of ns-3 is not part of the sources: what it answers to `Send`, `Bind` and `Connect` comes with the
event, and only its send buffer and the calls that it received are kept. The detailed logs are in
`Apps.TcpFlowLogs`.

## Contents
- **Attributes.** `UintegerChecker` and the checkers of the client.
- **Socket.** `SendCall`, `SendBehaviour`, `IsAnswer`, `TcpSocket`.
- **Client.** `TcpFlowClientState`, `sendLoop`, `sendData`, the callbacks, `getAckedBytes`.
- **Events.** `TcpSocketEvent`, `TcpSocket.Can`, `handle`.
-/

namespace BasicSim

open Fallible

/-! ## Attributes -/

/-- `MakeUintegerChecker<T>(min)`, for an unsigned type of the given width. -/
structure UintegerChecker where
  bits : Nat
  min : Nat

/-- The attribute takes the value. -/
def UintegerChecker.Admits (checker : UintegerChecker) (v : Int) : Prop :=
  (checker.min : Int) ≤ v ∧ v < 2 ^ checker.bits

instance instDecidableAdmits (checker : UintegerChecker) (v : Int) : Decidable (checker.Admits v) :=
  inferInstanceAs (Decidable (_ ∧ _))

/-- The checker of `TcpFlowId`. -/
def tcpFlowIdChecker : UintegerChecker := ⟨64, 0⟩

/-- The checker of `FlowSizeByte`. -/
def flowSizeByteChecker : UintegerChecker := ⟨64, 1⟩

/-- The checker of `SendStepSize`. -/
def sendStepSizeChecker : UintegerChecker := ⟨32, 1⟩

/-! ## Socket -/

/-- A call of `Send`: the size of the packet, and the `int` that was returned. -/
structure SendCall where
  requested : Nat
  actual : Int
deriving DecidableEq

/-- How a socket answers the calls of `Send`, from those that it already answered and the size that is
    requested. -/
abbrev SendBehaviour := List SendCall → Nat → Int

/-- What `Send` can return: -1, or the number of bytes that were put into the buffer. -/
def IsAnswer (requested : Nat) (actual : Int) : Prop :=
  actual = -1 ∨ 0 ≤ actual ∧ actual ≤ min (requested : Int) (2 ^ 31 - 1)

/-- Every call of `Send` is answered so. -/
def SendBehaviour.Valid (send : SendBehaviour) : Prop :=
  ∀ calls requested, IsAnswer requested (send calls requested)

inductive SocketCall where
  | send (call : SendCall)
  | close
deriving DecidableEq

/-- Where the connection of a socket is. -/
inductive SocketPhase where
  | connecting
  | connected
  | over
deriving DecidableEq

/-- The socket, as far as the client sees it. -/
structure TcpSocket where
  phase : SocketPhase
  /-- the size of the send buffer -/
  txBuffer : Nat
  /-- the calls of `Send` and `Close`, in order -/
  calls : List SocketCall
deriving DecidableEq

/-- The bytes that a socket put into its buffer. -/
def acceptedBytes (calls : List SendCall) : Nat := (calls.map fun c => c.actual.toNat).sum

/-- The calls of one activation of `SendData`. -/
def TcpSocket.afterSends (socket : TcpSocket) (calls : List SendCall) : TcpSocket :=
  { socket with
    txBuffer := socket.txBuffer + acceptedBytes calls
    calls := socket.calls ++ calls.map .send }

def TcpSocket.afterClose (socket : TcpSocket) : TcpSocket :=
  { socket with calls := socket.calls ++ [.close] }

/-! ## Client -/

/-- The members of a `TcpFlowClient` under "State". -/
structure TcpFlowClientState where
  /-- `m_socket` is not null -/
  hasSocket : Bool
  connected : Bool
  totBytes : Nat
  completionTimeNs : Int
  connFailed : Bool
  closedNormally : Bool
  closedByError : Bool
  ackedBytes : Nat
  isCompleted : Bool
deriving DecidableEq

def TcpFlowClientState.initial : TcpFlowClientState where
  hasSocket := false
  connected := false
  totBytes := 0
  completionTimeNs := -1
  connFailed := false
  closedNormally := false
  closedByError := false
  ackedBytes := 0
  isCompleted := false

/-- A client and its socket. -/
structure TcpFlow where
  client : TcpFlowClientState
  socket : TcpSocket
deriving DecidableEq

namespace TcpFlow

section SendData

variable (sendStepSize flowSizeByte : Nat) (send : SendBehaviour)

/-- The loop of `SendData`; `none` when it is still running after `fuel` rounds. The size of a packet fits a
    `uint32_t`, as the step does. -/
def sendLoop : Nat → Nat → List SendCall → Option (Nat × List SendCall)
  | 0, _, _ => none
  | fuel + 1, totBytes, calls =>
    if totBytes < flowSizeByte then
      let toSend := min sendStepSize (flowSizeByte - totBytes)
      let actual := send calls toSend
      let totBytes' := if actual > 0 then (totBytes + actual.toNat) % 2 ^ 64 else totBytes
      let calls' := calls ++ [⟨toSend, actual⟩]
      if (toUInt32 actual).toNat ≠ toSend then some (totBytes', calls')
      else sendLoop fuel totBytes' calls'
    else some (totBytes, calls)

/-- The loop is followed for a number of rounds. -/
def sendData (rounds : Nat) (flow : TcpFlow) : Except Exc TcpFlow := do
  let client := flow.client
  throwIf ((client.totBytes < flowSizeByte ∨ client.totBytes = flowSizeByte ∧ client.connected = true) ∧
    client.hasSocket = false) <| .undefined "use of a null socket"
  match sendLoop sendStepSize flowSizeByte send rounds client.totBytes [] with
  | none => .error (.undefined "SendData does not return")
  | some (totBytes, calls) =>
    let socket := flow.socket.afterSends calls
    if totBytes = flowSizeByte ∧ client.connected = true then
      .ok ⟨{ client with totBytes := totBytes, connected := false }, socket.afterClose⟩
    else .ok ⟨{ client with totBytes := totBytes }, socket⟩

def connectionSucceeded (rounds : Nat) (flow : TcpFlow) : Except Exc TcpFlow :=
  sendData sendStepSize flowSizeByte send rounds
    { flow with client := { flow.client with connected := true } }

def dataSend (rounds : Nat) (flow : TcpFlow) : Except Exc TcpFlow :=
  if flow.client.connected = true then sendData sendStepSize flowSizeByte send rounds flow else .ok flow

end SendData

def connectionFailed (nowNs : Int) (flow : TcpFlow) : TcpFlow :=
  { flow with client := { flow.client with
      completionTimeNs := nowNs
      connFailed := true
      closedByError := false
      closedNormally := false
      ackedBytes := 0
      isCompleted := false
      hasSocket := false } }

/-- `m_totBytes` less the size of the send buffer, as a `uint64_t`. -/
def unbufferedBytes (flow : TcpFlow) : Nat :=
  (BitVec.ofInt 64 ((flow.client.totBytes : Int) - flow.socket.txBuffer)).toNat

def socketClosedNormal (flowSizeByte : Nat) (nowNs : Int) (flow : TcpFlow) : Except Exc TcpFlow := do
  throwIf (flow.client.hasSocket = false) <| .undefined "use of a null socket"
  throwIf (flow.socket.txBuffer ≠ 0) <|
    .abort "Socket closed normally but send buffer is not empty"
  .ok { flow with client := { flow.client with
      completionTimeNs := nowNs
      connFailed := false
      closedByError := false
      closedNormally := true
      ackedBytes := unbufferedBytes flow
      isCompleted := decide (unbufferedBytes flow = flowSizeByte)
      hasSocket := false } }

def socketClosedError (nowNs : Int) (flow : TcpFlow) : Except Exc TcpFlow := do
  throwIf (flow.client.hasSocket = false) <| .undefined "use of a null socket"
  .ok { flow with client := { flow.client with
      completionTimeNs := nowNs
      connFailed := false
      closedByError := true
      closedNormally := false
      ackedBytes := unbufferedBytes flow
      isCompleted := false
      hasSocket := false } }

/-- A `uint64_t` returned as an `int64_t`. -/
def getAckedBytes (flow : TcpFlow) : Except Exc Int :=
  if flow.client.connFailed = true ∨ flow.client.closedNormally = true ∨ flow.client.closedByError = true then
    .ok (toInt64 flow.client.ackedBytes)
  else do
    throwIf (flow.client.hasSocket = false) <| .undefined "use of a null socket"
    .ok (toInt64 (unbufferedBytes flow))

/-- The socket is created, bound and connected; the results of `Bind` and `Connect` are `int`s. A client is
    started once, without a socket and not connected, so nothing is sent here. -/
def startApplication (bindResult connectResult nowNs : Int) : Except Exc TcpFlow := do
  let flow : TcpFlow := ⟨{ TcpFlowClientState.initial with hasSocket := true }, ⟨.connecting, 0, []⟩⟩
  throwIf (bindResult = -1) <| .runtimeError "Failed to bind socket"
  if connectResult = -1 then
    .ok (connectionFailed nowNs { flow with socket := { flow.socket with phase := .over } })
  else .ok flow

end TcpFlow

/-! ## Events -/

/-- What a socket can do. The callbacks in which the client sends come with the answers that it gets. -/
inductive TcpSocketEvent where
  | connectionSucceeded (send : SendBehaviour)
  | connectionFailed
  | dataSend (send : SendBehaviour)
  | acknowledged (bytes : Nat)
  | closedNormal
  | closedError

/-- What ns-3 lets a socket do: it connects or fails to, once; it lets the client send at any moment; it
    takes acknowledged bytes out of its buffer; it is closed normally with an empty buffer, or by an error. A
    failure or a close is the last callback. -/
def TcpSocket.Can (socket : TcpSocket) : TcpSocketEvent → Prop
  | .connectionSucceeded send => socket.phase = .connecting ∧ send.Valid
  | .connectionFailed => socket.phase = .connecting
  | .dataSend send => socket.phase ≠ .over ∧ send.Valid
  | .acknowledged bytes => bytes ≤ socket.txBuffer
  | .closedNormal => socket.phase ≠ .over ∧ socket.txBuffer = 0
  | .closedError => socket.phase ≠ .over

/-- The socket after it did so, before the callback. -/
def TcpSocket.after (socket : TcpSocket) : TcpSocketEvent → TcpSocket
  | .connectionSucceeded _ => { socket with phase := .connected }
  | .connectionFailed => { socket with phase := .over }
  | .dataSend _ => socket
  | .acknowledged bytes => { socket with txBuffer := socket.txBuffer - bytes }
  | .closedNormal => { socket with phase := .over }
  | .closedError => { socket with phase := .over }

/-- The callback that the client registered for an event. -/
def TcpFlow.handle (sendStepSize flowSizeByte rounds : Nat) (nowNs : Int) (event : TcpSocketEvent)
    (flow : TcpFlow) : Except Exc TcpFlow :=
  let flow' : TcpFlow := { flow with socket := flow.socket.after event }
  match event with
  | .connectionSucceeded send => connectionSucceeded sendStepSize flowSizeByte send rounds flow'
  | .connectionFailed => .ok (connectionFailed nowNs flow')
  | .dataSend send => dataSend sendStepSize flowSizeByte send rounds flow'
  | .acknowledged _ => .ok flow'
  | .closedNormal => socketClosedNormal flowSizeByte nowNs flow'
  | .closedError => socketClosedError nowNs flow'

end BasicSim
