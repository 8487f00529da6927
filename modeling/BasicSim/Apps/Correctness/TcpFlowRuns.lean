import BasicSim.Apps.Correctness.TcpFlowClient
import BasicSim.Apps.TcpFlowLogs
import BasicSim.Core.Correctness.LogUpdateHelper
import BasicSim.Lib.Differences

/-!
# `Apps.Correctness.TcpFlowRuns` — what a flow and its logs have seen

A run is the history of the callbacks, with the state of the client after each. The logs have the updates that the
history gives, and the flags of the client tell which callback ended the connection.

## Contents
- **One log.** `WritesLog`, with a rule for each operation.
- **One event.** `Effect`, what an event of the socket does to a client (`handle_effect`).
- **Runs.** `Moment`, `FlowRun`; the invariant `Follows`, with `handle_follows` for one callback and
  `FlowRun.follows` for a run.
-/

namespace BasicSim

open Fallible StepFunction TcpFlow

/-! ## One log -/

/-- A log that is written to its file, after some updates. -/
structure WritesLog {V : Type} (render : V → Str) (linePrefix : Str) (ups : List (Int × V)) (h : LogUpdateHelper V) :
    Prop where
  logs : LogUpdateHelper.Logs render h ups
  saveToFile : h.saveToFile = true
  fileLinePrefix : h.fileLinePrefix = linePrefix

section Log

variable {V : Type} {render : V → Str} {linePrefix : Str} {ups : List (Int × V)} {h : LogUpdateHelper V} {time : Int}

variable (render) in
theorem createLog_writesLog (client : TcpFlowClient) (minusOne : V) (name : String) :
    ∃ h, DetailedLogs.createLog client minusOne name = .ok h ∧
      WritesLog render (DetailedLogs.linePrefix client) [] h := by
  obtain ⟨h, hcreate⟩ : ∃ h, DetailedLogs.createLog client minusOne name = .ok h := ⟨_, rfl⟩
  have hlogs : LogUpdateHelper.Logs render h [] ∧ _ := LogUpdateHelper.logs_create hcreate
  obtain ⟨hlogs, -, hfile, hpre⟩ := hlogs
  exact ⟨h, hcreate, hlogs, hfile, hpre⟩

variable [DecidableEq V]

theorem WritesLog.updateFile (hw : WritesLog render linePrefix ups h) (h0 : 0 ≤ time)
    (hpast : ∀ w ∈ ups, w.1 ≤ time) (value : V) :
    ∃ h', h.updateFile render time value = .ok h' ∧
      WritesLog render linePrefix (ups ++ [(time, value)]) h' := by
  obtain ⟨h', hupdate, hlogs, -, hfile, hpre⟩ :
      ∃ h', h.update render time value = (.ok (), h') ∧ _ := hw.logs.update h0 hpast
  refine ⟨h', ?_, hlogs, hfile.trans hw.saveToFile, hpre.trans hw.fileLinePrefix⟩
  rw [LogUpdateHelper.updateFile, hupdate]

/-- The file holds the run-length encoding of the updates up to a time. -/
def HoldsLog (render : V → Str) (linePrefix : Str) (ups : List (Int × V)) (time : Int) (h : LogUpdateHelper V) : Prop :=
  ∃ runs, LogUpdateHelper.IsWhole ups time runs ∧
    h.saveFileStream.lines =
      (Differences.entriesTo time runs).map fun e => LogUpdateHelper.formatLine render linePrefix e.1 e.2

/-- A log is finalized unless it was updated later. -/
theorem WritesLog.finalizeFile (hw : WritesLog render linePrefix ups h) (hasc : AscendingFrom 0 ups)
    (h0 : 0 ≤ time) :
    ((∃ h', h.finalizeFile render time = .ok h') ↔ ∀ w ∈ ups, w.1 ≤ time) ∧
      ∀ h', h.finalizeFile render time = .ok h' → HoldsLog render linePrefix ups time h' := by
  unfold LogUpdateHelper.finalizeFile
  by_cases hall : ∀ w ∈ ups, w.1 ≤ time
  · obtain ⟨runs, h', hwhole, hfinalize, hlines⟩ := hw.logs.finalize hasc h0 hall
    simp only [hfinalize, Except.ok.injEq, forall_eq', exists_eq', true_iff]
    refine ⟨hall, runs, hwhole, ?_⟩
    rw [hlines, if_pos hw.saveToFile, hw.fileLinePrefix, Differences.entriesTo, LogUpdateHelper.closingLines,
      List.map_append, List.map_map]
    cases runs.getLast? <;> rfl
  · obtain ⟨w, hw', hlate⟩ : ∃ w ∈ ups, time < w.1 := by
      simpa using hall
    obtain ⟨-, what, hthrow⟩ := hw.logs.past_throws hasc (.inr ⟨w, hw', hlate⟩)
    simpa [hthrow] using ⟨w.1, ⟨w.2, hw'⟩, hlate⟩

end Log

/-! ## One event -/

/-- The last callback of a socket. -/
def TcpSocketEvent.ends : TcpSocketEvent → Bool
  | .connectionFailed => true
  | .closedNormal => true
  | .closedError => true
  | _ => false

/-- The flags of a client tell how its connection ended. -/
structure EndedWith (event : TcpSocketEvent) (nowNs : Int) (client : TcpFlowClientState) : Prop where
  completionTimeNs : client.completionTimeNs = nowNs
  connFailed : client.connFailed = true ↔ event = .connectionFailed
  closedNormally : client.closedNormally = true ↔ event = .closedNormal
  closedByError : client.closedByError = true ↔ event = .closedError

/-- What an event of the socket does: only acknowledged bytes are progress, and only the last callback ends. -/
structure Effect (flowSizeByte : Nat) (event : TcpSocketEvent) (nowNs : Int) (flow flow' : TcpFlow) : Prop where
  inOrder : InOrder flowSizeByte flow'
  progress : (∀ bytes, event ≠ .acknowledged bytes) → progress flow' = progress flow
  live : event.ends = false → Live flow → Live flow'
  ends : event.ends = true → Live flow ∧ Over flowSizeByte flow' ∧ EndedWith event nowNs flow'.client
  afterOver : flow.socket.phase = .over → flow'.client = flow.client

/-- The size of the flow is that of a schedule, the send step is at most half of what its attribute takes, and `SendData` is
    followed far enough. -/
structure Bounds (sendStepSize flowSizeByte rounds : Nat) : Prop where
  flow : flowSizeByte < 2 ^ 63
  step_pos : 1 ≤ sendStepSize
  step_le : sendStepSize ≤ 2 ^ 31 - 1
  rounds : flowSizeByte < rounds

section Event

variable {sendStepSize flowSizeByte rounds : Nat} {flow flow' : TcpFlow} {event : TcpSocketEvent} {nowNs : Int}

/-- Sending leaves the connection and the progress as they are. -/
theorem sendData_keeps (hb : Bounds sendStepSize flowSizeByte rounds) {send : SendBehaviour} (hvalid : send.Valid)
    (hlive : Live flow) (hconnected : flow.client.connected = true) (hle : flow.client.totBytes ≤ flowSizeByte)
    (h : sendData sendStepSize flowSizeByte send rounds flow = .ok flow') :
    Live flow' ∧ progress flow' = progress flow := by
  obtain ⟨calls, hrun, -⟩ :=
    sendData_spec hvalid hb.flow hb.step_pos hb.step_le hb.rounds hlive.hasSocket hconnected hle
  obtain rfl := Except.ok.inj (hrun.symm.trans h)
  exact ⟨hlive.afterSendData calls, hlive.progress_afterSendData calls⟩

/-- The client of a flow in order has accepted no more than the flow has. -/
theorem InOrder.totBytes_le (h : InOrder flowSizeByte flow) : flow.client.totBytes ≤ flowSizeByte := by
  obtain ⟨⟨_, _, hbooks⟩, -⟩ := h
  exact hbooks.total_le

theorem InOrder.unbufferedBytes (h : InOrder flowSizeByte flow) (hflow : flowSizeByte < 2 ^ 63) :
    unbufferedBytes flow = flow.client.totBytes - flow.socket.txBuffer := by
  obtain ⟨⟨_, _, hbooks⟩, -⟩ := h
  exact hbooks.unbufferedBytes hflow

theorem handle_connectionSucceeded_keeps (hb : Bounds sendStepSize flowSizeByte rounds)
    (hin : InOrder flowSizeByte flow) {send : SendBehaviour} (hcan : flow.socket.Can (.connectionSucceeded send))
    (h : flow.handle sendStepSize flowSizeByte rounds nowNs (.connectionSucceeded send) = .ok flow') :
    Live flow' ∧ progress flow' = progress flow := by
  obtain ⟨hphase, hvalid⟩ := hcan
  have hlive := hin.live (by rw [hphase]; decide)
  have hlive' : Live ⟨{ flow.client with connected := true }, { flow.socket with phase := .connected }⟩ :=
    ⟨by simp, hlive.hasSocket, hlive.connFailed, hlive.closedNormally, hlive.closedByError, hlive.isCompleted⟩
  obtain ⟨hlive'', hprogress⟩ := sendData_keeps hb hvalid hlive' rfl hin.totBytes_le h
  exact ⟨hlive'', by simpa [progress, hphase] using hprogress⟩

theorem handle_dataSend_keeps (hb : Bounds sendStepSize flowSizeByte rounds) (hin : InOrder flowSizeByte flow)
    {send : SendBehaviour} (hcan : flow.socket.Can (.dataSend send))
    (h : flow.handle sendStepSize flowSizeByte rounds nowNs (.dataSend send) = .ok flow') :
    Live flow' ∧ progress flow' = progress flow := by
  obtain ⟨hphase, hvalid⟩ := hcan
  have hlive := hin.live hphase
  have h : dataSend sendStepSize flowSizeByte send rounds flow = .ok flow' := h
  unfold dataSend at h
  by_cases hconnected : flow.client.connected = true
  · rw [if_pos hconnected] at h
    exact sendData_keeps hb hvalid hlive hconnected hin.totBytes_le h
  · rw [if_neg hconnected] at h
    obtain rfl := Except.ok.inj h
    exact ⟨hlive, rfl⟩

/-- The last callback caches the progress. -/
theorem handle_ends (hb : Bounds sendStepSize flowSizeByte rounds) (hin : InOrder flowSizeByte flow)
    (hcan : flow.socket.Can event) (hends : event.ends = true)
    (h : flow.handle sendStepSize flowSizeByte rounds nowNs event = .ok flow') :
    Live flow ∧ flow'.socket.phase = .over ∧ EndedWith event nowNs flow'.client ∧ progress flow' = progress flow := by
  have hcached := hin.unbufferedBytes hb.flow
  cases event with
  | connectionSucceeded send => exact absurd hends Bool.false_ne_true
  | dataSend send => exact absurd hends Bool.false_ne_true
  | acknowledged bytes => exact absurd hends Bool.false_ne_true
  | connectionFailed =>
      have hphase : flow.socket.phase = .connecting := hcan
      obtain ⟨⟨_, _, hbooks⟩, -⟩ := id hin
      obtain ⟨-, htotal⟩ := hbooks.connecting hphase
      obtain rfl := Except.ok.inj h
      refine ⟨hin.live (by rw [hphase]; decide), rfl, ⟨rfl, ?_, ?_, ?_⟩, ?_⟩
      · simp [connectionFailed]
      · simp [connectionFailed]
      · simp [connectionFailed]
      · simp [progress, connectionFailed, TcpSocket.after, hphase, htotal]
  | closedNormal =>
      obtain ⟨hphase, hempty⟩ := hcan
      obtain ⟨-, h⟩ := throwIf_bind_eq_ok.mp h
      obtain ⟨-, h⟩ := throwIf_bind_eq_ok.mp h
      obtain rfl := Except.ok.inj h
      refine ⟨hin.live hphase, rfl, ⟨rfl, ?_, ?_, ?_⟩, ?_⟩
      · simp
      · simp
      · simp
      · simp only [progress, if_neg hphase]
        exact hcached
  | closedError =>
      have hphase : flow.socket.phase ≠ .over := hcan
      obtain ⟨-, h⟩ := throwIf_bind_eq_ok.mp h
      obtain rfl := Except.ok.inj h
      refine ⟨hin.live hphase, rfl, ⟨rfl, ?_, ?_, ?_⟩, ?_⟩
      · simp
      · simp
      · simp
      · simp only [progress, if_neg hphase]
        exact hcached

/-- **Step lemma.** An event that the socket can produce is handled, with this effect. -/
theorem handle_effect (hb : Bounds sendStepSize flowSizeByte rounds) (hin : InOrder flowSizeByte flow)
    (hcan : flow.socket.Can event) (nowNs : Int) :
    ∃ flow', flow.handle sendStepSize flowSizeByte rounds nowNs event = .ok flow' ∧
      Effect flowSizeByte event nowNs flow flow' := by
  obtain ⟨flow', h, hin', -, hover⟩ :=
    handle_leadsInOrder hb.flow hb.step_pos hb.step_le hb.rounds hin hcan nowNs
  refine ⟨flow', h, hin', ?_, ?_, ?_, hover⟩
  · intro hack
    cases event with
    | connectionSucceeded send => exact (handle_connectionSucceeded_keeps hb hin hcan h).2
    | dataSend send => exact (handle_dataSend_keeps hb hin hcan h).2
    | acknowledged bytes => exact absurd rfl (hack bytes)
    | connectionFailed => exact (handle_ends hb hin hcan rfl h).2.2.2
    | closedNormal => exact (handle_ends hb hin hcan rfl h).2.2.2
    | closedError => exact (handle_ends hb hin hcan rfl h).2.2.2
  · intro hends hlive
    cases event with
    | connectionSucceeded send => exact (handle_connectionSucceeded_keeps hb hin hcan h).1
    | dataSend send => exact (handle_dataSend_keeps hb hin hcan h).1
    | acknowledged bytes =>
        obtain rfl := Except.ok.inj h
        exact ⟨hlive.phase, hlive.hasSocket, hlive.connFailed, hlive.closedNormally, hlive.closedByError,
          hlive.isCompleted⟩
    | connectionFailed => exact absurd hends (by decide)
    | closedNormal => exact absurd hends (by decide)
    | closedError => exact absurd hends (by decide)
  · intro hends
    obtain ⟨hlive, hphase, hended, -⟩ := handle_ends hb hin hcan hends h
    exact ⟨hlive, hin'.2.resolve_left fun hlive' => hlive'.phase hphase, hended⟩

end Event

/-! ## Runs -/

/-- A callback, with its time and the client and socket that it leaves behind. -/
structure Moment where
  nowNs : Int
  callback : FlowCallback
  flow : TcpFlow

/-- What the socket can do; its traced variables may change at any moment. -/
def FlowCallback.CanCome (socket : TcpSocket) : FlowCallback → Prop
  | .socket event => socket.Can event
  | _ => True

def FlowCallback.ends : FlowCallback → Bool
  | .socket event => event.ends
  | _ => false

/-- A callback that updates a log which ends with the connection. -/
def FlowCallback.logs : FlowCallback → Bool
  | .socket (.acknowledged _) => true
  | .traced _ _ => true
  | _ => false

/-- The states that a client comes to from its start, one callback after the other. -/
inductive FlowRun (client : TcpFlowClient) (sendStepSize rounds : Nat) (startNs : Int) :
    List Moment → LoggedFlow → Prop where
  | start {bindResult : Int} {s : LoggedFlow} (h : LoggedFlow.startApplication client bindResult startNs = .ok s) :
      FlowRun client sendStepSize rounds startNs [] s
  | callback {history : List Moment} {s s' : LoggedFlow} {nowNs : Int} {callback : FlowCallback}
      (run : FlowRun client sendStepSize rounds startNs history s) (hfrom : startNs ≤ nowNs)
      (htime : ∀ m ∈ history, m.nowNs ≤ nowNs) (hcan : callback.CanCome s.flow.socket)
      (h : s.handle sendStepSize client.flowSizeByte.toNat rounds nowNs callback = .ok s') :
      FlowRun client sendStepSize rounds startNs (history ++ [⟨nowNs, callback, s'.flow⟩]) s'

namespace Moment

def loggedProgress (m : Moment) : Option Int :=
  match m.callback with
  | .socket (.acknowledged _) => some (progress m.flow : Int)
  | _ => none

def loggedVariable (v : TracedVariable) (m : Moment) : Option Int :=
  match m.callback with
  | .traced w newValue => if w = v then some newValue else none
  | _ => none

def loggedState (m : Moment) : Option Str :=
  match m.callback with
  | .state newState => some newState.text
  | _ => none

def loggedCongState (m : Moment) : Option Str :=
  match m.callback with
  | .congState newCongState => some newCongState.text
  | _ => none

end Moment

/-- The updates that the callbacks of a history make. -/
def historyUpdates {V : Type} (f : Moment → Option V) (history : List Moment) : List (Int × V) :=
  history.filterMap fun m => (f m).map fun v => (m.nowNs, v)

section Updates

variable (startNs : Int) (history : List Moment)

/-- The bytes that count as acknowledged, over time. -/
def ackedOver : Int → Option Int :=
  lastUpdate ((startNs, 0) :: history.map fun m => (m.nowNs, (progress m.flow : Int)))

/-- The updates of the log of the progress. -/
def progressUpdates : List (Int × Int) := (startNs, 0) :: historyUpdates Moment.loggedProgress history

/-- The updates of the log of a traced variable. -/
def tracedUpdates (v : TracedVariable) : List (Int × Int) := historyUpdates (Moment.loggedVariable v) history

/-- The updates of the log of the states. -/
def stateUpdates : List (Int × Str) := (startNs, TcpStates.closed.text) :: historyUpdates Moment.loggedState history

/-- The updates of the log of the congestion states. -/
def congStateUpdates : List (Int × Str) :=
  (startNs, TcpCongState.caOpen.text) :: historyUpdates Moment.loggedCongState history

end Updates

/-- The logs after a history. -/
structure WritesLogs (client : TcpFlowClient) (startNs : Int) (history : List Moment) (logs : DetailedLogs) : Prop where
  progressByte : WritesLog toStr (DetailedLogs.linePrefix client) (progressUpdates startNs history) logs.progressByte
  traced : ∀ v, WritesLog toStr (DetailedLogs.linePrefix client) (tracedUpdates history v) (logs.traced v)
  state : WritesLog id (DetailedLogs.linePrefix client) (stateUpdates startNs history) logs.state
  congState : WritesLog id (DetailedLogs.linePrefix client) (congStateUpdates startNs history) logs.congState

/-- How the connection stands, by the last callbacks in the history: there was none, or exactly one. -/
inductive Stands (flowSizeByte : Nat) (history : List Moment) (flow : TcpFlow) : Prop where
  | live (none : history.filter (fun m => m.callback.ends) = []) (live : Live flow)
  | ended {m : Moment} {event : TcpSocketEvent} (one : history.filter (fun m => m.callback.ends) = [m])
      (callback : m.callback = .socket event) (hover : Over flowSizeByte flow)
      (flags : EndedWith event m.nowNs flow.client) (progress : progress flow = progress m.flow)

/-- A history at weakly ascending times from the start on. -/
structure Chronicle (startNs : Int) (history : List Moment) : Prop where
  ascending : history.Pairwise fun m m' => m.nowNs ≤ m'.nowNs
  from_le : ∀ m ∈ history, startNs ≤ m.nowNs

/-- **The invariant** of the client and its socket. -/
structure Seen (flowSizeByte : Nat) (startNs : Int) (history : List Moment) (flow : TcpFlow) : Prop
    extends Chronicle startNs history where
  inOrder : InOrder flowSizeByte flow
  stands : Stands flowSizeByte history flow
  /-- the progress so far is the last one of the history -/
  acked : ∀ τ, startNs ≤ τ → (∀ m ∈ history, m.nowNs ≤ τ) → ackedOver startNs history τ = some (progress flow : Int)
  updates : ∀ τ, lastUpdate (progressUpdates startNs history) τ = ackedOver startNs history τ

/-- **The invariant** of a client with its logs. -/
structure Follows (client : TcpFlowClient) (startNs : Int) (history : List Moment) (s : LoggedFlow) : Prop where
  seen : Seen client.flowSizeByte.toNat startNs history s.flow
  logs : match s.logs with
    | none => client.enableDetailedLoggingToFile = false
    | some logs => client.enableDetailedLoggingToFile = true ∧ WritesLogs client startNs history logs

section Histories

variable {V : Type} {f : Moment → Option V} {history : List Moment} {m : Moment} {startNs : Int}

theorem historyUpdates_concat : historyUpdates f (history ++ [m])
    = historyUpdates f history ++ ((f m).map fun v => (m.nowNs, v)).toList := by
  unfold historyUpdates
  rw [List.filterMap_append]
  cases hm : f m <;> simp [hm]

theorem mem_historyUpdates {w : Int × V} (h : w ∈ historyUpdates f history) : ∃ m ∈ history, m.nowNs = w.1 := by
  obtain ⟨m, hm, hw⟩ := List.mem_filterMap.mp h
  obtain ⟨v, -, rfl⟩ := Option.map_eq_some_iff.mp hw
  exact ⟨m, hm, rfl⟩

/-- The updates are at ascending times. -/
theorem Chronicle.updates (h : Chronicle startNs history) : AscendingFrom startNs (historyUpdates f history) := by
  constructor
  · unfold historyUpdates
    rw [List.pairwise_filterMap]
    refine h.ascending.imp fun hle u hu w hw => ?_
    obtain ⟨_, -, rfl⟩ := Option.map_eq_some_iff.mp hu
    obtain ⟨_, -, rfl⟩ := Option.map_eq_some_iff.mp hw
    exact hle
  · intro w hw
    obtain ⟨m, hm, heq⟩ := mem_historyUpdates hw
    exact heq ▸ h.from_le m hm

theorem Chronicle.ascendingFrom_zero (h : Chronicle startNs history) (h0 : 0 ≤ startNs) :
    AscendingFrom 0 (historyUpdates f history) :=
  ⟨h.updates.ascending, fun w hw => h0.trans (h.updates.from_le w hw)⟩

/-- The same behind an update at the start. -/
theorem Chronicle.ascendingFrom_cons (h : Chronicle startNs history) (h0 : 0 ≤ startNs) (v : V) :
    AscendingFrom 0 ((startNs, v) :: historyUpdates f history) where
  ascending := List.pairwise_cons.mpr ⟨h.updates.from_le, h.updates.ascending⟩
  from_le := List.forall_mem_cons.mpr ⟨h0, (h.ascendingFrom_zero h0).from_le⟩

theorem Chronicle.concat (h : Chronicle startNs history) (hfrom : startNs ≤ m.nowNs)
    (htime : ∀ m' ∈ history, m'.nowNs ≤ m.nowNs) : Chronicle startNs (history ++ [m]) where
  ascending := by
    rw [List.pairwise_append]
    exact ⟨h.ascending, List.pairwise_singleton _ m, fun m' hm' _ hm => List.mem_singleton.mp hm ▸ htime m' hm'⟩
  from_le m' hm' := by
    rcases List.mem_append.mp hm' with hm' | hm'
    · exact h.from_le m' hm'
    · exact List.mem_singleton.mp hm' ▸ hfrom

theorem ackedOver_concat : ackedOver startNs (history ++ [m])
    = lastUpdate (((startNs, 0) :: history.map fun m => (m.nowNs, (progress m.flow : Int)))
        ++ [(m.nowNs, (progress m.flow : Int))]) := by
  rw [ackedOver, List.map_append, List.map_singleton, List.cons_append]

end Histories

section Step

variable {sendStepSize flowSizeByte rounds : Nat} {startNs nowNs : Int} {history : List Moment} {flow flow' : TcpFlow}
  {event : TcpSocketEvent} {callback : FlowCallback}

/-- A callback that is not the last one of the socket leaves the connection as it stands. -/
theorem Stands.concat (h : Stands flowSizeByte history flow) (hends : callback.ends = false)
    (hin : InOrder flowSizeByte flow') (hlive : Live flow → Live flow')
    (hafter : flow.socket.phase = .over → flow'.client = flow.client ∧ flow'.socket.phase = .over) :
    Stands flowSizeByte (history ++ [⟨nowNs, callback, flow'⟩]) flow' := by
  have hfilter : (history ++ [(⟨nowNs, callback, flow'⟩ : Moment)]).filter (fun m => m.callback.ends)
      = history.filter (fun m => m.callback.ends) := by
    rw [List.filter_append, List.filter_cons_of_neg (by simpa using hends), List.filter_nil, List.append_nil]
  cases h with
  | live none live => exact .live (hfilter.trans none) (hlive live)
  | ended one callback hover flags hprogress =>
      obtain ⟨hclient, hphase⟩ := hafter hover.phase
      refine .ended (hfilter.trans one) callback (hin.2.resolve_left fun hl => hl.phase hphase) (hclient ▸ flags) ?_
      rw [← hprogress, progress, progress, if_pos hphase, if_pos hover.phase, hclient]

/-- The last callback of the socket. -/
theorem Stands.concat_ends (h : Stands flowSizeByte history flow) (hends : event.ends = true)
    (heffect : Effect flowSizeByte event nowNs flow flow') :
    Stands flowSizeByte (history ++ [⟨nowNs, .socket event, flow'⟩]) flow' := by
  obtain ⟨hlive, hover, hended⟩ := heffect.ends hends
  cases h with
  | ended _ _ hover => exact absurd hover.phase hlive.phase
  | live none _ =>
      refine .ended (m := ⟨nowNs, .socket event, flow'⟩) ?_ rfl hover hended rfl
      rw [List.filter_append, none, List.filter_cons_of_pos (by exact hends)]
      rfl

/-- A connection that is over stays so. -/
theorem Effect.phase_over (heffect : Effect flowSizeByte event nowNs flow flow') (hin : InOrder flowSizeByte flow)
    (hover : flow.socket.phase = .over) : flow'.socket.phase = .over := by
  by_contra hphase
  -- a client that was over is not live, and its flags do not change
  have hover' : Over flowSizeByte flow := hin.2.resolve_left fun hl => hl.phase hover
  have hlive := heffect.inOrder.live hphase
  have hone := hover'.one
  rw [← heffect.afterOver hover, hlive.connFailed, hlive.closedNormally, hlive.closedByError] at hone
  exact absurd hone (by decide)

variable (h : Seen flowSizeByte startNs history flow) (hfrom : startNs ≤ nowNs) (htime : ∀ m ∈ history, m.nowNs ≤ nowNs)

include h hfrom htime

/-- **Step lemma.** A callback after which the progress is up to date with its log. -/
theorem Seen.concat (hin : InOrder flowSizeByte flow')
    (hstands : Stands flowSizeByte (history ++ [⟨nowNs, callback, flow'⟩]) flow')
    (hlogged : (∀ bytes, callback ≠ .socket (.acknowledged bytes)) → progress flow' = progress flow) :
    Seen flowSizeByte startNs (history ++ [⟨nowNs, callback, flow'⟩]) flow' := by
  refine ⟨h.toChronicle.concat hfrom htime, hin, hstands, ?_, ?_⟩
  · intro τ _ hτ
    rw [ackedOver_concat]
    exact lastUpdate_concat_of_le (hτ ⟨nowNs, callback, flow'⟩ (by simp))
  · intro τ
    rw [ackedOver_concat]
    by_cases hack : ∃ bytes, callback = .socket (.acknowledged bytes)
    · obtain ⟨bytes, rfl⟩ := hack
      rw [progressUpdates, historyUpdates_concat, Moment.loggedProgress]
      show lastUpdate (progressUpdates startNs history ++ [(nowNs, (progress flow' : Int))]) τ = _
      rcases lt_or_ge τ nowNs with hlt | hge
      · rw [lastUpdate_concat_of_lt hlt, lastUpdate_concat_of_lt hlt]
        exact h.updates τ
      · rw [lastUpdate_concat_of_le hge, lastUpdate_concat_of_le hge]
    · -- nothing is logged, and there is no progress either
      have hnone : progressUpdates startNs (history ++ [⟨nowNs, callback, flow'⟩]) = progressUpdates startNs history := by
        rw [progressUpdates, historyUpdates_concat, Moment.loggedProgress]
        split
        · next bytes heq => exact absurd ⟨bytes, heq⟩ hack
        · simp [progressUpdates]
      rw [hnone, h.updates]
      rcases lt_or_ge τ nowNs with hlt | hge
      · rw [lastUpdate_concat_of_lt hlt]
        rfl
      · rw [lastUpdate_concat_of_le hge, h.acked τ (hfrom.trans hge) fun m hm => (htime m hm).trans hge,
          hlogged fun bytes heq => hack ⟨bytes, heq⟩]

theorem Seen.socketEvent (heffect : Effect flowSizeByte event nowNs flow flow') :
    Seen flowSizeByte startNs (history ++ [⟨nowNs, .socket event, flow'⟩]) flow' := by
  refine h.concat hfrom htime heffect.inOrder ?_ fun hack => heffect.progress fun bytes heq => hack bytes (heq ▸ rfl)
  cases hends : event.ends with
  | true => exact h.stands.concat_ends hends heffect
  | false =>
      exact h.stands.concat hends heffect.inOrder (heffect.live hends) fun hover =>
        ⟨heffect.afterOver hover, heffect.phase_over h.inOrder hover⟩

/-- A traced variable is none of the client's business. -/
theorem Seen.trace (hends : callback.ends = false) :
    Seen flowSizeByte startNs (history ++ [⟨nowNs, callback, flow⟩]) flow :=
  h.concat hfrom htime h.inOrder (h.stands.concat hends h.inOrder id fun hover => ⟨rfl, hover⟩) fun _ => rfl

end Step

section Each

variable {α : Type} {f : TracedVariable → Except Exc α}

theorem TracedVariable.each_eq_ok {g : TracedVariable → α} : each f = .ok g ↔ ∀ v, f v = .ok (g v) := by
  constructor
  · intro h
    obtain ⟨rtt, hrtt, h⟩ := bind_eq_ok.mp h
    obtain ⟨rto, hrto, h⟩ := bind_eq_ok.mp h
    obtain ⟨cwnd, hcwnd, h⟩ := bind_eq_ok.mp h
    obtain ⟨cwndInflated, hcwndInflated, h⟩ := bind_eq_ok.mp h
    obtain ⟨ssthresh, hssthresh, h⟩ := bind_eq_ok.mp h
    obtain ⟨inflight, hinflight, h⟩ := bind_eq_ok.mp h
    obtain rfl := Except.ok.inj h
    intro v
    cases v <;> assumption
  · intro h
    simp only [each, h, ok_bind, Except.ok.injEq]
    funext v
    cases v <;> rfl

/-- It is enough that each of them succeeds. -/
theorem TracedVariable.each_total {P : TracedVariable → α → Prop} (h : ∀ v, ∃ a, f v = .ok a ∧ P v a) :
    ∃ g, each f = .ok g ∧ ∀ v, P v (g v) := by
  choose g hg hP using h
  exact ⟨g, each_eq_ok.mpr hg, hP⟩

end Each

section Logging

variable {client : TcpFlowClient} {startNs nowNs : Int} {history : List Moment} {logs : DetailedLogs}

/-- The logs of a client that starts. -/
theorem DetailedLogs.create_writesLogs (client : TcpFlowClient) (h0 : 0 ≤ startNs) :
    ∃ logs, DetailedLogs.create client startNs 0 = .ok logs ∧ WritesLogs client startNs [] logs := by
  obtain ⟨progress₀, hprogress₀, hw⟩ := createLog_writesLog toStr client (-1 : Int) "progress"
  obtain ⟨progressByte, hprogress, hprogressByte⟩ := hw.updateFile h0 (fun _ h => nomatch h) 0
  obtain ⟨traced, htraced, hall⟩ := TracedVariable.each_total fun v =>
    createLog_writesLog toStr client (-1 : Int) v.name
  obtain ⟨state₀, hstate₀, hw⟩ := createLog_writesLog id client DetailedLogs.minusOneStr "state"
  obtain ⟨state, hstate, hstateLog⟩ := hw.updateFile h0 (fun _ h => nomatch h) TcpStates.closed.text
  obtain ⟨cong₀, hcong₀, hw⟩ := createLog_writesLog id client DetailedLogs.minusOneStr "cong_state"
  obtain ⟨congState, hcong, hcongLog⟩ := hw.updateFile h0 (fun _ h => nomatch h) TcpCongState.caOpen.text
  refine ⟨⟨progressByte, traced, state, congState⟩, ?_, hprogressByte, hall, hstateLog, hcongLog⟩
  rw [DetailedLogs.create, hprogress₀, ok_bind, hprogress, ok_bind, htraced, ok_bind, hstate₀, ok_bind, hstate, ok_bind,
    hcong₀, ok_bind, hcong, ok_bind]

theorem DetailedLogs.onChange_eq (v : TracedVariable) : DetailedLogs.onChange v = DetailedLogs.tracedChange v := by
  cases v <;> rfl

variable (hw : WritesLogs client startNs history logs) (h0 : 0 ≤ startNs) (hfrom : startNs ≤ nowNs)
  (htime : ∀ m ∈ history, m.nowNs ≤ nowNs)

include hfrom htime in
theorem historyUpdates_le {V : Type} {f : Moment → Option V} (v : V) :
    ∀ w ∈ (startNs, v) :: historyUpdates f history, w.1 ≤ nowNs := by
  refine List.forall_mem_cons.mpr ⟨hfrom, fun w hw => ?_⟩
  obtain ⟨m, hm, heq⟩ := mem_historyUpdates hw
  exact heq ▸ htime m hm

include hw

/-- A callback that no log is connected to. -/
theorem WritesLogs.skip {event : TcpSocketEvent} (hack : ∀ bytes, event ≠ .acknowledged bytes) (flow : TcpFlow) :
    WritesLogs client startNs (history ++ [⟨nowNs, .socket event, flow⟩]) logs := by
  cases event with
  | acknowledged bytes => exact absurd rfl (hack bytes)
  | connectionSucceeded _ | connectionFailed | dataSend _ | closedNormal | closedError =>
      obtain ⟨hp, ht, hs, hc⟩ := hw
      exact ⟨by simpa [progressUpdates, historyUpdates_concat, Moment.loggedProgress] using hp,
        fun v => by simpa [tracedUpdates, historyUpdates_concat, Moment.loggedVariable] using ht v,
        by simpa [stateUpdates, historyUpdates_concat, Moment.loggedState] using hs,
        by simpa [congStateUpdates, historyUpdates_concat, Moment.loggedCongState] using hc⟩

include h0 hfrom htime

theorem WritesLogs.acknowledged (bytes : Nat) (flow : TcpFlow) :
    ∃ h, logs.progressByte.updateFile toStr nowNs (progress flow) = .ok h ∧
      WritesLogs client startNs (history ++ [⟨nowNs, .socket (.acknowledged bytes), flow⟩])
        { logs with progressByte := h } := by
  obtain ⟨hp, ht, hs, hc⟩ := hw
  obtain ⟨h, hrun, hp'⟩ := hp.updateFile (h0.trans hfrom) (historyUpdates_le hfrom htime 0) (progress flow)
  refine ⟨h, hrun, ?_, fun v => ?_, ?_, ?_⟩
  · simpa [progressUpdates, historyUpdates_concat, Moment.loggedProgress] using hp'
  · simpa [tracedUpdates, historyUpdates_concat, Moment.loggedVariable] using ht v
  · simpa [stateUpdates, historyUpdates_concat, Moment.loggedState] using hs
  · simpa [congStateUpdates, historyUpdates_concat, Moment.loggedCongState] using hc

theorem WritesLogs.onChange (v : TracedVariable) (newValue : Int) (flow : TcpFlow) :
    ∃ logs', DetailedLogs.onChange v nowNs newValue logs = .ok logs' ∧
      WritesLogs client startNs (history ++ [⟨nowNs, .traced v newValue, flow⟩]) logs' := by
  obtain ⟨hp, ht, hs, hc⟩ := hw
  have hpast : ∀ w ∈ tracedUpdates history v, w.1 ≤ nowNs :=
    fun w hw => historyUpdates_le hfrom htime 0 w (List.mem_cons_of_mem _ hw)
  obtain ⟨h, hrun, hv⟩ := (ht v).updateFile (h0.trans hfrom) hpast newValue
  refine ⟨{ logs with traced := Function.update logs.traced v h }, ?_, ?_, fun w => ?_, ?_, ?_⟩
  · rw [DetailedLogs.onChange_eq, DetailedLogs.tracedChange, hrun, ok_bind]
  · simpa [progressUpdates, historyUpdates_concat, Moment.loggedProgress] using hp
  · by_cases hvw : v = w
    · subst hvw
      simpa [tracedUpdates, historyUpdates_concat, Moment.loggedVariable] using hv
    · -- the log of another variable
      simpa [tracedUpdates, historyUpdates_concat, Moment.loggedVariable, hvw, Function.update_of_ne (Ne.symm hvw)] using ht w
  · simpa [stateUpdates, historyUpdates_concat, Moment.loggedState] using hs
  · simpa [congStateUpdates, historyUpdates_concat, Moment.loggedCongState] using hc

theorem WritesLogs.stateChange (newState : TcpStates) (flow : TcpFlow) :
    ∃ logs', DetailedLogs.stateChange newState nowNs logs = .ok logs' ∧
      WritesLogs client startNs (history ++ [⟨nowNs, .state newState, flow⟩]) logs' := by
  obtain ⟨hp, ht, hs, hc⟩ := hw
  obtain ⟨h, hrun, hs'⟩ := hs.updateFile (h0.trans hfrom) (historyUpdates_le hfrom htime _) newState.text
  refine ⟨{ logs with state := h }, ?_, ?_, fun w => ?_, ?_, ?_⟩
  · rw [DetailedLogs.stateChange, hrun, ok_bind]
  · simpa [progressUpdates, historyUpdates_concat, Moment.loggedProgress] using hp
  · simpa [tracedUpdates, historyUpdates_concat, Moment.loggedVariable] using ht w
  · simpa [stateUpdates, historyUpdates_concat, Moment.loggedState] using hs'
  · simpa [congStateUpdates, historyUpdates_concat, Moment.loggedCongState] using hc

theorem WritesLogs.congStateChange (newCongState : TcpCongState) (flow : TcpFlow) :
    ∃ logs', DetailedLogs.congStateChange newCongState nowNs logs = .ok logs' ∧
      WritesLogs client startNs (history ++ [⟨nowNs, .congState newCongState, flow⟩]) logs' := by
  obtain ⟨hp, ht, hs, hc⟩ := hw
  obtain ⟨h, hrun, hc'⟩ := hc.updateFile (h0.trans hfrom) (historyUpdates_le hfrom htime _) newCongState.text
  refine ⟨{ logs with congState := h }, ?_, ?_, fun w => ?_, ?_, ?_⟩
  · rw [DetailedLogs.congStateChange, hrun, ok_bind]
  · simpa [progressUpdates, historyUpdates_concat, Moment.loggedProgress] using hp
  · simpa [tracedUpdates, historyUpdates_concat, Moment.loggedVariable] using ht w
  · simpa [stateUpdates, historyUpdates_concat, Moment.loggedState] using hs
  · simpa [congStateUpdates, historyUpdates_concat, Moment.loggedCongState] using hc'

end Logging

section Run

variable {client : TcpFlowClient} {sendStepSize rounds : Nat} {startNs nowNs : Int} {history : List Moment}
  {s s' : LoggedFlow} {callback : FlowCallback}

theorem startApplication_eq {bindResult : Int} {flow : TcpFlow}
    (h : TcpFlow.startApplication bindResult 0 startNs = .ok flow) : flow = startedFlow := by
  obtain ⟨-, h⟩ := throwIf_bind_eq_ok.mp h
  exact (Except.ok.inj h).symm

theorem startApplication_follows {bindResult : Int} (h0 : 0 ≤ startNs)
    (h : LoggedFlow.startApplication client bindResult startNs = .ok s) : Follows client startNs [] s := by
  obtain ⟨flow, hstart, h⟩ := bind_eq_ok.mp h
  have hin : InOrder client.flowSizeByte.toNat flow := startApplication_inOrder hstart
  obtain rfl := startApplication_eq hstart
  have hseen : Seen client.flowSizeByte.toNat startNs [] startedFlow := by
    refine ⟨⟨.nil, fun _ h => nomatch h⟩, hin, .live rfl ⟨by decide, rfl, rfl, rfl, rfl, rfl⟩, fun τ hτ _ => ?_,
      fun _ => rfl⟩
    exact lastUpdate_of_getLast rfl hτ
  by_cases henabled : client.enableDetailedLoggingToFile = true
  · obtain ⟨logs, hlogs, hw⟩ := DetailedLogs.create_writesLogs client h0
    have hacked : getAckedBytes startedFlow = .ok 0 := rfl
    rw [if_pos henabled, hacked, ok_bind, hlogs, ok_bind] at h
    obtain rfl := Except.ok.inj h
    exact ⟨hseen, henabled, hw⟩
  · rw [if_neg henabled] at h
    obtain rfl := Except.ok.inj h
    exact ⟨hseen, Bool.eq_false_iff.mpr henabled⟩

/-- A callback that only the logs are concerned with. -/
theorem Follows.withLogs {f : DetailedLogs → Except Exc DetailedLogs} {flow : TcpFlow}
    (hseen : Seen client.flowSizeByte.toNat startNs (history ++ [⟨nowNs, callback, flow⟩]) flow)
    (hlogs : match s.logs with
      | none => client.enableDetailedLoggingToFile = false
      | some logs => client.enableDetailedLoggingToFile = true ∧ WritesLogs client startNs history logs)
    (hflow : s.flow = flow)
    (hf : ∀ logs, WritesLogs client startNs history logs →
      ∃ logs', f logs = .ok logs' ∧ WritesLogs client startNs (history ++ [⟨nowNs, callback, flow⟩]) logs') :
    ∃ s', s.withLogs f = .ok s' ∧ Follows client startNs (history ++ [⟨nowNs, callback, s'.flow⟩]) s' := by
  obtain ⟨flow', logs⟩ := s
  obtain rfl : flow' = flow := hflow
  cases logs with
  | none => exact ⟨_, rfl, hseen, hlogs⟩
  | some logs =>
      obtain ⟨henabled, hw⟩ := hlogs
      obtain ⟨logs', hrun, hw'⟩ := hf logs hw
      refine ⟨⟨flow', some logs'⟩, ?_, hseen, henabled, hw'⟩
      simp only [LoggedFlow.withLogs, hrun, ok_bind]

/-- **Step lemma.** Every callback that can come is handled. -/
theorem Follows.handle (hb : Bounds sendStepSize client.flowSizeByte.toNat rounds) (h0 : 0 ≤ startNs)
    (h : Follows client startNs history s) (hfrom : startNs ≤ nowNs) (htime : ∀ m ∈ history, m.nowNs ≤ nowNs)
    (hcan : callback.CanCome s.flow.socket) :
    ∃ s', s.handle sendStepSize client.flowSizeByte.toNat rounds nowNs callback = .ok s' ∧
      Follows client startNs (history ++ [⟨nowNs, callback, s'.flow⟩]) s' := by
  obtain ⟨hseen, hlogs⟩ := h
  cases callback with
  | traced v newValue =>
      exact Follows.withLogs (hseen.trace hfrom htime rfl) hlogs rfl fun logs hw =>
        hw.onChange h0 hfrom htime v newValue s.flow
  | state newState =>
      exact Follows.withLogs (hseen.trace hfrom htime rfl) hlogs rfl fun logs hw =>
        hw.stateChange h0 hfrom htime newState s.flow
  | congState newCongState =>
      exact Follows.withLogs (hseen.trace hfrom htime rfl) hlogs rfl fun logs hw =>
        hw.congStateChange h0 hfrom htime newCongState s.flow
  | socket event =>
      obtain ⟨flow', hrun, heffect⟩ := handle_effect hb hseen.inOrder hcan nowNs
      have hseen' := hseen.socketEvent hfrom htime heffect
      by_cases hack : ∃ bytes, event = .acknowledged bytes
      · obtain ⟨bytes, rfl⟩ := hack
        obtain ⟨s', hlog, hs'⟩ : ∃ s', LoggedFlow.txBufferUnackSequenceChange nowNs { s with flow := flow' } = .ok s' ∧
            Follows client startNs (history ++ [⟨nowNs, .socket (.acknowledged bytes), s'.flow⟩]) s' := by
          refine Follows.withLogs hseen' hlogs rfl fun logs hw => ?_
          obtain ⟨h, hupdate, hw'⟩ := hw.acknowledged h0 hfrom htime bytes flow'
          refine ⟨_, ?_, hw'⟩
          rw [heffect.inOrder.getAckedBytes hb.flow, ok_bind, hupdate, ok_bind]
        refine ⟨s', ?_, hs'⟩
        show (s.flow.handle _ _ _ _ _ >>= fun flow => _) = _
        rw [hrun, ok_bind]
        exact hlog
      · -- the logs are not touched
        have hack : ∀ bytes, event ≠ .acknowledged bytes := fun bytes heq => hack ⟨bytes, heq⟩
        refine ⟨{ s with flow := flow' }, ?_, hseen', ?_⟩
        · cases event with
          | acknowledged bytes => exact absurd rfl (hack bytes)
          | connectionSucceeded _ | connectionFailed | dataSend _ | closedNormal | closedError =>
              simp only [LoggedFlow.handle, hrun, ok_bind]
        · obtain ⟨flow, logs⟩ := s
          cases logs with
          | none => exact hlogs
          | some logs => exact ⟨hlogs.1, hlogs.2.skip hack flow'⟩

/-- **Run lemma.** -/
theorem FlowRun.follows (hb : Bounds sendStepSize client.flowSizeByte.toNat rounds) (h0 : 0 ≤ startNs)
    (h : FlowRun client sendStepSize rounds startNs history s) : Follows client startNs history s := by
  induction h with
  | start h => exact startApplication_follows h0 h
  | callback _ hfrom htime hcan h ih =>
      obtain ⟨s', hrun, hs'⟩ := ih.handle hb h0 hfrom htime hcan
      obtain rfl := Except.ok.inj (hrun.symm.trans h)
      exact hs'

end Run

end BasicSim
