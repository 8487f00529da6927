import BasicSim.Apps.Correctness.UdpPingReplies
import BasicSim.Lib.Histories

/-!
# `Apps.Correctness.UdpPingHistories` — the time stamps of a ping client are its history

In a run that is recorded, a client holds the times at which it acted. A ping has a reply in its time stamps if and only
if the client received one; then they are the time at which the server received the ping, and the time at which the
client received the reply.

## Contents
- **The history of a ping.** `pingId`, `ReceivedReply`, `Answered`.
- **The invariant.** `PingHistoryInv`, with the step lemmas `PingHistoryInv.send`, `PingHistoryInv.echo` and
  `PingHistoryInv.receive`, and `pingHistoryInv_run`.
-/

namespace BasicSim

open Fallible Datagrams

/-- What the clients did, and what the parties received. -/
abbrev PingHistory (Byte κ : Type) := History κ (PingParty κ) (PingDatagram Byte)

section Histories

variable {Byte κ : Type} {it : BufferIterator Byte} {clients : κ → UdpPingClient}

/-! ## The history of a ping -/

/-- What the packets of a ping carry. -/
def pingId (clients : κ → UdpPingClient) (k : κ) (seqNo : Nat) : BitVec 64 × BitVec 64 :=
  ((clients k).udpPingId.setWidth 64, BitVec.ofNat 64 seqNo)

theorem pingId_inj (hid : Function.Injective fun k => (clients k).udpPingId) {j k : κ} {m n : Nat} (hm : m < 2 ^ 32)
    (hn : n < 2 ^ 32) (h : pingId clients j m = pingId clients k n) : j = k ∧ m = n := by
  obtain ⟨hclient, hseq⟩ := Prod.mk.inj h
  refine ⟨setWidth_udpPingId_inj hid hclient, ?_⟩
  have hnat := congrArg BitVec.toNat hseq
  rw [BitVec.toNat_ofNat, BitVec.toNat_ofNat] at hnat
  omega

/-- A client received a reply to a ping. -/
def ReceivedReply (it : BufferIterator Byte) (clients : κ → UdpPingClient) (history : PingHistory Byte κ) (k : κ)
    (seqNo : Nat) (receiveReplyNs : Int) : Prop :=
  ∃ p, (receiveReplyNs, .inr (.client k, .reply p)) ∈ history ∧ pingOf it (.reply p) = pingId clients k seqNo

/-- A ping was received by the server at the one time, and its reply by the client at the other. -/
structure Answered (it : BufferIterator Byte) (clients : κ → UdpPingClient) (history : PingHistory Byte κ) (k : κ)
    (seqNo : Nat) (replyNs receiveReplyNs : Int) : Prop where
  echoed : ∃ q, (replyNs, .inr (.server, .request q)) ∈ history ∧
    pingOf it (.request q) = pingId clients k seqNo
  received : ReceivedReply it clients history k seqNo receiveReplyNs

variable {history : PingHistory Byte κ} {k : κ} {seqNo : Nat} {now : Int}

theorem Answered.append {replyNs receiveReplyNs : Int} (h : Answered it clients history k seqNo replyNs receiveReplyNs)
    (e : Int × (κ ⊕ PingParty κ × PingDatagram Byte)) :
    Answered it clients (history ++ [e]) k seqNo replyNs receiveReplyNs where
  echoed := h.echoed.imp fun _ hq => ⟨List.mem_append_left _ hq.1, hq.2⟩
  received := h.received.imp fun _ hp => ⟨List.mem_append_left _ hp.1, hp.2⟩

/-- What is received is what was received before, or something new. -/
theorem receivedReply_append {e : Int × (κ ⊕ PingParty κ × PingDatagram Byte)} {t : Int}
    (h : ReceivedReply it clients (history ++ [e]) k seqNo t) : ReceivedReply it clients history k seqNo t ∨
      ∃ p, e = (t, .inr (.client k, .reply p)) ∧ pingOf it (.reply p) = pingId clients k seqNo := by
  obtain ⟨p, hmem, hping⟩ := h
  rcases List.mem_append.mp hmem with hmem | hmem
  · exact .inl ⟨p, hmem, hping⟩
  · exact .inr ⟨p, (List.mem_singleton.mp hmem).symm, hping⟩

/-! ## The invariant -/

variable [DecidableEq κ]

/-- **The invariant**: the time stamps say what happened. -/
structure PingHistoryInv (it : BufferIterator Byte) (clients : κ → UdpPingClient)
    (c : System ((κ → UdpPingTimestamps) × PingHistory Byte κ) (PingDatagram Byte)) : Prop where
  sent : ∀ k, (c.state.1 k).sendRequestTimestamps = History.timesOf (fun j => decide (j = k)) c.state.2
  echoed : ∀ p, .reply p ∈ c.net.inFlight → ∃ q,
    ((pingHeaderOf it p).ts.toInt, .inr (.server, .request q)) ∈ c.state.2 ∧
      pingOf it (.request q) = pingOf it (.reply p)
  answered : ∀ k seqNo r, (c.state.1 k).record? seqNo = some r → r.replyNs ≠ -1 →
    Answered it clients c.state.2 k seqNo r.replyNs r.receiveReplyNs
  received : ∀ k seqNo r, (c.state.1 k).record? seqNo = some r → ∀ t, ReceivedReply it clients c.state.2 k seqNo t →
    r.replyNs ≠ -1 ∧ t = r.receiveReplyNs
  known : ∀ t party m, (t, .inr (party, m)) ∈ c.state.2 → ∃ j n, pingOf it m = pingId clients j n ∧
    n < (c.state.1 j).sendRequestTimestamps.length

/-- Nothing was sent yet. -/
def recordedPingsStart : System ((κ → UdpPingTimestamps) × PingHistory Byte κ) (PingDatagram Byte) :=
  ⟨0, ((pingsStart : System _ (PingDatagram Byte)).state, []), .empty⟩

variable {acts : List κ} {c : System ((κ → UdpPingTimestamps) × PingHistory Byte κ) (PingDatagram Byte)}
  {s : (κ → UdpPingTimestamps) × PingHistory Byte κ} {ms : List (PingDatagram Byte)}

/-- What was done or received is known to the client that sent it. -/
theorem known_append (h : PingHistoryInv it clients c) {timestamps : κ → UdpPingTimestamps}
    (hgrow : ∀ j, (c.state.1 j).sendRequestTimestamps.length ≤ (timestamps j).sendRequestTimestamps.length)
    {e : Int × (κ ⊕ PingParty κ × PingDatagram Byte)}
    (hnew : ∀ t party m, e = (t, .inr (party, m)) → ∃ j n, pingOf it m = pingId clients j n ∧
      n < (timestamps j).sendRequestTimestamps.length) {t : Int} {party : PingParty κ} {m : PingDatagram Byte}
    (hmem : (t, .inr (party, m)) ∈ c.state.2 ++ [e]) :
    ∃ j n, pingOf it m = pingId clients j n ∧ n < (timestamps j).sendRequestTimestamps.length := by
  rcases List.mem_append.mp hmem with hmem | hmem
  · obtain ⟨j, n, hping, hlt⟩ := h.known t party m hmem
    exact ⟨j, n, hping, lt_of_lt_of_le hlt (hgrow j)⟩
  · exact hnew t party m (List.mem_singleton.mp hmem).symm

/-- **Step lemma.** A client sends its next ping, which has no reply yet. -/
theorem PingHistoryInv.send (hid : Function.Injective fun k => (clients k).udpPingId)
    (hbase : PingInv it clients acts ⟨c.now, c.state.1, c.net⟩) (h : PingHistoryInv it clients c)
    (hfew : ∀ j, acts.count j < 2 ^ 32) (hle : c.now ≤ now) (hnow : now < 2 ^ 63)
    (hact : (pingProtocol it clients).recording.act k now c.state = .ok (s, ms)) :
    PingHistoryInv it clients ⟨now, s, c.net.send ms⟩ := by
  obtain ⟨timestamps, history⟩ := s
  obtain ⟨hact, rfl⟩ := recording_act_eq_ok.mp hact
  rw [pingProtocol_act, toInt_toUInt64 (le_trans hbase.now_nonneg hle) hnow] at hact
  obtain ⟨rfl, rfl⟩ := Prod.mk.inj (Except.ok.inj hact)
  have hlt : ∀ j, (c.state.1 j).sendRequestTimestamps.length < 2 ^ 32 := fun j => hbase.lengths j ▸ hfew j
  have hsend : ∀ j, (Function.update c.state.1 k ((c.state.1 k).send now) j).sendRequestTimestamps
      = if k = j then (c.state.1 j).sendRequestTimestamps ++ [now] else (c.state.1 j).sendRequestTimestamps := by
    intro j
    by_cases hj : j = k
    · subst hj
      rw [Function.update_self, if_pos rfl]
      rfl
    · rw [Function.update_of_ne hj, if_neg fun h => hj h.symm]
  -- a record is an old one, or that of the ping
  have hrecord : ∀ j n r, (Function.update c.state.1 k ((c.state.1 k).send now) j).record? n = some r →
      (c.state.1 j).record? n = some r ∨
        j = k ∧ n = (c.state.1 k).sendRequestTimestamps.length ∧ r = ⟨now, -1, -1⟩ := by
    intro j n r hr
    by_cases hj : j = k
    · subst hj
      rw [Function.update_self, UdpPingTimestamps.record?_send] at hr
      exact hr.imp_right fun h => ⟨rfl, h⟩
    · rw [Function.update_of_ne hj] at hr
      exact .inl hr
  have hacted : ∀ (t : Int) (r : PingParty κ × PingDatagram Byte), (now, Sum.inl k) ≠ (t, Sum.inr r) :=
    fun t r heq => by cases heq
  constructor
  case sent =>
    intro j
    rw [History.timesOf_acted, hsend, h.sent j]
    simp only [decide_eq_true_eq]
  case echoed =>
    intro p hp
    rcases List.mem_append.mp hp with hp | hp
    · obtain ⟨q, hq, heq⟩ := h.echoed p hp
      exact ⟨q, List.mem_append_left _ hq, heq⟩
    · cases List.mem_singleton.mp hp
  case answered =>
    intro j n r hr hset
    rcases hrecord j n r hr with hr | ⟨-, -, rfl⟩
    · exact (h.answered j n r hr hset).append _
    · exact absurd rfl hset
  case received =>
    intro j n r hr t hreceived
    rcases receivedReply_append hreceived with hbefore | ⟨p, heq, -⟩
    case inr => exact absurd heq (hacted t _)
    rcases hrecord j n r hr with hr | ⟨rfl, rfl, rfl⟩
    · exact h.received j n r hr t hbefore
    · -- nobody has received anything of a ping that was not sent
      obtain ⟨p, hmem, heq⟩ := hbefore
      obtain ⟨i, m, hping, hm⟩ := h.known t _ _ hmem
      obtain ⟨rfl, rfl⟩ := pingId_inj hid (hm.trans (hlt i)) (hlt j) (hping.symm.trans heq)
      exact absurd hm (lt_irrefl _)
  case known =>
    intro t party m hmem
    refine known_append h (fun j => ?_) (fun t party m heq => absurd heq (hacted t _)) hmem
    rw [hsend]
    split
    · rw [List.length_append]
      exact Nat.le_add_right _ _
    · exact le_refl _

/-- A packet under way is for a ping that was sent. -/
theorem known_inFlight (hbase : PingInv it clients acts ⟨c.now, c.state.1, c.net⟩) {m : PingDatagram Byte}
    (hm : m ∈ c.net.inFlight) :
    ∃ j n, pingOf it m = pingId clients j n ∧ n < (c.state.1 j).sendRequestTimestamps.length := by
  obtain ⟨j, n, _, hawaited⟩ := hbase.awaited m hm
  exact ⟨j, n, hawaited.ping, UdpPingTimestamps.lt_of_record? hawaited.record⟩

variable {before after : List (PingDatagram Byte)} {p : Packet Byte}

/-- **Step lemma.** The server receives a ping; its reply has the time. -/
theorem PingHistoryInv.echo (hbase : PingInv it clients acts ⟨c.now, c.state.1, c.net⟩) (h : PingHistoryInv it clients c)
    (hm : c.net.inFlight = before ++ .request p :: after) (hle : c.now ≤ now) (hnow : now < 2 ^ 63)
    (hreceive : (pingProtocol it clients).recording.receive .server (.request p) now c.state = .ok (s, ms)) :
    PingHistoryInv it clients ⟨now, s, (c.net.deliver before (.request p) after).send ms⟩ := by
  obtain ⟨timestamps, history⟩ := s
  obtain ⟨hreceive, rfl⟩ := recording_receive_eq_ok.mp hreceive
  obtain ⟨rfl, rfl⟩ := Prod.mk.inj (Except.ok.inj hreceive)
  have hrequest : .request p ∈ c.net.inFlight := by simp [hm]
  constructor
  case sent =>
    intro j
    rw [History.timesOf_received]
    exact h.sent j
  case echoed =>
    intro p' hp
    rcases List.mem_append.mp hp with hp | hp
    · have hflight : .reply p' ∈ c.net.inFlight := by
        rw [hm]
        exact ((List.sublist_cons_self _ after).append_left before).subset hp
      obtain ⟨q, hq, heq⟩ := h.echoed p' hflight
      exact ⟨q, List.mem_append_left _ hq, heq⟩
    · -- the new reply
      cases List.mem_singleton.mp hp
      refine ⟨p, ?_, ?_⟩
      · rw [PingDatagram.packet, pingHeaderOf_echo]
        dsimp only
        rw [toInt_toUInt64 (le_trans hbase.now_nonneg hle) hnow]
        exact List.mem_append_right _ (List.mem_singleton_self _)
      · rw [pingOf, pingOf, PingDatagram.packet, PingDatagram.packet, pingHeaderOf_echo]
  case answered => exact fun j n r hr hset => (h.answered j n r hr hset).append _
  case received =>
    intro j n r hr t hreceived
    rcases receivedReply_append hreceived with hbefore | ⟨p', heq, -⟩
    · exact h.received j n r hr t hbefore
    · cases heq
  case known =>
    intro t party m hmem
    refine known_append h (fun _ => le_refl _) (fun t party m heq => ?_) hmem
    cases heq
    exact known_inFlight hbase hrequest

/-- **Step lemma.** A client receives a reply, which is recorded if it is the client's own. -/
theorem PingHistoryInv.receive (hid : Function.Injective fun k => (clients k).udpPingId)
    (hbase : PingInv it clients acts ⟨c.now, c.state.1, c.net⟩) (h : PingHistoryInv it clients c)
    (hfew : ∀ j, acts.count j < 2 ^ 32) (hm : c.net.inFlight = before ++ .reply p :: after)
    (hreceive : (pingProtocol it clients).recording.receive (.client k) (.reply p) now c.state = .ok (s, ms)) :
    PingHistoryInv it clients ⟨now, s, (c.net.deliver before (.reply p) after).send ms⟩ := by
  obtain ⟨timestamps, history⟩ := s
  obtain ⟨hreceive, rfl⟩ := recording_receive_eq_ok.mp hreceive
  have hflight : .reply p ∈ c.net.inFlight := by simp [hm]
  obtain ⟨_, j, seqNo, sentNs, hawaited, hresult, hsend, hrecord⟩ := hbase.receives hid hfew hflight k now
  obtain ⟨rfl, rfl⟩ := Prod.mk.inj (Except.ok.inj (hreceive.symm.trans hresult))
  have hlt : ∀ {i n r}, (c.state.1 i).record? n = some r → n < 2 ^ 32 := fun hr => hbase.seqNo_lt hfew hr
  constructor
  case sent =>
    intro i
    rw [History.timesOf_received]
    exact (hsend i).trans (h.sent i)
  case echoed =>
    intro p' hp
    have hp : .reply p' ∈ before ++ after := by simpa [Net.send, Net.deliver] using hp
    have hflight' : .reply p' ∈ c.net.inFlight := by
      rw [hm]
      exact ((List.sublist_cons_self _ after).append_left before).subset hp
    obtain ⟨q, hq, heq⟩ := h.echoed p' hflight'
    exact ⟨q, List.mem_append_left _ hq, heq⟩
  case answered =>
    intro i n r hr hset
    rw [hrecord] at hr
    split at hr
    case isFalse => exact (h.answered i n r hr hset).append _
    case isTrue hown =>
      obtain ⟨rfl, rfl, rfl⟩ := hown
      cases hr
      obtain ⟨q, hq, heq⟩ := h.echoed p hflight
      exact ⟨⟨q, List.mem_append_left _ hq, heq.trans hawaited.ping⟩,
        p, List.mem_append_right _ (List.mem_singleton_self _), hawaited.ping⟩
  case received =>
    intro i n r hr t hreceived
    rw [hrecord] at hr
    rcases receivedReply_append hreceived with hbefore | ⟨p', heq, hping⟩
    · split at hr
      case isFalse => exact h.received i n r hr t hbefore
      case isTrue hown =>
        -- it would have been received before
        obtain ⟨rfl, rfl, rfl⟩ := hown
        exact absurd rfl (h.received _ _ _ hawaited.record t hbefore).1
    · cases heq
      split at hr
      case isTrue =>
        cases hr
        have hsent := (hbase.records j seqNo _ hawaited.record).send_nonneg
        have htime := (hawaited.time p rfl).1
        dsimp only at hsent
        exact ⟨by dsimp only; omega, rfl⟩
      case isFalse hother =>
        obtain ⟨rfl, rfl⟩ := pingId_inj hid (hlt hawaited.record) (hlt hr) (hawaited.ping.symm.trans hping)
        exact absurd ⟨rfl, rfl, rfl⟩ hother
  case known =>
    intro t party m hmem
    refine known_append h (fun i => le_of_eq (congrArg List.length (hsend i).symm)) (fun t party m heq => ?_) hmem
    cases heq
    obtain ⟨i, n, hping, hn⟩ := known_inFlight hbase hflight
    exact ⟨i, n, hping, (hsend i).symm ▸ hn⟩

/-! ## Runs -/

theorem pingHistoryInv_start : PingHistoryInv it clients recordedPingsStart where
  sent _ := rfl
  echoed _ h := nomatch h
  answered _ _ _ h := nomatch h
  received _ _ _ h := nomatch h
  known _ _ _ h := nomatch h

/-- A run with a record is a run of the applications. -/
theorem pingInv_of_recorded (hid : Function.Injective fun k => (clients k).udpPingId)
    (h : Run (pingProtocol it clients).recording recordedPingsStart acts c) (hfew : ∀ k, acts.count k < 2 ^ 32)
    (hnow : c.now < 2 ^ 63) : PingInv it clients acts ⟨c.now, c.state.1, c.net⟩ := by
  have hrun : Run (pingProtocol it clients) pingsStart acts ⟨c.now, c.state.1, c.net⟩ := h.toInner recording_extends
  exact pingInv_run hid hrun hfew hnow

/-- **Run lemma.** -/
theorem pingHistoryInv_run (hid : Function.Injective fun k => (clients k).udpPingId)
    (h : Run (pingProtocol it clients).recording recordedPingsStart acts c) (hfew : ∀ k, acts.count k < 2 ^ 32)
    (hnow : c.now < 2 ^ 63) : PingHistoryInv it clients c := by
  induction h with
  | start => exact pingHistoryInv_start
  | @step acts c c' a hrun hstep ih =>
      have hbefore : ∀ k, acts.count k < 2 ^ 32 := fun k =>
        lt_of_le_of_lt ((List.sublist_append_left acts a.toList).count_le k) (hfew k)
      cases hstep with
      | act hle hacted =>
          have hc := lt_of_le_of_lt hle hnow
          exact (ih hbefore hc).send hid (pingInv_of_recorded hid hrun hbefore hc) hbefore hle hnow hacted
      | @lose before after m hm =>
          have hinv := ih hbefore hnow
          refine ⟨hinv.sent, fun p hp => hinv.echoed p ?_, hinv.answered, hinv.received, hinv.known⟩
          rw [hm]
          exact ((List.sublist_cons_self _ after).append_left before).subset hp
      | @deliver before after m party now s ms hle hm hreaches hreceived =>
          have hc := lt_of_le_of_lt hle hnow
          have hbase := pingInv_of_recorded hid hrun hbefore hc
          cases party with
          | server =>
              cases m with
              | request p => exact (ih hbefore hc).echo hbase hm hle hnow hreceived
              | reply p => cases hreaches
          | client k =>
              cases m with
              | request p => cases hreaches
              | reply p => exact (ih hbefore hc).receive hid hbase hbefore hm hreceived

end Histories

end BasicSim
