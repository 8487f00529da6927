import BasicSim.Apps.UdpPing

/-!
# `Apps.Correctness.UdpPingReplies` — every reply to a ping is recorded correctly

Clients with different identifiers ping servers over a network that may lose, delay and reorder packets. Each
packet in flight stands for one ping that has no reply yet, and no other packet stands for the same ping. So a
client never aborts when it reads a reply, and what it records is in the order in which it happened.

## Contents
- **Records.** `PingRecord`, `record?`, with a spec for `send` and `handleReply`.
- **The invariant.** `PingInv`, with the step lemmas `PingInv.send`, `PingInv.echo` and `PingInv.receive`.
- **Main result.** `RepliesRecorded`, `pings_are_recorded`.
-/

namespace BasicSim

open Fallible Datagrams

/-! ## Records -/

/-- The three time stamps of a ping. -/
structure PingRecord where
  sendRequestNs : Int
  replyNs : Int
  receiveReplyNs : Int
deriving DecidableEq

namespace UdpPingTimestamps

variable {t : UdpPingTimestamps} {seqNo : Nat} {r : PingRecord}

/-- What the three vectors have at an index. -/
def record? (t : UdpPingTimestamps) (seqNo : Nat) : Option PingRecord := do
  let sendRequestNs ← t.sendRequestTimestamps[seqNo]?
  let replyNs ← t.replyTimestamps[seqNo]?
  let receiveReplyNs ← t.receiveReplyTimestamps[seqNo]?
  some ⟨sendRequestNs, replyNs, receiveReplyNs⟩

theorem record?_eq_some : t.record? seqNo = some r ↔
    t.sendRequestTimestamps[seqNo]? = some r.sendRequestNs ∧ t.replyTimestamps[seqNo]? = some r.replyNs ∧
      t.receiveReplyTimestamps[seqNo]? = some r.receiveReplyNs := by
  unfold record?
  simp only [Option.bind_eq_bind, Option.bind_eq_some_iff, Option.some.injEq]
  constructor
  · rintro ⟨_, hsend, _, hreply, _, hreceive, rfl⟩
    exact ⟨hsend, hreply, hreceive⟩
  · rintro ⟨hsend, hreply, hreceive⟩
    exact ⟨_, hsend, _, hreply, _, hreceive, rfl⟩

theorem lt_of_record? (h : t.record? seqNo = some r) : seqNo < t.sendRequestTimestamps.length :=
  (List.getElem?_eq_some_iff.mp (record?_eq_some.mp h).1).1

theorem record?_send_of_lt {nowNs : Int} (h : seqNo < t.sendRequestTimestamps.length) :
    (t.send nowNs).record? seqNo = t.record? seqNo := by
  have hreply := t.length_reply
  have hreceive := t.length_receiveReply
  unfold record? send
  rw [List.getElem?_append_left h, List.getElem?_append_left (by omega),
    List.getElem?_append_left (by omega)]

theorem record?_send_length {nowNs : Int} :
    (t.send nowNs).record? t.sendRequestTimestamps.length = some ⟨nowNs, -1, -1⟩ := by
  refine record?_eq_some.mpr ⟨List.getElem?_concat_length, ?_, ?_⟩
  · rw [← t.length_reply]
    exact List.getElem?_concat_length
  · rw [← t.length_receiveReply]
    exact List.getElem?_concat_length

/-- `Send` adds a record without a reply. -/
theorem record?_send {nowNs : Int} : (t.send nowNs).record? seqNo = some r ↔
    t.record? seqNo = some r ∨ seqNo = t.sendRequestTimestamps.length ∧ r = ⟨nowNs, -1, -1⟩ := by
  constructor
  · intro h
    have hlt := lt_of_record? h
    rw [send, List.length_append, List.length_singleton] at hlt
    by_cases hlast : seqNo = t.sendRequestTimestamps.length
    · subst hlast
      rw [record?_send_length] at h
      exact .inr ⟨rfl, (Option.some.inj h).symm⟩
    · rw [record?_send_of_lt (by omega)] at h
      exact .inl h
  · rintro (h | ⟨rfl, rfl⟩)
    · rw [record?_send_of_lt (lt_of_record? h), h]
    · exact record?_send_length

/-- A reply to a ping that has none is recorded, and changes no other record. -/
theorem handleReply_of_unset {sentNs : Int} (h : t.record? seqNo = some ⟨sentNs, -1, -1⟩)
    (replyNs nowNs : Int) : ∃ t', t.handleReply seqNo replyNs nowNs = .ok t' ∧
      t'.sendRequestTimestamps = t.sendRequestTimestamps ∧
      ∀ seqNo', t'.record? seqNo' =
        if seqNo' = seqNo then some ⟨sentNs, replyNs, nowNs⟩ else t.record? seqNo' := by
  obtain ⟨hsend, hreply, hreceive⟩ := record?_eq_some.mp h
  have hlt := lt_of_record? h
  have hat : ∀ {v : List Int}, v[seqNo]? = some (-1) → vectorAt v seqNo = .ok (-1) :=
    fun hget => vectorAt_eq_ok.mpr ⟨Int.natCast_nonneg seqNo, hget⟩
  unfold handleReply
  rw [throwIf_of_not (by omega), ok_bind, hat hreply, ok_bind, hat hreceive, ok_bind,
    throwIf_of_not (by decide), ok_bind]
  refine ⟨_, rfl, rfl, ?_⟩
  intro seqNo'
  split
  · next heq =>
      subst heq
      refine record?_eq_some.mpr ⟨hsend, ?_, ?_⟩
      · exact List.getElem?_set_self (by rw [t.length_reply]; exact hlt)
      · exact List.getElem?_set_self (by rw [t.length_receiveReply]; exact hlt)
  · next hne =>
      unfold record?
      dsimp only
      rw [List.getElem?_set_ne fun h => hne h.symm, List.getElem?_set_ne fun h => hne h.symm]

end UdpPingTimestamps

/-! ## The invariant -/

/-- A ping that was sent, and whose reply, if there is one, was sent and received after it. -/
structure PingRecord.Until (now : Int) (r : PingRecord) : Prop where
  send_nonneg : 0 ≤ r.sendRequestNs
  send_le : r.sendRequestNs ≤ now
  reply : r.replyNs = -1 ∧ r.receiveReplyNs = -1 ∨
    r.sendRequestNs ≤ r.replyNs ∧ r.replyNs ≤ r.receiveReplyNs ∧ r.receiveReplyNs ≤ now

theorem PingRecord.Until.mono {now now' : Int} {r : PingRecord} (h : r.Until now) (hle : now ≤ now') :
    r.Until now' where
  send_nonneg := h.send_nonneg
  send_le := le_trans h.send_le hle
  reply := h.reply.imp_right fun hreply => ⟨hreply.1, hreply.2.1, le_trans hreply.2.2 hle⟩

section Invariant

variable {Byte κ : Type} {it : BufferIterator Byte} {clients : κ → UdpPingClient}

/-- The header that a packet arrives with. -/
def pingHeaderOf (it : BufferIterator Byte) (packet : Packet Byte) : UdpPingHeader :=
  (UdpPingHeader.deserialize it packet.headers).1

/-- Which ping a packet is for. -/
def pingOf (it : BufferIterator Byte) (m : PingDatagram Byte) : BitVec 64 × BitVec 64 :=
  ((pingHeaderOf it m.packet).id, (pingHeaderOf it m.packet).seq)

/-- The packet stands for a ping of a client that has no reply yet. A reply has the time at which it was
    sent. -/
structure Awaited (it : BufferIterator Byte) (clients : κ → UdpPingClient) (now : Int)
    (timestamps : κ → UdpPingTimestamps) (m : PingDatagram Byte) (k : κ) (seqNo : Nat) (sentNs : Int) :
    Prop where
  ping : pingOf it m = ((clients k).udpPingId.setWidth 64, BitVec.ofNat 64 seqNo)
  record : (timestamps k).record? seqNo = some ⟨sentNs, -1, -1⟩
  time : ∀ p, m = .reply p → sentNs ≤ (pingHeaderOf it p).ts.toInt ∧ (pingHeaderOf it p).ts.toInt ≤ now

theorem Awaited.mono {now now' : Int} {timestamps timestamps' : κ → UdpPingTimestamps} {m : PingDatagram Byte}
    {k : κ} {seqNo : Nat} {sentNs : Int} (h : Awaited it clients now timestamps m k seqNo sentNs)
    (hle : now ≤ now') (hrecord : (timestamps' k).record? seqNo = (timestamps k).record? seqNo) :
    Awaited it clients now' timestamps' m k seqNo sentNs where
  ping := h.ping
  record := hrecord.trans h.record
  time p hp := ⟨(h.time p hp).1, le_trans (h.time p hp).2 hle⟩

/-- Identifiers tell the clients apart. -/
theorem setWidth_udpPingId_inj (hid : Function.Injective fun k => (clients k).udpPingId) {j k : κ}
    (h : (clients j).udpPingId.setWidth 64 = (clients k).udpPingId.setWidth 64) : j = k := by
  refine hid (BitVec.eq_of_toNat_eq ?_)
  have hnat := congrArg BitVec.toNat h
  rw [BitVec.toNat_setWidth, BitVec.toNat_setWidth] at hnat
  have hj := (clients j).udpPingId.isLt
  have hk := (clients k).udpPingId.isLt
  dsimp only
  omega

/-- The packet of the next ping. -/
theorem pingOf_sendPacket {now : Int} {k : κ} {t : UdpPingTimestamps}
    (hlt : t.sendRequestTimestamps.length < 2 ^ 32) :
    pingOf it (.request ((clients k).sendPacket it now t).1)
      = ((clients k).udpPingId.setWidth 64, BitVec.ofNat 64 t.sendRequestTimestamps.length) := by
  have hheader : pingHeaderOf it ((clients k).sendPacket it now t).1 = (clients k).nextHeader now t := by
    show (UdpPingHeader.deserialize it (UdpPingHeader.serialize it _ ++ [])).1 = _
    rw [UdpPingHeader.deserialize_serialize]
  have hsent : t.sent = t.sendRequestTimestamps.length := by
    rw [t.sent_eq]
    omega
  show ((pingHeaderOf it _).id, (pingHeaderOf it _).seq) = _
  rw [PingDatagram.packet, hheader, UdpPingClient.nextHeader, hsent]

/-- **The server keeps the identifier and the sequence number.** -/
theorem pingHeaderOf_echo {nowNs : Int} {p : Packet Byte} :
    pingHeaderOf it (UdpPingServer.handleRead it nowNs p)
      = ⟨(pingHeaderOf it p).id, (pingHeaderOf it p).seq, toUInt64 nowNs⟩ := by
  show (UdpPingHeader.deserialize it (UdpPingHeader.serialize it _ ++ _)).1 = _
  rw [UdpPingHeader.deserialize_serialize]
  rfl

/-- **A reply to another client is ignored.** -/
theorem handleRead_of_ne {client : UdpPingClient} {nowNs : Int} {p : Packet Byte} {t : UdpPingTimestamps}
    (h : (pingHeaderOf it p).id ≠ client.udpPingId.setWidth 64) : client.handleRead it nowNs p t = .ok t :=
  if_neg h

/-- **A reply to a client is recorded.** -/
theorem Awaited.handleRead {now : Int} {timestamps : κ → UdpPingTimestamps} {p : Packet Byte} {k : κ}
    {seqNo : Nat} {sentNs : Int} (h : Awaited it clients now timestamps (.reply p) k seqNo sentNs)
    (hseq : seqNo < 2 ^ 32) (nowNs : Int) :
    ∃ t, (clients k).handleRead it nowNs p (timestamps k) = .ok t ∧
      t.sendRequestTimestamps = (timestamps k).sendRequestTimestamps ∧
      ∀ seqNo', t.record? seqNo' = if seqNo' = seqNo
        then some ⟨sentNs, (pingHeaderOf it p).ts.toInt, nowNs⟩ else (timestamps k).record? seqNo' := by
  obtain ⟨hid, hseqNo⟩ := Prod.mk.inj h.ping
  have hnat : ((pingHeaderOf it p).seq.setWidth 32).toNat = seqNo := by
    rw [show (pingHeaderOf it p).seq = _ from hseqNo, BitVec.toNat_setWidth, BitVec.toNat_ofNat]
    omega
  have hown : (clients k).handleRead it nowNs p (timestamps k)
      = (timestamps k).handleReply seqNo (pingHeaderOf it p).ts.toInt nowNs := by
    rw [← hnat]
    exact if_pos hid
  rw [hown]
  exact UdpPingTimestamps.handleReply_of_unset h.record _ nowNs

variable [DecidableEq κ]

/-- **The invariant of a run**, in which `acts` are the clients that sent. -/
structure PingInv (it : BufferIterator Byte) (clients : κ → UdpPingClient) (acts : List κ)
    (c : System (κ → UdpPingTimestamps) (PingDatagram Byte)) : Prop where
  now_nonneg : 0 ≤ c.now
  lengths : ∀ k, (c.state k).sendRequestTimestamps.length = acts.count k
  records : ∀ k seqNo r, (c.state k).record? seqNo = some r → r.Until c.now
  awaited : ∀ m ∈ c.net.inFlight, ∃ k seqNo sentNs, Awaited it clients c.now c.state m k seqNo sentNs
  distinct : (c.net.inFlight.map (pingOf it)).Nodup

/-- Nothing was sent yet. -/
def pingsStart : System (κ → UdpPingTimestamps) (PingDatagram Byte) := ⟨0, fun _ => .empty, .empty⟩

theorem pingInv_start : PingInv it clients [] (pingsStart : System (κ → UdpPingTimestamps) (PingDatagram Byte)) where
  now_nonneg := le_refl 0
  lengths _ := rfl
  records _ _ _ h := by cases h
  awaited _ hm := by cases hm
  distinct := .nil

variable {acts : List κ} {c : System (κ → UdpPingTimestamps) (PingDatagram Byte)} {now : Int}

/-- The sequence number of an awaited ping fits 32 bits. -/
theorem PingInv.seqNo_lt (h : PingInv it clients acts c) (hfew : ∀ k, acts.count k < 2 ^ 32)
    {k : κ} {seqNo : Nat} {r : PingRecord} (hrecord : (c.state k).record? seqNo = some r) : seqNo < 2 ^ 32 := by
  have hlt := UdpPingTimestamps.lt_of_record? hrecord
  have hcount := hfew k
  rw [h.lengths] at hlt
  omega

theorem pingProtocol_act {k : κ} {timestamps : κ → UdpPingTimestamps} :
    (pingProtocol it clients).act k now timestamps =
      .ok (Function.update timestamps k ((timestamps k).send (toUInt64 now).toInt),
        [.request ((clients k).sendPacket it now (timestamps k)).1]) := rfl

/-- What is recorded stays when a client sends. -/
theorem record?_update_send {timestamps : κ → UdpPingTimestamps} {j k : κ} {seqNo : Nat}
    (hlt : seqNo < (timestamps j).sendRequestTimestamps.length) (nowNs : Int) :
    (Function.update timestamps k ((timestamps k).send nowNs) j).record? seqNo = (timestamps j).record? seqNo := by
  by_cases hj : j = k
  · subst hj
    rw [Function.update_self, UdpPingTimestamps.record?_send_of_lt hlt]
  · rw [Function.update_of_ne hj]

/-- **Step lemma.** A client sends its next ping. -/
theorem PingInv.send (hid : Function.Injective fun k => (clients k).udpPingId) (h : PingInv it clients acts c)
    {k : κ} (hfew : ∀ j, (acts ++ [k]).count j < 2 ^ 32) (hle : c.now ≤ now) (hnow : now < 2 ^ 63)
    {timestamps : κ → UdpPingTimestamps} {ms : List (PingDatagram Byte)}
    (hact : (pingProtocol it clients).act k now c.state = .ok (timestamps, ms)) :
    PingInv it clients (acts ++ [k]) ⟨now, timestamps, c.net.send ms⟩ := by
  have h0 := h.now_nonneg
  have hlength : (c.state k).sendRequestTimestamps.length < 2 ^ 32 := by
    have hcount := hfew k
    rw [List.count_append, ← h.lengths] at hcount
    omega
  have hbefore : ∀ j, acts.count j < 2 ^ 32 := fun j =>
    lt_of_le_of_lt ((List.sublist_append_left acts [k]).count_le j) (hfew j)
  rw [pingProtocol_act, toInt_toUInt64 (le_trans h0 hle) hnow] at hact
  cases hact
  refine ⟨le_trans h0 hle, ?_, ?_, ?_, ?_⟩
  · intro j
    dsimp only
    rw [List.count_append, List.count_singleton]
    by_cases hj : j = k
    · subst hj
      rw [Function.update_self, UdpPingTimestamps.send, List.length_append, h.lengths]
      simp
    · rw [Function.update_of_ne hj, h.lengths, if_neg (by simpa using fun h => hj h.symm), Nat.add_zero]
  · intro j seqNo r hr
    dsimp only at hr ⊢
    by_cases hj : j = k
    · subst hj
      rw [Function.update_self, UdpPingTimestamps.record?_send] at hr
      rcases hr with hr | ⟨-, rfl⟩
      · exact (h.records j seqNo r hr).mono hle
      · exact ⟨le_trans h0 hle, le_refl now, .inl ⟨rfl, rfl⟩⟩
    · rw [Function.update_of_ne hj] at hr
      exact (h.records j seqNo r hr).mono hle
  · intro m hm
    rcases List.mem_append.mp hm with hm | hm
    · obtain ⟨j, seqNo, sentNs, hawaited⟩ := h.awaited m hm
      exact ⟨j, seqNo, sentNs, hawaited.mono hle
        (record?_update_send (UdpPingTimestamps.lt_of_record? hawaited.record) now)⟩
    · rw [List.mem_singleton.mp hm]
      refine ⟨k, _, now, pingOf_sendPacket hlength, ?_, fun p hp => by cases hp⟩
      dsimp only
      rw [Function.update_self]
      exact UdpPingTimestamps.record?_send_length
  · show ((c.net.inFlight ++ [_]).map (pingOf it)).Nodup
    rw [List.map_append, List.map_singleton, pingOf_sendPacket hlength]
    refine List.nodup_append.mpr ⟨h.distinct, List.nodup_singleton _, ?_⟩
    intro x hx y hy hxy
    obtain ⟨m, hm, rfl⟩ := List.mem_map.mp hx
    obtain ⟨j, seqNo, sentNs, hawaited⟩ := h.awaited m hm
    rw [List.mem_singleton.mp hy, hawaited.ping, Prod.mk.injEq] at hxy
    -- the same client has only smaller sequence numbers in flight
    have hlt := UdpPingTimestamps.lt_of_record? hawaited.record
    have hj : j = k := setWidth_udpPingId_inj hid hxy.1
    subst hj
    have hseq := congrArg BitVec.toNat hxy.2
    rw [BitVec.toNat_ofNat, BitVec.toNat_ofNat] at hseq
    omega

/-- A packet that is taken out was the only one for its ping. -/
theorem PingInv.distinct_middle (h : PingInv it clients acts c) {before after : List (PingDatagram Byte)}
    {m : PingDatagram Byte} (hm : c.net.inFlight = before ++ m :: after) :
    pingOf it m ∉ (before ++ after).map (pingOf it) ∧ ((before ++ after).map (pingOf it)).Nodup := by
  have hdistinct := h.distinct
  rw [hm, (List.perm_middle.map (pingOf it)).nodup_iff, List.map_cons, List.nodup_cons] at hdistinct
  exact hdistinct

theorem PingInv.awaited_middle (h : PingInv it clients acts c) {before after : List (PingDatagram Byte)}
    {m : PingDatagram Byte} (hm : c.net.inFlight = before ++ m :: after) {m' : PingDatagram Byte}
    (hm' : m' ∈ before ++ after) : ∃ k seqNo sentNs, Awaited it clients c.now c.state m' k seqNo sentNs := by
  refine h.awaited m' ?_
  rw [hm]
  exact ((List.sublist_cons_self m after).append_left before).subset hm'

theorem PingInv.lose (h : PingInv it clients acts c) {before after : List (PingDatagram Byte)}
    {m : PingDatagram Byte} (hm : c.net.inFlight = before ++ m :: after) :
    PingInv it clients acts { c with net := c.net.lose before m after } where
  now_nonneg := h.now_nonneg
  lengths := h.lengths
  records := h.records
  awaited _ hm' := h.awaited_middle hm hm'
  distinct := (h.distinct_middle hm).2

/-- **Step lemma.** A server sends a ping back. -/
theorem PingInv.echo (h : PingInv it clients acts c) {before after : List (PingDatagram Byte)}
    {p : Packet Byte} (hm : c.net.inFlight = before ++ .request p :: after) (hle : c.now ≤ now)
    (hnow : now < 2 ^ 63) :
    PingInv it clients acts ⟨now, c.state, (c.net.deliver before (.request p) after).send
      [.reply (UdpPingServer.handleRead it now p)]⟩ := by
  have h0 := h.now_nonneg
  obtain ⟨hnotin, hdistinct⟩ := h.distinct_middle hm
  obtain ⟨k, seqNo, sentNs, hawaited⟩ := h.awaited (.request p) (by simp [hm])
  -- the echo has the identifier and the sequence number of the request
  have hsame : pingOf it (.reply (UdpPingServer.handleRead it now p)) = pingOf it (.request p) := by
    rw [pingOf, pingOf, PingDatagram.packet, PingDatagram.packet, pingHeaderOf_echo]
  refine ⟨le_trans h0 hle, h.lengths, fun j seqNo r hr => (h.records j seqNo r hr).mono hle, ?_, ?_⟩
  · intro m hm'
    rcases List.mem_append.mp hm' with hm' | hm'
    · obtain ⟨j, seqNo, sentNs, hother⟩ := h.awaited_middle hm hm'
      exact ⟨j, seqNo, sentNs, hother.mono hle rfl⟩
    · rw [List.mem_singleton.mp hm']
      refine ⟨k, seqNo, sentNs, hsame.trans hawaited.ping, hawaited.record, ?_⟩
      intro q hq
      cases hq
      rw [pingHeaderOf_echo]
      dsimp only
      rw [toInt_toUInt64 (le_trans h0 hle) hnow]
      exact ⟨le_trans (h.records k seqNo _ hawaited.record).send_le hle, le_refl now⟩
  · show ((before ++ after ++ [_]).map (pingOf it)).Nodup
    rw [List.map_append, List.map_singleton, hsame]
    refine List.nodup_append.mpr ⟨hdistinct, List.nodup_singleton _, ?_⟩
    intro x hx y hy hxy
    rw [List.mem_singleton.mp hy] at hxy
    exact hnotin (hxy ▸ hx)

theorem reaches_server (p : Packet Byte) : (pingProtocol it clients).Reaches (.request p) .server := trivial

theorem reaches_client (p : Packet Byte) (k : κ) : (pingProtocol it clients).Reaches (.reply p) (.client k) :=
  trivial

theorem pingProtocol_receive {k : κ} {m : PingDatagram Byte} {timestamps : κ → UdpPingTimestamps} :
    (pingProtocol it clients).receive (.client k) m now timestamps =
      ((clients k).handleRead it now m.packet (timestamps k) >>= fun t =>
        .ok (Function.update timestamps k t, [])) := rfl

/-- **No client aborts on a reply in flight.** The record of the ping that the reply is for is set, if the ping is
    the client's own, and nothing else changes. -/
theorem PingInv.receives (hid : Function.Injective fun k => (clients k).udpPingId)
    (h : PingInv it clients acts c) (hfew : ∀ j, acts.count j < 2 ^ 32) {p : Packet Byte}
    (hm : .reply p ∈ c.net.inFlight) (k : κ) (nowNs : Int) :
    ∃ timestamps j seqNo sentNs, Awaited it clients c.now c.state (.reply p) j seqNo sentNs ∧
      (pingProtocol it clients).receive (.client k) (.reply p) nowNs c.state = .ok (timestamps, []) ∧
      (∀ i, (timestamps i).sendRequestTimestamps = (c.state i).sendRequestTimestamps) ∧
      ∀ i seqNo', (timestamps i).record? seqNo' = if i = k ∧ j = k ∧ seqNo' = seqNo
        then some ⟨sentNs, (pingHeaderOf it p).ts.toInt, nowNs⟩ else (c.state i).record? seqNo' := by
  obtain ⟨j, seqNo, sentNs, hawaited⟩ := h.awaited _ hm
  rw [pingProtocol_receive, PingDatagram.packet]
  by_cases hj : j = k
  · subst hj
    obtain ⟨t, hread, hsend, hrecord⟩ := hawaited.handleRead (h.seqNo_lt hfew hawaited.record) nowNs
    rw [hread, ok_bind]
    refine ⟨_, j, seqNo, sentNs, hawaited, rfl, ?_, ?_⟩
    · intro i
      by_cases hi : i = j
      · rw [hi, Function.update_self, hsend]
      · rw [Function.update_of_ne hi]
    · intro i seqNo'
      by_cases hi : i = j
      · rw [hi, Function.update_self, hrecord]
        simp only [true_and]
      · rw [Function.update_of_ne hi, if_neg fun h => hi h.1]
  · -- the reply is for another client
    have hne : (pingHeaderOf it p).id ≠ (clients k).udpPingId.setWidth 64 := by
      intro heq
      exact hj (setWidth_udpPingId_inj hid ((congrArg Prod.fst hawaited.ping).symm.trans heq))
    rw [handleRead_of_ne hne, ok_bind, Function.update_eq_self]
    refine ⟨_, j, seqNo, sentNs, hawaited, rfl, fun _ => rfl, ?_⟩
    intro i seqNo'
    rw [if_neg fun h => hj h.2.1]

/-- **Step lemma.** A client reads a reply. -/
theorem PingInv.receive (hid : Function.Injective fun k => (clients k).udpPingId)
    (h : PingInv it clients acts c) (hfew : ∀ j, acts.count j < 2 ^ 32)
    {before after : List (PingDatagram Byte)} {p : Packet Byte}
    (hm : c.net.inFlight = before ++ .reply p :: after) (hle : c.now ≤ now) {k : κ}
    {timestamps : κ → UdpPingTimestamps} {ms : List (PingDatagram Byte)}
    (hreceive : (pingProtocol it clients).receive (.client k) (.reply p) now c.state = .ok (timestamps, ms)) :
    PingInv it clients acts ⟨now, timestamps, (c.net.deliver before (.reply p) after).send ms⟩ := by
  obtain ⟨hnotin, hdistinct⟩ := h.distinct_middle hm
  obtain ⟨_, j, seqNo, sentNs, hawaited, hresult, hsend, hrecord⟩ :=
    h.receives hid hfew (p := p) (by simp [hm]) k now
  rw [hresult] at hreceive
  cases hreceive
  have hempty : ((c.net.deliver before (.reply p) after).send []).inFlight = before ++ after :=
    List.append_nil _
  refine ⟨le_trans h.now_nonneg hle, ?_, ?_, ?_, ?_⟩
  · intro i
    dsimp only
    rw [hsend, h.lengths]
  · intro i seqNo' r hr
    dsimp only at hr ⊢
    rw [hrecord] at hr
    split at hr
    · cases hr
      have hsent := h.records j seqNo _ hawaited.record
      obtain ⟨hlo, hhi⟩ := hawaited.time p rfl
      exact ⟨hsent.send_nonneg, le_trans hsent.send_le hle,
        .inr ⟨hlo, le_trans hhi hle, le_refl now⟩⟩
    · exact (h.records i seqNo' r hr).mono hle
  · intro m' hm'
    rw [hempty] at hm'
    obtain ⟨i, seqNo', sentNs', hother⟩ := h.awaited_middle hm hm'
    refine ⟨i, seqNo', sentNs', hother.mono hle ?_⟩
    -- another packet is for another ping
    rw [hrecord, if_neg]
    rintro ⟨hi, hj, hseq⟩
    refine hnotin (List.mem_map.mpr ⟨m', hm', ?_⟩)
    rw [hother.ping, hawaited.ping, hi, hj, hseq]
  · rw [hempty]
    exact hdistinct

/-- **Run lemma.** -/
theorem pingInv_run (hid : Function.Injective fun k => (clients k).udpPingId)
    (h : Run (pingProtocol it clients) pingsStart acts c) (hfew : ∀ k, acts.count k < 2 ^ 32)
    (hnow : c.now < 2 ^ 63) : PingInv it clients acts c := by
  revert hfew hnow
  refine h.invariant (fun acts c => (∀ k, acts.count k < 2 ^ 32) → c.now < 2 ^ 63 → PingInv it clients acts c) ?_
    fun _ _ => pingInv_start
  intro acts c a c' ih hstep hfew hnow
  have hbefore : ∀ k, acts.count k < 2 ^ 32 := fun k =>
    lt_of_le_of_lt ((List.sublist_append_left acts a.toList).count_le k) (hfew k)
  cases hstep with
  | act hle hacted => exact (ih hbefore (lt_of_le_of_lt hle hnow)).send hid hfew hle hnow hacted
  | lose hm =>
      rw [Option.toList_none, List.append_nil]
      exact (ih hbefore hnow).lose hm
  | @deliver _ _ m party _ _ _ hle hm hreaches hreceived =>
      have hinv := ih hbefore (lt_of_le_of_lt hle hnow)
      rw [Option.toList_none, List.append_nil]
      cases party with
      | server =>
          cases m with
          | request p =>
              cases hreceived
              exact hinv.echo hm hle hnow
          | reply p => cases hreaches
      | client k =>
          cases m with
          | request p => cases hreaches
          | reply p => exact hinv.receive hid hbefore hm hle hreceived

/-- **A reply that is recorded stays**, whatever happens next. -/
theorem PingInv.recorded_stays (hid : Function.Injective fun k => (clients k).udpPingId)
    (h : PingInv it clients acts c) (hfew : ∀ j, acts.count j < 2 ^ 32) {a : Option κ}
    {c' : System (κ → UdpPingTimestamps) (PingDatagram Byte)} (hstep : Step (pingProtocol it clients) c a c')
    {k : κ} {seqNo : Nat} {r : PingRecord} (hr : (c.state k).record? seqNo = some r) (hset : r.replyNs ≠ -1) :
    (c'.state k).record? seqNo = some r := by
  cases hstep with
  | @act j _ _ _ _ hacted =>
      rw [pingProtocol_act] at hacted
      cases hacted
      dsimp only
      rw [record?_update_send (UdpPingTimestamps.lt_of_record? hr), hr]
  | lose _ => exact hr
  | @deliver before after m party nowNs _ _ _ hm hreaches hreceived =>
      cases party with
      | server =>
          cases hreceived
          exact hr
      | client j =>
          cases m with
          | request p => cases hreaches
          | reply p =>
              obtain ⟨_, i, seqNo', sentNs, hawaited, hresult, -, hrecord⟩ :=
                h.receives hid hfew (p := p) (by simp [hm]) j nowNs
              rw [hresult] at hreceived
              cases hreceived
              dsimp only
              rw [hrecord, if_neg, hr]
              -- the record that is set was not set before
              rintro ⟨rfl, rfl, rfl⟩
              rw [hawaited.record] at hr
              cases hr
              exact hset rfl

end Invariant

/-! ## Main result -/

section Recorded

variable {Byte κ : Type} [DecidableEq κ] {it : BufferIterator Byte} {clients : κ → UdpPingClient} {acts : List κ}
  {c : System (κ → UdpPingTimestamps) (PingDatagram Byte)}

/-- **Every reply is recorded correctly.** -/
structure RepliesRecorded (it : BufferIterator Byte) (clients : κ → UdpPingClient) (acts : List κ)
    (c : System (κ → UdpPingTimestamps) (PingDatagram Byte)) : Prop where
  /-- nobody aborts on a packet that can reach it -/
  received : ∀ m ∈ c.net.inFlight, ∀ party, (pingProtocol it clients).Reaches m party → ∀ nowNs,
    ∃ result, (pingProtocol it clients).receive party m nowNs c.state = .ok result
  /-- a reply to the client itself is recorded under its sequence number, where no reply is recorded yet: with the time
      stamp of the server and the present time. Nothing else changes -/
  recorded : ∀ p k, .reply p ∈ c.net.inFlight → (pingHeaderOf it p).id = (clients k).udpPingId.setWidth 64 →
    ∀ nowNs, ∃ timestamps sentNs,
      (pingProtocol it clients).receive (.client k) (.reply p) nowNs c.state = .ok (timestamps, []) ∧
      (c.state k).record? (pingHeaderOf it p).seq.toNat = some ⟨sentNs, -1, -1⟩ ∧
      ∀ i seqNo, (timestamps i).record? seqNo = if i = k ∧ seqNo = (pingHeaderOf it p).seq.toNat
        then some ⟨sentNs, (pingHeaderOf it p).ts.toInt, nowNs⟩ else (c.state i).record? seqNo
  /-- one entry for every ping -/
  lengths : ∀ k, (c.state k).sent = acts.count k ∧
    (c.state k).sendRequestTimestamps.length = acts.count k ∧
    (c.state k).replyTimestamps.length = acts.count k ∧
    (c.state k).receiveReplyTimestamps.length = acts.count k
  /-- both time stamps of a reply are unset, or both are set and in order -/
  ordered : ∀ k seqNo r, (c.state k).record? seqNo = some r →
    r.replyNs = -1 ∧ r.receiveReplyNs = -1 ∨ r.replyNs ≠ -1 ∧ r.receiveReplyNs ≠ -1 ∧
      r.sendRequestNs ≤ r.replyNs ∧ r.replyNs ≤ r.receiveReplyNs
  /-- a reply that is recorded is not recorded again -/
  once : ∀ a c', Step (pingProtocol it clients) c a c' → ∀ k seqNo r, (c.state k).record? seqNo = some r →
    r.replyNs ≠ -1 → (c'.state k).record? seqNo = some r
  /-- a reply to another client changes nothing -/
  foreign : ∀ p k nowNs, (pingHeaderOf it p).id ≠ (clients k).udpPingId.setWidth 64 →
    (pingProtocol it clients).receive (.client k) (.reply p) nowNs c.state = .ok (c.state, [])
  /-- a ping is sent back as it is, but for the time -/
  echo : ∀ p nowNs, ∃ q,
    (pingProtocol it clients).receive .server (.request p) nowNs c.state = .ok (c.state, [.reply q]) ∧
    pingHeaderOf it q = ⟨(pingHeaderOf it p).id, (pingHeaderOf it p).seq, toUInt64 nowNs⟩

theorem PingInv.repliesRecorded (hid : Function.Injective fun k => (clients k).udpPingId)
    (h : PingInv it clients acts c) (hfew : ∀ k, acts.count k < 2 ^ 32) : RepliesRecorded it clients acts c where
  received m hm party hreaches nowNs := by
    cases party with
    | server => exact ⟨_, rfl⟩
    | client k =>
        cases m with
        | request p => cases hreaches
        | reply p =>
            obtain ⟨_, _, _, _, -, hresult, -⟩ := h.receives hid hfew hm k nowNs
            exact ⟨_, hresult⟩
  recorded p k hm hown nowNs := by
    obtain ⟨timestamps, j, seqNo, sentNs, hawaited, hresult, -, hrecord⟩ := h.receives hid hfew hm k nowNs
    have hj : j = k := setWidth_udpPingId_inj hid ((congrArg Prod.fst hawaited.ping).symm.trans hown)
    subst hj
    have hseq : (pingHeaderOf it p).seq.toNat = seqNo := by
      have hlt := h.seqNo_lt hfew hawaited.record
      have hnat := congrArg (fun x => x.2.toNat) hawaited.ping
      rw [BitVec.toNat_ofNat, Nat.mod_eq_of_lt (by omega)] at hnat
      exact hnat
    rw [hseq]
    refine ⟨timestamps, sentNs, hresult, hawaited.record, ?_⟩
    intro i seqNo'
    rw [hrecord]
    simp only [true_and]
  lengths k := by
    have hlength := h.lengths k
    have hcount := hfew k
    refine ⟨?_, hlength, (c.state k).length_reply.trans hlength, (c.state k).length_receiveReply.trans hlength⟩
    rw [(c.state k).sent_eq, hlength]
    omega
  ordered k seqNo r hr := by
    have huntil := h.records k seqNo r hr
    have h0 := huntil.send_nonneg
    refine huntil.reply.imp_right ?_
    intro hreply
    omega
  once _ _ hstep _ _ _ hr hset := h.recorded_stays hid hfew hstep hr hset
  foreign p k nowNs hne := by
    rw [pingProtocol_receive, PingDatagram.packet, handleRead_of_ne hne, ok_bind, Function.update_eq_self]
  echo p nowNs := ⟨_, rfl, pingHeaderOf_echo⟩

end Recorded

/-- **Every reply to a ping is recorded correctly, whatever the network does short of duplicating packets.**
    The clients have different identifiers, each sends fewer than `2 ^ 32` pings, and the simulated time is an
    `int64_t`. -/
theorem pings_are_recorded {Byte κ : Type} [DecidableEq κ] (it : BufferIterator Byte)
    {clients : κ → UdpPingClient} (hid : Function.Injective fun k => (clients k).udpPingId) {acts : List κ}
    {c : System (κ → UdpPingTimestamps) (PingDatagram Byte)}
    (hrun : Run (pingProtocol it clients) pingsStart acts c) (hfew : ∀ k, acts.count k < 2 ^ 32)
    (hnow : c.now < 2 ^ 63) : RepliesRecorded it clients acts c :=
  (pingInv_run hid hrun hfew hnow).repliesRecorded hid hfew

/-- Two clients on one node. -/
def pairPingClient (k : Bool) : UdpPingClient where
  nodeId := 0
  localAddress := ⟨0, 0⟩
  remoteAddress := ⟨0, 1025⟩
  udpPingId := if k = true then 1 else 0
  intervalNs := 10
  durationNs := 100
  waitAfterwardsNs := 0
  additionalParameters := []

/-- Both clients ping; the second one gets the reply to the first one, and then its own. -/
theorem run_pairPing : ∃ c, Run (pingProtocol networkOrder pairPingClient) pingsStart [false, true] c ∧
    c.now = 9 ∧ (c.state true).record? 0 = some ⟨5, 7, 9⟩ ∧ (c.state false).record? 0 = some ⟨5, -1, -1⟩ := by
  have h₁ : Run (pingProtocol networkOrder pairPingClient) pingsStart ([] ++ [false]) _ :=
    .step .start (.act (show (0 : Int) ≤ 5 by decide) rfl)
  have h₂ := h₁.step (.act (a := true) (le_refl 5) rfl)
  have h₃ := h₂.step (.deliver (show (5 : Int) ≤ 7 by decide) (List.nil_append _).symm (reaches_server _) rfl)
  have h₄ := h₃.step (.deliver (show (7 : Int) ≤ 7 by decide) (List.nil_append _).symm (reaches_server _) rfl)
  have h₅ := h₄.step (.deliver (show (7 : Int) ≤ 8 by decide) (List.nil_append _).symm (reaches_client _ true) rfl)
  have h₆ := h₅.step (.deliver (show (8 : Int) ≤ 9 by decide) (List.nil_append _).symm (reaches_client _ true) rfl)
  exact ⟨_, h₆, rfl, rfl, rfl⟩

theorem pings_are_recorded_pairPing : ∃ c,
    Run (pingProtocol networkOrder pairPingClient) pingsStart [false, true] c ∧
    (c.state true).record? 0 = some ⟨5, 7, 9⟩ ∧ (c.state false).record? 0 = some ⟨5, -1, -1⟩ ∧
    RepliesRecorded networkOrder pairPingClient [false, true] c := by
  obtain ⟨c, hrun, hnow, htrue, hfalse⟩ := run_pairPing
  have hid : Function.Injective fun k => (pairPingClient k).udpPingId := by
    intro j k h
    cases j <;> cases k <;> simp_all [pairPingClient]
  have hfew : ∀ k, [false, true].count k < 2 ^ 32 := by decide
  exact ⟨c, hrun, htrue, hfalse, pings_are_recorded networkOrder hid hrun hfew (by rw [hnow]; decide)⟩

end BasicSim
