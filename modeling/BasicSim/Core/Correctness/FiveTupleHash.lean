import BasicSim.Core.Correctness.TopologyLayout
import BasicSim.Core.FiveTupleHash

/-!
# `Core.Correctness.FiveTupleHash` — ECMP is consistent per flow and ignores no field

Two runs are compared. The buffers that are hashed are equal if and only if the five values of the flow and the
node identifiers are; so whatever the hash is, packets of one flow take the same path.

## Contents
- **Flows.** `effectivePorts`, `fiveTuple`, `SameFlow`.
- **Bytes.** `fiveTupleBuffer_inj` and `fiveTupleBuffer_congr`.
- **Runs.** `SameFlow.baseDecide_eq` for one node, `followPath_congr`, then `ecmp_is_consistent_per_flow`.
-/

namespace BasicSim

open Fallible Bytes

namespace ArbiterEcmp

/-! ## Flows -/

/-- The ports of the transport header, if the packet is unfragmented TCP or UDP and carries that header. -/
def effectivePorts (p : EcmpPacket) (noOtherHeaders : Bool) : Ports :=
  if noOtherHeaders = true ∨ p.fragmentOffset ≠ 0 then ⟨0, 0⟩
  else if p.protocol = 6 then p.peekTcpHeader
  else if p.protocol = 17 then p.peekUdpHeader
  else ⟨0, 0⟩

/-- The five values that tell flows apart. -/
structure FiveTuple where
  source : Ipv4Address
  destination : Ipv4Address
  protocol : BitVec 8
  sourcePort : BitVec 16
  destinationPort : BitVec 16
deriving DecidableEq

def fiveTuple (header : Ipv4Header) (p : EcmpPacket) (noOtherHeaders : Bool) : FiveTuple where
  source := header.source
  destination := header.destination
  protocol := p.protocol
  sourcePort := (effectivePorts p noOtherHeaders).source
  destinationPort := (effectivePorts p noOtherHeaders).destination

/-- The check of the ports does not abort. -/
def HasPorts (p : EcmpPacket) (noOtherHeaders : Bool) : Prop := ∃ ports, peekPorts p noOtherHeaders = .ok ports

variable {header header₁ header₂ : Ipv4Header} {p p₁ p₂ : EcmpPacket} {n n₁ n₂ : Int} {f f₁ f₂ : Bool}
  {b b₁ b₂ : List (BitVec 8)}

/-- What is read are the effective ports. -/
theorem peekPorts_eq_ok {ports : Ports} (h : peekPorts p f = .ok ports) : ports = effectivePorts p f := by
  unfold peekPorts at h
  unfold effectivePorts
  cases f with
  | true =>
      rw [if_neg (by decide)] at h
      rw [if_pos (.inl rfl)]
      exact (Except.ok.inj h).symm
  | false =>
      rw [if_pos rfl] at h
      by_cases hfrag : p.fragmentOffset = 0
      · rw [if_neg (by simp [hfrag])]
        by_cases htcp : p.protocol = 6
        · rw [if_pos ⟨htcp, hfrag⟩] at h
          rw [if_pos htcp]
          exact (Except.ok.inj (throwIf_bind_eq_ok.mp h).2).symm
        · rw [if_neg fun h => htcp h.1] at h
          rw [if_neg htcp]
          by_cases hudp : p.protocol = 17
          · rw [if_pos ⟨hudp, hfrag⟩] at h
            rw [if_pos hudp]
            exact (Except.ok.inj (throwIf_bind_eq_ok.mp h).2).symm
          · rw [if_neg fun h => hudp h.1] at h
            rw [if_neg hudp]
            exact (Except.ok.inj h).symm
      · rw [if_neg fun h => hfrag h.2, if_neg fun h => hfrag h.2] at h
        rw [if_pos (.inr hfrag)]
        exact (Except.ok.inj h).symm

theorem HasPorts.peekPorts_eq (h : HasPorts p f) : peekPorts p f = .ok (effectivePorts p f) := by
  obtain ⟨ports, hports⟩ := h
  rw [hports, peekPorts_eq_ok hports]

/-! ## Bytes -/

theorem word16_inj {x y : BitVec 16} (h₁ : lowByte (x >>> 8) = lowByte (y >>> 8)) (h₀ : lowByte x = lowByte y) :
    x = y := by
  refine eq_of_lowBytes (by decide) (show 16 ≤ 8 * 2 by decide) ?_
  intro i hi
  match i, hi with
  | 0, _ => simpa using h₀
  | 1, _ => exact h₁

theorem word32_inj {x y : BitVec 32} (h₃ : lowByte (x >>> 24) = lowByte (y >>> 24))
    (h₂ : lowByte (x >>> 16) = lowByte (y >>> 16)) (h₁ : lowByte (x >>> 8) = lowByte (y >>> 8))
    (h₀ : lowByte x = lowByte y) : x = y := by
  refine eq_of_lowBytes (by decide) (show 32 ≤ 8 * 4 by decide) ?_
  intro i hi
  match i, hi with
  | 0, _ => simpa using h₀
  | 1, _ => exact h₁
  | 2, _ => exact h₂
  | 3, _ => exact h₃

theorem address_inj {x y : Ipv4Address} (h : serialize x = serialize y) : x = y := by
  simp only [serialize, List.cons.injEq, and_true] at h
  obtain ⟨h₃, h₂, h₁, h₀⟩ := h
  exact congrArg BitVec.toFin (word32_inj h₃ h₂ h₁ h₀)

/-- The buffer is built if the identifier is not negative and the check of the ports passes. -/
theorem fiveTupleBuffer_eq_ok : fiveTupleBuffer header p n f = .ok b ↔
    0 ≤ n ∧ HasPorts p f ∧ b = serialize header.source ++ serialize header.destination ++
      [p.protocol,
        lowByte ((effectivePorts p f).source >>> 8), lowByte (effectivePorts p f).source,
        lowByte ((effectivePorts p f).destination >>> 8), lowByte (effectivePorts p f).destination,
        lowByte (toUInt32 n >>> 24), lowByte (toUInt32 n >>> 16), lowByte (toUInt32 n >>> 8),
        lowByte (toUInt32 n),
        lowByte (ecmpPerturbation >>> 24), lowByte (ecmpPerturbation >>> 16),
        lowByte (ecmpPerturbation >>> 8), lowByte ecmpPerturbation] := by
  unfold fiveTupleBuffer
  rw [throwIf_bind_eq_ok, not_lt, bind_eq_ok]
  constructor
  · rintro ⟨hn, ports, hports, hb⟩
    rw [← peekPorts_eq_ok hports]
    exact ⟨hn, ⟨ports, hports⟩, (Except.ok.inj hb).symm⟩
  · rintro ⟨hn, hports, rfl⟩
    exact ⟨hn, _, hports.peekPorts_eq, rfl⟩

/-- **The buffer holds every value, each in its own bytes.** -/
theorem fiveTupleBuffer_inj (hn₁ : InInt32 n₁) (hn₂ : InInt32 n₂) (h₁ : fiveTupleBuffer header₁ p₁ n₁ f₁ = .ok b)
    (h₂ : fiveTupleBuffer header₂ p₂ n₂ f₂ = .ok b) :
    fiveTuple header₁ p₁ f₁ = fiveTuple header₂ p₂ f₂ ∧ n₁ = n₂ := by
  obtain ⟨h0₁, -, hb₁⟩ := fiveTupleBuffer_eq_ok.mp h₁
  obtain ⟨h0₂, -, hb₂⟩ := fiveTupleBuffer_eq_ok.mp h₂
  obtain ⟨haddresses, hrest⟩ := List.append_inj (hb₁.symm.trans hb₂) rfl
  obtain ⟨hsource, hdestination⟩ := List.append_inj haddresses rfl
  simp only [List.cons.injEq, and_true] at hrest
  obtain ⟨hprotocol, hs₁, hs₀, hd₁, hd₀, hi₃, hi₂, hi₁, hi₀⟩ := hrest
  have hid := congrArg BitVec.toInt (word32_inj hi₃ hi₂ hi₁ hi₀)
  rw [toInt_toUInt32 h0₁ hn₁.2, toInt_toUInt32 h0₂ hn₂.2] at hid
  refine ⟨?_, hid⟩
  unfold fiveTuple
  rw [address_inj hsource, address_inj hdestination, hprotocol, word16_inj hs₁ hs₀, word16_inj hd₁ hd₀]

/-- The buffer is determined by the five values and the node identifier. -/
theorem fiveTupleBuffer_congr (h : fiveTuple header₁ p₁ f₁ = fiveTuple header₂ p₂ f₂) (hp₁ : HasPorts p₁ f₁)
    (hp₂ : HasPorts p₂ f₂) : fiveTupleBuffer header₁ p₁ n f₁ = fiveTupleBuffer header₂ p₂ n f₂ := by
  obtain ⟨hsource, hdestination, hprotocol, hsourcePort, hdestinationPort⟩ := FiveTuple.mk.inj h
  unfold fiveTupleBuffer
  rw [hp₁.peekPorts_eq, hp₂.peekPorts_eq]
  simp only [ok_bind, hsource, hdestination, hprotocol, hsourcePort, hdestinationPort]

/-! ## Runs -/

/-- Two packets of one flow, as a node sees them: the five values agree, and no check of the ports aborts. -/
structure SameFlow (v₁ v₂ : View) : Prop where
  fiveTuple_eq : fiveTuple v₁.ipHeader v₁.pkt (v₁.ipHeader.source == Arbiter.socketRequestSource)
    = fiveTuple v₂.ipHeader v₂.pkt (v₂.ipHeader.source == Arbiter.socketRequestSource)
  left : HasPorts v₁.pkt (v₁.ipHeader.source == Arbiter.socketRequestSource)
  right : HasPorts v₂.pkt (v₂.ipHeader.source == Arbiter.socketRequestSource)

variable {v₁ v₂ : View}

theorem ipHeader_eq_of (hsource : header₁.source = header₂.source)
    (hdestination : header₁.destination = header₂.destination) : header₁ = header₂ := by
  cases header₁
  cases header₂
  cases hsource
  cases hdestination
  rfl

theorem SameFlow.ipHeader_eq (h : SameFlow v₁ v₂) : v₁.ipHeader = v₂.ipHeader := by
  obtain ⟨hsource, hdestination, -⟩ := FiveTuple.mk.inj h.fiveTuple_eq
  exact ipHeader_eq_of hsource hdestination

/-- `TopologyPtopDecide` does the same for both. -/
theorem topologyPtopDecideByHash_congr (h : fiveTuple header₁ p₁ f = fiveTuple header₂ p₂ f)
    (hp₁ : HasPorts p₁ f) (hp₂ : HasPorts p₂ f) (hash32 : List (BitVec 8) → BitVec 32)
    (candidateList : List (List (BitVec 32))) (nodeId source target : Int) (neighbors : OrdSet Int) :
    topologyPtopDecideByHash hash32 candidateList nodeId source target neighbors p₁ header₁ f
      = topologyPtopDecideByHash hash32 candidateList nodeId source target neighbors p₂ header₂ f := by
  unfold topologyPtopDecideByHash computeFiveTupleHash
  rw [fiveTupleBuffer_congr h hp₁ hp₂]

/-- So the arbiter of a node decides the same. -/
theorem SameFlow.baseDecide_eq (h : SameFlow v₁ v₂) (arbiter : EcmpArbiter)
    (hash32 : List (BitVec 8) → BitVec 32) :
    arbiter.baseDecide hash32 v₁.pkt v₁.ipHeader = arbiter.baseDecide hash32 v₂.pkt v₂.ipHeader := by
  have hheader := h.ipHeader_eq
  obtain ⟨htuple, hleft, hright⟩ := h
  rw [hheader] at htuple hleft
  unfold EcmpArbiter.baseDecide Arbiter.baseDecide ArbiterPtop.decide
  rw [hheader]
  simp only [topologyPtopDecideByHash_congr htuple hleft hright]

/-- **Run lemma.** The packets are at the same nodes. -/
theorem followPath_congr (hash32 : List (BitVec 8) → BitVec 32) (arbiterOf : Int → EcmpArbiter)
    (isLocal : Int → Ipv4Address → Bool) (peer : Int → Nat → Int) {views₁ views₂ : List View}
    (h : List.Forall₂ SameFlow views₁ views₂) (node : Int) :
    followPath hash32 arbiterOf isLocal peer views₁ node
      = followPath hash32 arbiterOf isLocal peer views₂ node := by
  induction h generalizing node with
  | nil => rfl
  | cons hflow _ ih =>
      unfold followPath
      rw [hflow.baseDecide_eq, hflow.ipHeader_eq]
      simp only [ih]

/-! ## Main result -/

/-- The buffers are equal if and only if all six values are, and packets of one flow go the same way. -/
structure ConsistentPerFlow : Prop where
  buffers : ∀ {header₁ header₂ p₁ p₂ n₁ n₂ f₁ f₂ b₁ b₂}, InInt32 n₁ → InInt32 n₂ →
    fiveTupleBuffer header₁ p₁ n₁ f₁ = .ok b₁ → fiveTupleBuffer header₂ p₂ n₂ f₂ = .ok b₂ →
    b₁.length = 21 ∧ (b₁ = b₂ ↔ fiveTuple header₁ p₁ f₁ = fiveTuple header₂ p₂ f₂ ∧ n₁ = n₂)
  decision : ∀ hash32 candidateList nodeId source target neighbors {header₁ header₂ p₁ p₂ f},
    fiveTuple header₁ p₁ f = fiveTuple header₂ p₂ f → HasPorts p₁ f → HasPorts p₂ f →
    topologyPtopDecideByHash hash32 candidateList nodeId source target neighbors p₁ header₁ f
      = topologyPtopDecideByHash hash32 candidateList nodeId source target neighbors p₂ header₂ f
  nextHop : ∀ hash32 (arbiter : EcmpArbiter) {v₁ v₂}, SameFlow v₁ v₂ →
    arbiter.baseDecide hash32 v₁.pkt v₁.ipHeader = arbiter.baseDecide hash32 v₂.pkt v₂.ipHeader
  path : ∀ hash32 arbiterOf isLocal peer {views₁ views₂} node, List.Forall₂ SameFlow views₁ views₂ →
    followPath hash32 arbiterOf isLocal peer views₁ node = followPath hash32 arbiterOf isLocal peer views₂ node

/-- **ECMP is consistent per flow and ignores no field.** -/
theorem ecmp_is_consistent_per_flow : ConsistentPerFlow where
  buffers := by
    intro header₁ header₂ p₁ p₂ n₁ n₂ f₁ f₂ b₁ b₂ hn₁ hn₂ h₁ h₂
    obtain ⟨-, hp₁, hb₁⟩ := fiveTupleBuffer_eq_ok.mp h₁
    obtain ⟨-, hp₂, -⟩ := fiveTupleBuffer_eq_ok.mp h₂
    refine ⟨by rw [hb₁]; rfl, ?_, ?_⟩
    · rintro rfl
      exact fiveTupleBuffer_inj hn₁ hn₂ h₁ h₂
    · rintro ⟨htuple, rfl⟩
      rw [fiveTupleBuffer_congr htuple hp₁ hp₂, h₂] at h₁
      exact (Except.ok.inj h₁).symm
  decision hash32 candidateList nodeId source target neighbors _ _ _ _ _ htuple hp₁ hp₂ :=
    topologyPtopDecideByHash_congr htuple hp₁ hp₂ hash32 candidateList nodeId source target neighbors
  nextHop hash32 arbiter _ _ h := h.baseDecide_eq arbiter hash32
  path hash32 arbiterOf isLocal peer _ _ node h := followPath_congr hash32 arbiterOf isLocal peer h node

/-- The arbiter of node 0 of two nodes, 10.0.0.1 and 10.0.0.2. -/
def pairEcmpArbiter : EcmpArbiter where
  nodeId := 0
  ipToNodeId := OrdMap.ofEntries [(167772161, 0), (167772162, 1)]
  topology := pairTopology
  neighborNodeIdToIfIdx := [0, 1]
  candidateList := [[], [1]]

/-- An ICMP packet; what is there instead of ports is its type and its checksum. -/
def icmpView (checksum : BitVec 16) : View :=
  ⟨⟨1, 0, ⟨2048, checksum⟩, ⟨2048, checksum⟩⟩, ⟨167772161, 167772162⟩⟩

theorem sameFlow_icmpView (checksum checksum' : BitVec 16) : SameFlow (icmpView checksum) (icmpView checksum') :=
  ⟨rfl, ⟨_, rfl⟩, ⟨_, rfl⟩⟩

/-- The buffers of two nodes differ, and different ICMP packets go the same way. -/
theorem ecmp_is_consistent_per_flow_icmp :
    (∃ b₁ b₂, fiveTupleBuffer (icmpView 1).ipHeader (icmpView 1).pkt 0 false = .ok b₁ ∧
      fiveTupleBuffer (icmpView 2).ipHeader (icmpView 2).pkt 1 false = .ok b₂ ∧ b₁.length = 21 ∧ b₁ ≠ b₂) ∧
    followPath (fun _ => 7#32) (fun _ => pairEcmpArbiter) (fun node _ => decide (node = 1)) (fun _ k => k)
        [icmpView 1, icmpView 2] 0 = .ok [0, 1] ∧
      followPath (fun _ => 7#32) (fun _ => pairEcmpArbiter) (fun node _ => decide (node = 1)) (fun _ k => k)
        [icmpView 3, icmpView 4] 0 = .ok [0, 1] := by
  obtain ⟨hbuffers, -, -, hpath⟩ := ecmp_is_consistent_per_flow
  constructor
  · obtain ⟨b₁, b₂, h₁, h₂⟩ : ∃ b₁ b₂, fiveTupleBuffer (icmpView 1).ipHeader (icmpView 1).pkt 0 false = .ok b₁ ∧
        fiveTupleBuffer (icmpView 2).ipHeader (icmpView 2).pkt 1 false = .ok b₂ := ⟨_, _, rfl, rfl⟩
    obtain ⟨hlength, hiff⟩ := hbuffers (by decide) (by decide) h₁ h₂
    exact ⟨b₁, b₂, h₁, h₂, hlength, fun heq => absurd (hiff.mp heq).2 (by decide)⟩
  · have hrun : followPath (fun _ => 7#32) (fun _ => pairEcmpArbiter) (fun node _ => decide (node = 1)) (fun _ k => k)
        [icmpView 1, icmpView 2] 0 = .ok [0, 1] := by decide
    refine ⟨hrun, (hpath _ _ _ _ 0 ?_).trans hrun⟩
    exact .cons (sameFlow_icmpView 3 1) (.cons (sameFlow_icmpView 4 2) .nil)

-- a TCP packet from 10.0.0.1 to 10.0.0.2, ports 49153 and 1024, at node 258
example : fiveTupleBuffer ⟨167772161, 167772162⟩ ⟨6, 0, ⟨49153, 1024⟩, ⟨0, 0⟩⟩ 258 false =
    .ok [10, 0, 0, 1, 10, 0, 0, 2, 6, 192, 1, 4, 0, 0, 0, 1, 2, 79, 124, 3, 226] := by rfl

end ArbiterEcmp

end BasicSim
