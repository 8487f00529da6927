import BasicSim.Core.Cpp

/-!
# `Apps.UdpHeaders` — the packets of the UDP applications (`model/apps/udp-*-header.cc`)

A header is a few 64-bit integers in network order at the front of a packet. How ns-3 writes and reads one
64-bit integer is a parameter; `networkOrder` is an instance of it.

## Contents
- **Buffer.** `BufferIterator`, `networkOrder`.
- **Packets.** `Packet`, `addHeader`.
- **Headers.** `UdpPingHeader` and `UdpBurstHeader`, with `serialize` and `deserialize`.
-/

namespace BasicSim

/-! ## Buffer -/

/-- What the headers use of a `Buffer::Iterator`: a 64-bit integer that was written is read back, and the
    iterator is then behind it. -/
structure BufferIterator (Byte : Type) where
  writeHtonU64 : BitVec 64 → List Byte
  readNtohU64 : List Byte → BitVec 64 × List Byte
  read_write : ∀ value rest, readNtohU64 (writeHtonU64 value ++ rest) = (value, rest)

/-- Eight bytes, the most significant one first. -/
def networkOrder : BufferIterator Nat where
  writeHtonU64 value :=
    [value.toNat / 2 ^ 56, value.toNat / 2 ^ 48 % 256, value.toNat / 2 ^ 40 % 256,
      value.toNat / 2 ^ 32 % 256, value.toNat / 2 ^ 24 % 256, value.toNat / 2 ^ 16 % 256,
      value.toNat / 2 ^ 8 % 256, value.toNat % 256]
  readNtohU64
    | b₇ :: b₆ :: b₅ :: b₄ :: b₃ :: b₂ :: b₁ :: b₀ :: rest =>
      (BitVec.ofNat 64 (b₇ * 2 ^ 56 + b₆ * 2 ^ 48 + b₅ * 2 ^ 40 + b₄ * 2 ^ 32 + b₃ * 2 ^ 24
        + b₂ * 2 ^ 16 + b₁ * 2 ^ 8 + b₀), rest)
    | _ => (0, [])
  read_write value rest := by
    refine Prod.ext (BitVec.eq_of_toNat_eq ?_) rfl
    have hlt := value.isLt
    show BitVec.toNat (BitVec.ofNat 64 _) = value.toNat
    rw [BitVec.toNat_ofNat]
    omega

/-! ## Packets -/

/-- A packet: the bytes of its headers, and the size of the payload behind them. -/
structure Packet (Byte : Type) where
  headers : List Byte
  payloadSizeByte : Nat
deriving DecidableEq

/-- `Create<Packet>(size)`. -/
def Packet.create {Byte : Type} (sizeByte : Nat) : Packet Byte := ⟨[], sizeByte⟩

def Packet.addHeader {Byte : Type} (p : Packet Byte) (serialized : List Byte) : Packet Byte :=
  { p with headers := serialized ++ p.headers }

/-! ## Headers -/

/-- The members of a `UdpPingHeader`. -/
structure UdpPingHeader where
  id : BitVec 64
  seq : BitVec 64
  ts : BitVec 64
deriving DecidableEq

/-- The members of a `UdpBurstHeader`. -/
structure UdpBurstHeader where
  id : BitVec 64
  seq : BitVec 64
deriving DecidableEq

section Serialize

variable {Byte : Type} (it : BufferIterator Byte)

def UdpPingHeader.serialize (h : UdpPingHeader) : List Byte :=
  it.writeHtonU64 h.id ++ it.writeHtonU64 h.seq ++ it.writeHtonU64 h.ts

def UdpPingHeader.deserialize (bytes : List Byte) : UdpPingHeader × List Byte :=
  let (id, bytes) := it.readNtohU64 bytes
  let (seq, bytes) := it.readNtohU64 bytes
  let (ts, bytes) := it.readNtohU64 bytes
  (⟨id, seq, ts⟩, bytes)

def UdpBurstHeader.serialize (h : UdpBurstHeader) : List Byte :=
  it.writeHtonU64 h.id ++ it.writeHtonU64 h.seq

def UdpBurstHeader.deserialize (bytes : List Byte) : UdpBurstHeader × List Byte :=
  let (id, bytes) := it.readNtohU64 bytes
  let (seq, bytes) := it.readNtohU64 bytes
  (⟨id, seq⟩, bytes)

/-- `GetSerializedSize` of a `UdpBurstHeader`. -/
def UdpBurstHeader.serializedSizeByte : BitVec 32 := 8 + 8

@[simp] theorem UdpPingHeader.deserialize_serialize (h : UdpPingHeader) (rest : List Byte) :
    UdpPingHeader.deserialize it (h.serialize it ++ rest) = (h, rest) := by
  simp only [UdpPingHeader.serialize, UdpPingHeader.deserialize, List.append_assoc, it.read_write]

@[simp] theorem UdpBurstHeader.deserialize_serialize (h : UdpBurstHeader) (rest : List Byte) :
    UdpBurstHeader.deserialize it (h.serialize it ++ rest) = (h, rest) := by
  simp only [UdpBurstHeader.serialize, UdpBurstHeader.deserialize, List.append_assoc, it.read_write]

end Serialize

end BasicSim
