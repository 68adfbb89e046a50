import Tquic.Codec

/-!
# Packet headers

The part of a packet header that can be read before header protection is removed. Only for a
supported version does `PacketHeader.fromBytes` reject a long connection id; otherwise it is cut.
-/

namespace Tquic

def maxCidLen : ℕ := 20

structure ConnectionId where
  bytes : Bytes
  length_le : bytes.length ≤ maxCidLen
  deriving DecidableEq

namespace ConnectionId

def new (bytes : Bytes) : ConnectionId where
  bytes := bytes.take maxCidLen
  length_le := List.length_take_le _ _

def len (cid : ConnectionId) : ℕ := cid.bytes.length

def isEmpty (cid : ConnectionId) : Bool := cid.bytes.isEmpty

@[ext] theorem ext {a b : ConnectionId} (h : a.bytes = b.bytes) : a = b := by
  cases a
  cases b
  simpa using h

@[simp] theorem new_bytes (cid : ConnectionId) : new cid.bytes = cid :=
  ext (List.take_of_length_le cid.length_le)

theorem len_le (cid : ConnectionId) : cid.len ≤ maxCidLen := cid.length_le

theorem len_eq_zero_iff (cid : ConnectionId) : cid.len = 0 ↔ cid.isEmpty := by
  simp [len, isEmpty]

end ConnectionId

inductive PacketType where
  | versionNegotiation
  | initial
  | zeroRtt
  | handshake
  | retry
  | oneRtt
  deriving DecidableEq, Repr

def quicVersionV1 : ℕ := 1

def versionIsSupported (version : ℕ) : Bool := version == quicVersionV1

structure PacketHeader where
  pktType : PacketType
  version : ℕ
  dcid : ConnectionId
  scid : ConnectionId
  token : Option Bytes
  deriving DecidableEq

namespace PacketHeader

def longHeader (first : UInt8) : Bool := first &&& 0x80 != 0

def retryTagLen : ℕ := 16

def longPacketType (first : UInt8) (version : ℕ) : Result PacketType :=
  if version = 0 then .ok .versionNegotiation
  else
    match (first &&& 0x30) >>> 4 with
    | 0 => .ok .initial
    | 1 => .ok .zeroRtt
    | 2 => .ok .handshake
    | 3 => .ok .retry
    | _ => .error .invalidPacket

def readCid (version : ℕ) (buf : Bytes) : Result (ConnectionId × Bytes) := do
  let (len, buf) ← Decoder.readU8 buf
  if versionIsSupported version ∧ maxCidLen < len.toNat then
    throw .invalidPacket
  let (cid, buf) ← Decoder.read buf len.toNat
  return (.new cid, buf)

def readToken (pktType : PacketType) (buf : Bytes) : Result (Option Bytes × Bytes) :=
  match pktType with
  | .initial => do
      let (tokenLen, buf) ← Decoder.readVarint buf
      if tokenLen = 0 then
        return (none, buf)
      let (token, buf) ← Decoder.read buf tokenLen
      return (some token, buf)
  | .retry => do
      if buf.length < retryTagLen then
        throw .invalidPacket
      let (token, buf) ← Decoder.read buf (buf.length - retryTagLen)
      return (some token, buf)
  | _ => .ok (none, buf)

/-- The header at the front of `buf`, without the packet number, and its length; `dcidLen` is that
of the id in a short header. -/
def fromBytes (buf : Bytes) (dcidLen : ℕ) : Result (PacketHeader × ℕ) := do
  let len := buf.length
  let (first, buf) ← Decoder.readU8 buf
  if longHeader first then
    let (version, buf) ← Decoder.readU32 buf
    let pktType ← longPacketType first version
    let (dcid, buf) ← readCid version buf
    let (scid, buf) ← readCid version buf
    let (token, buf) ← readToken pktType buf
    return (⟨pktType, version, dcid, scid, token⟩, len - buf.length)
  else
    let (dcid, buf) ← Decoder.read buf dcidLen
    return (⟨.oneRtt, 0, .new dcid, .new [], none⟩, len - buf.length)

end PacketHeader

end Tquic
