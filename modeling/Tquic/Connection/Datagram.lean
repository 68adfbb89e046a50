import Tquic.Codec

/-!
# Datagrams

The peer's limit is on the whole DATAGRAM frame: the type, the length of the payload
as a variable-length integer, and the payload.
-/

namespace Tquic

structure Dgrams where
  /-- The peer's limit; a parameter of zero means no support and is dropped. -/
  maxDatagramFrameSize : Option ℕ
  sendQueue : List Bytes := []
  tickable : Bool := false
  deriving DecidableEq

namespace Dgrams

def dgramSend (c : Dgrams) (data : Bytes) : Exec (Dgrams × Result Unit) :=
  match c.maxDatagramFrameSize with
  | none => .ok (c, .error (.invalidState "peer does not support datagrams"))
  | some peerMax => do
    let len ← encodeVarintLen data.length
    if peerMax < 1 + len + data.length then
      return (c, .error .bufferTooShort)
    else
      -- The oldest datagram makes room.
      let queue := if 128 ≤ c.sendQueue.length then c.sendQueue.tail else c.sendQueue
      return ({ c with sendQueue := queue ++ [data], tickable := true }, .ok ())

def dgramMaxPayloadSize (c : Dgrams) : Exec (Option ℕ) :=
  match c.maxDatagramFrameSize with
  | none => .ok none
  | some max => do
    let len ← encodeVarintLen (max - 1)
    return some (max - (1 + len))

def Accepts (c : Dgrams) (data : Bytes) : Prop := ∃ c', c.dgramSend data = .ok (c', .ok ())

variable {c : Dgrams} {data : Bytes} {max : ℕ}

theorem accepts_iff (hmax : c.maxDatagramFrameSize = some max) :
    c.Accepts data ↔
      ∃ len, encodeVarintLen data.length = .ok len ∧ 1 + len + data.length ≤ max := by
  simp only [Accepts, dgramSend, hmax]
  cases hlen : encodeVarintLen data.length with
  | panic | diverge => simp
  | ok len =>
    rw [Exec.ok_bind]
    by_cases hfits : 1 + len + data.length ≤ max
    · rw [if_neg (not_lt.mpr hfits)]
      simp [hfits]
    · rw [if_pos (not_le.mp hfits)]
      simp [hfits]

/-- The limits for which the length of the longest payload is shorter on the wire than
the length that is subtracted, and the limit that no frame meets. -/
def Misjudged (max : ℕ) : Prop :=
  max = 1 ∨ max = 65 ∨ 16385 ≤ max ∧ max ≤ 16387 ∨ 2 ^ 30 + 1 ≤ max ∧ max ≤ 2 ^ 30 + 7

/-- A payload is accepted exactly up to the size that is said, for the limits that are not
misjudged and for no other. -/
theorem accepts_iff_le_dgramMaxPayloadSize (hmax : c.maxDatagramFrameSize = some max)
    (hpos : 1 ≤ max) (hle : max ≤ vintMax) :
    (∃ size, c.dgramMaxPayloadSize = .ok (some size) ∧
      ∀ data, c.Accepts data ↔ data.length ≤ size) ↔ ¬Misjudged max := by
  simp only [accepts_iff hmax, dgramMaxPayloadSize, hmax]
  constructor
  · rintro ⟨size, hsize, hall⟩ hmis
    -- the empty payload settles the limit of one, a payload one octet longer the others
    have hnone := hall []
    have hmore := hall (List.replicate (size + 1) 0)
    simp only [List.length_replicate, List.length_nil, encodeVarintLen] at hsize hnone hmore
    unfold Misjudged at hmis
    split_ifs at hsize hmore <;> simp at hsize hnone hmore <;> omega
  · intro hjudged
    unfold Misjudged at hjudged
    have hin : max - 1 ≤ vintMax := by omega
    simp only [encodeVarintLen, hin, if_true]
    split_ifs <;> simp <;> intro data <;> split_ifs <;> simp <;> omega

theorem accepts_iff_le_dgramMaxPayloadSize_ethernet :
    (∃ size, (Dgrams.mk (some 1200) [] false).dgramMaxPayloadSize = .ok (some size) ∧
      ∀ data, (Dgrams.mk (some 1200) [] false).Accepts data ↔ data.length ≤ size) ↔
      ¬Misjudged 1200 :=
  accepts_iff_le_dgramMaxPayloadSize rfl (by decide) (by decide)

/-- A payload of 63 octets is accepted where 62 is said to be the most. -/
theorem accepts_more :
    (Dgrams.mk (some 65) [] false).dgramMaxPayloadSize = .ok (some 62) ∧
      (Dgrams.mk (some 65) [] false).Accepts (List.replicate 63 0) :=
  ⟨rfl, _, rfl⟩

end Dgrams

end Tquic
