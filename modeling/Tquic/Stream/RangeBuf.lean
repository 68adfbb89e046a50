import Tquic.Base.Exec

/-!
# Range buffers

A range buffer is a run of stream bytes with the offset of its first byte. The
arrival time that the source also keeps plays no part in the modelled code.
-/

namespace Tquic

structure RangeBuf where
  data : List UInt8
  off : ℕ
  fin : Bool
  deriving DecidableEq, Repr

namespace RangeBuf

def new (data : List UInt8) (off : ℕ) (fin : Bool) : RangeBuf := ⟨data, off, fin⟩

def len (b : RangeBuf) : ℕ := b.data.length

def maxOff (b : RangeBuf) : ℕ := b.off + b.len

def isEmpty (b : RangeBuf) : Bool := b.len = 0

variable {b : RangeBuf} {n : ℕ} {S : List UInt8}

theorem isEmpty_iff : b.isEmpty = true ↔ b.len = 0 := by
  simp [isEmpty]

/-- Advancing past the end of the underlying bytes panics. -/
def advance (b : RangeBuf) (count : ℕ) : Exec RangeBuf := do
  Exec.assert (count ≤ b.len)
  return { b with data := b.data.drop count, off := b.off + count }

def consume (b : RangeBuf) (count : ℕ) : Exec RangeBuf := b.advance count

/-- `split_off(at)`: what stays in the buffer, and the buffer returned. -/
def splitOff (b : RangeBuf) (pos : ℕ) : Exec (RangeBuf × RangeBuf) := do
  Exec.assert (pos ≤ b.len)
  return ({ b with data := b.data.take pos, fin := false },
    ⟨b.data.drop pos, b.off + pos, b.fin⟩)

theorem advance_of_le (hn : n ≤ b.len) : b.advance n = .ok ⟨b.data.drop n, b.off + n, b.fin⟩ := by
  simp [advance, hn]

theorem splitOff_of_le (hn : n ≤ b.len) :
    b.splitOff n = .ok (⟨b.data.take n, b.off, false⟩, ⟨b.data.drop n, b.off + n, b.fin⟩) := by
  simp [splitOff, hn]

/-! ## Buffers cut out of a stream -/

def Carries (S : List UInt8) (b : RangeBuf) : Prop := b.data <+: S.drop b.off

instance (S : List UInt8) (b : RangeBuf) : Decidable (b.Carries S) :=
  inferInstanceAs (Decidable (b.data <+: S.drop b.off))

theorem carries_drop (h : b.Carries S) (n : ℕ) (fin : Bool) :
    Carries S ⟨b.data.drop n, b.off + n, fin⟩ := by
  have := h.drop n
  rwa [List.drop_drop] at this

theorem carries_take (h : b.Carries S) (n : ℕ) (fin : Bool) :
    Carries S ⟨b.data.take n, b.off, fin⟩ :=
  (List.take_prefix n b.data).trans h

theorem advance_returns (h : b.Carries S) (hn : n ≤ b.len) :
    (b.advance n).Returns fun b' =>
      b'.Carries S ∧ b'.off = b.off + n ∧ b'.maxOff = b.maxOff ∧ b'.fin = b.fin := by
  have hlen : (b.data.drop n).length = b.data.length - n := List.length_drop
  rw [advance_of_le hn]
  refine Exec.Returns.intro ⟨carries_drop h n b.fin, rfl, ?_, rfl⟩
  simp only [maxOff, len, hlen] at hn ⊢
  omega

theorem splitOff_returns (h : b.Carries S) (hn : n ≤ b.len) :
    (b.splitOff n).Returns fun r =>
      (r.1.Carries S ∧ r.1.off = b.off ∧ r.1.maxOff = b.off + n) ∧
        r.2.Carries S ∧ r.2.off = b.off + n ∧ r.2.maxOff = b.maxOff := by
  rw [splitOff_of_le hn]
  refine Exec.Returns.intro ⟨⟨carries_take h n false, rfl, ?_⟩, carries_drop h n b.fin, rfl, ?_⟩
  · simp only [maxOff, len] at hn ⊢
    simp [hn]
  · simp only [maxOff, len, List.length_drop] at hn ⊢
    omega

end RangeBuf

end Tquic
