import Tquic.Base.BigEndian

/-!
# Authenticated encryption

What a program sees of an AEAD: sealing may refuse, and opening works on the
buffer it is given, which it overwrites whether or not the buffer was authentic.
-/

structure Aead (Key : Type) where
  sealInPlace : Key → (nonce aad plaintext : Bytes) → Option Bytes
  /-- Whether the buffer was authentic, and what is left in it. After a success
  that is the plaintext with the remains of the tag behind it. -/
  openInPlace : Key → (nonce aad buffer : Bytes) → Bool × Bytes

namespace Aead

variable {Key : Type}

/-- Opening what was sealed under the same key, nonce and associated data gives
the plaintext back. -/
structure Lawful (aead : Aead Key) : Prop where
  open_seal : ∀ {key nonce aad plaintext sealed},
    aead.sealInPlace key nonce aad plaintext = some sealed →
      ∃ tail, aead.openInPlace key nonce aad sealed = (true, plaintext ++ tail)

/-- Only what was sealed under the same key, nonce and associated data can be opened. -/
def Exact (aead : Aead Key) : Prop :=
  ∀ key nonce aad buffer body, aead.openInPlace key nonce aad buffer = (true, body) →
    ∃ plaintext, aead.sealInPlace key nonce aad plaintext = some buffer

/-- What was sealed with some associated data opens with no other. -/
def Binds (aead : Aead Key) : Prop :=
  ∀ key nonce aad aad' plaintext sealed body,
    aead.sealInPlace key nonce aad plaintext = some sealed →
      aead.openInPlace key nonce aad' sealed = (true, body) → aad = aad'

/-- The AEAD without secrecy: the key, the length of the associated data, these data and the
plaintext. -/
def transparent : Aead UInt8 where
  sealInPlace key _ aad plaintext := some (key :: UInt8.ofNat aad.length :: aad ++ plaintext)
  openInPlace key _ aad buffer :=
    let head := key :: UInt8.ofNat aad.length :: aad
    if buffer.take head.length = head then (true, buffer.drop head.length)
    else (false, buffer.map fun _ => 0)

theorem transparent_lawful : transparent.Lawful where
  open_seal := by
    intro key nonce aad plaintext sealed h
    obtain rfl : key :: UInt8.ofNat aad.length :: aad ++ plaintext = sealed := by
      simpa [transparent] using h
    refine ⟨[], ?_⟩
    simp [transparent]

/-- The AEAD that tells one key from the others, and empties a buffer that it refuses. -/
def marked (own : Key → Bool) : Aead Key where
  sealInPlace key _ _ plaintext := some ((own key).toNat.toUInt8 :: plaintext)
  openInPlace key _ _ buffer :=
    if buffer.head? = some (own key).toNat.toUInt8 then (true, buffer.tail) else (false, [])

theorem marked_lawful (own : Key → Bool) : (marked own).Lawful where
  open_seal h := by
    cases Option.some_inj.mp h
    exact ⟨[], by simp [marked]⟩

theorem marked_exact (own : Key → Bool) : (marked own).Exact := by
  intro key nonce aad buffer body h
  simp only [marked] at h
  split_ifs at h with hhead
  · exact ⟨buffer.tail, congrArg some (List.cons_head?_tail hhead)⟩
  · cases h

end Aead
