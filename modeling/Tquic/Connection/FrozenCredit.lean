import Tquic.Connection.Amplification
import Tquic.Connection.LinkSteps

/-!
# Credit after the address is verified

Datagrams that arrive or are sent no longer change the credit of a path once its address
is verified, and yet the validation of the path goes by what is left of it.
-/

namespace Tquic

def minPayloadLen : ℕ := 4

namespace Path

def needSendValidationFrames (p : Path) (isServer : Bool) : Bool :=
  if isServer && p.antiAmplLimit < minPathProbeSize then false
  else p.needSendChallenge || !p.recvChals.isEmpty

def needExpandPaddingFrames (p : Path) (isServer : Bool) (maxDatagramSize : ℕ) : Bool :=
  if p.validated then false
  else if isServer && p.antiAmplLimit ≤ maxDatagramSize then false
  else true

/-- The length of a payload with the PADDING frames of `send_frames`, in `outLen` bytes of which
others take `written`. -/
def paddedLen (p : Path) (isServer hasInitial isProbe : Bool) (pktType : PacketType)
    (maxDatagramSize outLen written : ℕ) : ℕ :=
  let written :=
    if 1 ≤ outLen - written ∧ (hasInitial || (isProbe && !isServer && pktType = .handshake) ||
        p.needExpandPaddingFrames isServer maxDatagramSize) then outLen
    else written
  max written minPayloadLen

end Path

namespace PathMap

variable {m m' : PathMap} {i credit : ℕ}

inductive CreditOp where
  | received (pathId len : ℕ)
  | sent (pathId len : ℕ)
  | change (pathId : ℕ) (change : PathChange)
  | verified (pathId : ℕ)
  | chalTimeout (now : ℤ)
  | stale (now : ℤ) (timeout : ℕ)

def creditStep (m : PathMap) : CreditOp → Exec (PathMap × Unit)
  | .received pathId len => .ok (m.incAntiAmplLimit pathId len, ())
  | .sent pathId len => .ok (m.decAntiAmplLimit pathId len, ())
  | .change pathId c => .ok (m.update pathId fun p => c.apply m.isMultipath p, ())
  | .verified pathId => .ok (m.update pathId fun p => { p with verifiedPeerAddress := true }, ())
  | .chalTimeout now => .ok (m.onPathChalTimeout now, ())
  | .stale now timeout => .ok (m.abandonStalePaths now timeout, ())

def Frozen (m : PathMap) (i credit : ℕ) : Prop :=
  ∃ p, m.get? i = some p ∧ p.verifiedPeerAddress = true ∧ p.antiAmplLimit = credit

theorem Frozen.update (h : m.Frozen i credit) {f : Path → Path} (pathId : ℕ)
    (hf : ∀ p : Path, p.verifiedPeerAddress = true → p.KeepsCredit (f p)) :
    (m.update pathId f).Frozen i credit := by
  obtain ⟨p, hp, hverified, hcredit⟩ := h
  rw [Frozen, Links.get?_update]
  split_ifs
  · have hkeeps := hf p hverified
    refine ⟨f p, ?_, hkeeps.verified hverified, hkeeps.credit.trans hcredit⟩
    rw [hp, Option.map_some]
  · exact ⟨p, hp, hverified, hcredit⟩

theorem Frozen.keepsCredit (h : m.Frozen i credit) (hkeeps : m.KeepsCredit m') :
    m'.Frozen i credit := by
  obtain ⟨p, hp, hverified, hcredit⟩ := h
  have hlt := (List.getElem?_eq_some_iff.mp hp).1
  rw [← hkeeps.length] at hlt
  obtain ⟨p', hp', hpath⟩ := hkeeps.paths (List.getElem?_eq_getElem hlt)
  cases hp.symm.trans hp'
  exact ⟨_, List.getElem?_eq_getElem hlt, hpath.verified hverified, hpath.credit.trans hcredit⟩

theorem Frozen.step (h : m.Frozen i credit) {op : CreditOp} {u : Unit}
    (hstep : m.creditStep op = .ok (m', u)) : m'.Frozen i credit := by
  have hcharge : ∀ pathId (g : ℕ → ℕ), (m.update pathId fun p => if !p.verifiedPeerAddress then
      { p with antiAmplLimit := g p.antiAmplLimit } else p).Frozen i credit := by
    intro pathId g
    refine h.update pathId fun p hverified => ?_
    rw [hverified]
    exact .refl p
  cases op with
  | received pathId len =>
    cases hstep
    rw [incAntiAmplLimit]
    split_ifs
    · exact h
    · exact hcharge pathId (saturatingAdd · (min (m.antiAmplFactor * len) u64Max))
  | sent pathId len =>
    cases hstep
    rw [decAntiAmplLimit]
    split_ifs
    · exact h
    · exact hcharge pathId (· - len)
  | change pathId c =>
    cases hstep
    exact h.update pathId fun p _ => c.keepsCredit m.isMultipath p
  | verified pathId =>
    cases hstep
    exact h.update pathId fun p _ => ⟨rfl, fun _ => rfl, fun hstate => .inl hstate⟩
  | chalTimeout now =>
    cases hstep
    exact h.keepsCredit (m.keepsCredit_onPathChalTimeout now)
  | stale now timeout =>
    cases hstep
    exact h.keepsCredit (m.keepsCredit_abandonStalePaths now timeout)

/-- With enough credit left when the address was verified, a pending challenge or response
is to be sent, and until the path is validated packets are padded to the end of their
datagram. -/
theorem enough_credit_left (h : m.Frozen i credit) (hprobe : minPathProbeSize ≤ credit)
    (hreach : Exec.Reaches creditStep (fun _ _ ↦ True) m m') :
    ∃ p, m'.get? i = some p ∧ p.verifiedPeerAddress = true ∧
      p.needSendValidationFrames true = (p.needSendChallenge || !p.recvChals.isEmpty) ∧
      ∀ hasInitial isProbe pktType maxDatagramSize outLen written, maxDatagramSize < credit →
        p.validated = false → written < outLen →
        p.paddedLen true hasInitial isProbe pktType maxDatagramSize outLen written =
          max outLen minPayloadLen := by
  obtain ⟨p, hp, hverified, hcredit⟩ := hreach.invariant (Frozen · i credit)
    (fun _ _ _ _ hm _ hstep => hm.step hstep) h
  refine ⟨p, hp, hverified, ?_, ?_⟩
  · rw [Path.needSendValidationFrames, if_neg]
    simpa [hcredit] using hprobe
  · intro hasInitial isProbe pktType maxDatagramSize outLen written hsize hvalidated hroom
    have hexpand : p.needExpandPaddingFrames true maxDatagramSize = true := by
      rw [Path.needExpandPaddingFrames, if_neg (by simp [hvalidated]), if_neg]
      simpa [hcredit] using hsize
    rw [Path.paddedLen, if_pos ⟨by omega, by simp [hexpand]⟩]

def probed : PathMap :=
  .new (Path.new (.lan 2 443) (.lan 1 1) false 0) 8 3 true

def probes (len : ℕ) : List CreditOp :=
  [.received 0 len, .sent 0 100, .received 0 len, .change 0 (.respReceived 7), .received 0 1200,
    .change 0 (.chalReceived 9)]

theorem enough_credit_left_probed :
    ∃ p, (Exec.follow creditStep (fun _ _ ↦ True) probed (probes 1200)).get? 0 = some p ∧
      p.needSendValidationFrames true = (p.needSendChallenge || !p.recvChals.isEmpty) := by
  have hfrozen : (Exec.follow creditStep (fun _ _ => True) probed
      [.received 0 1200, .sent 0 100, .received 0 1200, .change 0 (.respReceived 7)]).Frozen 0
        7100 :=
    ⟨_, rfl, by decide +kernel, by decide +kernel⟩
  have hreach : Exec.Reaches creditStep (fun _ _ => True)
      (Exec.follow creditStep (fun _ _ => True) probed
        [.received 0 1200, .sent 0 100, .received 0 1200, .change 0 (.respReceived 7)]) _ :=
    Exec.reaches_follow _ [.received 0 1200, .change 0 (.chalReceived 9)]
  obtain ⟨p, hp, -, hsend, -⟩ := enough_credit_left hfrozen (by decide) hreach
  exact ⟨p, hp, hsend⟩

/-- The path of a client whose token was valid. -/
def trusted : PathMap :=
  .new { Path.new (.lan 2 443) (.lan 1 1) true 0 with verifiedPeerAddress := true } 8 3 true

/-- With 140 bytes of credit left when its address is verified, a path is not padded while it is not
validated; and a path verified by a token has no credit and does not report a response to send. -/
theorem stalled_by_leftover_credit :
    (∃ p, (Exec.follow creditStep (fun _ _ ↦ True) probed (probes 40)).get? 0 = some p ∧
        p.verifiedPeerAddress = true ∧ p.validated = false ∧ p.recvChals = [9] ∧
        p.needSendValidationFrames true = true ∧
        p.paddedLen true false false .oneRtt 1200 1200 9 = 9) ∧
      ∃ p, (Exec.follow creditStep (fun _ _ ↦ True) trusted
          [.received 0 1200, .change 0 (.chalReceived 9)]).get? 0 = some p ∧
        p.verifiedPeerAddress = true ∧ p.recvChals = [9] ∧
        p.needSendValidationFrames true = false := by
  refine ⟨⟨_, rfl, ?_⟩, ⟨_, rfl, ?_⟩⟩
  · decide +kernel
  · decide +kernel

end PathMap

end Tquic
