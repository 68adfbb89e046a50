import Tquic.Base.Run
import Tquic.Connection.Space
import Tquic.Error
import Tquic.Ranges
import Tquic.Window

/-!
# Acknowledging what was received

A packet that elicits an acknowledgement makes an ACK frame due at once or arms a timer; the frame
goes with the next packet that has room. A receipt takes two times: that of the arrival, and the
clock, which is read for the timer.
-/

namespace Tquic

open RangeSet List Exec

def maxAckRanges : ℕ := 68

/-- The parameters and the setting that acknowledgements depend on. Delays are in milliseconds. -/
structure AckConf where
  localMaxAckDelay : ℕ := 25
  localAckDelayExponent : ℕ := 3
  peerMaxAckDelay : ℕ := 25
  ackElicitingThreshold : ℕ := 2
  deriving DecidableEq, Repr

structure RecvSpace where
  id : SpaceId
  largestRxPktNum : ℕ := 0
  largestRxPktTime : ℤ
  largestRxNonProbingPktNum : ℕ := 0
  largestRxAckElicitingPktNum : ℕ := 0
  recvPktNumNeedAck : RangeSet := .new maxAckRanges
  recvPktNumWin : SeqNumWindow := {}
  needSendAck : Bool := false
  ackElicitingPktsSinceLastSentAck : ℕ := 0
  ackTimer : Option ℤ := none

/-- An ACK frame, without the counts of ECN marks, which are never sent. -/
structure AckFrame where
  ackDelay : ℕ
  ackRanges : RangeSet

namespace RecvSpace

/-- What `recv_packet` writes down about a packet once its frames are processed. -/
def record (s : RecvSpace) (pktNum : ℕ) (ackEliciting probing : Bool) (now : ℤ) : RecvSpace :=
  { s with
    largestRxPktTime :=
      if s.recvPktNumNeedAck.max.all (· < pktNum) then now else s.largestRxPktTime
    recvPktNumWin := s.recvPktNumWin.insert pktNum
    recvPktNumNeedAck := s.recvPktNumNeedAck.addElem pktNum
    largestRxPktNum := max s.largestRxPktNum pktNum
    largestRxNonProbingPktNum := if probing then s.largestRxNonProbingPktNum
      else max s.largestRxNonProbingPktNum pktNum
    largestRxAckElicitingPktNum := if ackEliciting then max s.largestRxAckElicitingPktNum pktNum
      else s.largestRxAckElicitingPktNum }

def due (s : RecvSpace) : RecvSpace := { s with needSendAck := true, ackTimer := none }

def tryScheduleAckFrame (conf : AckConf) (s : RecvSpace) (pktNum : ℕ) (ackEliciting : Bool)
    (clock : ℤ) : RecvSpace :=
  if !ackEliciting then s
  else if s.needSendAck then s
  else if s.id = .initial || s.id = .handshake then { s with needSendAck := true }
  else
    let s := { s with
      ackElicitingPktsSinceLastSentAck := s.ackElicitingPktsSinceLastSentAck + 1 }
    if conf.ackElicitingThreshold ≤ s.ackElicitingPktsSinceLastSentAck then s.due
    else if pktNum < s.largestRxAckElicitingPktNum ||
        s.largestRxAckElicitingPktNum + 1 < pktNum then
      s.due
    else if s.ackTimer.isNone then
      { s with ackTimer := some (clock + (fromMillis conf.peerMaxAckDelay : ℤ)) }
    else s

/-- The part of `recv_packet` that concerns acknowledgements; duplicates are ignored. -/
def recvPacket (conf : AckConf) (s : RecvSpace) (pktNum : ℕ) (ackEliciting probing : Bool)
    (now clock : ℤ) : RecvSpace × Result Unit :=
  if s.recvPktNumWin.contains pktNum then (s, .error .done)
  else
    ((s.record pktNum ackEliciting probing now).tryScheduleAckFrame conf pktNum ackEliciting clock,
      .ok ())

/-- `fits` says whether the packet has room for the frame. -/
def tryWriteAckFrame (conf : AckConf) (s : RecvSpace) (isClosing active fits : Bool) (clock : ℤ) :
    Exec (RecvSpace × Option AckFrame) :=
  if s.recvPktNumNeedAck.isEmpty || !s.needSendAck || isClosing || !active then .ok (s, none)
  else do
    let elapsed := wrap (asMicros (saturatingDurationSince clock s.largestRxPktTime))
    let ackDelay ← Exec.div elapsed (wrap (2 ^ (conf.localAckDelayExponent % 2 ^ 32)))
    if fits then
      return ({ s with needSendAck := false, ackElicitingPktsSinceLastSentAck := 0 },
        some { ackDelay := ackDelay, ackRanges := s.recvPktNumNeedAck })
    else return (s, none)

def onAckTimeout (s : RecvSpace) (now : ℤ) : RecvSpace :=
  match s.ackTimer with
  | some timer => if now < timer then s else s.due
  | none => s

def onAckLost (s : RecvSpace) : RecvSpace := { s with needSendAck := true }

/-- An ACK frame was acknowledged: what it named and everything below is no longer acknowledged. -/
def onAckAcked (s : RecvSpace) (ackRanges : RangeSet) : RecvSpace :=
  match ackRanges.max with
  | some largest => { s with recvPktNumNeedAck := s.recvPktNumNeedAck.removeUntil largest }
  | none => s

/-! ## What one event does -/

variable {conf : AckConf} {s : RecvSpace} {pktNum : ℕ} {ackEliciting : Bool} {clock : ℤ}

/-- The ways in which a receipt can leave the flag and the timer of an application data space. -/
inductive Scheduled (conf : AckConf) (s s' : RecvSpace) (clock : ℤ) : Prop
  | due (hneed : s'.needSendAck = true)
  | kept (timer : ℤ) (hneed : s.needSendAck = false) (hold : s.ackTimer = some timer)
      (htimer : s'.ackTimer = some timer)
  | armed (hneed : s.needSendAck = false) (hnone : s.ackTimer = none)
      (htimer : s'.ackTimer = some (clock + (fromMillis conf.peerMaxAckDelay : ℤ)))

theorem scheduled_tryScheduleAckFrame :
    Scheduled conf s (s.tryScheduleAckFrame conf pktNum true clock) clock := by
  simp only [tryScheduleAckFrame, Bool.not_true, Bool.false_eq_true, if_false]
  split_ifs with hneed hid hcount horder htimer
  · exact .due hneed
  · exact .due rfl
  · exact .due rfl
  · exact .due rfl
  · exact .armed (Bool.not_eq_true _ ▸ hneed) (Option.isNone_iff_eq_none.mp htimer) rfl
  · obtain ⟨timer, heq⟩ := Option.ne_none_iff_exists'.mp (mt Option.isNone_iff_eq_none.mpr htimer)
    exact .kept timer (Bool.not_eq_true _ ▸ hneed) heq heq

theorem ackTimer_tryScheduleAckFrame {timer : ℤ}
    (h : (s.tryScheduleAckFrame conf pktNum ackEliciting clock).ackTimer = some timer) :
    s.ackTimer = some timer ∨ timer = clock + (fromMillis conf.peerMaxAckDelay : ℤ) := by
  simp only [tryScheduleAckFrame] at h
  split_ifs at h
  all_goals first
    | exact .inl h
    | cases h
  exact .inr rfl

theorem tryScheduleAckFrame_frame :
    (s.tryScheduleAckFrame conf pktNum ackEliciting clock).recvPktNumNeedAck = s.recvPktNumNeedAck ∧
      (s.tryScheduleAckFrame conf pktNum ackEliciting clock).largestRxAckElicitingPktNum =
        s.largestRxAckElicitingPktNum ∧
      (s.tryScheduleAckFrame conf pktNum ackEliciting clock).id = s.id := by
  simp only [tryScheduleAckFrame]
  split_ifs <;> exact ⟨rfl, rfl, rfl⟩

theorem needSendAck_tryScheduleAckFrame (hid : s.id.isData = true) :
    (s.tryScheduleAckFrame conf pktNum true clock).needSendAck = true ↔
      s.needSendAck = true ∨ conf.ackElicitingThreshold ≤ s.ackElicitingPktsSinceLastSentAck + 1 ∨
        pktNum < s.largestRxAckElicitingPktNum ∨ s.largestRxAckElicitingPktNum + 1 < pktNum := by
  have hspace : ¬ (s.id = .initial || s.id = .handshake) = true := by
    simpa [SpaceId.isData, not_or] using hid
  simp only [tryScheduleAckFrame, Bool.not_true, Bool.false_eq_true, if_false, if_neg hspace]
  split_ifs with hneed hcount horder htimer
  · exact iff_of_true hneed (.inl hneed)
  · exact iff_of_true rfl (.inr (.inl hcount))
  · rw [Bool.or_eq_true, decide_eq_true_eq, decide_eq_true_eq] at horder
    exact iff_of_true rfl (.inr (.inr horder))
  · simp only [Bool.or_eq_true, decide_eq_true_eq] at horder
    exact iff_of_false hneed (by tauto)
  · simp only [Bool.or_eq_true, decide_eq_true_eq] at horder
    exact iff_of_false hneed (by tauto)

end RecvSpace

/-! ## Runs -/

/-- A space with what happened to it: the ack-eliciting packets received, those that no ACK frame
sent covers yet, with their times of arrival, and the latest arrival. -/
structure Receiver where
  space : RecvSpace
  heard : List ℕ
  waiting : List (ℕ × ℤ)
  latest : ℤ

namespace Receiver

inductive Op where
  | recv (pktNum : ℕ) (ackEliciting probing : Bool) (now clock : ℤ)
  | write (isClosing active fits : Bool) (clock : ℤ)
  | timeout (now : ℤ)
  | ackLost
  | ackAcked (ackRanges : RangeSet)

def start (id : SpaceId) (time : ℤ) : Receiver where
  space := { id := id, largestRxPktTime := time }
  heard := []
  waiting := []
  latest := time

def uncovered (waiting : List (ℕ × ℤ)) (frame : Option AckFrame) : List (ℕ × ℤ) :=
  match frame with
  | some frame => waiting.filter fun p => !frame.ackRanges.contains p.1
  | none => waiting

def step (conf : AckConf) (w : Receiver) : Op → Exec (Receiver × Unit)
  | .recv pktNum ackEliciting probing now clock =>
    match w.space.recvPacket conf pktNum ackEliciting probing now clock with
    | (_, .error _) => .ok (w, ())
    | (space, .ok ()) =>
      .ok ({ space := space
             heard := if ackEliciting then pktNum :: w.heard else w.heard
             waiting := if ackEliciting then (pktNum, now) :: w.waiting else w.waiting
             latest := max w.latest now }, ())
  | .write isClosing active fits clock => do
      let (space, frame) ← w.space.tryWriteAckFrame conf isClosing active fits clock
      return ({ w with space := space, waiting := uncovered w.waiting frame }, ())
  | .timeout now => .ok ({ w with space := w.space.onAckTimeout now }, ())
  | .ackLost => .ok ({ w with space := w.space.onAckLost }, ())
  | .ackAcked ackRanges => .ok ({ w with space := w.space.onAckAcked ackRanges }, ())

variable {conf : AckConf} {w w' : Receiver}

theorem step_recv_eq {pktNum : ℕ} {ackEliciting probing : Bool} {now clock : ℤ}
    (hnew : w.space.recvPktNumWin.contains pktNum = false) :
    w.step conf (.recv pktNum ackEliciting probing now clock) =
      .ok ({ space := (w.space.record pktNum ackEliciting probing now).tryScheduleAckFrame conf
               pktNum ackEliciting clock
             heard := if ackEliciting then pktNum :: w.heard else w.heard
             waiting := if ackEliciting then (pktNum, now) :: w.waiting else w.waiting
             latest := max w.latest now }, ()) := by
  simp only [step, RecvSpace.recvPacket, hnew, Bool.false_eq_true, if_false]

variable {probing : Bool} {now : ℤ} {u : Unit} {id : SpaceId} {clock : ℤ} {ackEliciting : Bool}
  {pktNum : ℕ}

theorem step_recv_duplicate (hold : w.space.recvPktNumWin.contains pktNum = true) :
    w.step conf (.recv pktNum ackEliciting probing now clock) = .ok (w, ()) := by
  simp only [step, RecvSpace.recvPacket, hold, if_true]

theorem step_write_eq {isClosing active fits : Bool}
    (h : w.step conf (.write isClosing active fits clock) = .ok (w', u)) :
    w' = w ∨ w' = { w with
      space := { w.space with needSendAck := false, ackElicitingPktsSinceLastSentAck := 0 }
      waiting := w.waiting.filter fun p => !w.space.recvPktNumNeedAck.contains p.1 } := by
  obtain ⟨⟨space, frame⟩, hwrite, heq⟩ := bind_eq_ok.mp h
  cases heq
  simp only [RecvSpace.tryWriteAckFrame] at hwrite
  split_ifs at hwrite
  · cases hwrite
    exact .inl rfl
  · obtain ⟨ackDelay, -, heq⟩ := bind_eq_ok.mp hwrite
    cases heq
    exact .inr rfl
  · obtain ⟨ackDelay, -, heq⟩ := bind_eq_ok.mp hwrite
    cases heq
    exact .inl rfl

/-! ## Packets out of order -/

structure Heard (id : SpaceId) (w : Receiver) : Prop where
  id : w.space.id = id
  le : ∀ n ∈ w.heard, n ≤ w.space.largestRxAckElicitingPktNum
  mem : w.heard ≠ [] → w.space.largestRxAckElicitingPktNum ∈ w.heard
  first : w.heard = [] → w.space.largestRxAckElicitingPktNum = 0

theorem Heard.congr (h : Heard id w) (hheard : w'.heard = w.heard) (hid : w'.space.id = w.space.id)
    (hlargest : w'.space.largestRxAckElicitingPktNum = w.space.largestRxAckElicitingPktNum) :
    Heard id w' := by
  refine ⟨hid.trans h.id, ?_, ?_, ?_⟩
  all_goals rw [hheard, hlargest]
  · exact h.le
  · exact h.mem
  · exact h.first

theorem Heard.recv (h : Heard id w)
    (hstep : w.step conf (.recv pktNum ackEliciting probing now clock) = .ok (w', u)) :
    Heard id w' := by
  cases hdup : w.space.recvPktNumWin.contains pktNum with
  | true =>
    rw [step_recv_duplicate hdup] at hstep
    cases hstep
    exact h
  | false =>
    rw [step_recv_eq hdup] at hstep
    cases hstep
    obtain ⟨-, hlargest, hid⟩ := @RecvSpace.tryScheduleAckFrame_frame conf
      (w.space.record pktNum ackEliciting probing now) pktNum ackEliciting clock
    cases ackEliciting with
    | false => exact h.congr rfl hid hlargest
    | true =>
      refine ⟨hid.trans h.id, ?_, fun _ => ?_, ?_⟩
      · intro n hn
        rw [hlargest]
        rcases mem_cons.mp hn with rfl | hn
        · exact le_max_right _ _
        · exact (h.le n hn).trans (le_max_left _ _)
      · rw [hlargest]
        change max w.space.largestRxAckElicitingPktNum pktNum ∈ pktNum :: w.heard
        by_cases hnil : w.heard = []
        · rw [h.first hnil, zero_max]
          exact .head _
        · rcases max_choice w.space.largestRxAckElicitingPktNum pktNum with heq | heq
          · rw [heq]
            exact .tail _ (h.mem hnil)
          · rw [heq]
            exact .head _
      · intro hnil
        cases hnil

theorem onAckTimeout_cases (s : RecvSpace) (now : ℤ) :
    s.onAckTimeout now = s ∨ s.onAckTimeout now = s.due := by
  rw [RecvSpace.onAckTimeout.eq_def]
  split
  · split_ifs
    · exact .inl rfl
    · exact .inr rfl
  · exact .inl rfl

theorem Heard.step (h : Heard id w) {op : Op} (hstep : w.step conf op = .ok (w', u)) :
    Heard id w' := by
  cases op with
  | recv => exact h.recv hstep
  | write =>
    rcases step_write_eq hstep with rfl | rfl
    · exact h
    · exact h.congr rfl rfl rfl
  | timeout now =>
    cases hstep
    rcases onAckTimeout_cases w.space now with heq | heq
    · exact h.congr rfl (by rw [heq]) (by rw [heq])
    · exact h.congr rfl (by rw [heq]; rfl) (by rw [heq]; rfl)
  | ackLost =>
    cases hstep
    exact h.congr rfl rfl rfl
  | ackAcked =>
    cases hstep
    simp only [RecvSpace.onAckAcked]
    split
    · exact h.congr rfl rfl rfl
    · exact h

theorem heard_of_reaches {time : ℤ}
    (hreaches : Exec.Reaches (step conf) (fun _ _ => True) (start id time) w) : Heard id w := by
  apply hreaches.invariant (Heard id)
  · intro w op w' u hw _ hstep
    exact hw.step hstep
  · exact ⟨rfl, fun n hn => absurd hn not_mem_nil, fun hne => absurd rfl hne, fun _ => rfl⟩

/-- An ack-eliciting packet after one with a larger number makes an ACK frame due. One that opens a
gap does so only if one is due already or the packets that wait reach the threshold. -/
theorem out_of_order_acknowledged {id : SpaceId} (hid : id.isData = true) {time : ℤ}
    (hreaches : Exec.Reaches (step conf) (fun _ _ ↦ True) (start id time) w) {pktNum : ℕ}
    {probing : Bool} {now clock : ℤ} (hnew : w.space.recvPktNumWin.contains pktNum = false)
    {u : Unit} (hstep : w.step conf (.recv pktNum true probing now clock) = .ok (w', u)) :
    ((∃ n ∈ w.heard, pktNum < n) → w'.space.needSendAck = true) ∧
      (w.heard ≠ [] → (∀ n ∈ w.heard, n + 1 < pktNum) →
        (w'.space.needSendAck = true ↔ w.space.needSendAck = true ∨
          conf.ackElicitingThreshold ≤ w.space.ackElicitingPktsSinceLastSentAck + 1)) := by
  have hheard : Heard id w := heard_of_reaches hreaches
  rw [step_recv_eq hnew] at hstep
  cases hstep
  have hdata : (w.space.record pktNum true probing now).id.isData = true := by
    change w.space.id.isData = true
    rw [hheard.id, hid]
  have hiff := @RecvSpace.needSendAck_tryScheduleAckFrame conf
    (w.space.record pktNum true probing now) pktNum clock hdata
  change _ ↔ w.space.needSendAck = true ∨
    conf.ackElicitingThreshold ≤ w.space.ackElicitingPktsSinceLastSentAck + 1 ∨
    pktNum < max w.space.largestRxAckElicitingPktNum pktNum ∨
    max w.space.largestRxAckElicitingPktNum pktNum + 1 < pktNum at hiff
  constructor
  · rintro ⟨n, hn, hlt⟩
    have hle := hheard.le n hn
    exact hiff.mpr (.inr (.inr (.inl (by omega))))
  · intro hne hgap
    have hlt := hgap _ (hheard.mem hne)
    -- the maximum was raised to the packet's own number before the comparison
    have horder : ¬ (pktNum < max w.space.largestRxAckElicitingPktNum pktNum ∨
        max w.space.largestRxAckElicitingPktNum pktNum + 1 < pktNum) := by omega
    tauto

def caughtUp : Receiver :=
  Exec.follow (step {}) (fun _ _ => True) (start .data 0)
    [.recv 4 true false 1 1, .recv 5 true false 2 2, .write false true true 3]

theorem out_of_order_acknowledged_late :
    ∃ w', caughtUp.step {} (.recv 3 true false 4 4) = .ok (w', ()) ∧
      w'.space.needSendAck = true := by
  have hstep := @step_recv_eq {} caughtUp 3 true false 4 4 (by decide +kernel)
  refine ⟨_, hstep, ?_⟩
  exact (out_of_order_acknowledged rfl (reaches_follow (start .data 0) _) (by decide +kernel)
    hstep).1 ⟨5, by decide +kernel, by decide⟩

/-- Packet 9 after packet 5 opens a gap, and no ACK frame is due. -/
theorem gap_not_acknowledged :
    Exec.Reaches (step {}) (fun _ _ ↦ True) (start .data 0) caughtUp ∧
      ∃ w', caughtUp.heard = [5, 4] ∧ caughtUp.step {} (.recv 9 true false 4 4) = .ok (w', ()) ∧
        w'.heard = [9, 5, 4] ∧ w'.space.needSendAck = false :=
  ⟨reaches_follow (start .data 0) _, _, by decide +kernel,
    @step_recv_eq {} caughtUp 9 true false 4 4 (by decide +kernel), by decide +kernel,
    by decide +kernel⟩

/-! ## Packets that wait for an acknowledgement -/

/-- Fewer ranges than an ACK frame can have wait, packets are passed on in the order of arrival, the
timer that a packet arms is in time, and no packet that waits is dropped when a later ACK frame is
acknowledged. -/
def Timely (conf : AckConf) (w : Receiver) : Op → Prop
  | .recv pktNum ackEliciting _ now clock =>
    pktNum < u64Max ∧ w.space.recvPktNumNeedAck.len < maxAckRanges ∧ w.latest ≤ now ∧
      (ackEliciting = true → clock + (fromMillis conf.peerMaxAckDelay : ℤ) ≤
        now + (fromMillis conf.localMaxAckDelay : ℤ))
  | .ackAcked ackRanges => ∀ largest ∈ ackRanges.max, largest < u64Max ∧
      ∀ p ∈ w.waiting, largest < p.1
  | _ => True

def Prompt (conf : AckConf) (space : RecvSpace) (waiting : List (ℕ × ℤ)) : Prop :=
  waiting ≠ [] → space.needSendAck = true ∨
    ∃ timer, space.ackTimer = some timer ∧
      ∀ p ∈ waiting, timer ≤ p.2 + (fromMillis conf.localMaxAckDelay : ℤ)

structure InTime (conf : AckConf) (w : Receiver) : Prop where
  capacity : w.space.recvPktNumNeedAck.capacity = maxAckRanges
  length : w.space.recvPktNumNeedAck.set.length ≤ maxAckRanges
  covered : ∀ p ∈ w.waiting, p.1 ∈ w.space.recvPktNumNeedAck
  timer : ∀ timer, w.space.ackTimer = some timer →
    timer ≤ w.latest + (fromMillis conf.localMaxAckDelay : ℤ)
  prompt : Prompt conf w.space w.waiting

theorem InTime.due {space : RecvSpace} (h : InTime conf w) (hneed : space.needSendAck = true)
    (hranges : space.recvPktNumNeedAck = w.space.recvPktNumNeedAck)
    (htimer : space.ackTimer = none ∨ space.ackTimer = w.space.ackTimer) :
    InTime conf { w with space := space } where
  capacity := by rw [hranges]; exact h.capacity
  length := by rw [hranges]; exact h.length
  covered := by rw [hranges]; exact h.covered
  timer timer hsome := by
    rcases htimer with hnone | hsame
    · cases hnone.symm.trans hsome
    · exact h.timer timer (hsame.symm.trans hsome)
  prompt _ := .inl hneed

theorem Prompt.recv {space space' : RecvSpace} {waiting : List (ℕ × ℤ)}
    (h : Prompt conf space waiting) {latest : ℤ}
    (hscheduled : RecvSpace.Scheduled conf space space' clock)
    (hbound : ∀ timer, space.ackTimer = some timer →
      timer ≤ latest + (fromMillis conf.localMaxAckDelay : ℤ)) (hlatest : latest ≤ now)
    (hclock : clock + (fromMillis conf.peerMaxAckDelay : ℤ) ≤
      now + (fromMillis conf.localMaxAckDelay : ℤ)) (pktNum : ℕ) :
    Prompt conf space' ((pktNum, now) :: waiting) := by
  intro _
  cases hscheduled with
  | due hneed => exact .inl hneed
  | kept timer hneed hold htimer =>
    refine .inr ⟨timer, htimer, ?_⟩
    intro p hp
    rcases mem_cons.mp hp with rfl | hp
    · have hle := hbound timer hold
      change timer ≤ now + _
      omega
    · rcases h (ne_nil_of_mem hp) with hneed' | ⟨timer', htimer', hall⟩
      · cases hneed.symm.trans hneed'
      · cases hold.symm.trans htimer'
        exact hall p hp
  | armed hneed hnone htimer =>
    -- nothing waits while neither the flag nor the timer is set
    have hnil : waiting = [] := by
      by_contra hne
      rcases h hne with hneed' | ⟨timer', htimer', -⟩
      · cases hneed.symm.trans hneed'
      · cases hnone.symm.trans htimer'
    refine .inr ⟨_, htimer, ?_⟩
    intro p hp
    rw [hnil, mem_singleton] at hp
    rw [hp]
    exact hclock

theorem InTime.recv (h : InTime conf w)
    (htimely : Timely conf w (.recv pktNum ackEliciting probing now clock))
    (hstep : w.step conf (.recv pktNum ackEliciting probing now clock) = .ok (w', u)) :
    InTime conf w' := by
  obtain ⟨hnum, hroom, hlatest, hclock⟩ := htimely
  cases hdup : w.space.recvPktNumWin.contains pktNum with
  | true =>
    rw [step_recv_duplicate hdup] at hstep
    cases hstep
    exact h
  | false =>
    rw [step_recv_eq hdup] at hstep
    cases hstep
    have hlatest' : max w.latest now = now := max_eq_right hlatest
    obtain ⟨hranges, -, -⟩ := @RecvSpace.tryScheduleAckFrame_frame conf
      (w.space.record pktNum ackEliciting probing now) pktNum ackEliciting clock
    have hlength := length_insert_le w.space.recvPktNumNeedAck pktNum (wrap (pktNum + 1))
    have hmem : ∀ x, x ∈ w.space.recvPktNumNeedAck.addElem pktNum ↔
        x ∈ w.space.recvPktNumNeedAck ∨ x = pktNum := fun x =>
      mem_addElem (h.capacity ▸ hroom) hnum
    -- what scheduling leaves in the set and for the timer
    have hsame : ∀ timer, w.space.ackTimer = some timer →
        timer ≤ now + (fromMillis conf.localMaxAckDelay : ℤ) := fun timer htimer =>
      (h.timer timer htimer).trans (by omega)
    cases ackEliciting with
    | false =>
      refine ⟨h.capacity, ?_, ?_, ?_, h.prompt⟩
      · exact hlength.trans hroom
      · exact fun p hp => (hmem p.1).mpr (.inl (h.covered p hp))
      · rw [hlatest']
        exact hsame
    | true =>
      have hscheduled := @RecvSpace.scheduled_tryScheduleAckFrame conf
        (w.space.record pktNum true probing now) pktNum clock
      refine ⟨?_, ?_, ?_, ?_, ?_⟩
      · rw [hranges]
        exact h.capacity
      · rw [hranges]
        exact hlength.trans hroom
      · intro p hp
        rw [hranges]
        rcases mem_cons.mp hp with rfl | hp
        · exact (hmem pktNum).mpr (.inr rfl)
        · exact (hmem p.1).mpr (.inl (h.covered p hp))
      · intro timer htimer
        rw [hlatest']
        rcases RecvSpace.ackTimer_tryScheduleAckFrame htimer with hold | rfl
        · exact hsame timer hold
        · exact hclock rfl
      · have hprompt : Prompt conf (w.space.record pktNum true probing now) w.waiting := h.prompt
        exact hprompt.recv hscheduled h.timer hlatest (hclock rfl) pktNum

theorem InTime.step (h : InTime conf w) {op : Op} (htimely : Timely conf w op)
    (hstep : w.step conf op = .ok (w', u)) : InTime conf w' := by
  cases op with
  | recv => exact h.recv htimely hstep
  | write =>
    rcases step_write_eq hstep with rfl | rfl
    · exact h
    · -- the frame covers all packets that wait
      have hnil : (w.waiting.filter fun p => !w.space.recvPktNumNeedAck.contains p.1) = [] := by
        rw [filter_eq_nil_iff]
        intro p hp
        simp [contains_iff.mpr (h.covered p hp)]
      rw [hnil]
      exact ⟨h.capacity, h.length, fun p hp => absurd hp not_mem_nil, h.timer,
        fun hne => absurd rfl hne⟩
  | timeout now =>
    cases hstep
    rcases onAckTimeout_cases w.space now with heq | heq
    · rw [heq]
      exact h
    · rw [heq]
      exact h.due rfl rfl (.inl rfl)
  | ackLost =>
    cases hstep
    exact h.due rfl rfl (.inr rfl)
  | ackAcked ackRanges =>
    cases hstep
    cases hmax : ackRanges.max with
    | none =>
      simp only [RecvSpace.onAckAcked, hmax]
      exact h
    | some largest =>
      obtain ⟨hlt, hwaiting⟩ := htimely largest hmax
      simp only [RecvSpace.onAckAcked, hmax]
      refine ⟨?_, ?_, ?_, h.timer, h.prompt⟩
      · rw [capacity_removeUntil]
        exact h.capacity
      · exact (length_removeUntil_le hlt _).trans h.length
      · intro p hp
        exact (mem_removeUntil (h.capacity ▸ h.length) hlt).mpr ⟨h.covered p hp, hwaiting p hp⟩

/-- In every run that keeps to the conditions, while ack-eliciting packets wait, an ACK frame is due
or the timer runs out within the advertised delay of each. -/
theorem waiting_acknowledged_in_time {id : SpaceId} {time : ℤ}
    (hreaches : Exec.Reaches (step conf) (Timely conf) (start id time) w) (hne : w.waiting ≠ []) :
    w.space.needSendAck = true ∨ ∃ timer, w.space.ackTimer = some timer ∧
      ∀ p ∈ w.waiting, timer ≤ p.2 + (fromMillis conf.localMaxAckDelay : ℤ) := by
  have hintime : InTime conf w := by
    apply hreaches.invariant (InTime conf)
    · intro w op w' u hw htimely hstep
      exact hw.step htimely hstep
    · exact ⟨rfl, Nat.zero_le _, fun p hp => absurd hp not_mem_nil, nofun,
        fun hne => absurd rfl hne⟩
  exact hintime.prompt hne

instance (conf : AckConf) (w : Receiver) (op : Op) : Decidable (Timely conf w op) := by
  unfold Timely
  split <;> infer_instance

def oneWaits : Receiver :=
  Exec.follow (step {}) (Timely {}) (start .data 0)
    [.recv 4 true false 1 1, .recv 5 true false 2 2, .write false true true 3,
      .recv 6 true false 4 4]

theorem waiting_acknowledged_in_time_one :
    oneWaits.waiting = [(6, 4)] ∧ oneWaits.space.needSendAck = false ∧
      (oneWaits.space.needSendAck = true ∨ ∃ timer, oneWaits.space.ackTimer = some timer ∧
        ∀ p ∈ oneWaits.waiting, timer ≤ p.2 + (fromMillis 25 : ℤ)) := by
  refine ⟨by decide +kernel, by decide +kernel, ?_⟩
  exact @waiting_acknowledged_in_time {} oneWaits .data 0 (reaches_follow _ _) (by decide +kernel)

/-- Packets 0 and 3 are acknowledged, packet 1 is late, the ACK frame for packet 3 is acknowledged,
and packet 4 follows. -/
def dropsLate : Receiver :=
  Exec.follow (step {}) (fun _ _ => True) (start .data 0)
    [.recv 0 true false 1 1, .recv 3 true false 2 2, .write false true true 3,
      .recv 1 true false 4 4, .ackAcked (((RangeSet.new 68).addElem 0).addElem 3),
      .recv 4 true false 5 5, .write false true true 6]

/-- The timer follows the delay that the peer advertised, here 400 ms against 25 ms. A late packet
is dropped from the ranges when a later ACK frame is acknowledged: packet 1 waits for nothing. -/
theorem acknowledged_too_late :
    (∃ w, Exec.Reaches (step { peerMaxAckDelay := 400 }) (fun _ _ ↦ True) (start .data 0) w ∧
      w.waiting = [(0, 1)] ∧ w.space.needSendAck = false ∧ w.space.ackTimer = some 400000001) ∧
    Exec.Reaches (step {}) (fun _ _ ↦ True) (start .data 0) dropsLate ∧
      dropsLate.waiting = [(1, 4)] ∧ dropsLate.space.needSendAck = false ∧
      dropsLate.space.ackTimer = none := by
  refine ⟨⟨_, reaches_follow (start .data 0) [.recv 0 true false 1 1], ?_, ?_, ?_⟩,
    reaches_follow (start .data 0) _, ?_, ?_, ?_⟩
  all_goals decide +kernel

/-! ## Packets that are acknowledged -/

def Brings (received : List ℕ) : Op → Prop
  | .recv pktNum _ _ _ _ => pktNum ∈ received
  | .ackAcked ackRanges => ∀ largest ∈ ackRanges.max, largest < u64Max
  | _ => True

instance (received : List ℕ) (op : Op) : Decidable (Brings received op) := by
  unfold Brings
  split <;> infer_instance

/-- In every run ACK frames name only packets that were received, however many ranges there are. -/
theorem acked_were_received (conf : AckConf) (id : SpaceId) (time : ℤ) (received : List ℕ)
    (ops : List Op) :
    (Exec.follow (step conf) (fun _ ↦ Brings received) (start id time)
      ops).space.recvPktNumNeedAck.elems ⊆ {n | n ∈ received} := by
  intro n
  refine Reaches.invariant (fun w : Receiver => n ∈ w.space.recvPktNumNeedAck → n ∈ received)
    ?_ ?_ (reaches_follow _ ops)
  · intro w op w' u h hop hstep hn
    cases op with
    | recv pktNum =>
      cases hdup : w.space.recvPktNumWin.contains pktNum with
      | true =>
        rw [step_recv_duplicate hdup] at hstep
        cases hstep
        exact h hn
      | false =>
        rw [step_recv_eq hdup] at hstep
        cases hstep
        rw [RecvSpace.tryScheduleAckFrame_frame.1] at hn
        refine (mem_of_mem_insert hn).elim h fun hn => ?_
        rw [wrap] at hn
        obtain rfl : n = pktNum := by omega
        exact hop
    | write => rcases step_write_eq hstep with rfl | rfl <;> exact h hn
    | timeout now =>
      cases hstep
      rcases onAckTimeout_cases w.space now with heq | heq <;> rw [heq] at hn <;> exact h hn
    | ackLost =>
      cases hstep
      exact h hn
    | ackAcked ackRanges =>
      cases hstep
      rw [RecvSpace.onAckAcked] at hn
      split at hn
      next largest hmax => exact h (mem_of_mem_removeUntil (hop largest hmax) hn)
      · exact h hn
  · rintro ⟨e, he, -⟩
    cases he

end Receiver

end Tquic
