import Tquic.Base.Run
import Tquic.Base.Word

/-!
# The idle timer

The timer is to start anew with every packet that is processed, and with the first ack-eliciting
packet sent after it. A flag remembers whether such a packet was sent; nothing clears it.
-/

namespace Tquic

/-- The idle timer and what it depends on; the transport parameters are in milliseconds, zero for
none. -/
structure IdleTimer where
  localMaxIdleTimeout : ℕ
  peerMaxIdleTimeout : ℕ := 0
  idle : Option ℤ := none
  sentAckElicitingSinceRecvPkt : Bool := false
  closed : Bool := false
  deriving DecidableEq, Repr

namespace IdleTimer

/-- The smaller advertised value, but at least three probe timeouts `pto` of the active path, if
any. -/
def idleTimeout (s : IdleTimer) (pto : Option ℕ) : Option ℕ :=
  if s.localMaxIdleTimeout = 0 && s.peerMaxIdleTimeout = 0 then none
  else
    let millis := if s.localMaxIdleTimeout = 0 then s.peerMaxIdleTimeout
      else if s.peerMaxIdleTimeout = 0 then s.localMaxIdleTimeout
      else min s.localMaxIdleTimeout s.peerMaxIdleTimeout
    some (max (fromMillis millis) (3 * pto.getD 0))

/-- `timers.set(Timer::Idle, now + idle_timeout)`, if there is an idle timeout. -/
def restart (s : IdleTimer) (now : ℤ) (pto : Option ℕ) : IdleTimer :=
  match s.idleTimeout pto with
  | some timeout => { s with idle := some (now + (timeout : ℤ)) }
  | none => s

inductive Fate where
  | processed
  | unprotected
  | dropped
  deriving DecidableEq, Repr

def recvPacket (s : IdleTimer) (fate : Fate) (now : ℤ) (pto : Option ℕ) : IdleTimer :=
  if s.closed then s
  else
    match fate with
    | .processed => s.restart now pto
    | .unprotected | .dropped => s

def sendPacket (s : IdleTimer) (ackEliciting : Bool) (now : ℤ) (pto : Option ℕ) : IdleTimer :=
  if s.closed then s
  else
    let s := if ackEliciting && !s.sentAckElicitingSinceRecvPkt then s.restart now pto else s
    if ackEliciting then { s with sentAckElicitingSinceRecvPkt := true } else s

def onTimeout (s : IdleTimer) (now : ℤ) : IdleTimer :=
  if s.idle.any (· ≤ now) then { s with idle := none, closed := true } else s

end IdleTimer

/-! ## Runs -/

inductive Traffic where
  | processed
  | sent (ackEliciting : Bool)
  deriving DecidableEq, Repr

/-- No ack-eliciting packet was sent since a packet was last processed. The latest packet comes
first. -/
def Traffic.fresh : List Traffic → Bool
  | [] => true
  | .processed :: _ => true
  | .sent true :: _ => false
  | .sent false :: history => fresh history

theorem Traffic.fresh_of_not_mem {history : List Traffic} (h : .sent true ∉ history) :
    Traffic.fresh history = true := by
  induction history with
  | nil => rfl
  | cons packet history ih =>
    obtain ⟨hne, hrest⟩ := not_or.mp (mt List.mem_cons.mpr h)
    cases packet with
    | processed => rfl
    | sent ackEliciting =>
      cases ackEliciting with
      | false => exact ih hrest
      | true => exact absurd rfl hne

structure Idling where
  timer : IdleTimer
  history : List Traffic

namespace Idling

open IdleTimer (Fate)

inductive Op where
  | recv (fate : Fate) (now : ℤ) (pto : Option ℕ)
  | send (ackEliciting : Bool) (now : ℤ) (pto : Option ℕ)
  | peerParams (maxIdleTimeout : ℕ)
  | timeout (now : ℤ)

def start (localMaxIdleTimeout : ℕ) : Idling where
  timer := { localMaxIdleTimeout := localMaxIdleTimeout }
  history := []

def step (w : Idling) : Op → Exec (Idling × Unit)
  | .recv fate now pto => .ok
      ({ timer := w.timer.recvPacket fate now pto
         history := if w.timer.closed || fate = .dropped then w.history
           else .processed :: w.history }, ())
  | .send ackEliciting now pto => .ok
      ({ timer := w.timer.sendPacket ackEliciting now pto
         history := if w.timer.closed then w.history else .sent ackEliciting :: w.history }, ())
  | .peerParams maxIdleTimeout => .ok
      ({ w with timer := { w.timer with peerMaxIdleTimeout := maxIdleTimeout } }, ())
  | .timeout now => .ok ({ w with timer := w.timer.onTimeout now }, ())

/-- No packet is processed between two ack-eliciting packets sent, and none is Version Negotiation
or Retry. -/
def OneRound (w : Idling) : Op → Prop
  | .recv fate _ _ => fate ≠ .unprotected
  | .send true _ _ => Traffic.fresh w.history = true → .sent true ∉ w.history
  | _ => True

/-- Every packet processed restarts the timer, and the first ack-eliciting packet sent after it, and
no other. -/
def Restarts (w w' : Idling) : Op → Prop
  | .recv fate now pto => ∀ timeout ∈ w.timer.idleTimeout pto,
      w'.timer.idle = if fate = .dropped then w.timer.idle else some (now + (timeout : ℤ))
  | .send ackEliciting now pto => ∀ timeout ∈ w.timer.idleTimeout pto,
      w'.timer.idle = if ackEliciting && Traffic.fresh w.history then some (now + (timeout : ℤ))
        else w.timer.idle
  | _ => True

def Flagged (w : Idling) : Prop :=
  w.timer.sentAckElicitingSinceRecvPkt = true ↔ .sent true ∈ w.history

variable {w w' : Idling} {op : Op} {u : Unit}

theorem restart_flag (s : IdleTimer) (now : ℤ) (pto : Option ℕ) :
    (s.restart now pto).sentAckElicitingSinceRecvPkt = s.sentAckElicitingSinceRecvPkt := by
  rw [IdleTimer.restart.eq_def]
  split <;> rfl

theorem idle_restart {s : IdleTimer} {pto : Option ℕ} {timeout : ℕ}
    (h : s.idleTimeout pto = some timeout) (now : ℤ) :
    (s.restart now pto).idle = some (now + (timeout : ℤ)) := by
  rw [IdleTimer.restart, h]

theorem Flagged.step (h : Flagged w) (hstep : w.step op = .ok (w', u)) : Flagged w' := by
  cases op with
  | recv fate now pto =>
    cases hstep
    have hflag : (w.timer.recvPacket fate now pto).sentAckElicitingSinceRecvPkt =
        w.timer.sentAckElicitingSinceRecvPkt := by
      simp only [IdleTimer.recvPacket]
      split_ifs
      · rfl
      · cases fate with
        | processed => exact restart_flag w.timer now pto
        | unprotected | dropped => rfl
    rw [Flagged] at h ⊢
    rw [hflag, h]
    split_ifs
    · exact Iff.rfl
    · simp
  | send ackEliciting =>
    cases hstep
    rw [Flagged]
    simp only [IdleTimer.sendPacket]
    cases hclosed : w.timer.closed with
    | true => exact h
    | false =>
      cases ackEliciting with
      | true => simp
      | false =>
        rw [Flagged] at h
        simpa using h
  | peerParams =>
    cases hstep
    exact h
  | timeout =>
    cases hstep
    rw [Flagged, IdleTimer.onTimeout]
    split_ifs <;> exact h

theorem restarts_step (h : Flagged w) (hopen : w.timer.closed = false) (hround : OneRound w op)
    (hstep : w.step op = .ok (w', u)) : Restarts w w' op := by
  cases op with
  | recv fate now =>
    cases hstep
    intro timeout htimeout
    simp only [IdleTimer.recvPacket, hopen, Bool.false_eq_true, if_false]
    cases fate with
    | processed => exact idle_restart htimeout now
    | unprotected => exact absurd rfl hround
    | dropped => rfl
  | send ackEliciting now =>
    cases hstep
    intro timeout htimeout
    simp only [IdleTimer.sendPacket, hopen, Bool.false_eq_true, if_false]
    cases ackEliciting with
    | false => rfl
    | true =>
      cases hflag : w.timer.sentAckElicitingSinceRecvPkt with
      | false =>
        -- nothing ack-eliciting was ever sent
        have hnone : .sent true ∉ w.history := fun hmem => by
          rw [h.mpr hmem] at hflag
          cases hflag
        rw [Traffic.fresh_of_not_mem hnone]
        exact idle_restart htimeout now
      | true =>
        have hmem : .sent true ∈ w.history := h.mp hflag
        have hstale : Traffic.fresh w.history = false := by
          by_contra hfresh
          exact hround (Bool.not_eq_false _ ▸ hfresh) hmem
        rw [hstale]
        rfl
  | peerParams | timeout => exact trivial

/-- In every run, every step of an open connection that belongs to a single round restarts the timer
as it should. -/
theorem idle_restarted_of_oneRound {localMaxIdleTimeout : ℕ}
    (hreaches : Exec.Reaches step (fun _ _ ↦ True) (start localMaxIdleTimeout) w)
    (hopen : w.timer.closed = false) (hround : OneRound w op) (hstep : w.step op = .ok (w', u)) :
    Restarts w w' op := by
  have hflagged : Flagged w := by
    apply hreaches.invariant Flagged
    · intro w op w' u hw _ hstep
      exact hw.step hstep
    · exact iff_of_false Bool.false_ne_true List.not_mem_nil
  exact restarts_step hflagged hopen hround hstep

instance (w : Idling) (op : Op) : Decidable (OneRound w op) := by
  unfold OneRound
  split <;> infer_instance

def serverHeard : Idling :=
  Exec.follow step (fun _ _ => True) (start 30000)
    [.recv .processed 0 none, .recv .processed 10 none, .send false 20 none]

theorem idle_restarted_of_oneRound_server :
    ∃ w', serverHeard.step (.send true 30 none) = .ok (w', ()) ∧
      serverHeard.timer.idle = some 30000000010 ∧ Restarts serverHeard w' (.send true 30 none) ∧
      w'.timer.idle = some 30000000030 := by
  refine ⟨_, rfl, by decide +kernel, ?_, by decide +kernel⟩
  exact idle_restarted_of_oneRound (Exec.reaches_follow (start 30000) _) (by decide +kernel)
    (by decide +kernel) rfl

def clientHeard : Idling :=
  Exec.follow step (fun _ _ => True) (start 30000) [.send true 0 none, .recv .processed 10 none]

/-- The first ack-eliciting packet that the client sends after the answer does not restart the
timer. -/
theorem second_round_not_restarted :
    Exec.Reaches step (fun _ _ ↦ True) (start 30000) clientHeard ∧
      ∃ w', clientHeard.step (.send true 20 none) = .ok (w', ()) ∧
        clientHeard.history = [.processed, .sent true] ∧
        clientHeard.timer.idle = some 30000000010 ∧ w'.timer.idle = some 30000000010 ∧
        ¬ Restarts clientHeard w' (.send true 20 none) := by
  refine ⟨Exec.reaches_follow (start 30000) _, _, rfl, by decide +kernel, by decide +kernel,
    by decide +kernel, ?_⟩
  intro h
  have heq := h 30000000000 (by decide +kernel)
  revert heq
  decide +kernel

end Idling

end Tquic
