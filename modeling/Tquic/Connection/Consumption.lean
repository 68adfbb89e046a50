import Tquic.Connection.Windows

/-!
# What counts as consumed

Bytes count as consumed when they are read, discarded by `shutdown`, or arrive on a draining
stream, and when the stream is reset. The read offset of a draining stream stays, so a reset counts
again what arrived since.
-/

namespace Tquic

open RecvBuf

namespace RecvBuf

def unread (b : RecvBuf) : ℕ := if b.shutdown then 0 else b.recvOff - b.readOff

def consumed (b : RecvBuf) : ℕ := if b.shutdown then b.recvOff else b.readOff

variable {b b' : RecvBuf}

theorem unread_of_shutdown (h : b.shutdown = true) : b.unread = 0 := if_pos h

theorem unread_of_open (h : b.shutdown = false) : b.unread = b.recvOff - b.readOff :=
  if_neg (by simp [h])

theorem consumed_of_shutdown (h : b.shutdown = true) : b.consumed = b.recvOff := if_pos h

theorem consumed_of_open (h : b.shutdown = false) : b.consumed = b.readOff :=
  if_neg (by simp [h])

end RecvBuf

namespace Ledger

/-- No reset arrives for a stream on which data arrived after `shutdown`, and frames then raise the
offset of the stream to their end. -/
def drainRule : FrameRule where
  stream b off data fin := ¬(b.shutdown = true ∧ data = [] ∧ fin = false ∧ b.recvOff < off)
  reset b _ := ¬(b.shutdown = true ∧ b.readOff < b.recvOff)

variable {l l' : Ledger}

/-- No byte is counted as consumed before it is received or more than once. -/
structure Spent (l : Ledger) : Prop where
  regular : l.Regular
  unread_le : l.conn.readOff + l.sum RecvBuf.unread ≤ l.conn.recvOff
  once : l.conn.readOff ≤ l.sum RecvBuf.consumed
  streams : l.All fun b => b.flowControl.readOff ≤ b.readOff

theorem Spent.setRecv {id : ℕ} {b b' : RecvBuf} (h : l.Spent) (hregular : l'.Regular)
    (hget : l.streams.get? id = some b)
    (hset : l' = { l.setRecv id b' with conn := l'.conn, closing := l'.closing })
    (hread : b'.flowControl.readOff ≤ b'.readOff) (spent got : ℕ)
    (hspent : l'.conn.readOff = l.conn.readOff + spent)
    (hgot : l'.conn.recvOff = l.conn.recvOff + got)
    (hunread : spent + b'.unread ≤ got + b.unread)
    (honce : spent + b.consumed ≤ b'.consumed) : l'.Spent := by
  have hunreadSum : l'.sum unread + b.unread = l.sum unread + b'.unread := by
    rw [hset]
    exact sum_setRecv unread hget b'
  have honceSum : l'.sum consumed + b.consumed = l.sum consumed + b'.consumed := by
    rw [hset]
    exact sum_setRecv consumed hget b'
  refine ⟨hregular, ?_, ?_, ?_⟩
  · have := h.unread_le
    omega
  · have := h.once
    omega
  · rw [hset]
    exact h.streams.setRecv hread id

theorem Spent.setRecv_same {id : ℕ} {b b' : RecvBuf} (h : l.Spent) (hregular : l'.Regular)
    (hget : l.streams.get? id = some b)
    (hset : l' = { l.setRecv id b' with conn := l'.conn, closing := l'.closing })
    (hread : b'.flowControl.readOff = b.flowControl.readOff) (hreadOff : b'.readOff = b.readOff)
    (hrecvOff : b'.recvOff = b.recvOff) (hshut : b'.shutdown = b.shutdown)
    (hspent : l'.conn.readOff = l.conn.readOff) (hgot : l'.conn.recvOff = l.conn.recvOff) :
    l'.Spent := by
  have hunread : b'.unread = b.unread := by
    rw [unread, unread, hshut, hrecvOff, hreadOff]
  have hconsumed : b'.consumed = b.consumed := by
    rw [consumed, consumed, hshut, hrecvOff, hreadOff]
  have hle : b'.flowControl.readOff ≤ b'.readOff := by
    rw [hread, hreadOff]
    exact h.streams id b hget
  apply setRecv h hregular hget hset hle 0 0 hspent hgot
  · rw [hunread]
  · rw [hconsumed, zero_add]

theorem unread_received {off : ℕ} {data : List UInt8} {fin : Bool} {b b' : RecvBuf}
    (hwritten : RecvBuf.Written b (off + data.length)
      (¬(data = [] ∧ fin = false ∧ b.recvOff < off)) b')
    (hrule : drainRule.stream b off data fin) :
    (b.shutdown = true → b'.unread = b.unread ∧
      (off + data.length - b.recvOff) + b.consumed ≤ b'.consumed) ∧
      (b.shutdown = false → b'.unread ≤ (off + data.length - b.recvOff) + b.unread ∧
        b'.consumed = b.consumed) := by
  have hhigh := hwritten.high
  constructor
  · intro hshut
    have hshut' : b'.shutdown = true := hwritten.shutdown.trans hshut
    have hreach : b'.recvOff = max b.recvOff (off + data.length) := by
      apply hwritten.reach
      exact fun hempty => hrule ⟨hshut, hempty⟩
    rw [unread_of_shutdown hshut, unread_of_shutdown hshut',
      consumed_of_shutdown hshut, consumed_of_shutdown hshut']
    exact ⟨rfl, by omega⟩
  · intro hshut
    have hshut' : b'.shutdown = false := hwritten.shutdown.trans hshut
    rw [unread_of_open hshut, unread_of_open hshut',
      consumed_of_open hshut, consumed_of_open hshut', hwritten.readOff]
    exact ⟨by omega, rfl⟩

theorem unread_wasReset {size : ℕ} {b b' : RecvBuf} (hsane : b.Sane)
    (hdone : RecvBuf.HasReset b size b') (hle : b.recvOff ≤ size)
    (hrule : drainRule.reset b size) :
    (size - b.readOff) + b'.unread ≤ (size - b.recvOff) + b.unread ∧
      (size - b.readOff) + b.consumed ≤ b'.consumed := by
  have hread := hsane.read_le
  have hread' := hdone.readOff
  have hrecv' := hdone.recvOff
  cases hshut : b.shutdown with
  | true =>
    have hshut' : b'.shutdown = true := hdone.shutdown.trans hshut
    have hdrained : ¬ b.readOff < b.recvOff := fun hlt => hrule ⟨hshut, hlt⟩
    rw [unread_of_shutdown hshut, unread_of_shutdown hshut',
      consumed_of_shutdown hshut, consumed_of_shutdown hshut']
    omega
  | false =>
    have hshut' : b'.shutdown = false := hdone.shutdown.trans hshut
    rw [unread_of_open hshut, unread_of_open hshut',
      consumed_of_open hshut, consumed_of_open hshut']
    omega

theorem unread_refused {code size : ℕ} {res : Result ℕ} {b b' : RecvBuf} (hsane : b.Sane)
    (hreset : b.reset code size = .ok (b', res)) :
    b'.unread ≤ b.unread ∧ b.consumed ≤ b'.consumed ∧ b.readOff ≤ b'.readOff ∧
      b'.flowControl = b.flowControl := by
  obtain ⟨-, hrecv, hread, hshut', hflow, hcase⟩ := hsane.refused hreset
  refine ⟨?_, ?_, hread, hflow⟩
  · rw [unread, unread, hshut']
    split_ifs
    · exact le_rfl
    · omega
  · rw [consumed, consumed, hshut']
    split_ifs
    · exact hrecv
    · exact hread

/-- Every step that drains keeps each byte counted once. -/
theorem Spent.step (h : l.Spent) (hstep : Step drainRule l l') : l'.Spent := by
  have hregular := h.regular.step hstep
  cases hstep with
  | created id maxRx hget =>
    refine ⟨hregular, ?_, ?_, h.streams.setRecv (Nat.zero_le _) id⟩
    · rw [sum_setRecv_new _ hget]
      exact h.unread_le
    · rw [sum_setRecv_new _ hget]
      exact h.once
  | @received id off data fin b b' hget hrule hopen hleft hwrite =>
    have hwritten := (h.regular.sane id b hget).write hwrite
    have hread : b'.flowControl.readOff ≤ b'.readOff := by
      rw [hwritten.flowControl, hwritten.readOff]
      exact h.streams id b hget
    obtain ⟨hdraining, hreading⟩ := unread_received hwritten hrule
    cases hshut : b.shutdown with
    | true =>
      obtain ⟨hunread, honce⟩ := hdraining hshut
      rw [hshut] at hregular
      exact setRecv h hregular hget rfl hread _ _ rfl rfl (Nat.add_le_add_left hunread.le _) honce
    | false =>
      obtain ⟨hunread, honce⟩ := hreading hshut
      rw [hshut] at hregular
      exact setRecv h hregular hget rfl hread 0 _ rfl rfl (by omega) (by omega)
  | @wasReset id code size delta b b' hget hrule hopen hleft hreset =>
    have hsane := h.regular.sane id b hget
    obtain ⟨-, -, hreadOff, hflow⟩ := unread_refused hsane hreset
    have hread : b'.flowControl.readOff ≤ b'.readOff :=
      hflow ▸ (h.streams id b hget).trans hreadOff
    refine setRecv h hregular hget rfl hread _ _ rfl rfl ?_ ?_
    all_goals
      obtain ⟨rfl, hle, ⟨herror, rfl, hfinal⟩ | ⟨-, hdone⟩⟩ := hsane.reset hreset
    · -- the stream was reset before, and everything was consumed then
      obtain ⟨hfin, hall⟩ := h.regular.settled hopen id _ hget herror
      omega
    · exact (unread_wasReset hsane hdone hle hrule).1
    · obtain ⟨hfin, hall⟩ := h.regular.settled hopen id _ hget herror
      have hsize := hfinal _ hfin
      omega
    · exact (unread_wasReset hsane hdone hle hrule).2
  | @refused id code size b b' res hget hopen hreset =>
    obtain ⟨hunread, honce, hreadOff, hflow⟩ := unread_refused (h.regular.sane id b hget) hreset
    have hread : b'.flowControl.readOff ≤ b'.readOff :=
      hflow ▸ (h.streams id b hget).trans hreadOff
    exact setRecv h hregular hget rfl hread 0 0 rfl rfl (by omega) (by omega)
  | @read id cap b b' out fin hget hread =>
    have hsane := h.regular.sane id b hget
    have hdone := hsane.read hread
    obtain ⟨hshut, -⟩ := hsane.read_open hread
    have hshut' : b'.shutdown = false := hdone.shutdown.trans hshut
    have hle := hdone.sane.read_le
    have hreadOff := hdone.readOff
    have hrecvOff := hdone.recvOff
    have hstream : b'.flowControl.readOff ≤ b'.readOff := by
      rw [hdone.flowControl, hreadOff]
      exact Nat.add_le_add_right (h.streams id b hget) _
    apply setRecv h hregular hget rfl hstream out.length 0 rfl rfl
    · rw [unread_of_open hshut, unread_of_open hshut']
      omega
    · rw [consumed_of_open hshut, consumed_of_open hshut']
      omega
  | @readFailed id cap b b' e hget hread =>
    have hsame := ((h.regular.sane id b hget).failedRead hread).2
    exact setRecv_same h hregular hget rfl (by rw [hsame]) (by rw [hsame]) (by rw [hsame])
      (by rw [hsame]) rfl rfl
  | @shutdown id unread b b' hget hshutdown =>
    have hsane := h.regular.sane id b hget
    have hle := hsane.read_le
    obtain ⟨hshut, rfl, rfl⟩ := shutdownRecv_ok hshutdown
    apply setRecv h hregular hget rfl ((h.streams id b hget).trans hle)
      (b.recvOff - b.readOff) 0 rfl rfl
    · rw [unread_of_open hshut]
      exact Nat.le_add_left _ _
    · rw [consumed_of_open hshut]
      change b.recvOff - b.readOff + b.readOff ≤ b.recvOff
      omega
  | @tuned id b now srtt hget =>
    have hread : (b.autotuneWindow now srtt).flowControl.readOff = b.flowControl.readOff := by
      simp only [autotuneWindow]
      rw [FlowControl.autotuneWindow_eq]
    exact setRecv_same h hregular hget rfl hread rfl rfl rfl rfl rfl
  | @advertised id b now hget =>
    exact setRecv_same h hregular hget rfl rfl rfl rfl rfl rfl rfl
  | connTuned =>
    refine ⟨hregular, ?_, ?_, h.streams⟩
    · rw [FlowControl.autotuneWindow_eq]
      exact h.unread_le
    · rw [FlowControl.autotuneWindow_eq]
      exact h.once
  | connAdvertised => exact ⟨hregular, h.unread_le, h.once, h.streams⟩
  | @removed id b hget =>
    refine ⟨hregular, ?_, ?_, h.streams.remove id b⟩
    · rw [sum_remove _ hget]
      exact h.unread_le
    · rw [sum_remove _ hget]
      exact h.once
  | closed => exact ⟨hregular, h.unread_le, h.once, h.streams⟩

end Ledger

namespace StreamMap

def consumedSum (m : StreamMap) : ℕ :=
  m.streams.total (·.recv.consumed) + (m.destroyed.map fun e => e.2.recv.consumed).sum

/-- The frame is no reset of a stream on which data arrived after `shutdown`, and no
empty frame beyond the data of such a stream that does not end it. -/
def DrainsOnce (m : StreamMap) : PeerFrame → Prop
  | .stream id off data fin =>
    ¬((m.streamOf id false).recv.shutdown = true ∧ data = [] ∧ fin = false ∧
      (m.streamOf id false).recv.recvOff < off)
  | .resetStream id _ _ =>
    ¬((m.streamOf id false).recv.shutdown = true ∧
      (m.streamOf id false).recv.readOff < (m.streamOf id false).recv.recvOff)
  | _ => True

instance (m : StreamMap) (frame : PeerFrame) : Decidable (m.DrainsOnce frame) := by
  induction frame using PeerFrame.casesOn <;> unfold DrainsOnce <;> infer_instance

namespace World

variable {w : World} {conf : ReceiveConfig} {isServer endpoint : Bool}

theorem keeps_drainRule {op : Op} (h : w.OnFrames DrainsOnce op) :
    w.Keeps (FrameRule.promise Ledger.drainRule) op := by
  apply keeps_promise
  rintro frame rfl hopen
  have hframe := h hopen
  cases frame with
  | stream => exact hframe
  | resetStream => exact ⟨hframe, .inl trivial⟩
  | _ => trivial

theorem spent_start (conf : ReceiveConfig) (isServer endpoint : Bool) :
    (start conf isServer endpoint).ledger.Spent := by
  refine ⟨regular_start conf isServer endpoint, le_rfl, Nat.zero_le _, ?_⟩
  intro id b hget
  cases hget

/-- If no stream is reset after it received data while draining, no byte is counted as
consumed twice, and none of the differences that flow control computes is negative. -/
theorem consumed_at_most_once (hconf : conf.Ordered)
    (h : Exec.Reaches step (OnFrames DrainsOnce) (start conf isServer endpoint) w) :
    w.map.flowControl.readOff ≤ w.map.consumedSum ∧
      w.map.flowControl.readOff ≤ w.map.flowControl.recvOff ∧
      w.map.flowControl.recvOff ≤ w.map.flowControl.maxData ∧
      w.map.maxRxDataLeft + w.map.flowControl.recvOff = w.map.flowControl.maxData ∧
      ∀ id s, w.map.get? id = some s → s.recv.flowControl.readOff ≤ s.recv.readOff ∧
        s.recv.readOff ≤ s.recv.recvOff ∧ s.recv.recvOff ≤ s.recv.flowControl.maxData := by
  have hspent : w.ledger.Spent :=
    invariant_of_ledger (fun l l' hl hstep => .step hl hstep)
      (spent_start conf isServer endpoint) (h.mono fun _ _ hop => keeps_drainRule hop)
  have hsized := sized_of_reaches hconf (h.mono fun _ _ _ => trivial)
  have hrecv : w.map.flowControl.recvOff ≤ w.map.flowControl.maxData := hsized.recv_le
  refine ⟨?_, ?_, hrecv, ?_, ?_⟩
  · have honce := hspent.once
    rw [ledger, sum_ledger] at honce
    exact honce
  · exact le_trans (Nat.le_add_right _ _) hspent.unread_le
  · rw [maxRxDataLeft, wrappingSub_of_le hrecv]
    omega
  · intro id s hget
    have hledger : w.ledger.streams.get? id = some s.recv := ledger_get? hget
    exact ⟨hspent.streams id s.recv hledger, (hspent.regular.sane id s.recv hledger).read_le,
      (hsized.streams id s.recv hledger).recv_le⟩

/-- A server that stops reading a stream after two of the bytes and is then sent the rest
of it. -/
def drainingServer : World :=
  Exec.follow step (OnFrames DrainsOnce) (start .new true true)
    [.receive (.stream 0 0 [1, 2] false), .shutdown 0 .read 7,
      .receive (.stream 0 2 [1, 2, 3, 4, 5] false)]

theorem consumed_at_most_once_draining :
    drainingServer.map.flowControl.readOff = 7 ∧ drainingServer.map.consumedSum = 7 ∧
      drainingServer.map.flowControl.readOff ≤ drainingServer.map.flowControl.recvOff := by
  have hconf : ReceiveConfig.new.Ordered := by constructor <;> decide +kernel
  have hreach : Exec.Reaches step (OnFrames DrainsOnce) (start .new true true) drainingServer :=
    Exec.reaches_follow _ _
  exact ⟨by decide +kernel, by decide +kernel, (consumed_at_most_once hconf hreach).2.1⟩

def resetServer : World :=
  Exec.follow step (fun _ _ => True) (start .new true true)
    [.receive (.stream 0 0 [1, 2] false), .shutdown 0 .read 7,
      .receive (.stream 0 2 [1, 2, 3, 4, 5] false), .receive (.resetStream 0 1 7)]

/-- Five bytes were counted twice: more was consumed than received. -/
theorem reset_consumes_twice :
    ∃ w : World, Exec.Reaches step (fun _ _ ↦ True) (start .new true true) w ∧
      w.map.flowControl.readOff = 12 ∧ w.map.flowControl.recvOff = 7 ∧ w.map.consumedSum = 7 :=
  ⟨resetServer, Exec.reaches_follow _ _, by decide +kernel, by decide +kernel, by decide +kernel⟩

end World

end StreamMap

end Tquic
