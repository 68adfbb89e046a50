import Tquic.Connection.Ledger
import Tquic.Stream.RecvOffsets

/-!
# The accounts of received data

What every stream's receive buffer keeps through the steps of the ledger, and how
the sum over all streams ever created follows the account of the connection.
-/

namespace Tquic

open SortedMap

namespace RecvBuf

variable {b b' : RecvBuf}

def Settled (b : RecvBuf) : Prop :=
  b.error.isSome = true → b.finOff = some b.recvOff ∧ b.readOff = b.recvOff

theorem Settled.new (maxData maxWindow : ℕ) : Settled (RecvBuf.new maxData maxWindow) := nofun

theorem Sane.withFlowControl (h : Sane b) (f : FlowControl) : Sane { b with flowControl := f } :=
  ⟨h.read_le, h.chunk_le, h.recv_le_fin, h.drained⟩

theorem Settled.write (h : Settled b) (hsane : Sane b) {off : ℕ} {data : List UInt8} {fin : Bool}
    (hwrite : b.write off data fin = .ok (b', .ok ())) : Settled b' := by
  intro herror
  have hwritten := hsane.write hwrite
  rw [hwritten.error] at herror
  obtain ⟨hf, hread⟩ := h herror
  have hfinal := hsane.write_final hf hwrite
  have hrecv : b'.recvOff = b.recvOff :=
    le_antisymm (hwritten.sane.recv_le_fin _ hfinal) hwritten.low
  rw [hrecv, hwritten.readOff]
  exact ⟨hfinal, hread⟩

theorem Sane.read_open (h : Sane b) {cap : ℕ} {out : List UInt8} {fin : Bool}
    (hread : b.read cap = .ok (b', .ok (out, fin))) : b.shutdown = false ∧ b.error = none := by
  unfold RecvBuf.read at hread
  split_ifs at hread with hready
  · cases hread
  cases herror : b.error with
  | some =>
    rw [herror] at hread
    cases hread
  | none =>
    refine ⟨?_, rfl⟩
    cases hshut : b.shutdown with
    | false => rfl
    | true =>
      have hnone : b.data.first? = none := first?_eq_none_iff.mpr (h.drained hshut)
      simp [ready, hnone] at hready

theorem Sane.failedRead (h : Sane b) {cap : ℕ} {e : Error}
    (hread : b.read cap = .ok (b', .error e)) :
    Sane b' ∧ b' = { b with data := b'.data } := by
  rcases read_error hread with rfl | rfl
  · exact ⟨h, rfl⟩
  · exact ⟨h.clear, rfl⟩

theorem Sane.shutdownRecv (h : Sane b) {unread : ℕ} (hshut : b.shutdownRecv = (b', .ok unread)) :
    Sane b' := by
  obtain ⟨-, -, rfl⟩ := shutdownRecv_ok hshut
  exact ⟨le_rfl, h.clear.chunk_le, h.recv_le_fin, fun _ => not_mem_empty⟩

theorem Sane.refused (h : Sane b) {code size : ℕ} {res : Result ℕ}
    (hreset : b.reset code size = .ok (b', res)) :
    Sane b' ∧ b.recvOff ≤ b'.recvOff ∧ b.readOff ≤ b'.readOff ∧ b'.shutdown = b.shutdown ∧
      b'.flowControl = b.flowControl ∧
      (b'.recvOff = b.recvOff ∧ b'.readOff = b.readOff ∨
        b'.readOff = b'.recvOff ∧ b'.recvOff ≤ b.maxData) := by
  cases res with
  | error =>
    rcases reset_refused hreset with rfl | rfl
    · exact ⟨h, le_rfl, le_rfl, rfl, rfl, .inl ⟨rfl, rfl⟩⟩
    · exact ⟨⟨h.read_le, h.clear.chunk_le, h.recv_le_fin, h.clear.drained⟩, le_rfl, le_rfl, rfl,
        rfl, .inl ⟨rfl, rfl⟩⟩
  | ok =>
    obtain ⟨-, hle, ⟨-, rfl, -⟩ | ⟨-, hdone⟩⟩ := h.reset hreset
    · exact ⟨h, le_rfl, le_rfl, rfl, rfl, .inl ⟨rfl, rfl⟩⟩
    · refine ⟨hdone.sane, ?_, ?_, hdone.shutdown, hdone.flowControl, .inr ⟨?_, ?_⟩⟩
      · exact hdone.recvOff ▸ hle
      · exact hdone.readOff ▸ h.read_le.trans hle
      · exact hdone.readOff.trans hdone.recvOff.symm
      · exact hdone.recvOff ▸ hdone.le_maxData

end RecvBuf

namespace Ledger

variable {r : FrameRule} {l l' : Ledger} {id : ℕ} {b b' : RecvBuf}

/-! ## Buffers -/

def All (P : RecvBuf → Prop) (l : Ledger) : Prop := ∀ id b, l.streams.get? id = some b → P b

theorem All.setRecv {P : RecvBuf → Prop} (h : l.All P) (hb : P b) (id : ℕ) :
    (l.setRecv id b).All P := by
  intro id' b' hget
  rcases get?_insert_eq_some.mp hget with ⟨rfl, rfl⟩ | ⟨hin, -⟩
  · exact hb
  · exact h id' b' hin

theorem All.remove {P : RecvBuf → Prop} (h : l.All P) (id : ℕ) (b : RecvBuf) :
    (l.remove id b).All P :=
  fun id' b' hget => h id' b' (get?_erase_eq_some.mp hget).1

theorem all_sane_step (h : l.All RecvBuf.Sane) (hstep : Step r l l') : l'.All RecvBuf.Sane := by
  cases hstep with
  | created id => exact h.setRecv (.new _ _) id
  | @received id off data fin b b' hget hrule hopen hleft hwrite =>
    have hset := h.setRecv ((h id b hget).write hwrite).sane id
    split_ifs <;> exact hset
  | @wasReset id code size delta b b' hget hrule hopen hleft hreset =>
    exact h.setRecv ((h id b hget).refused hreset).1 id
  | @refused id code size b b' res hget hopen hreset =>
    exact h.setRecv ((h id b hget).refused hreset).1 id
  | @read id cap b b' out fin hget hread => exact h.setRecv ((h id b hget).read hread).sane id
  | @readFailed id cap b b' e hget hread => exact h.setRecv ((h id b hget).failedRead hread).1 id
  | @shutdown id unread b b' hget hshutdown =>
    exact h.setRecv ((h id b hget).shutdownRecv hshutdown) id
  | @tuned id b now srtt hget =>
    have hb : (b.autotuneWindow now srtt).Sane := (h id b hget).withFlowControl _
    exact h.setRecv hb id
  | @advertised id b now hget =>
    have hb : (b.updateMaxData now).Sane := (h id b hget).withFlowControl _
    exact h.setRecv hb id
  | connTuned | connAdvertised => exact h
  | @removed id b => exact h.remove id b
  | closed => exact h

structure Regular (l : Ledger) : Prop where
  sane : l.All RecvBuf.Sane
  settled : l.closing = false → l.All RecvBuf.Settled

theorem Regular.step (h : l.Regular) (hstep : Step r l l') : l'.Regular := by
  refine ⟨all_sane_step h.sane hstep, ?_⟩
  cases hstep with
  | created id => exact fun hopen => (h.settled hopen).setRecv (.new _ _) id
  | @received id off data fin b b' hget hrule hopen hleft hwrite =>
    intro _
    have hset := (h.settled hopen).setRecv
      ((h.settled hopen id b hget).write (h.sane id b hget) hwrite) id
    split_ifs <;> exact hset
  | @wasReset id code size delta b b' hget hrule hopen hleft hreset =>
    intro _
    refine (h.settled hopen).setRecv ?_ id
    obtain ⟨-, -, ⟨-, rfl, -⟩ | ⟨-, hdone⟩⟩ := (h.sane id b hget).reset hreset
    · exact h.settled hopen id _ hget
    · intro _
      rw [hdone.finOff, hdone.readOff, hdone.recvOff]
      exact ⟨rfl, rfl⟩
  | refused => exact nofun
  | @read id cap b b' out fin hget hread =>
    intro hopen
    refine (h.settled hopen).setRecv ?_ id
    have hdone := (h.sane id b hget).read hread
    obtain ⟨-, herror⟩ := (h.sane id b hget).read_open hread
    intro hsome
    rw [hdone.error, herror] at hsome
    cases hsome
  | @readFailed id cap b b' e hget hread =>
    intro hopen
    refine (h.settled hopen).setRecv ?_ id
    have hb := h.settled hopen id b hget
    rw [((h.sane id b hget).failedRead hread).2]
    exact hb
  | @shutdown id unread b b' hget hshutdown =>
    intro hopen
    refine (h.settled hopen).setRecv ?_ id
    have hb := h.settled hopen id b hget
    obtain ⟨-, -, rfl⟩ := RecvBuf.shutdownRecv_ok hshutdown
    exact fun herror => ⟨(hb herror).1, rfl⟩
  | @tuned id b now srtt hget =>
    intro hopen
    have hb : (b.autotuneWindow now srtt).Settled := h.settled hopen id b hget
    exact (h.settled hopen).setRecv hb id
  | @advertised id b now hget =>
    intro hopen
    have hb : (b.updateMaxData now).Settled := h.settled hopen id b hget
    exact (h.settled hopen).setRecv hb id
  | connTuned | connAdvertised => exact h.settled
  | @removed id b => exact fun hopen => (h.settled hopen).remove id b
  | closed => exact nofun

/-! ## Sums over all streams -/

def sum (f : RecvBuf → ℕ) (l : Ledger) : ℕ :=
  l.streams.total f + (l.destroyed.map fun e => f e.2).sum

variable (f : RecvBuf → ℕ)

theorem sum_setRecv (hget : l.streams.get? id = some b) (b' : RecvBuf) :
    (l.setRecv id b').sum f + f b = l.sum f + f b' := by
  simp only [sum, setRecv, total_insert, total_eq_of_get? f hget]
  omega

theorem sum_setRecv_same (hget : l.streams.get? id = some b) (hf : f b' = f b) :
    (l.setRecv id b').sum f = l.sum f := by
  have := sum_setRecv f hget b'
  omega

theorem sum_setRecv_new (hget : l.streams.get? id = none) (b : RecvBuf) :
    (l.setRecv id b).sum f = l.sum f + f b := by
  simp only [sum, setRecv, total_insert_new f hget]
  omega

theorem sum_remove (hget : l.streams.get? id = some b) : (l.remove id b).sum f = l.sum f := by
  simp only [sum, remove, total_eq_of_get? f hget, List.map_cons, List.sum_cons]
  omega

end Ledger

/-! ## Runs -/

namespace StreamMap.World

variable {r : FrameRule} {w w' : World}

def ledger (w : World) : Ledger := w.map.ledger w.closing

theorem path_of_moves {x x' : Wire} (h : Moves (FrameRule.promise r) x x') :
    Ledger.Path r x.ledger x'.ledger := by
  induction h with
  | refl => exact .refl
  | tail _ hmove ih => exact ih.trans (path_move hmove)

theorem path_of_reaches (h : Exec.Reaches step (Keeps (FrameRule.promise r)) w w') :
    Ledger.Path r w.ledger w'.ledger :=
  path_of_moves (moves_of_reaches h)

theorem invariant_of_ledger {Inv : Ledger → Prop}
    (hstep : ∀ l l', Inv l → Ledger.Step r l l' → Inv l') (hw : Inv w.ledger)
    (h : Exec.Reaches step (Keeps (FrameRule.promise r)) w w') : Inv w'.ledger :=
  Exec.invariant_of_steps hstep (path_of_reaches h) hw

theorem keeps_promise {op : Op}
    (hframe : ∀ frame, op = .receive frame → w.closing = false →
      w.map.Keeps (FrameRule.promise r) frame) : w.Keeps (FrameRule.promise r) op := by
  have hfree := keeps_free w op
  cases op with
  | receive frame => exact hframe frame rfl
  | _ => exact hfree

def OnFrames (P : StreamMap → PeerFrame → Prop) (w : World) : Op → Prop
  | .receive frame => w.closing = false → P w.map frame
  | _ => True

instance (P : StreamMap → PeerFrame → Prop) [∀ m frame, Decidable (P m frame)] (w : World)
    (op : Op) : Decidable (w.OnFrames P op) := by
  unfold OnFrames
  split <;> infer_instance

theorem regular_start (conf : ReceiveConfig) (isServer endpoint : Bool) :
    (start conf isServer endpoint).ledger.Regular := by
  have hnone : ∀ id, (start conf isServer endpoint).ledger.streams.get? id = none := fun _ => rfl
  constructor
  · intro id b hget
    cases hget
  · intro _ id b hget
    cases hget

end StreamMap.World

end Tquic
