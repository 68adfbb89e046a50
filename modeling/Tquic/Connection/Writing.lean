import Tquic.Connection.StreamRuns
import Tquic.Stream.Lookup

/-!
# What writing a packet can change

The writer of stream frames as a sequence of small changes: `Control` for the control frames and
`Emission` for the STREAM frames. Only the tuning of a window may happen without a frame.
-/

namespace Tquic.Writer

open Exec Act

/-! ## Rules -/

variable {frame : Frame} {w : Writer} {out : Writer × Except Error PUnit}

theorem writeFrameToPacket_cases {room : ℕ} (h : writeFrameToPacket room frame w = .ok out) :
    out = (w, .error .done) ∨
      ∃ len, frame.wireLen = .ok len ∧
        out = ({ w with written := w.written + len, frames := w.frames ++ [frame] }, .ok ⟨⟩) := by
  obtain ⟨len, hlen, h⟩ := bind_eq_ok.mp h
  split_ifs at h
  · exact .inl (ok.inj h).symm
  · exact .inr ⟨len, hlen, (ok.inj h).symm⟩

theorem moves_each {R : Writer → Writer → Prop} {α : Type}
    {body : α → Act Writer Error PUnit} (hbody : ∀ a, Act.Moves R (body a)) (l : List α) :
    Act.Moves R (each body l) := by
  induction l with
  | nil => exact moves_pure _
  | cons a l ih => exact moves_bind (hbody a) fun _ => ih

theorem frame_then_update {room : ℕ} {f : StreamMap → StreamMap}
    (h : (writeFrameToPacket room frame >>= fun _ => update f) w = .ok out) :
    out.1 = w ∨ ∃ len, frame.wireLen = .ok len ∧
      out.1 = { map := f w.map, written := w.written + len, frames := w.frames ++ [frame] } := by
  change Act.bind (writeFrameToPacket room frame) (fun _ => update f) w = .ok out at h
  unfold Act.bind at h
  split at h
  · next w₁ u heq =>
      rcases writeFrameToPacket_cases heq with hcase | ⟨len, hlen, hcase⟩
      · simp at hcase
      · obtain ⟨rfl, -⟩ := Prod.mk.inj hcase
        cases h
        exact .inr ⟨len, hlen, rfl⟩
  · next w₁ e heq =>
      rcases writeFrameToPacket_cases heq with hcase | ⟨len, hlen, hcase⟩
      · obtain ⟨rfl, -⟩ := Prod.mk.inj hcase
        cases h
        exact .inl rfl
      · simp at hcase
  · cases h
  · cases h

/-! ## Control frames -/

inductive Control (now srtt : ℕ) (w : Writer) : Writer → Prop
  | maxStreams (bidi : Bool) (len : ℕ)
      (hshould : w.map.concurrencyControl.shouldUpdateLocalMaxStreams bidi = true)
      (hlen : (Frame.maxStreams bidi (w.map.concurrencyControl.localMaxStreamsNext bidi)).wireLen =
        .ok len) :
      Control now srtt w ⟨{ w.map with
        concurrencyControl := w.map.concurrencyControl.updateLocalMaxStreams bidi },
        w.written + len,
        w.frames ++ [.maxStreams bidi (w.map.concurrencyControl.localMaxStreamsNext bidi)]⟩
  | forgotten (id : ℕ) (hget : w.map.get? id = none) :
      Control now srtt w { w with map := w.map.markAlmostFull id false }
  | tuned (id : ℕ) (s : Stream) (hget : w.map.get? id = some s) :
      Control now srtt w { w with
        map := w.map.setStream id { s with recv := s.recv.autotuneWindow now srtt } }
  | maxStreamData (id : ℕ) (s : Stream) (len : ℕ) (hget : w.map.get? id = some s)
      (hlen : (Frame.maxStreamData id s.recv.maxDataNext).wireLen = .ok len) :
      Control now srtt w ⟨applyMaxStreamData now id s w.map, w.written + len,
        w.frames ++ [.maxStreamData id s.recv.maxDataNext]⟩
  | connTuned (hneed : w.map.needSendMaxData = true) :
      Control now srtt w { w with
        map := { w.map with flowControl := w.map.flowControl.autotuneWindow now srtt } }
  | maxData (len : ℕ) (hlen : (Frame.maxData w.map.flowControl.maxDataNext).wireLen = .ok len) :
      Control now srtt w ⟨{ w.map with
        rxAlmostFull := false, flowControl := w.map.flowControl.updateMaxData now },
        w.written + len, w.frames ++ [.maxData w.map.flowControl.maxDataNext]⟩
  | other (frame : Frame) (len : ℕ) (t : StreamMap.Tables)
      (hframe : match frame with
        | .maxStreams _ _ | .maxStreamData _ _ | .maxData _ | .stream _ _ _ _ => False
        | _ => True)
      (hlen : frame.wireLen = .ok len) :
      Control now srtt w
        ⟨w.map.retable t, w.written + len, w.frames ++ [frame]⟩

variable {room now srtt : ℕ}

theorem moves_other {f : StreamMap → StreamMap} (hframe : match frame with
      | .maxStreams _ _ | .maxStreamData _ _ | .maxData _ | .stream _ _ _ _ => False
      | _ => True) (hf : f w.map = w.map.retable (f w.map).tables)
    (h : (writeFrameToPacket room frame >>= fun _ => update f) w = .ok out) :
    Relation.ReflTransGen (Control now srtt) w out.1 := by
  rcases frame_then_update h with heq | ⟨len, hlen, heq⟩
  · rw [heq]
  · rw [heq, hf]
    exact .single (.other frame len _ hframe hlen)

theorem writeMaxStreams_moves (bidi : Bool) :
    Act.Moves (Control now srtt) (writeMaxStreams room bidi) := by
  intro w out h
  unfold writeMaxStreams at h
  rw [get_bind] at h
  split_ifs at h with hshould
  · rcases frame_then_update h with heq | ⟨len, hlen, heq⟩
    · rw [heq]
    · rw [heq]
      exact .single (.maxStreams bidi len hshould hlen)
  · cases h
    exact .refl

theorem writeDataBlocked_moves : Act.Moves (Control now srtt) (writeDataBlocked room) := by
  intro w out h
  unfold writeDataBlocked at h
  rw [get_bind] at h
  cases hblocked : w.map.sendCapacity.blockedAt with
  | none =>
    rw [hblocked] at h
    cases h
    exact .refl
  | some =>
    rw [hblocked] at h
    exact moves_other trivial rfl h

theorem writeMaxStreamData_moves (id : ℕ) :
    Act.Moves (Control now srtt) (writeMaxStreamData room now srtt id) := by
  intro w out h
  unfold writeMaxStreamData at h
  rw [get_bind] at h
  cases hget : w.map.get? id with
  | none =>
    rw [hget] at h
    cases h
    exact .single (.forgotten id hget)
  | some s =>
    rw [hget] at h
    refine .head (.tuned id s hget) ?_
    rcases frame_then_update h with heq | ⟨len, hlen, heq⟩
    · rw [heq]
    · rw [heq]
      exact .single (.maxStreamData id _ len (StreamMap.get?_setStream_self _ _ _) hlen)

theorem writeMaxData_moves : Act.Moves (Control now srtt) (writeMaxData room now srtt) := by
  intro w out h
  unfold writeMaxData at h
  rw [get_bind] at h
  split_ifs at h with hneed
  · refine .head (.connTuned hneed) ?_
    rcases frame_then_update h with heq | ⟨len, hlen, heq⟩
    · rw [heq]
    · rw [heq]
      exact .single (.maxData len hlen)
  · cases h
    exact .refl

theorem writeStopSending_moves (e : ℕ × ℕ) :
    Act.Moves (Control now srtt) (writeStopSending room e) := by
  intro w out h
  exact moves_other trivial rfl h

theorem writeResetStream_moves (e : ℕ × ℕ × ℕ) :
    Act.Moves (Control now srtt) (writeResetStream room e) := by
  intro w out h
  exact moves_other trivial rfl h

theorem writeStreamDataBlocked_moves (e : ℕ × ℕ) :
    Act.Moves (Control now srtt) (writeStreamDataBlocked room e) := by
  intro w out h
  exact moves_other trivial rfl h

theorem writeStreamsBlocked_moves (bidi : Bool) :
    Act.Moves (Control now srtt) (writeStreamsBlocked room bidi) := by
  intro w out h
  unfold writeStreamsBlocked at h
  rw [get_bind] at h
  cases hblocked : w.map.concurrencyControl.streamsBlockedAt bidi with
  | none =>
    rw [hblocked] at h
    cases h
    exact .refl
  | some =>
    rw [hblocked] at h
    exact moves_other trivial rfl h

theorem tryWriteStreamControlFrames_moves (orders : Orders) :
    Act.Moves (Control now srtt) (tryWriteStreamControlFrames room now srtt orders) := by
  refine moves_bind (moves_each writeMaxStreams_moves _) fun _ => ?_
  refine moves_bind writeDataBlocked_moves fun _ => ?_
  refine moves_bind moves_get fun w₁ => ?_
  refine moves_bind (moves_each writeMaxStreamData_moves _) fun _ => ?_
  refine moves_bind writeMaxData_moves fun _ => ?_
  refine moves_bind moves_get fun w₂ => ?_
  refine moves_bind (moves_each writeStopSending_moves _) fun _ => ?_
  refine moves_bind moves_get fun w₃ => ?_
  refine moves_bind (moves_each writeResetStream_moves _) fun _ => ?_
  refine moves_bind moves_get fun w₄ => ?_
  refine moves_bind (moves_each writeStreamDataBlocked_moves _) fun _ => ?_
  exact moves_each writeStreamsBlocked_moves _

/-! ## STREAM frames -/

/-- A round of the loop over the sendable streams: nothing is left, the first stream has nothing to
send any more, or it sends. -/
inductive Emission (w : Writer) : Writer → Prop
  | idle (hnext : w.map.peekSendable.2 = none) :
      Emission w { w with map := w.map.peekSendable.1 }
  | dropped (id : ℕ) (hnext : w.map.peekSendable.2 = some id)
      (hstale : ∀ s, w.map.get? id = some s → s.send.isStopped = true) :
      Emission w { w with map := w.map.peekSendable.1.removeSendable }
  | emitted (id : ℕ) (s : Stream) (outLen dataLen len : ℕ) (send : SendBuf)
      (data : List UInt8) (fin : Bool) (hnext : w.map.peekSendable.2 = some id)
      (hget : w.map.get? id = some s) (hstopped : s.send.isStopped = false)
      (hread : s.send.read outLen = .ok (send, dataLen, data, fin)) :
      Emission w
        ⟨let s := { s with send }
         let map := w.map.peekSendable.1.setStream id s
         if s.isSendable then map else map.removeSendable,
         w.written + len, w.frames ++ [.stream id s.send.sendOff dataLen fin]⟩

theorem get?_peekSendable (m : StreamMap) (id : ℕ) : m.peekSendable.1.get? id = m.get? id := by
  unfold StreamMap.peekSendable
  split <;> rfl

theorem writeStreamFrame_cases {w' : Writer} {cap cap' id : ℕ} {s : Stream}
    (h : w.writeStreamFrame cap id s = .ok (w', cap')) :
    ∃ outLen send dataLen data fin len, s.send.read outLen = .ok (send, dataLen, data, fin) ∧
      w' = ⟨let s := { s with send }
            let map := w.map.setStream id s
            if s.isSendable then map else map.removeSendable,
            w.written + len, w.frames ++ [.stream id s.send.sendOff dataLen fin]⟩ := by
  obtain ⟨headerLen, -, h⟩ := bind_eq_ok.mp h
  obtain ⟨outLen, -, h⟩ := bind_eq_ok.mp h
  obtain ⟨⟨send, dataLen, data, fin⟩, hread, h⟩ := bind_eq_ok.mp h
  obtain ⟨cap₁, -, h⟩ := bind_eq_ok.mp h
  refine ⟨outLen, send, dataLen, data, fin, headerLen + dataLen, hread, ?_⟩
  exact (congrArg Prod.fst (ok.inj h)).symm

theorem writeNextStream_moves {s : Writer × ℕ} {n : Exec.Next (Writer × ℕ) Writer}
    (h : writeNextStream s = .ok n) :
    Exec.Next.Holds (fun s' => Emission s.1 s'.1) (fun w' => Emission s.1 w') n := by
  unfold writeNextStream at h
  dsimp only at h
  cases hnext : s.1.map.peekSendable.2 with
  | none =>
    rw [hnext] at h
    cases h
    exact .idle hnext
  | some id =>
    rw [hnext] at h
    dsimp only at h
    rw [get?_peekSendable] at h
    cases hget : s.1.map.get? id with
    | none =>
      rw [hget] at h
      cases h
      refine .dropped id hnext ?_
      intro stream hstream
      rw [hget] at hstream
      cases hstream
    | some stream =>
      rw [hget] at h
      dsimp only at h
      split_ifs at h with hstopped
      · cases h
        refine .dropped id hnext ?_
        intro stream' hstream
        rw [hget] at hstream
        cases hstream
        exact hstopped
      · obtain ⟨⟨w', cap'⟩, hframe, h⟩ := bind_eq_ok.mp h
        obtain ⟨outLen, send, dataLen, data, fin, len, hread, heq⟩ :=
          writeStreamFrame_cases hframe
        have hmove : Emission s.1 w' := by
          rw [heq]
          exact .emitted id stream outLen dataLen len send data fin hnext hget
            (by simpa using hstopped) hread
        split_ifs at h
        · cases h
          exact hmove
        · cases h
          exact hmove

theorem tryWriteStreamFrames_moves {w' : Writer} (h : w.tryWriteStreamFrames room = .ok w') :
    Relation.ReflTransGen Emission w w' := by
  unfold tryWriteStreamFrames at h
  dsimp only at h
  split_ifs at h
  · cases h
    exact .refl
  · refine loop_valid (fun s => Relation.ReflTransGen Emission w s.1) ?_ _ _ _ .refl h
    intro s n hs hround
    have hmove := writeNextStream_moves hround
    cases n with
    | again | done => exact hs.tail hmove

theorem sendStreamFrames_moves {m m' : StreamMap} {p : PacketRoom} {frames : List Frame}
    (h : m.sendStreamFrames p = .ok (m', frames)) :
    ∃ w₁ w₂ : Writer, Relation.ReflTransGen (Control p.now p.srtt) ⟨m, p.before, []⟩ w₁ ∧
      (w₂ = w₁ ∨ Relation.ReflTransGen Emission { w₁ with written := w₁.written + p.between } w₂) ∧
      w₂.map = m' ∧ w₂.frames = frames := by
  unfold StreamMap.sendStreamFrames at h
  split_ifs at h
  · obtain ⟨⟨w₁, r⟩, hcontrol, h⟩ := bind_eq_ok.mp h
    have hmoves := tryWriteStreamControlFrames_moves p.orders _ _ hcontrol
    cases r with
    | error =>
      cases h
      exact ⟨w₁, w₁, hmoves, .inl rfl, rfl, rfl⟩
    | ok =>
      obtain ⟨w₂, hstreams, h⟩ := bind_eq_ok.mp h
      cases h
      exact ⟨w₁, w₂, hmoves, .inr (tryWriteStreamFrames_moves hstreams), rfl, rfl⟩
  · obtain ⟨w₂, hstreams, h⟩ := bind_eq_ok.mp h
    cases h
    exact ⟨_, w₂, .refl, .inr (tryWriteStreamFrames_moves hstreams), rfl, rfl⟩

end Tquic.Writer
