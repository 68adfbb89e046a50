import Tquic.Connection.SendCredit
import Tquic.Connection.Windows

/-!
# Silence after a reset

A stream that was shut down or stopped stays in the send queues and the table of blocked streams,
and lost frames put it back. In runs where that does not happen, no later packet holds a STREAM or
STREAM_DATA_BLOCKED frame of it.
-/

namespace Tquic.StreamMap

instance (m : StreamMap) (frame : Frame) : Decidable (m.Spares frame) := by
  unfold Spares
  split <;> infer_instance

namespace World

instance (w : World) (op : Op) : Decidable (w.Quiet op) := by
  induction op using Op.casesOn with
  | shutdown id direction =>
    induction direction using Direction.casesOn <;> unfold Quiet <;> infer_instance
  | receive frame => induction frame using PeerFrame.casesOn <;> unfold Quiet <;> infer_instance
  | _ => unfold Quiet; infer_instance

variable {conf : ReceiveConfig} {isServer endpoint : Bool} {w w' : World}

theorem kept_of_reaches {legal : World → Op → Prop}
    (h : Exec.Reaches step legal (start conf isServer endpoint) w) : w.map.book.Kept := by
  have hmoves := moves_of_reaches (h.mono fun w op _ => keeps_any w op)
  exact kept_of_books (kept_start conf isServer endpoint) (books_of_moves hmoves)

theorem silent_start (conf : ReceiveConfig) (isServer endpoint : Bool) :
    (start conf isServer endpoint).map.purse.Silent := by
  refine ⟨?_, nofun, nofun⟩
  intro id size _
  rfl

theorem Honest.silent_step {op : Op} {o : Outcome} (h : w.Honest) (hsilent : w.map.purse.Silent)
    (hkept : w.map.book.Kept) (hquiet : w.Quiet op) (hstep : w.step op = .ok (w', o)) :
    w'.map.purse.Silent := by
  rcases (h.step (.inr ⟨hkept, hquiet⟩) hstep).2 with ⟨-, hpath⟩ | heq
  · exact hsilent.path h.sound hpath
  · rw [heq]
    exact ⟨hsilent.blocked, hsilent.queued, hsilent.apart⟩

theorem silent_of_reaches (h : Exec.Reaches step Quiet (start conf isServer endpoint) w) :
    w.Honest ∧ w.map.purse.Silent := by
  induction h with
  | refl => exact ⟨honest_start conf isServer endpoint, silent_start conf isServer endpoint⟩
  | tail hbefore hquiet hstep ih =>
    obtain ⟨hhonest, hsilent⟩ := ih
    have hkept := kept_of_reaches hbefore
    refine ⟨(hhonest.step (.inl trivial) hstep).1, ?_⟩
    exact hhonest.silent_step hsilent hkept hquiet hstep

theorem announced_of_reaches {id size : ℕ} (hw : w.Honest)
    (h : Exec.Reaches step (fun _ _ => True) w w') (hannounced : w.map.purse.Announced id size) :
    w'.Honest ∧ w'.map.purse.Announced id size := by
  induction h with
  | refl => exact ⟨hw, hannounced⟩
  | tail _ _ hstep ih =>
    obtain ⟨hhonest, hannounced⟩ := ih
    obtain ⟨hhonest', hadvances⟩ := hhonest.step (.inl trivial) hstep
    refine ⟨hhonest', ?_⟩
    rcases hadvances with ⟨-, hpath⟩ | heq
    · exact hannounced.path hhonest.sound hpath
    · rw [heq]
      exact hannounced

theorem Honest.announced {id : ℕ} {s : Stream} (h : w.Honest)
    (hs : w.map.get? id = some s ∨ (id, s) ∈ w.map.destroyed)
    (habandoned : s.send.isAbandoned = true) : w.map.purse.Announced id s.send.writeOff := by
  have hhas : w.map.purse.Has id s.send := by
    rcases hs with hget | hmem
    · exact .inl (purse_get? hget)
    · exact .inr (List.mem_map.mpr ⟨(id, s), hmem, rfl⟩)
  exact ⟨s.send, hhas, habandoned, ((h.sound.accounted id _ hhas).abandoned habandoned).1⟩

/-- In a run whose steps are all quiet and that buffers no copies of frames, a stream that was shut
down or stopped appears in no later packet with data, FIN or a claim to be blocked. -/
theorem no_frames_after_abandoned {id : ℕ} {s : Stream} {q : PacketRoom} {m' : StreamMap}
    {frames : List Frame} (h : Exec.Reaches step Quiet (start conf isServer endpoint) w)
    (hs : w.map.get? id = some s ∨ (id, s) ∈ w.map.destroyed)
    (habandoned : s.send.isAbandoned = true) (hlater : Exec.Reaches step Quiet w w')
    (hsend : w'.map.sendStreamFrames q = .ok (m', frames)) :
    ∀ frame ∈ frames, ¬frame.About id := by
  have hannounced := (silent_of_reaches h).1.announced hs habandoned
  obtain ⟨-, hstill⟩ := announced_of_reaches (silent_of_reaches h).1
    (hlater.mono fun _ _ _ => trivial) hannounced
  obtain ⟨hhonest, hsilent⟩ := silent_of_reaches (h.trans hlater)
  obtain ⟨written, hdraws⟩ := draws_sendStreamFrames hhonest.sound hsend
  intro frame hmem
  exact hdraws.discreet frame hmem hsilent id _ hstill

open Funded (tenBytes)

def clientDone : World :=
  Exec.follow step Quiet (start .new false true)
    [.peerParams tenBytes, .streamNew true 127 true, .write 0 [1, 2, 3] false,
      .sendPacket ⟨true, 100, 0, 0, 0, 0, {}⟩, .shutdown 0 .write 7]

def clientDoneLater : World :=
  Exec.follow step Quiet clientDone
    [.losePacket 0, .handleLost, .streamNew true 127 true, .write 4 [9] false]

theorem no_frames_after_abandoned_lost :
    clientDone.map.hasAbandoned 0 = true ∧
      ∃ m' frames, clientDoneLater.map.sendStreamFrames ⟨true, 100, 0, 0, 0, 0, {}⟩ =
          .ok (m', frames) ∧
        frames = [.resetStream 0 7 3, .stream 4 0 1 false] ∧ ∀ frame ∈ frames, ¬frame.About 0 := by
  have hdone : clientDone.map.hasAbandoned 0 = true := by decide +kernel
  refine ⟨hdone, ?_⟩
  obtain ⟨s, hget, habandoned⟩ := Option.any_eq_true _ _ |>.mp hdone
  have hframes : (clientDoneLater.map.sendStreamFrames ⟨true, 100, 0, 0, 0, 0, {}⟩).output? =
      some [.resetStream 0 7 3, .stream 4 0 1 false] := by decide +kernel
  obtain ⟨m', hsend⟩ := Exec.exists_of_output? hframes
  exact ⟨m', _, hsend, rfl, no_frames_after_abandoned (Exec.reaches_follow _ _) (.inl hget)
    habandoned (Exec.reaches_follow _ _) hsend⟩

/-- A client that shuts a stream down while bytes of it wait to be sent. -/
def clientDoneEarly : World :=
  Exec.follow step (fun _ _ => True) (start .new false true)
    [.peerParams tenBytes, .streamNew true 127 true, .write 0 [1, 2, 3] false,
      .sendPacket ⟨true, 100, 0, 0, 0, 0, {}⟩, .write 0 [4, 5] false, .shutdown 0 .write 7]

/-- The next packet carries the reset and, for the same stream, a STREAM frame with FIN. -/
theorem stream_frame_after_shutdown :
    Exec.Reaches step (fun _ _ ↦ True) (start .new false true) clientDoneEarly ∧
      clientDoneEarly.map.hasAbandoned 0 = true ∧
      (Exec.follow step (fun _ _ ↦ True) clientDoneEarly
        [.sendPacket ⟨true, 100, 0, 0, 0, 0, {}⟩]).sent =
        [[.stream 0 0 3 false], [.resetStream 0 7 3, .stream 0 3 0 true]] ∧
      (Frame.stream 0 3 0 true).About 0 :=
  ⟨Exec.reaches_follow _ _, by decide +kernel, by decide +kernel, rfl⟩

end World

end Tquic.StreamMap
