import Tquic.Connection.Change

/-!
# Moves of streams and packets

`Wire` is the state of a run with the packet being written and the frames of an acknowledged packet
still to be handled. Every step of a run is a sequence of moves between such states.
-/

namespace Tquic.StreamMap

open Exec

variable {p : Promise} {m m' : StreamMap} {id : ℕ} {s : Stream}

/-! ## Frames acknowledged or lost -/

inductive Acked (m : StreamMap) : Frame → StreamMap → Prop
  | stream {id off len : ℕ} {fin : Bool} {s : Stream} {send : SendBuf} {m' : StreamMap}
      (hget : m.get? id = some s) (hack : s.send.ackAndDrop off len = .ok send)
      (hm : Alike ((m.setStream id { s with send }).closeWhen
        (({ s with send } : Stream).isComplete && !s.isReadable) id s.isLocal) m') :
      Acked m (.stream id off len fin) m'
  | reset {id code size : ℕ} {s : Stream} {m' : StreamMap} (hget : m.get? id = some s)
      (hm : Alike (m.closeWhen (s.isComplete && !s.isReadable) id s.isLocal) m') :
      Acked m (.resetStream id code size) m'
  | other {frame : Frame} (hframe : match frame with
      | .stream id _ _ _ | .resetStream id _ _ => m.get? id = none
      | _ => True) : Acked m frame m

theorem acked_of_ackFrame {frame : Frame} (h : m.ackFrame frame = .ok m') : Acked m frame m' := by
  cases frame with
  | stream id off len =>
    change m.onStreamFrameAcked id off len = .ok m' at h
    unfold onStreamFrameAcked at h
    cases hget : m.get? id with
    | none =>
      rw [hget] at h
      cases h
      exact .other hget
    | some s =>
      rw [hget] at h
      obtain ⟨send, hack, h⟩ := bind_eq_ok.mp h
      cases h
      exact .stream hget hack (closeIfDone_alike (.refl _) id { s with send })
  | resetStream id =>
    cases h
    cases hget : m.get? id with
    | none =>
      have hsame : m.onResetStreamFrameAcked id = m := by
        unfold onResetStreamFrameAcked
        rw [hget]
      rw [hsame]
      exact .other hget
    | some s =>
      refine .reset hget ?_
      unfold onResetStreamFrameAcked
      rw [hget]
      exact closeIfDone_alike (.refl m) id s
  | stopSending | maxData | maxStreamData | maxStreams | dataBlocked | streamDataBlocked
  | streamsBlocked =>
    cases h
    exact .other trivial

inductive Lost (m : StreamMap) : Frame → StreamMap → Prop
  | stream {id off len : ℕ} {fin : Bool} {s : Stream} (hget : m.get? id = some s) :
      Lost m (.stream id off len fin)
        ((m.setStream id { s with send := s.send.retransmit off len }).pushWhen
          (((s.send.retransmit off len).ready || (len = 0 && fin)) && !s.isSendable) id s)
  | maxData {max : ℕ} : Lost m (.maxData max) { m with rxAlmostFull := true }
  | maxStreamData {id max : ℕ} {s : Stream} (hget : m.get? id = some s) :
      Lost m (.maxStreamData id max) (m.markAlmostFull id true)
  | other {frame : Frame} {m' : StreamMap} (hframe : match frame with
      | .stream id _ _ _ | .maxStreamData id _ => m.get? id = none
      | .maxData _ => False
      | _ => True) (hm : Alike m m') : Lost m frame m'

theorem lost_loseFrame (m : StreamMap) (frame : Frame) : Lost m frame (m.loseFrame frame) := by
  cases frame with
  | stream id off len fin =>
    change Lost m _ (m.onStreamFrameLost id off len fin)
    unfold onStreamFrameLost
    cases hget : m.get? id with
    | none => exact .other hget (.refl m)
    | some => exact .stream hget
  | maxData => exact .maxData
  | maxStreamData id =>
    change Lost m _ (m.onMaxStreamDataFrameLost id)
    unfold onMaxStreamDataFrameLost
    cases hget : m.get? id with
    | none => exact .other hget (.refl m)
    | some => exact .maxStreamData hget
  | resetStream id code size =>
    refine .other trivial ?_
    change Alike m (m.onResetStreamFrameLost id code size)
    unfold onResetStreamFrameLost
    split
    · exact .refl m
    · exact .markReset m id true code size
  | stopSending id code =>
    refine .other trivial ?_
    change Alike m (m.onStopSendingFrameLost id code)
    unfold onStopSendingFrameLost
    split
    · exact .refl m
    · exact .ite (.refl m) (.markStopped m id true code)
  | maxStreams => exact .other trivial (.refl m)
  | dataBlocked max =>
    refine .other trivial ?_
    change Alike m (m.onDataBlockedFrameLost max)
    exact .ite (.withSendCapacity m _) (.refl m)
  | streamDataBlocked id max =>
    refine .other trivial ?_
    change Alike m (m.onStreamDataBlockedFrameLost id max)
    unfold onStreamDataBlockedFrameLost
    split
    · exact .refl m
    · exact .ite (.markBlocked m id true max) (.refl m)
  | streamsBlocked bidi max =>
    refine .other trivial ?_
    change Alike m (m.onStreamsBlockedFrameLost bidi max)
    exact .ite ⟨{ m.tables with
      streamsBlockedAt := Function.update m.concurrencyControl.streamsBlockedAt bidi (some max) },
      rfl⟩ (.refl m)

/-! ## Moves -/

structure Wire where
  map : StreamMap
  draft : List Frame
  sent : List (List Frame)
  lost : List Frame
  acking : List Frame
  acked : List Frame
  dropped : List Frame
  closing : Bool

def Promise.offline (p : Promise) : Promise :=
  { p with stream := fun _ _ _ _ => False, reset := fun _ _ => False }

inductive Move (p : Promise) (x : Wire) : Wire → Prop
  | call {m' : StreamMap} (h : Change p.offline x.map m') : Move p x { x with map := m' }
  | frame {m' : StreamMap} (hopen : x.closing = false) (h : Change p x.map m') :
      Move p x { x with map := m' }
  | refused {m' : StreamMap} (hopen : x.closing = false) (h : Refused p x.map m') :
      Move p x { x with map := m', closing := true }
  | closed : Move p x { x with closing := true }
  | control {now srtt written : ℕ} {w' : Writer} (hopen : x.closing = false)
      (h : Writer.Control now srtt ⟨x.map, written, x.draft⟩ w') :
      Move p x { x with map := w'.map, draft := w'.frames }
  | emission {written : ℕ} {w' : Writer} (hopen : x.closing = false)
      (h : Writer.Emission ⟨x.map, written, x.draft⟩ w') :
      Move p x { x with map := w'.map, draft := w'.frames }
  | packed : Move p x { x with
      draft := []
      sent := if x.draft = [] then x.sent else x.sent ++ [x.draft] }
  | ackPacket {k : ℕ} {frames : List Frame} (hopen : x.closing = false)
      (hk : x.sent[k]? = some frames) (hacking : x.acking = []) :
      Move p x { x with
        sent := x.sent.eraseIdx k
        acking := frames
        acked := x.acked ++ frames }
  | ackFrame {frame : Frame} {rest : List Frame} {m' : StreamMap} (hopen : x.closing = false)
      (hacking : x.acking = frame :: rest) (h : Acked x.map frame m') (hallowed : p.acks) :
      Move p x { x with map := m', acking := rest }
  | losePacket {k : ℕ} {frames : List Frame} (hk : x.sent[k]? = some frames) :
      Move p x { x with
        sent := x.sent.eraseIdx k
        lost := x.lost ++ frames
        dropped := x.dropped ++ frames }
  | probePacket {k : ℕ} {frames : List Frame} (hk : x.sent[k]? = some frames) :
      Move p x { x with lost := x.lost ++ frames }
  | loseFrame {frame : Frame} {rest : List Frame} {m' : StreamMap}
      (hlost : x.lost = frame :: rest) (h : Lost x.map frame m') (hallowed : p.losses) :
      Move p x { x with map := m', lost := rest }

abbrev Moves (p : Promise) : Wire → Wire → Prop := Relation.ReflTransGen (Move p)

theorem view_emission {β : Type} {view : StreamMap → β} {w w' : Writer} (h : Writer.Emission w w')
    (hqueue : ∀ m sendable, view { m with sendable } = view m)
    (hset : ∀ {m id s} send, m.get? id = some s →
      view (m.setStream id { s with send }) = view m) : view w'.map = view w.map := by
  have hpeek : view w.map.peekSendable.1 = view w.map := by
    unfold peekSendable
    split
    · rfl
    · exact hqueue _ _
  have hremove (m : StreamMap) : view m.removeSendable = view m := by
    unfold removeSendable
    split
    · rfl
    · exact hqueue _ _
  cases h with
  | idle => exact hpeek
  | dropped => exact (hremove _).trans hpeek
  | emitted id s outLen dataLen len send data fin hnext hget =>
    have hsent := (hset send ((Writer.get?_peekSendable w.map id).trans hget)).trans hpeek
    dsimp only
    split_ifs
    · exact hsent
    · exact (hremove _).trans hsent

namespace World

variable {w w' : World}

def wire (w : World) : Wire := ⟨w.map, [], w.sent, w.lost, [], w.acked, w.dropped, w.closing⟩

def Keeps (p : Promise) (w : World) : Op → Prop
  | .receive frame => w.closing = false → w.map.Keeps p frame
  | .write id data fin =>
    (w.map.Opens id → p.adopt) ∧ (fin = true → p.finish (w.map.streamOf id true) data)
  | .setPriority id urgency incremental =>
    (w.map.Opens id → p.adopt) ∧ p.prioritize (w.map.streamOf id true) urgency incremental
  | .setContext id => w.map.Opens id → p.adopt
  | .streamNew bidi urgency incremental =>
    (w.map.Opens (w.map.nextStreamId bidi) → p.adopt) ∧
      p.prioritize (w.map.streamOf (w.map.nextStreamId bidi) true) urgency incremental
  | .shutdown id direction _ => ∀ s, w.map.get? id = some s → p.shutdown s direction
  | .ackPacket _ => p.acks
  | .handleLost => p.losses
  | _ => True

/-- Without a promise nothing is to be kept: for another promise only the calls remain that it
is about. -/
theorem keeps_free (w : World) (op : Op) : w.Keeps {} op := by
  cases op with
  | receive frame =>
    intro _
    cases frame with
    | resetStream => exact ⟨trivial, .inl trivial⟩
    | _ => trivial
  | write => exact ⟨fun _ => trivial, fun _ => trivial⟩
  | setPriority => exact ⟨fun _ => trivial, trivial⟩
  | setContext => exact fun _ => trivial
  | streamNew => exact ⟨fun _ => trivial, trivial⟩
  | shutdown => exact fun _ _ => trivial
  | _ => trivial

theorem moves_of_changes {x : Wire} (h : Changes p.offline x.map m') :
    Moves p x { x with map := m' } := by
  induction h with
  | refl => exact .refl
  | tail _ hchange ih => exact ih.tail (.call hchange)

theorem moves_of_frame_changes {x : Wire} (hopen : x.closing = false) (h : Changes p x.map m') :
    Moves p x { x with map := m' } := by
  induction h with
  | refl => exact .refl
  | tail _ hchange ih => exact ih.tail (.frame hopen hchange)

variable {o : Outcome}

theorem moves_receive {frame : PeerFrame} (hkeep : w.Keeps p (.receive frame))
    (h : w.receive frame = .ok (w', o)) : Moves p w.wire w'.wire := by
  unfold receive at h
  cases hclosing : w.closing with
  | true =>
    rw [if_pos hclosing] at h
    cases h
    exact .refl
  | false =>
    rw [if_neg (by simp [hclosing])] at h
    obtain ⟨⟨m', res⟩, hframe, h⟩ := bind_eq_ok.mp h
    cases h
    obtain ⟨m₁, hchanges, hend⟩ := changes_recvFrame (hkeep hclosing) hframe
    have hmoves : Moves p w.wire { w.wire with map := m₁ } :=
      moves_of_frame_changes hclosing hchanges
    rcases hend with rfl | ⟨hrefused, hfailed⟩
    · cases hfailed : failed res with
      | false =>
        have hsame : { w.wire with map := m' } =
            ({ w with map := m', closing := false } : World).wire := by
          simp only [wire, hclosing]
        exact hsame ▸ hmoves
      | true => exact hmoves.tail .closed
    · rw [hfailed]
      exact hmoves.tail (.refused hclosing hrefused)

theorem moves_sendPacket {q : PacketRoom} (h : w.sendPacket q = .ok (w', o)) :
    Moves p w.wire w'.wire := by
  unfold sendPacket at h
  split_ifs at h with hclosing
  · cases h
    exact .refl
  have hopen : w.closing = false := by simpa using hclosing
  obtain ⟨⟨m', frames⟩, hsend, h⟩ := bind_eq_ok.mp h
  cases h
  obtain ⟨w₁, w₂, hcontrol, hstreams, rfl, rfl⟩ := Writer.sendStreamFrames_moves hsend
  clear hsend
  have hfirst : Moves p w.wire { w.wire with map := w₁.map, draft := w₁.frames } := by
    clear hstreams
    induction hcontrol with
    | refl => exact .refl
    | tail _ hstep ih => exact ih.tail (.control hopen hstep)
  have hsecond : Moves p w.wire { w.wire with map := w₂.map, draft := w₂.frames } := by
    clear h
    rcases hstreams with rfl | hstreams
    · exact hfirst
    · induction hstreams with
      | refl => exact hfirst
      | tail _ hstep ih => exact ih.tail (.emission hopen hstep)
  exact hsecond.tail .packed

theorem moves_foldlM_ackFrame {x : Wire} (hopen : x.closing = false) (hallowed : p.acks)
    (frames : List Frame) :
    ∀ {m m' : StreamMap}, frames.foldlM StreamMap.ackFrame m = .ok m' →
      Moves p { x with map := m, acking := frames } { x with map := m', acking := [] } := by
  induction frames with
  | nil =>
    intro m m' h
    cases h
    exact .refl
  | cons frame frames ih =>
    intro m m' h
    obtain ⟨m₁, hframe, h⟩ := bind_eq_ok.mp h
    exact .head (.ackFrame hopen rfl (acked_of_ackFrame hframe) hallowed) (ih h)

theorem moves_ackPacket {k : ℕ} (hallowed : p.acks) (h : w.ackPacket k = .ok (w', o)) :
    Moves p w.wire w'.wire := by
  unfold ackPacket at h
  split_ifs at h with hclosing
  · cases h
    exact .refl
  have hopen : w.closing = false := by simpa using hclosing
  cases hk : w.sent[k]? with
  | none =>
    rw [hk] at h
    cases h
    exact .refl
  | some frames =>
    rw [hk] at h
    obtain ⟨m', hfold, h⟩ := bind_eq_ok.mp h
    cases h
    have hmoves := moves_foldlM_ackFrame (p := p) (x := { w.wire with
      sent := w.sent.eraseIdx k, acked := w.acked ++ frames }) hopen hallowed frames hfold
    exact .head (.ackPacket hopen hk rfl) hmoves

theorem moves_handleLost (hallowed : p.losses) (lost : List Frame) : ∀ (x : Wire), x.lost = lost →
    Moves p x { x with map := lost.foldl StreamMap.loseFrame x.map, lost := [] } := by
  induction lost with
  | nil =>
    intro x hlost
    have hsame : { x with lost := [] } = x := by rw [← hlost]
    rw [List.foldl_nil, hsame]
  | cons frame lost ih =>
    intro x hlost
    exact .head (.loseFrame hlost (lost_loseFrame x.map frame) hallowed) (ih _ rfl)

/-- Every operation is a sequence of moves that the promise allows. -/
theorem moves_step {op : Op} (hkeep : w.Keeps p op) (h : w.step op = .ok (w', o)) :
    Moves p w.wire w'.wire := by
  cases op with
  | streamNew =>
    obtain rfl := congrArg Prod.fst (ok.inj h)
    have hchanges := changes_streamNew (p := p.offline) hkeep.1 hkeep.2
    unfold streamNew
    split
    · next map e heq =>
        rw [heq] at hchanges
        exact moves_of_changes (x := w.wire) hchanges
    · next map id heq =>
        rw [heq] at hchanges
        exact moves_of_changes (x := w.wire) hchanges
  | setPriority =>
    cases h
    exact moves_of_changes (x := w.wire) (changes_streamSetPriority hkeep.1 hkeep.2)
  | setContext =>
    cases h
    exact moves_of_changes (x := w.wire) (changes_streamSetContext hkeep)
  | read =>
    obtain ⟨⟨m', res⟩, hread, h⟩ := bind_eq_ok.mp h
    cases h
    exact moves_of_changes (x := w.wire) (changes_streamRead hread)
  | write =>
    obtain ⟨⟨m', res⟩, hwrite, h⟩ := bind_eq_ok.mp h
    cases h
    exact moves_of_changes (x := w.wire) (changes_streamWrite hkeep.1 hkeep.2 hwrite)
  | shutdown id direction err =>
    cases h
    exact moves_of_changes (x := w.wire) (changes_streamShutdown direction err hkeep)
  | writable =>
    obtain ⟨⟨m', res⟩, hwritable, h⟩ := bind_eq_ok.mp h
    cases h
    exact moves_of_changes (x := w.wire) (changes_streamWritable hwritable)
  | wantRead id want =>
    cases h
    exact moves_of_changes (x := w.wire) (changes_wantRead w.map id want)
  | wantWrite id want =>
    cases h
    exact moves_of_changes (x := w.wire) (changes_wantWrite w.map id want)
  | close =>
    cases h
    exact .single .closed
  | pollEvent =>
    cases h
    exact moves_of_changes (x := w.wire) (changes_pollEvent w.map)
  | receive => exact moves_receive hkeep h
  | peerParams tp =>
    cases h
    exact moves_of_changes (x := w.wire) (changes_updatePeerStreamTransportParams tp.2)
  | sendPacket => exact moves_sendPacket h
  | ackPacket => exact moves_ackPacket hkeep h
  | losePacket =>
    cases h
    unfold losePacket
    split
    · exact .refl
    · next frames hk => exact .single (.losePacket hk)
  | probePacket =>
    cases h
    unfold probePacket
    split
    · exact .refl
    · next frames hk => exact .single (.probePacket hk)
  | handleLost =>
    cases h
    exact moves_handleLost hkeep w.lost w.wire rfl

theorem moves_of_reaches (h : Exec.Reaches step (Keeps p) w w') : Moves p w.wire w'.wire :=
  h.simulates wire fun _ _ _ _ hkeep hstep => moves_step hkeep hstep

theorem invariant_of_moves (Inv : Wire → Prop) (hmove : ∀ x x', Inv x → Move p x x' → Inv x')
    (hw : Inv w.wire) (h : Exec.Reaches step (Keeps p) w w') : Inv w'.wire :=
  invariant_of_steps hmove (moves_of_reaches h) hw

end World

end Tquic.StreamMap
