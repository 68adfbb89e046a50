import Tquic.Connection.Credits
import Tquic.Connection.Finished

/-!
# Closing finished streams

In a run in which no receive side ends unnoticed, every stream with both sides finished is closed,
and its credit was given back.
-/

namespace Tquic.StreamMap

open List

open SendBuf (Parcel)

variable {m m' : StreamMap} {id : ℕ} {s : Stream} {p : Promise} {resets resets' : Set ℕ}
  {acked : List Frame} {closing : Bool}

/-! ## Acknowledged frames -/

theorem accounts_of_ships {strict : Prop} {flight : ℕ → Set Parcel}
    (h : Ships strict flight (fun id => {e | .stream id e.1 e.2.1 e.2.2 ∈ acked}) m) :
    m.Accounts resets acked := by
  intro id s hget hgiven hdone
  have hcomplete : s.send.isComplete = true → s.sendDone = true := by
    intro hsend
    rw [Stream.sendDone, hsend, Bool.or_true]
  rcases hdone with hnone | ⟨e, he, hflag, hall⟩ | ⟨hid, -⟩
  · rw [Stream.sendDone, hnone]
    rfl
  · apply hcomplete
    cases habandoned : s.send.isAbandoned with
    | true => exact (h.cleared id s hget habandoned).isComplete
    | false => exact (h.live id s hget habandoned).1.isComplete he hflag hall
  · exact hcomplete (h.cleared id s hget (hgiven hid)).isComplete

variable {frame : Frame}

theorem Tidy.handled (h : Tidy resets acked closing id s)
    (hstream : ∀ off len fin, frame ≠ .stream id off len fin)
    (hreset : ∀ code size, frame ≠ .resetStream id code size) :
    Tidy resets (acked ++ [frame]) closing id s := by
  have hold : ∀ {g : Frame}, g ∈ acked ++ [frame] → g ≠ frame → g ∈ acked := by
    intro g hmem hne
    rcases mem_append.mp hmem with hmem | hmem
    · exact hmem
    · exact absurd (mem_singleton.mp hmem) hne
  refine ⟨h.toFit, fun hdone hover => h.done ?_ hover⟩
  rcases hdone with hnone | ⟨e, he, hflag, hall⟩ | ⟨hid, code, size, hmem⟩
  · exact .inl hnone
  · refine .inr (.inl ⟨e, hold he (hstream _ _ _).symm, hflag, fun x hx => ?_⟩)
    obtain ⟨e', he', hcovers⟩ := hall x hx
    exact ⟨e', hold he' (hstream _ _ _).symm, hcovers⟩
  · exact .inr (.inr ⟨hid, code, size, hold hmem (hreset _ _).symm⟩)

theorem AllLive.ackedFrame (h : m.AllLive (Tidy resets acked closing)) (hack : Acked m frame m')
    (hcode : m'.Accounts resets (acked ++ [frame])) :
    m'.AllLive (Tidy resets (acked ++ [frame]) closing) := by
  cases hack with
  | @stream id off len fin s send _ hget hdrop hm =>
    have hcontinues := SendBuf.continues_ackAndDrop hdrop
    have hfit : Fit resets id { s with send } :=
      ((h id s hget).withSend fun hgone => hcontinues.isAbandoned_eq.trans hgone).toFit
    refine closeIfComplete ?_ (get?_setStream_self m id _) hfit hcode hm.get? ?_
    · intro id' hne t ht
      refine (h.others _ id' hne t ht).handled ?_ nofun
      rintro _ _ _ heq
      cases heq
      exact hne rfl
    · exact fun hdone => hdone
  | @reset id code size s _ hget hm =>
    refine closeIfComplete ?_ hget (h id s hget).toFit hcode hm.get? ?_
    · intro id' hne t ht
      refine (h id' t ht).handled nofun ?_
      rintro _ _ heq
      cases heq
      exact hne rfl
    · exact fun hdone => hdone
  | other hframe =>
    intro id' t ht
    apply (h id' t ht).handled
    · rintro _ _ _ rfl
      rw [show m.get? id' = none from hframe] at ht
      cases ht
    · rintro _ _ rfl
      rw [show m.get? id' = none from hframe] at ht
      cases ht

theorem AllLive.lostFrame (h : m.AllLive (Tidy resets acked closing)) (hlost : Lost m frame m') :
    m'.AllLive (Tidy resets acked closing) := by
  cases hlost with
  | stream hget =>
    apply pushWhen
    apply h.replace
    apply (h _ _ hget).withSend
    exact fun hgone => (SendBuf.continues_retransmit _ _ _).isAbandoned_eq.trans hgone
  | maxData | maxStreamData => exact h.congr rfl
  | other hframe hm => exact h.alike hm

/-! ## Packets -/

theorem AllLive.control {now srtt : ℕ} {w w' : Writer}
    (h : w.map.AllLive (Tidy resets acked closing)) (hc : Writer.Control now srtt w w') :
    w'.map.AllLive (Tidy resets acked closing) := by
  cases hc with
  | maxStreams | forgotten => exact h.congr rfl
  | tuned id s hget => exact h.replace ((h id s hget).withFlowControl _)
  | maxStreamData id s len hget =>
    have hset : (w.map.setStream id { s with recv := s.recv.updateMaxData now }).AllLive
        (Tidy resets acked closing) := h.replace ((h id s hget).withFlowControl _)
    exact hset.congr rfl
  | connTuned | maxData | other => exact h.congr rfl

theorem AllLive.emission {w w' : Writer} (h : w.map.AllLive (Tidy resets acked closing))
    (he : Writer.Emission w w') : w'.map.AllLive (Tidy resets acked closing) := by
  have hpeek : w.map.peekSendable.1.AllLive (Tidy resets acked closing) :=
    h.congr (register_peekSendable w.map).1
  cases he with
  | idle => exact hpeek
  | dropped => exact hpeek.congr (register_removeSendable _).1
  | emitted id s outLen dataLen len send data fin hnext hget hstopped hread =>
    have hset : (w.map.peekSendable.1.setStream id { s with send }).AllLive
        (Tidy resets acked closing) := by
      apply hpeek.replace
      apply (h id s hget).withSend
      exact fun hgone => (SendBuf.continues_read hread).isAbandoned_eq.trans hgone
    dsimp only
    split_ifs
    · exact hset
    · exact hset.congr (register_removeSendable _).1

/-! ## Moves -/

theorem used_of_books {k k' : Book} (h : Books p k k') (hid : k.used id) : k'.used id := by
  induction h with
  | refl => exact hid
  | tail _ hstep ih => exact Book.used_of_step hstep ih

namespace Wire

variable {x x' : Wire}

structure Closing (resets : Set ℕ) (x : Wire) : Prop where
  delivering : x.Delivering False
  used : ∀ id ∈ resets, x.map.Used id
  tidy : x.map.AllLive (Tidy resets x.handled x.closing)

theorem Delivering.accounts {strict : Prop} (h : x.Delivering strict) :
    x.map.Accounts resets x.handled := accounts_of_ships h.ships

theorem Closing.move (h : x.Closing resets) (hp : p.Ending) (hmove : Move p x x') :
    x'.Closing resets := by
  have hdelivering := h.delivering.move (fun hfalse => hfalse.elim) hmove
  have hcode : x'.map.Accounts resets x'.handled := hdelivering.accounts
  have hused : ∀ id ∈ resets, x'.map.Used id := fun id hid =>
    used_iff.mpr (used_of_books (books_move hmove) (used_iff.mp (h.used id hid)))
  refine ⟨hdelivering, hused, ?_⟩
  have htidy := h.tidy
  cases hmove with
  | call hchange => exact htidy.change h.delivering.kept h.used hp.offline hchange hcode
  | frame hopen hchange => exact htidy.change h.delivering.kept h.used hp hchange hcode
  | refused hopen hrefused => exact htidy.refused hrefused
  | closed => exact fun id s hget => (htidy id s hget).close
  | @control now srtt written w' hopen hc =>
    exact .control (w := ⟨x.map, written, x.draft⟩) htidy hc
  | @emission written w' hopen he =>
    exact .emission (w := ⟨x.map, written, x.draft⟩) htidy he
  | packed => exact htidy
  | @ackPacket k frames hopen hk hacking =>
    have hsame : ({ x with
        sent := x.sent.eraseIdx k, acking := frames, acked := x.acked ++ frames } :
        Wire).handled = x.handled := by
      rw [handled_of_none hacking]
      exact handled_eq rfl
    rw [hsame]
    exact htidy
  | @ackFrame frame rest m' hopen hacking hack =>
    have hhandled := handled_cons h.delivering.acking hacking m'
    rw [hhandled] at hcode ⊢
    exact htidy.ackedFrame hack hcode
  | losePacket | probePacket => exact htidy
  | loseFrame hlost hlose => exact htidy.lostFrame hlose

theorem Closing.rebase (h : x.Closing resets) (hused : ∀ id ∈ resets', x.map.Used id)
    (hgiven : ∀ id ∈ resets', ∀ s, x.map.get? id = some s → s.send.isAbandoned = true)
    (hold : ∀ id code size, .resetStream id code size ∈ x.handled → id ∈ resets) :
    x.Closing resets' := by
  refine ⟨h.delivering, hused, fun id s hget => ?_⟩
  have htidy := h.tidy id s hget
  refine ⟨⟨htidy.sane, htidy.layout, htidy.reached, htidy.drained, fun hid => hgiven id hid s hget⟩,
    fun hdone => htidy.done ?_⟩
  rcases hdone with hnone | hsent | ⟨-, code, size, hmem⟩
  · exact .inl hnone
  · exact .inr (.inl hsent)
  · exact .inr (.inr ⟨hold id code size hmem, code, size, hmem⟩)

end Wire

/-! ## Runs -/

namespace World

variable {conf : ReceiveConfig} {isServer endpoint : Bool} {w w' : World} {op : Op} {o : Outcome}

def resetIds (w : World) : Set ℕ :=
  {id | ∃ code size, .resetStream id code size ∈ w.acked ∨
    ∃ packet ∈ w.sent, .resetStream id code size ∈ packet}

theorem acked_of_step (h : w.step op = .ok (w', o)) {frame : Frame} (hframe : frame ∈ w'.acked) :
    frame ∈ w.acked ∨ ∃ packet ∈ w.sent, frame ∈ packet := by
  cases op with
  | setPriority _ _ _ | setContext _ | shutdown _ _ _ | wantRead _ _ | wantWrite _ _ | close
  | pollEvent | peerParams _ | handleLost =>
    cases h
    exact .inl hframe
  | read _ _ | write _ _ _ | writable _ _ =>
    obtain ⟨r, -, h⟩ := Exec.bind_eq_ok.mp h
    cases h
    exact .inl hframe
  | streamNew =>
    obtain rfl := congrArg Prod.fst (Exec.ok.inj h)
    unfold streamNew at hframe
    split at hframe <;> exact .inl hframe
  | receive frame =>
    change w.receive frame = _ at h
    unfold receive at h
    split_ifs at h
    · cases h
      exact .inl hframe
    · obtain ⟨r, -, h⟩ := Exec.bind_eq_ok.mp h
      cases h
      exact .inl hframe
  | sendPacket q =>
    change w.sendPacket q = _ at h
    unfold sendPacket at h
    split_ifs at h
    · cases h
      exact .inl hframe
    · obtain ⟨r, -, h⟩ := Exec.bind_eq_ok.mp h
      cases h
      exact .inl hframe
  | losePacket =>
    cases h
    unfold losePacket at hframe
    split at hframe <;> exact .inl hframe
  | probePacket =>
    cases h
    unfold probePacket at hframe
    split at hframe <;> exact .inl hframe
  | ackPacket k =>
    change w.ackPacket k = _ at h
    unfold ackPacket at h
    split_ifs at h
    · cases h
      exact .inl hframe
    · split at h
      · cases h
        exact .inl hframe
      · next frames hk =>
          obtain ⟨r, -, h⟩ := Exec.bind_eq_ok.mp h
          cases h
          refine (mem_append.mp hframe).imp_right fun hnew => ?_
          exact ⟨frames, mem_of_getElem? hk, hnew⟩

theorem abandoned_of_announced {size : ℕ} (hkept : w.map.book.Kept)
    (h : w.map.purse.Announced id size) :
    w.map.Used id ∧ ∀ s, w.map.get? id = some s → s.send.isAbandoned = true := by
  obtain ⟨b, hhas, habandoned, -⟩ := h
  rcases hhas with hlive | hgone
  · change (w.map.streams.mapValues Stream.send).get? id = some b at hlive
    rw [SortedMap.get?_mapValues] at hlive
    obtain ⟨s, hget, rfl⟩ := Option.map_eq_some_iff.mp hlive
    refine ⟨.inl ⟨s, hget⟩, fun t ht => ?_⟩
    cases hget.symm.trans ht
    exact habandoned
  · obtain ⟨e, he, heq⟩ := mem_map.mp hgone
    obtain ⟨rfl, -⟩ := Prod.mk.inj heq
    refine ⟨.inr ⟨e.2, he⟩, fun t ht => ?_⟩
    refine absurd (mem_map.mpr ⟨e, he, rfl⟩) (hkept.disjoint e.1 ?_)
    exact mem_live_iff.mpr ⟨t, ht⟩

theorem closing_moves {x x' : Wire} (h : x.Closing resets) (hp : p.Ending) (hmoves : Moves p x x') :
    x'.Closing resets := by
  induction hmoves with
  | refl => exact h
  | tail _ hmove ih => exact ih.move hp hmove

theorem Honest.closing_step (hhonest : w.Honest) (h : w.wire.Closing w.resetIds) (hp : p.Ending)
    (hkeep : w.Keeps p op) (hstep : w.step op = .ok (w', o)) : w'.wire.Closing w'.resetIds := by
  have hafter := closing_moves h hp (moves_step hkeep hstep)
  have hhonest' := (hhonest.step (.inl trivial : True ∨ _) hstep).1
  have hkept' : w'.map.book.Kept := hafter.delivering.kept
  have habandoned : ∀ id ∈ w'.resetIds, w'.map.Used id ∧
      ∀ s, w'.map.get? id = some s → s.send.isAbandoned = true := by
    rintro id ⟨code, size, hmem | ⟨packet, hpacket, hmem⟩⟩
    · exact abandoned_of_announced hkept' (hhonest'.acked id code size hmem)
    · exact abandoned_of_announced hkept' (hhonest'.sent packet hpacket id code size hmem)
  apply hafter.rebase (fun id hid => (habandoned id hid).1) (fun id hid => (habandoned id hid).2)
  intro id code size hmem
  rw [Wire.handled_of_none (x := w'.wire) rfl] at hmem
  exact ⟨code, size, acked_of_step hstep hmem⟩

theorem closing_start (conf : ReceiveConfig) (isServer endpoint : Bool) :
    (start conf isServer endpoint).wire.Closing (start conf isServer endpoint).resetIds := by
  refine ⟨delivering_start False conf isServer endpoint, ?_, ?_⟩
  · rintro id ⟨code, size, hmem | ⟨packet, hpacket, -⟩⟩
    · exact absurd hmem not_mem_nil
    · exact absurd hpacket not_mem_nil
  · intro id s hget
    have hnone : (start conf isServer endpoint).map.get? id = none := rfl
    cases hget

/-- No receive side ends unnoticed: the first FIN neither meets one that was shut down nor comes,
once the send side is done, with data all read; nor is one of known final size then shut down. -/
def EndsNoticed (w : World) : Op → Prop
  | .receive (.stream id off data fin) =>
    w.closing = false → fin = true → (w.map.streamOf id false).EndsOpenly off data
  | .shutdown id .read _ =>
    ∀ s, w.map.get? id = some s → ¬(s.sendDone = true ∧ s.recv.finOff.isSome = true)
  | _ => True

def ending : Promise where
  stream s off data fin := fin = true → s.EndsOpenly off data
  shutdown s direction :=
    direction = .read → ¬(s.sendDone = true ∧ s.recv.finOff.isSome = true)

theorem ending_ending : ending.Ending := ⟨fun _ _ _ h => h rfl, fun _ h => h rfl⟩

theorem keeps_ending (h : w.EndsNoticed op) : w.Keeps ending op := by
  have hfree := keeps_free w op
  cases op with
  | receive frame =>
    intro hopen
    cases frame with
    | stream => exact h hopen
    | _ => exact hfree hopen
  | shutdown =>
    rintro s hget rfl
    exact h s hget
  | _ => exact hfree

theorem closing_of_reaches (h : Exec.Reaches step EndsNoticed (start conf isServer endpoint) w) :
    w.wire.Closing w.resetIds := by
  suffices hboth : w.Honest ∧ w.wire.Closing w.resetIds from hboth.2
  induction h with
  | refl => exact ⟨honest_start conf isServer endpoint, closing_start conf isServer endpoint⟩
  | tail _ hlegal hstep ih =>
    obtain ⟨hhonest, hclosing⟩ := ih
    exact ⟨(hhonest.step (.inl trivial : True ∨ _) hstep).1,
      hhonest.closing_step hclosing ending_ending (keeps_ending hlegal) hstep⟩

instance (w : World) (id : ℕ) (P : Stream → Prop) [DecidablePred P] :
    Decidable (∀ s, w.map.get? id = some s → P s) :=
  match w.map.get? id with
  | none => isTrue fun _ h => nomatch h
  | some s => decidable_of_iff (P s) ⟨fun h _ heq => Option.some.inj heq ▸ h, fun h => h s rfl⟩

instance (w : World) (op : Op) : Decidable (w.EndsNoticed op) := by
  unfold EndsNoticed
  split <;> infer_instance

/-- The acknowledged frames have all data of the stream and FIN, or its reset; or it has no send
side. -/
def SendFinished (w : World) (id : ℕ) (s : Stream) : Prop :=
  (s.bidi || s.isLocal) = false ∨ Sent {e | .stream id e.1 e.2.1 e.2.2 ∈ w.acked} ∨
    ∃ code size, .resetStream id code size ∈ w.acked

/-- The final size is known, and everything was read, delivered or discarded after a shutdown. A
reset that closed the connection was not delivered. -/
def RecvFinished (w : World) (s : Stream) : Prop :=
  (∃ f, s.recv.finOff = some f ∧
      (s.recv.shutdown = true ∨ s.recv.readOff = f ∧ s.isReadable = false)) ∧
    (w.closing = false ∨ s.recv.error = none)

/-- A stream is closed as soon as both sides are finished, and if the peer opened it, a credit was
given back for it. -/
theorem finished_closed {id : ℕ} {s : Stream}
    (h : Exec.Reaches step EndsNoticed (start conf isServer endpoint) w)
    (hs : w.map.get? id = some s ∨ (id, s) ∈ w.map.destroyed)
    (hsend : w.SendFinished id s) (hrecv : w.RecvFinished s) :
    w.map.isClosed id = true ∧
      (isLocal id isServer = false → id ∈ w.map.closedPeers (isBidi id)) ∧
      ∀ b, w.map.concurrencyControl.localMaxStreamsNext b =
        conf.localTransportParams.initialMaxStreams b + (w.map.closedPeers b).card := by
  have hclosed : id ∈ w.map.closedIds := by
    rw [mem_closedIds]
    rcases hs with hget | hgone
    · refine .inl ⟨s, hget, ?_⟩
      have htidy := (closing_of_reaches h).tidy id s hget
      rw [Wire.handled_of_none (x := w.wire) rfl] at htidy
      obtain ⟨⟨f, hfin, hend⟩, hdelivered⟩ := hrecv
      have hover : s.recv.Over := by
        rcases hend with hshut | ⟨hread, hready⟩
        · constructor
          · rw [RecvBuf.isComplete, hfin, htidy.drained hshut f hfin]
            exact decide_eq_true rfl
          · have hempty := htidy.sane.drained hshut
            rw [RecvBuf.ready, SortedMap.first?_eq_none_iff.mpr hempty]
        · exact ⟨by rw [RecvBuf.isComplete, hfin, hread]; exact decide_eq_true rfl, hready⟩
      have hdone : SendDone w.resetIds w.acked id s := by
        rcases hsend with hnone | hsent | ⟨code, size, hmem⟩
        · exact .inl hnone
        · exact .inr (.inl hsent)
        · exact .inr (.inr ⟨⟨code, size, .inl hmem⟩, code, size, hmem⟩)
      rcases htidy.done hdone hover with hflag | ⟨hclosing, herror⟩
      · exact hflag
      · rcases hdelivered with hopen | hnone
        · rw [show w.wire.closing = w.closing from rfl, hopen] at hclosing
          cases hclosing
        · rw [hnone] at herror
          cases herror
    · exact .inr (mem_map.mpr ⟨(id, s), hgone, rfl⟩)
  have hserver : w.map.isServer = isServer := (sound_of_reaches h).2
  refine ⟨(isClosed_iff (kept_of_reaches h)).mpr hclosed, fun hpeer => ?_, next_eq h⟩
  exact Finset.mem_filter.mpr ⟨hclosed, hserver ▸ hpeer, rfl⟩

/-- A server that has read a stream of the client to its end; its answer is acknowledged. -/
def serverAnswered : World :=
  Exec.follow step EndsNoticed (start .new true true)
    [.peerParams smallParams, .receive (.stream 0 0 [1] true), .write 0 [2] true,
      .sendPacket ⟨true, 100, 0, 0, 0, 0, {}⟩, .read 0 10, .ackPacket 0]

theorem finished_closed_answered :
    serverAnswered.map.isClosed 0 = true ∧ 0 ∈ serverAnswered.map.closedPeers true := by
  have hreach : Exec.Reaches step EndsNoticed (start .new true true) serverAnswered :=
    Exec.reaches_follow _ _
  have hacked : serverAnswered.acked = [.stream 0 0 1 true] := by decide +kernel
  have hstream : (serverAnswered.map.get? 0).any (fun s => s.recv.finOff == some 1 &&
      (s.recv.readOff == 1 && !s.isReadable)) = true := by decide +kernel
  obtain ⟨s, hget, hs⟩ := Option.any_eq_true _ _ |>.mp hstream
  simp only [Bool.and_eq_true, Bool.not_eq_true', beq_iff_eq] at hs
  have hsend : serverAnswered.SendFinished 0 s := by
    refine .inr (.inl ⟨(0, 1, true), ?_, rfl, fun x hx => ⟨(0, 1, true), ?_, ?_⟩⟩)
    · simp [hacked]
    · simp [hacked]
    · exact ⟨Nat.zero_le x, hx⟩
  have hclosed := finished_closed hreach (.inl hget) hsend
    ⟨⟨1, hs.1, .inr hs.2⟩, .inl (by decide +kernel)⟩
  exact ⟨hclosed.1, hclosed.2.1 rfl⟩

/-- The receive side of a unidirectional stream is shut down; then its last byte and FIN arrive. -/
def serverDiscarding : World :=
  Exec.follow step (fun _ _ => True) (start .new true true)
    [.receive (.stream 2 0 [1, 2] false), .shutdown 2 .read 0, .receive (.stream 2 2 [3] true)]

/-- Everything is discarded, the final size is known, and the stream has no send side; but it is
not closed, and no credit was given back. -/
theorem discarded_not_closed :
    Exec.Reaches step (fun _ _ ↦ True) (start .new true true) serverDiscarding ∧
      serverDiscarding.closing = false ∧
      (serverDiscarding.map.get? 2).any (fun s ↦ !(s.bidi || s.isLocal) && s.recv.shutdown &&
        (s.recv.finOff == some 3 && s.recv.recvOff == 3)) = true ∧
      serverDiscarding.map.isClosed 2 = false ∧
      serverDiscarding.map.concurrencyControl.localMaxStreamsNext false =
        ReceiveConfig.new.localTransportParams.initialMaxStreams false :=
  ⟨Exec.reaches_follow _ _, by decide +kernel, by decide +kernel, by decide +kernel,
    by decide +kernel⟩

end World

end Tquic.StreamMap
