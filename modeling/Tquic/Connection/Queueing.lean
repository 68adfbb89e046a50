import Tquic.Connection.Lineup

/-!
# The send queues in a run

No stream is queued twice, each is in the queue of its priority, and every stream with something to
send is queued, as long as FIN comes with data, a queued stream keeps its priority, and nothing is
acknowledged that waits to be sent again.
-/

namespace Tquic.StreamMap

variable {p : Promise} {m m' : StreamMap}

namespace Wire

variable {strict : Prop} {x x' : Wire}

theorem lined_move (h : x.map.Lined) (hx : x.Delivering strict) (hp : p.Lining) (hacks : ¬p.acks)
    (hlosses : ¬p.losses) (hmove : Move p x x') : x'.map.Lined := by
  cases hmove with
  | call hchange =>
    exact h.change hx.ships hx.kept (p := p.offline) ⟨hp.finish, hp.prioritize⟩ hchange
  | frame hopen hchange => exact h.change hx.ships hx.kept hp hchange
  | refused hopen hrefused => exact h.refused hrefused
  | @control now srtt written w' hopen hc => exact h.control (w := ⟨x.map, written, x.draft⟩) hc
  | @emission written w' hopen he => exact h.emission (w := ⟨x.map, written, x.draft⟩) he
  | ackFrame hopen hacking hack hallowed => exact absurd hallowed hacks
  | loseFrame hlost hlose hallowed => exact absurd hallowed hlosses
  | closed | packed | ackPacket _ _ _ | losePacket _ | probePacket _ => exact h

theorem lined_ackFrames (hopen : x.closing = false) (frames : List Frame) : ∀ {m m' : StreamMap},
    frames.foldlM StreamMap.ackFrame m = .ok m' →
    ({ x with map := m, acking := frames } : Wire).Delivering True → m.Lined →
    (∀ frame ∈ frames, m.NotRequeued frame) → m'.Lined := by
  -- the frames that are left are still not queued, for nothing is lost in between
  induction frames with
  | nil =>
    intro m m' h _ hm _
    cases h
    exact hm
  | cons frame frames ih =>
    intro m m' h hx hm hspared
    obtain ⟨m₁, hframe, h⟩ := Exec.bind_eq_ok.mp h
    have hack := acked_of_ackFrame hframe
    have hmove : Move World.finishing { x with map := m, acking := frame :: frames }
        { x with map := m₁, acking := frames } := .ackFrame hopen rfl hack trivial
    refine ih h (hx.move (fun _ _ _ hfinish => hfinish) hmove) ?_ fun frame' hmem => ?_
    · refine hm.acked hx.ships ?_ (hspared frame List.mem_cons_self) hack
      rintro id off len fin rfl
      exact .inr (.inr (.inr List.mem_cons_self))
    · exact (hspared frame' (.tail _ hmem)).acked hack

theorem lined_loseFrames (frames : List Frame) : ∀ {x : Wire}, x.lost = frames →
    x.Delivering True → x.map.Lined → (∀ frame ∈ frames, isEmptyFin frame = false) →
    (frames.foldl StreamMap.loseFrame x.map).Lined := by
  induction frames with
  | nil => exact fun _ _ hm _ => hm
  | cons frame frames ih =>
    intro x hlost hx hm hfin
    have hlose := lost_loseFrame x.map frame
    have hmove : Move World.finishing x
        { x with map := x.map.loseFrame frame, lost := frames } := .loseFrame hlost hlose trivial
    refine ih (x := { x with map := x.map.loseFrame frame, lost := frames }) rfl
      (hx.move (fun _ _ _ hfinish => hfinish) hmove) ?_
      fun frame' hmem => hfin frame' (.tail _ hmem)
    refine hm.lost hx.ships ?_ (hfin frame List.mem_cons_self) hlose
    rintro id off len fin rfl
    exact .inr (.inr (.inl (hlost ▸ .head _)))

end Wire

/-! ## Runs -/

namespace World

variable {conf : ReceiveConfig} {isServer endpoint : Bool} {w w' : World} {op : Op}

/-- FIN is written with data or while data waits to be sent first; a stream with something to send
or abandoned keeps its priority; no byte is acknowledged that waits to be sent again; and no FIN on
its own is lost. -/
def Queueing (w : World) : Op → Prop
  | .write id data fin => fin = true → (w.map.streamOf id true).send.FinishedWith data ∧
      (data = [] → (w.map.streamOf id true).isSendable = true)
  | .setPriority id urgency incremental => (w.map.streamOf id true).Reranks urgency incremental
  | .streamNew bidi urgency incremental =>
    (w.map.streamOf (w.map.nextStreamId bidi) true).Reranks urgency incremental
  | .ackPacket k => ∀ frame ∈ w.sent[k]?.getD [], w.map.NotRequeued frame
  | .handleLost => ∀ frame ∈ w.lost, isEmptyFin frame = false
  | _ => True

theorem Queueing.finishes (h : w.Queueing op) : w.FinishesWithData op := by
  cases op with
  | write => exact fun hfin => (h hfin).1
  | _ => trivial

def lining : Promise where
  finish s data := s.send.FinishedWith data ∧ (data = [] → s.isSendable = true)
  prioritize s urgency incremental := s.Reranks urgency incremental
  acks := False
  losses := False

theorem lining_lining : lining.Lining := ⟨fun _ _ h => h.2, fun _ _ _ h => h⟩

theorem keeps_lining (h : w.Queueing op) (hacks : ∀ k, op ≠ .ackPacket k)
    (hlosses : op ≠ .handleLost) : w.Keeps lining op := by
  have hfree := keeps_free w op
  cases op with
  | write id data fin | setPriority id urgency incremental | streamNew bidi urgency incremental =>
    exact ⟨fun _ => trivial, h⟩
  | ackPacket k => exact absurd rfl (hacks k)
  | handleLost => exact absurd rfl hlosses
  | _ => exact hfree

theorem lined_ackPacket {k : ℕ} {o : Outcome} (h : w.map.Lined) (hw : w.wire.Delivering True)
    (hop : w.Queueing (.ackPacket k)) (hstep : w.ackPacket k = .ok (w', o)) : w'.map.Lined := by
  unfold ackPacket at hstep
  split_ifs at hstep with hclosing
  · cases hstep
    exact h
  cases hk : w.sent[k]? with
  | none =>
    rw [hk] at hstep
    cases hstep
    exact h
  | some frames =>
    rw [hk] at hstep
    obtain ⟨m', hfold, hstep⟩ := Exec.bind_eq_ok.mp hstep
    cases hstep
    have hopen : w.closing = false := by simpa using hclosing
    have hmove : Move finishing w.wire { w.wire with
        sent := w.sent.eraseIdx k, acking := frames, acked := w.acked ++ frames } :=
      .ackPacket hopen hk rfl
    refine Wire.lined_ackFrames (x := { w.wire with
      sent := w.sent.eraseIdx k, acked := w.acked ++ frames }) hopen frames hfold
      (hw.move (fun _ _ _ hfinish => hfinish) hmove) h ?_
    exact fun frame hmem => hop frame (by rw [hk]; exact hmem)

theorem lined_step {o : Outcome} (h : w.map.Lined) (hw : w.wire.Delivering True)
    (hop : w.Queueing op) (hstep : w.step op = .ok (w', o)) : w'.map.Lined := by
  by_cases hacks : ∃ k, op = .ackPacket k
  · obtain ⟨k, rfl⟩ := hacks
    exact lined_ackPacket h hw hop hstep
  by_cases hlosses : op = .handleLost
  · subst hlosses
    cases hstep
    exact Wire.lined_loseFrames w.lost rfl hw h hop
  · have hmoves : Moves lining w.wire w'.wire :=
      moves_step (keeps_lining hop (fun k heq => hacks ⟨k, heq⟩) hlosses) hstep
    have hkeep : ∀ x x' : Wire, x.Delivering True ∧ x.map.Lined → Move lining x x' →
        x'.Delivering True ∧ x'.map.Lined := by
      intro x x' hx hmove
      refine ⟨hx.1.move ?_ hmove, ?_⟩
      · exact fun _ s data (hfinish : lining.finish s data) => hfinish.1
      · exact Wire.lined_move hx.2 hx.1 lining_lining (fun h => h) (fun h => h) hmove
    exact (Exec.invariant_of_steps hkeep hmoves ⟨hw, h⟩).2

theorem lined_of_reaches (h : Exec.Reaches step Queueing (start conf isServer endpoint) w) :
    w.map.Lined := by
  induction h with
  | refl => exact ⟨Multiset.nodup_zero, nofun, nofun, nofun⟩
  | tail hreach hlegal hstep ih =>
    have hw := delivering_of_reaches (hreach.mono fun _ _ hop => hop.finishes)
    exact lined_step ih hw hlegal hstep

/-- FIN was written, and no frame with it is in flight, lost and still to be handled, or
acknowledged. -/
def FinUnsent (w : World) (id : ℕ) (s : Stream) : Prop :=
  s.send.isAbandoned = false ∧ s.send.finOff.isSome = true ∧ ∀ off len,
    (∀ packet ∈ w.sent, .stream id off len true ∉ packet) ∧ .stream id off len true ∉ w.lost ∧
      .stream id off len true ∉ w.acked

/-- No stream is queued twice, each is in the queue of its priority, and one with data or FIN to
send is queued; removing after a peek takes out exactly the stream that was peeked. -/
theorem queues_in_order (h : Exec.Reaches step Queueing (start conf isServer endpoint) w) :
    (∀ id, (w.map.slots.map Slot.id).count id ≤ 1) ∧
      (∀ slot ∈ w.map.slots, ∀ s, w.map.get? slot.id = some s →
        slot.urgency = s.urgency ∧ slot.incremental = s.incremental) ∧
      (∀ id s, w.map.get? id = some s → s.isSendable = true ∨ w.FinUnsent id s →
        ∃ slot ∈ w.map.slots, slot.id = id) ∧
      ∀ (m m' : StreamMap) (id : ℕ), m.peekSendable.2 = some id →
        m'.sendable = m.peekSendable.1.sendable → ∃ urgency incremental,
          m.slots = ⟨urgency, incremental, id⟩ ::ₘ m'.removeSendable.slots := by
  have hlined := lined_of_reaches h
  have hfinishes := h.mono fun _ _ hop => hop.finishes
  have hships := (delivering_of_reaches hfinishes).ships
  refine ⟨Multiset.nodup_iff_count_le_one.mp hlined.once, fun slot hslot s hget => ?_,
    fun id s hget hcause => ?_, fun m m' id hnext hm => slots_removeSendable hnext hm⟩
  · obtain ⟨hurgency, hincremental⟩ := hlined.ranked slot hslot s hget
    exact ⟨hurgency.symm, hincremental.symm⟩
  · rw [← mem_queuedIds]
    rcases hcause with hready | ⟨hopen, hfin, hnone⟩
    · refine (hships.live id s hget ?_).2 hready
      by_contra habandoned
      have hcleared := hships.cleared id s hget (by simpa using habandoned)
      rw [Stream.isSendable, hcleared.not_ready] at hready
      cases hready
    · obtain ⟨f, hf⟩ := Option.isSome_iff_exists.mp hfin
      obtain ⟨hshipped, hqueued⟩ := hships.live id s hget hopen
      rcases hshipped.fin_somewhere trivial hf with
        ⟨⟨off, len, fin⟩, he, hflag, -⟩ | ⟨hready, -⟩
      · obtain rfl : fin = true := hflag
        obtain ⟨hsent, hlost, hacked⟩ := hnone off len
        rcases he with (hdraft | ⟨packet, hpacket, hmem⟩ | hmem | hacking) | hmem
        · exact absurd hdraft List.not_mem_nil
        · exact absurd hmem (hsent packet hpacket)
        · exact absurd hmem hlost
        · exact absurd hacking List.not_mem_nil
        · exact absurd (mem_arrived.mp hmem) hacked
      · exact hqueued hready

instance (w : World) (frame : Frame) : Decidable (w.map.NotRequeued frame) := by
  induction frame using Frame.casesOn <;> unfold NotRequeued <;> infer_instance

instance (w : World) (op : Op) : Decidable (w.Queueing op) := by
  induction op using Op.casesOn <;> unfold Queueing <;> infer_instance

/-- A client with a stream finished while its data waited, and one queued again because a packet was
lost. -/
def clientQueued : World :=
  Exec.follow step Queueing (start .new false true)
    [.peerParams smallParams, .streamNew true 127 true, .streamNew true 127 true,
      .setPriority 4 3 false, .write 4 [1, 2] false, .sendPacket ⟨true, 100, 0, 0, 0, 0, {}⟩,
      .write 0 [5] false, .write 0 [] true, .losePacket 0, .handleLost]

theorem queues_in_order_lost :
    clientQueued.map.slots = {⟨3, false, 4⟩, ⟨127, true, 0⟩} ∧
      (clientQueued.map.slots.map Slot.id).count 4 ≤ 1 ∧
      ∃ slot ∈ clientQueued.map.slots, slot.id = 4 := by
  have hreach : Exec.Reaches step Queueing (start .new false true) clientQueued :=
    Exec.reaches_follow _ _
  obtain ⟨honce, -, hqueued, -⟩ := queues_in_order hreach
  have hready : (clientQueued.map.get? 4).any Stream.isSendable = true := by decide +kernel
  obtain ⟨s, hget, hs⟩ := Option.any_eq_true _ _ |>.mp hready
  exact ⟨by decide +kernel, honce 4, hqueued 4 s hget (.inl hs)⟩

def clientTwice : World :=
  Exec.follow step (fun _ _ => True) (start .new false true)
    [.peerParams smallParams, .streamNew true 127 true, .write 0 [] true, .write 0 [] true]

def clientMoreUrgent : World :=
  Exec.follow step (fun _ _ => True) (start .new false true)
    [.peerParams smallParams, .streamNew true 127 true, .write 0 [1] false, .setPriority 0 3 true]

/-- The stream is in a queue twice; and it stays in the queue of its old urgency. -/
theorem queued_twice_and_late :
    Exec.Reaches step (fun _ _ ↦ True) (start .new false true) clientTwice ∧
      clientTwice.map.slots = {⟨127, true, 0⟩, ⟨127, true, 0⟩} ∧
      Exec.Reaches step (fun _ _ ↦ True) (start .new false true) clientMoreUrgent ∧
      clientMoreUrgent.map.slots = {⟨127, true, 0⟩} ∧
      (clientMoreUrgent.map.get? 0).any (fun s ↦ s.urgency == 3) = true :=
  ⟨Exec.reaches_follow _ _, by decide +kernel, Exec.reaches_follow _ _, by decide +kernel,
    by decide +kernel⟩

end World

end Tquic.StreamMap
