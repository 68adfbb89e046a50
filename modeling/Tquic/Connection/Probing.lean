import Tquic.Connection.InFlight

/-!
# Probes of a client whose address is not verified

A space with an ack-eliciting packet in flight knows when the last one was sent, so the timer is
armed where such a space may be probed. The data space may not be before the handshake is complete,
and 0-RTT packets are counted there.
-/

namespace Tquic

variable {F S : Type} {space : PacketNumSpace F}

/-- A probe of the space has a time to be counted from. -/
def PacketNumSpace.Timed (space : PacketNumSpace F) : Prop :=
  space.ackElicitingInFlight ≠ 0 → space.timeOfLastSentAckElicitingPkt.isSome = true

theorem PacketNumSpace.Timed.leave {space' : PacketNumSpace F} (h : space.Timed)
    (htime : space'.timeOfLastSentAckElicitingPkt = space.timeOfLastSentAckElicitingPkt)
    (hle : space'.ackElicitingInFlight ≤ space.ackElicitingInFlight) : space'.Timed := by
  intro hflight
  rw [htime]
  exact h fun hzero => hflight (Nat.le_zero.mp (hzero ▸ hle))

namespace Recovery

variable {cc : CongestionController F S} {r : Recovery S} {spaces : PacketNumSpaceMap F}
  {spaceId : SpaceId} {status : HandshakeStatus} {now : ℤ}

/-! ## Packets that leave the flight -/

theorem timed_ackStep {scan scan' : AckScan F S} {p : SentPacket F} (h : scan.space.Timed)
    (hstep : ackStep cc now scan p = .ok scan') : scan'.space.Timed := by
  obtain ⟨res, hpacket, rfl⟩ := Exec.map_eq_ok.mp hstep
  obtain ⟨⟨scan₁, p₁⟩, hnotify, heq⟩ := Exec.bind_eq_ok.mp hpacket
  cases heq
  have hleave (q : SentPacket F) : ((scan.note q).leaveFlight q).space.Timed := by
    simp only [AckScan.leaveFlight, AckScan.note, AckScan.spurious]
    split_ifs
    all_goals exact h.leave rfl (by simp)
  -- the controller sees the space and does not change it
  unfold AckScan.notify at hnotify
  split_ifs at hnotify
  · obtain ⟨⟨q, congestion⟩, -, heq⟩ := Exec.bind_eq_ok.mp hnotify
    cases heq
    exact hleave _
  · cases hnotify
    exact hleave _

theorem timed_lossLoop (lossDelay : ℕ) {scan : LossScan F S} (h : scan.space.Timed)
    (sent : List (SentPacket F)) : (lossLoop now lossDelay scan sent).1.space.Timed := by
  induction sent generalizing scan with
  | nil => exact h
  | cons p sent ih =>
    simp only [lossLoop]
    split_ifs
    · exact h
    · exact ih h
    · refine ih ?_
      simp only [LossScan.lose]
      split_ifs
      all_goals exact h.leave rfl (by simp)
    · exact ih h

theorem timed_detectLostPackets (cc : CongestionController F S) (r : Recovery S)
    (h : space.Timed) (now : ℤ) (rtt : ℕ) :
    (drainSentPackets (r.detectLostPackets cc space now).2.1 now rtt).Timed := by
  have hcleared : ({ space with lossTime := none } : PacketNumSpace F).Timed := h
  exact timed_lossLoop r.lossDelay hcleared space.sent

/-! ## Runs -/

def AllTimed (spaces : PacketNumSpaceMap F) : Prop :=
  ∀ key space, spaces.get? key = some space → space.Timed

theorem AllTimed.set (h : AllTimed spaces) (hspace : space.Timed) (id : SpaceId) :
    AllTimed (spaces.set id space) := by
  intro key found hfound
  rcases Flights.get?_set hfound with rfl | hold
  · exact hspace
  · exact h key found hold

theorem AllTimed.onPacketSent (h : AllTimed spaces) (cc : CongestionController F S)
    (r : Recovery S) (p : SentPacket F) (spaceId : SpaceId) (status : HandshakeStatus) (now : ℤ) :
    AllTimed (r.onPacketSent cc p spaceId spaces status now).2 := by
  simp only [Recovery.onPacketSent]
  split
  · exact h
  · next space hget =>
      have hspace : space.Timed := h _ _ hget
      have hset (q : SentPacket F) : AllTimed (spaces.set spaceId (recordSent space q now)) := by
        refine h.set ?_ spaceId
        unfold recordSent
        cases q.inFlight with
        | false => exact hspace
        | true =>
          cases q.ackEliciting with
          | false => exact hspace
          | true => exact fun _ => rfl
      split_ifs
      all_goals exact hset _

theorem AllTimed.onAckReceived (h : AllTimed spaces) {ranges : RangeSet} {delay : ℕ}
    {s : Sender F S} {lost : Result (ℕ × ℕ)}
    (hack : r.onAckReceived cc ranges delay spaceId spaces status now = .ok (s, lost)) :
    AllTimed s.2 := by
  cases hget : spaces.get spaceId with
  | none =>
    simp only [Recovery.onAckReceived, hget] at hack
    cases hack
    exact h
  | some space =>
    simp only [Recovery.onAckReceived, hget] at hack
    obtain ⟨largest, -, hack⟩ := Exec.bind_eq_ok.mp hack
    obtain ⟨⟨scan, sample⟩, hdetect, hack⟩ := Exec.bind_eq_ok.mp hack
    obtain ⟨⟨scan₁, sent⟩, hranges, heq⟩ := Exec.bind_eq_ok.mp hdetect
    cases heq
    have hscan : ({ scan₁.space with sent := sent } : PacketNumSpace F).Timed := by
      have hfold := congrArg (Prod.fst <$> ·) hranges
      rw [ackRanges_eq] at hfold
      have hspace : space.Timed := h _ _ hget
      exact Exec.foldlM_keeps (fun s => s.space.Timed) (fun _ _ _ => timed_ackStep) hspace hfold
    split_ifs at hack
    · cases hack
      exact h.set hscan spaceId
    · have hlost (r : Recovery S) := timed_detectLostPackets cc r hscan now
      simp only [finishAck] at hack
      split_ifs at hack
      · obtain ⟨congestion, -, heq⟩ := Exec.bind_eq_ok.mp hack
        cases heq
        exact h.set (hlost _ _) spaceId
      · cases hack
        exact h.set (hlost _ _) spaceId

theorem AllTimed.onLossDetectionTimeout (h : AllTimed spaces) (cc : CongestionController F S)
    (r : Recovery S) (spaceId : SpaceId) (status : HandshakeStatus) (now : ℤ) :
    AllTimed (r.onLossDetectionTimeout cc spaceId spaces status now).1.2 := by
  have hprobe : AllTimed (r.onProbeTimeout spaceId spaces status now).2 := by
    simp only [onProbeTimeout]
    split
    · exact h
    · next space hget =>
        have hspace : space.Timed := h _ _ hget
        exact h.set (by exact hspace) _
  simp only [Recovery.onLossDetectionTimeout]
  split
  · exact h
  · next hget =>
      split_ifs
      · exact h.set (timed_detectLostPackets cc r (h _ _ hget) now _) _
      · exact hprobe

end Recovery

open Recovery

theorem Flights.allTimed_step {cc : CongestionController F S} {w w' : Flights F S} {op : Op F}
    {u : Unit} (h : AllTimed w.spaces) (hstep : w.step cc op = .ok (w', u)) :
    AllTimed w'.spaces := by
  have hempty (space : PacketNumSpace F) (hzero : space.ackElicitingInFlight = 0) : space.Timed :=
    fun hflight => absurd hzero hflight
  cases op with
  | send path p spaceId status now =>
    cases hstep
    exact h.onPacketSent cc _ _ spaceId status now
  | ack =>
    obtain ⟨⟨s, lost⟩, hack, heq⟩ := Exec.bind_eq_ok.mp hstep
    cases heq
    exact h.onAckReceived hack
  | timeout path spaceId status now =>
    cases hstep
    exact h.onLossDetectionTimeout cc _ spaceId status now
  | discard =>
    cases hstep
    simp only [put, onPktNumSpaceDiscarded]
    split
    · exact h
    · exact h.set (hempty _ rfl) _
  | addSpace =>
    cases hstep
    intro key space hspace
    rcases SortedMap.get?_insert_eq_some.mp hspace with ⟨-, rfl⟩ | ⟨hin, -⟩
    · exact hempty _ rfl
    · exact h key space hin

/-! ## The timer -/

/-- A packet is in flight in a space that may be probed. -/
def Recovery.Probeable (spaces : PacketNumSpaceMap F) (status : HandshakeStatus) (sid : SpaceId) :
    Prop :=
  ∃ space, spaces.get sid = some space ∧ space.ackElicitingInFlight ≠ 0 ∧
    (sid = .data → status.completed = true)

/-- A packet of the space is to be declared lost at a known time. -/
def Recovery.Expiring (spaces : PacketNumSpaceMap F) (sid : SpaceId) : Prop :=
  ∃ space, spaces.get sid = some space ∧ space.lossTime.isSome = true

theorem Recovery.getLossTimeAndSpace_isSome {spaceId : SpaceId} {spaces : PacketNumSpaceMap F} :
    (getLossTimeAndSpace spaceId spaces).1.isSome = true ↔
      ∃ sid ∈ candidates spaceId, Expiring spaces sid := by
  rw [getLossTimeAndSpace]
  generalize candidates spaceId = sids
  generalize hbest : ((none, .initial) : Option ℤ × SpaceId) = best
  have hnone : (∃ sid ∈ sids, Expiring spaces sid) ↔
      best.1.isSome = true ∨ ∃ sid ∈ sids, Expiring spaces sid := by
    simp [← hbest]
  rw [hnone]
  clear hnone hbest
  induction sids generalizing best with
  | nil => simp
  | cons sid sids ih =>
    rw [List.foldl_cons, List.exists_mem_cons_iff, ← or_assoc]
    refine (ih _).trans (or_congr_left ?_)
    cases hget : spaces.get sid with
    | none => simp [Expiring, hget]
    | some space =>
      cases hbest : best.1 <;> cases hloss : space.lossTime <;>
        simp [Expiring, hget, hbest, hloss, apply_ite Prod.fst, apply_ite Option.isSome]

theorem Recovery.ptoOver_isSome {r : Recovery S} {spaces : PacketNumSpaceMap F}
    (htimed : AllTimed spaces) {status : HandshakeStatus} {sids : List SpaceId}
    (hlast : sids.Pairwise fun sid _ => sid ≠ .data) {best : Option ℤ × SpaceId} (duration : ℕ) :
    (r.ptoOver spaces status sids duration best).1.isSome = true ↔
      best.1.isSome = true ∨ ∃ sid ∈ sids, Probeable spaces status sid := by
  induction sids generalizing best duration with
  | nil => simp [ptoOver]
  | cons sid sids ih =>
    obtain ⟨hfirst, hlast⟩ := List.pairwise_cons.mp hlast
    -- a space that is skipped is not one that may be probed
    have hskip (hnot : ¬Probeable spaces status sid) :
        (∃ s ∈ sid :: sids, Probeable spaces status s) ↔ ∃ s ∈ sids, Probeable spaces status s := by
      rw [List.exists_mem_cons_iff, or_iff_right hnot]
    unfold ptoOver
    cases hget : spaces.get sid with
    | none => rw [ih hlast, hskip (by simp [Probeable, hget])]
    | some space =>
      dsimp only
      generalize (if sid = .data then r.ptoWithAckDelay duration else duration) = d
      split_ifs with hnone hearly hbest
      · rw [ih hlast, hskip (by simp [Probeable, hget, hnone])]
      · simp only [Bool.and_eq_true, decide_eq_true_iff, Bool.not_eq_true'] at hearly
        rw [hskip (by simp [Probeable, hearly]), or_iff_left]
        exact fun ⟨sid', hmem, _⟩ => hfirst sid' hmem hearly.1
      · have hprobe : Probeable spaces status sid :=
          ⟨space, hget, hnone, fun hdata => by simpa [hdata] using hearly⟩
        refine iff_of_true ((ih hlast d).mpr (.inl ?_)) (.inr ⟨sid, List.mem_cons_self, hprobe⟩)
        rw [Option.isSome_map]
        exact htimed _ _ hget hnone
      · rw [Bool.or_eq_true, not_or, Bool.not_eq_true, Option.isNone_eq_false_iff] at hbest
        exact iff_of_true ((ih hlast d).mpr (.inl hbest.1)) (.inl hbest.1)

namespace Flights

/-- The client may rely on a probe: nothing ack-eliciting is in flight on the path, or something is
in a space that may be probed. -/
def Relies (w : Flights F S) (path : ℕ) (spaceId : SpaceId) (status : HandshakeStatus) : Prop :=
  (w.paths path).ackElicitingInFlight = 0 ∨
    ∃ sid ∈ candidates spaceId, Probeable w.spaces status sid

/-- In every state of a client whose address the server is not known to have verified,
`set_loss_detection_timer` arms the timer of a path exactly where a loss time is pending or the
client may rely on a probe. -/
theorem timer_armed {cc : CongestionController F S} {conf : RecoveryConfig} {mulTimeThresh : ℕ → ℕ}
    {congestion : S} {w : Flights F S}
    (h : Exec.Reaches (step cc) (fun _ _ ↦ True) (start conf mulTimeThresh congestion) w)
    {path : ℕ} {spaceId : SpaceId} {status : HandshakeStatus} (hclient : status.isServer = false)
    (hunverified : status.peerVerifiedAddress = false) (now : ℤ) :
    ((w.paths path).setLossDetectionTimer spaceId w.spaces status now).lossDetectionTimer.isSome =
        true ↔
      (∃ sid ∈ candidates spaceId, Expiring w.spaces sid) ∨ w.Relies path spaceId status := by
  have htimed : AllTimed w.spaces := by
    refine h.invariant (fun w => AllTimed w.spaces) (fun _ _ _ _ hw _ => allTimed_step hw) ?_
    intro key space hspace
    have hmem : (key, space) ∈ (.new : PacketNumSpaceMap F).entries :=
      SortedMap.get?_eq_some_iff.mp hspace
    simp only [entries_new, List.mem_cons, List.not_mem_nil, or_false] at hmem
    rcases hmem with ⟨-, rfl⟩ | ⟨-, rfl⟩ | ⟨-, rfl⟩ <;> exact fun hflight => absurd rfl hflight
  rw [← getLossTimeAndSpace_isSome]
  simp only [setLossDetectionTimer, hclient, hunverified, Bool.false_and, Bool.and_false,
    Bool.false_eq_true, if_false, getPtoTimeAndSpace, Relies]
  split_ifs with hloss hidle
  · exact iff_of_true hloss (.inl hloss)
  · exact iff_of_true rfl (.inr (.inl hidle))
  · exact iff_of_true rfl (.inr (.inl hidle))
  · dsimp only
    rw [ptoOver_isSome htimed (by simp [candidates]), or_iff_right hloss, or_iff_right hidle]
    simp

def resuming : HandshakeStatus where
  derivedHandshakeKeys := false
  peerVerifiedAddress := false
  completed := false
  isServer := false
  atAmplificationLimit := false

/-- A client sends its Initial packet and a 0-RTT packet, and the first is acknowledged. -/
def earlyData : List (Op Unit) :=
  [.send 0 (ping 0) .initial resuming 0, .send 0 (ping 0) .data resuming 0,
    .ack 0 (only 0) only_zero_nonempty 0 .initial resuming 10000000]

def resumed (n : ℕ) : Flights Unit (Bbr Unit) :=
  Exec.follow (step (Bbr.controller noModel)) (fun _ _ => True) lan (earlyData.take n)

theorem timer_armed_initial : (resumed 2).Relies 0 .initial resuming ∧
    (((resumed 2).paths 0).setLossDetectionTimer .initial (resumed 2).spaces resuming
      5).lossDetectionTimer.isSome = true := by
  have hrelies : (resumed 2).Relies 0 .initial resuming := .inr ⟨.initial, by decide, _,
    Option.eq_some_of_isSome (by decide +kernel), by decide +kernel, nofun⟩
  exact ⟨hrelies, (timer_armed (Exec.reaches_follow lan _) rfl rfl 5).mpr (.inr hrelies)⟩

/-- Only the 0-RTT packet is in flight. -/
theorem timer_disarmed :
    ∃ w, Exec.Reaches (step (Bbr.controller noModel)) (fun _ _ ↦ True) lan w ∧
      ((w.paths 0).setLossDetectionTimer .initial w.spaces resuming 10000000).lossDetectionTimer =
        none :=
  ⟨resumed 3, Exec.reaches_follow lan _, by decide +kernel⟩

end Flights

end Tquic
