import Tquic.Connection.AckDivision

/-!
# Packets in flight

Every path and every packet number space count the bytes and the ack-eliciting packets in flight.
The counters, kept as pairs, are compared with the queues: a packet counts as long as it is neither
acknowledged nor declared lost.
-/

namespace Tquic

open SortedMap SentPacket Recovery Exec Function AckScan

variable {F S : Type} {p : SentPacket F}

/-! ## What a queue carries -/

def SentPacket.live (p : SentPacket F) : Bool :=
  p.inFlight && p.timeAcked.isNone && p.timeLost.isNone

def SentPacket.weight (p : SentPacket F) : ℕ × ℕ := (p.sentSize, p.ackEliciting.toNat)

def carried (sent : List (SentPacket F)) : ℕ × ℕ :=
  ((sent.filter (·.live)).map (·.weight)).sum

def Recovery.inFlight (r : Recovery S) : ℕ × ℕ := (r.bytesInFlight, r.ackElicitingInFlight)

def PacketNumSpace.inFlight (space : PacketNumSpace F) : ℕ × ℕ :=
  (space.bytesInFlight, space.ackElicitingInFlight)

def SentPacket.load (p : SentPacket F) : ℕ × ℕ := if p.live then p.weight else 0

def SentPacket.burden (p : SentPacket F) : ℕ × ℕ := if p.inFlight then p.weight else 0

@[simp] theorem carried_nil : carried ([] : List (SentPacket F)) = 0 := rfl

theorem carried_cons (p : SentPacket F) (sent : List (SentPacket F)) :
    carried (p :: sent) = p.load + carried sent := by
  cases hlive : p.live <;> simp [carried, load, hlive]

theorem carried_append (sent sent' : List (SentPacket F)) :
    carried (sent ++ sent') = carried sent + carried sent' := by
  simp [carried]

theorem SentPacket.load_eq_zero (h : p.live = false) : p.load = 0 := by
  rw [load, h]
  rfl

theorem carried_eq_zero {sent : List (SentPacket F)} (h : ∀ p ∈ sent, p.live = false) :
    carried sent = 0 := by
  induction sent with
  | nil => rfl
  | cons p sent ih =>
    obtain ⟨hp, hsent⟩ := List.forall_mem_cons.mp h
    rw [carried_cons, load_eq_zero hp, ih hsent, add_zero]

/-- A packet in flight that is neither acknowledged nor lost still counts. -/
theorem SentPacket.load_eq_burden
    (h : p.inFlight = true → p.timeAcked = none ∧ p.timeLost = none) : p.load = p.burden := by
  cases hflight : p.inFlight with
  | false => simp [load, burden, live, hflight]
  | true =>
    obtain ⟨hacked, hlost⟩ := h hflight
    simp [load, burden, live, hflight, hacked, hlost]

namespace Recovery

/-- The counters of the detector and of the space are what the queue carries, and
what else they count. -/
structure Counts (path rest : ℕ × ℕ) (r : Recovery S) (space : PacketNumSpace F)
    (sent : List (SentPacket F)) : Prop where
  path : r.inFlight = path + carried sent
  space : space.inFlight = rest + carried sent

section Counts

variable {path rest : ℕ × ℕ} {r r' : Recovery S} {space space' : PacketNumSpace F}
  {sent : List (SentPacket F)} {p : SentPacket F}

theorem counts_cons :
    Counts path rest r space (p :: sent) ↔ Counts (path + p.load) (rest + p.load) r space sent := by
  constructor
  · rintro ⟨hpath, hspace⟩
    rw [carried_cons, ← add_assoc] at hpath hspace
    exact ⟨hpath, hspace⟩
  · rintro ⟨hpath, hspace⟩
    rw [add_assoc, ← carried_cons] at hpath hspace
    exact ⟨hpath, hspace⟩

theorem Counts.congr (h : Counts path rest r space sent) (hr : r'.inFlight = r.inFlight)
    (hspace : space'.inFlight = space.inFlight) : Counts path rest r' space' sent :=
  ⟨hr.trans h.path, hspace.trans h.space⟩

/-- Taking the first packet out of the counters and out of the queue keeps them exact. -/
theorem Counts.leave (h : Counts path rest r space (p :: sent)) (hload : p.load = p.burden)
    (hr : r'.inFlight = r.inFlight - p.burden)
    (hspace : space'.inFlight = space.inFlight - p.burden) : Counts path rest r' space' sent := by
  obtain ⟨hp, hs⟩ := h
  rw [carried_cons, hload, add_left_comm] at hp hs
  constructor
  · rw [hr, hp, add_tsub_cancel_left]
  · rw [hspace, hs, add_tsub_cancel_left]

end Counts

/-! ## Acknowledgements -/

/-- An acknowledged packet leaves the counters of its path and of its space. -/
theorem leaveFlight_inFlight (scan : AckScan F S) (p : SentPacket F) :
    (scan.leaveFlight p).recovery.inFlight = scan.recovery.inFlight - p.burden ∧
      (scan.leaveFlight p).space.inFlight = scan.space.inFlight - p.burden := by
  cases hflight : p.inFlight with
  | false => simp [leaveFlight, burden, hflight]
  | true =>
    cases heliciting : p.ackEliciting <;>
      simp [leaveFlight, burden, weight, inFlight, PacketNumSpace.inFlight, hflight, heliciting]

theorem note_inFlight (scan : AckScan F S) (p : SentPacket F) :
    (scan.note p).recovery.inFlight = scan.recovery.inFlight ∧
      (scan.note p).space = scan.space := by
  rw [note, spurious]
  split_ifs <;> exact ⟨rfl, rfl⟩

end Recovery

/-- A controller writes nothing into a packet but the state of its rate sample. -/
structure CongestionController.SamplesOnly (cc : CongestionController F S) : Prop where
  onSent : ∀ now p bytesInFlight s, ∃ state,
    (cc.onSent now p bytesInFlight s).1 = { p with rateSampleState := state }
  onAck : ∀ p now appLimited rtt bytesInFlight s q s',
    cc.onAck p now appLimited rtt bytesInFlight s = .ok (q, s') →
      ∃ state, q = { p with rateSampleState := state }

theorem Bbr.samplesOnly {R : Type} (m : RateModel F R) :
    (Bbr.controller m : CongestionController F (Bbr R)).SamplesOnly where
  onSent _ _ _ _ := ⟨_, rfl⟩
  onAck p _ _ _ _ b q s' h := by
    have hq : (b.deliveryRateEstimator.updateRateSample p).1 = q :=
      (Prod.mk.inj (ok.inj h)).1
    rw [← hq, DeliveryRateEstimator.updateRateSample]
    split
    · exact ⟨_, rfl⟩
    · exact ⟨p.rateSampleState, rfl⟩

variable {delay : ℕ} {ranges : RangeSet}

namespace Recovery

section Controller

variable {cc : CongestionController F S} (hcc : cc.SamplesOnly) {now : ℤ}
include hcc

variable {scan scan' : AckScan F S}

variable {p' : SentPacket F}

theorem notify_inFlight (h : scan.notify cc p now = .ok (scan', p')) :
    scan'.recovery.inFlight = scan.recovery.inFlight ∧ scan'.space = scan.space ∧
      p'.timeAcked = p.timeAcked := by
  rw [notify] at h
  split_ifs at h
  · obtain ⟨⟨q, s⟩, hack, heq⟩ := bind_eq_ok.mp h
    obtain ⟨state, rfl⟩ := hcc.onAck _ _ _ _ _ _ _ _ hack
    cases heq
    exact ⟨rfl, rfl, rfl⟩
  · cases h
    exact ⟨rfl, rfl, rfl⟩

/-- What one acknowledged packet does to the counters, samples aside. -/
theorem ackPacket_inFlight (h : ackPacket cc now scan p = .ok (scan', p')) :
    scan'.recovery.inFlight = scan.recovery.inFlight - p.burden ∧
      scan'.space.inFlight = scan.space.inFlight - p.burden ∧ p'.live = false := by
  obtain ⟨⟨scan₁, p₁⟩, hnotify, heq⟩ := bind_eq_ok.mp h
  obtain ⟨hpath, hspace, hacked⟩ := notify_inFlight hcc hnotify
  obtain ⟨hnote, hnoteSpace⟩ := note_inFlight scan { p with timeAcked := some now }
  obtain ⟨hleave, hleaveSpace⟩ := leaveFlight_inFlight
    (scan.note { p with timeAcked := some now }) { p with timeAcked := some now }
  cases heq
  refine ⟨?_, ?_, ?_⟩
  · exact hpath.trans (hleave.trans (by rw [hnote]; rfl))
  · change scan₁.space.inFlight = _
    rw [hspace, hleaveSpace, hnoteSpace]
    rfl
  · simp only [live, hacked, Option.isNone_some, Bool.and_false, Bool.false_and]

variable {path rest : ℕ × ℕ}

/-- The packets that a range acknowledges and that are in flight are not lost. -/
def Unlost (range : ℕ × ℕ) (sent : List (SentPacket F)) : Prop :=
  ∀ p ∈ sent, p.inFlight = true → p.timeAcked = none → range.1 ≤ p.pktNum →
    p.pktNum < range.2 → p.timeLost = none

/-- The scan of one range keeps the counters exact if it meets no packet declared lost. -/
theorem ackRange_counts {range : ℕ × ℕ} {sent passed left : List (SentPacket F)}
    (h : ackRange cc now range scan sent = .ok (scan', passed, left)) (hunlost : Unlost range sent)
    (hcounts : Counts path rest scan.recovery scan.space sent) :
    Counts path rest scan'.recovery scan'.space (passed ++ left) ∧ left ⊆ sent := by
  induction sent generalizing scan passed path rest with
  | nil =>
    cases h
    exact ⟨hcounts, .refl _⟩
  | cons p sent ih =>
    obtain ⟨hp, hsent⟩ := List.forall_mem_cons.mp hunlost
    rw [ackRange] at h
    split_ifs at h with hskip hpast
    · obtain ⟨⟨scan₁, passed₁, left₁⟩, hrest, heq⟩ := bind_eq_ok.mp h
      cases heq
      obtain ⟨hcount, hsub⟩ := ih hrest hsent (counts_cons.mp hcounts)
      exact ⟨counts_cons.mpr hcount, List.subset_cons_of_subset p hsub⟩
    · cases h
      exact ⟨hcounts, .refl _⟩
    · obtain ⟨⟨scan₁, p₁⟩, hack, h⟩ := bind_eq_ok.mp h
      obtain ⟨⟨scan₂, passed₂, left₂⟩, hrest, heq⟩ := bind_eq_ok.mp h
      cases heq
      obtain ⟨hpath, hspace, hlive⟩ := ackPacket_inFlight hcc hack
      simp only [Bool.or_eq_true, decide_eq_true_eq, not_or, not_lt, Bool.not_eq_true,
        Option.isSome_eq_false_iff, Option.isNone_iff_eq_none] at hskip
      have hload : p.load = p.burden := load_eq_burden fun hflight =>
        ⟨hskip.2, hp hflight hskip.2 hskip.1 (not_le.mp hpast)⟩
      obtain ⟨hcount, hsub⟩ := ih hrest hsent (hcounts.leave hload hpath hspace)
      refine ⟨?_, List.subset_cons_of_subset p hsub⟩
      rw [List.cons_append, counts_cons, load_eq_zero hlive, add_zero, add_zero]
      exact hcount

/-- The same for all ranges of an ACK frame, by induction on the ranges. -/
theorem ackRanges_counts {ranges : List (ℕ × ℕ)} {sent sent' : List (SentPacket F)}
    (h : ackRanges cc now ranges scan sent = .ok (scan', sent'))
    (hunlost : ∀ range ∈ ranges, Unlost range sent)
    (hcounts : Counts path rest scan.recovery scan.space sent) :
    Counts path rest scan'.recovery scan'.space sent' := by
  induction ranges generalizing scan sent sent' path rest with
  | nil =>
    cases h
    exact hcounts
  | cons range ranges ih =>
    obtain ⟨⟨scan₁, passed, left⟩, hrange, h⟩ := bind_eq_ok.mp h
    obtain ⟨⟨scan₂, left₂⟩, hranges, heq⟩ := bind_eq_ok.mp h
    cases heq
    obtain ⟨hfirst, hothers⟩ := List.forall_mem_cons.mp hunlost
    obtain ⟨⟨hpath, hspace⟩, hsub⟩ := ackRange_counts hcc hrange hfirst hcounts
    rw [carried_append, ← add_assoc] at hpath hspace
    obtain ⟨hpath', hspace'⟩ := ih hranges
      (fun range hmem p hp => hothers range hmem p (hsub hp)) ⟨hpath, hspace⟩
    rw [add_assoc, ← carried_append] at hpath' hspace'
    exact ⟨hpath', hspace'⟩

end Controller

/-! ## Losses -/

theorem lose_inFlight (scan : LossScan F S) (p : SentPacket F) (now : ℤ) :
    (scan.lose p now).1.recovery.inFlight = scan.recovery.inFlight - p.burden ∧
      (scan.lose p now).1.space.inFlight = scan.space.inFlight - p.burden ∧
      (scan.lose p now).2.live = false := by
  have hlive : (scan.lose p now).2.live = false := by simp [LossScan.lose, live]
  refine ⟨?_, ?_, hlive⟩
  all_goals
    simp only [LossScan.lose, burden, weight]
    cases p.inFlight <;> cases p.ackEliciting <;> cases p.pmtuProbe <;> rfl

section Losses

variable {path rest : ℕ × ℕ}

/-- The loss scan keeps the counters exact: what it declares lost leaves both. -/
theorem lossLoop_counts (now : ℤ) (lossDelay : ℕ) {scan : LossScan F S}
    {sent : List (SentPacket F)} (hcounts : Counts path rest scan.recovery scan.space sent) :
    Counts path rest (lossLoop now lossDelay scan sent).1.recovery
        (lossLoop now lossDelay scan sent).1.space (lossLoop now lossDelay scan sent).2 ∧
      carried (lossLoop now lossDelay scan sent).2 ≤ carried sent := by
  induction sent generalizing scan path rest with
  | nil => exact ⟨hcounts, le_rfl⟩
  | cons p sent ih =>
    rw [lossLoop, carried_cons]
    split_ifs with hpast hdone hlost
    · exact ⟨hcounts, (carried_cons p sent).le⟩
    · obtain ⟨hcount, hle⟩ := ih (counts_cons.mp hcounts)
      rw [carried_cons]
      exact ⟨counts_cons.mpr hcount, add_le_add_right hle _⟩
    · obtain ⟨hpath, hspace, hlive⟩ := lose_inFlight scan p now
      rw [Bool.or_eq_true, not_or, Option.not_isSome_iff_eq_none,
        Option.not_isSome_iff_eq_none] at hdone
      obtain ⟨hcount, hle⟩ :=
        ih (hcounts.leave (load_eq_burden fun _ => hdone) hpath hspace)
      rw [counts_cons, carried_cons, load_eq_zero hlive]
      simp only [add_zero, zero_add]
      exact ⟨hcount, hle.trans le_add_self⟩
    · have hawait : Counts (path + p.load) (rest + p.load) (scan.await p lossDelay).recovery
          (scan.await p lossDelay).space sent := (counts_cons.mp hcounts).congr rfl rfl
      obtain ⟨hcount, hle⟩ := ih hawait
      rw [carried_cons]
      exact ⟨counts_cons.mpr hcount, add_le_add_right hle _⟩

variable (cc : CongestionController F S)

/-- One call of `detect_lost_packets` keeps the counters exact. -/
theorem detectLostPackets_counts {r : Recovery S} {space : PacketNumSpace F}
    (hcounts : Counts path rest r space space.sent) (now : ℤ) :
    Counts path rest (r.detectLostPackets cc space now).1 (r.detectLostPackets cc space now).2.1
        (r.detectLostPackets cc space now).2.1.sent ∧
      carried (r.detectLostPackets cc space now).2.1.sent ≤ carried space.sent := by
  have hstart : Counts path rest r { space with lossTime := none } space.sent :=
    hcounts.congr rfl rfl
  obtain ⟨hcount, hle⟩ := @lossLoop_counts _ _ path rest now r.lossDelay
    { recovery := r, space := { space with lossTime := none } } space.sent hstart
  exact ⟨hcount.congr rfl rfl, hle⟩

@[simp] theorem carried_drainSentPackets (space : PacketNumSpace F) (now : ℤ) (rtt : ℕ) :
    carried (drainSentPackets space now rtt).sent = carried space.sent := by
  rw [drainSentPackets]
  induction space.sent with
  | nil => rfl
  | cons p sent ih =>
    rw [List.dropWhile_cons]
    split_ifs with hdrop
    · have hlive : p.live = false := by
        simp only [Bool.and_eq_true, Bool.or_eq_true] at hdrop
        rcases hdrop.1 with h | h
        · simp [live, ← Option.not_isSome, h]
        · simp [live, ← Option.not_isSome, h]
      rw [carried_cons, load_eq_zero hlive, zero_add]
      exact ih
    · rfl

end Losses

/-! ## Sending and discarding -/

@[simp] theorem setLossDetectionTimer_inFlight (r : Recovery S) (spaceId : SpaceId)
    (spaces : PacketNumSpaceMap F) (status : HandshakeStatus) (now : ℤ) :
    (r.setLossDetectionTimer spaceId spaces status now).inFlight = r.inFlight := by
  simp only [setLossDetectionTimer]
  split_ifs <;> rfl

@[simp] theorem updateRtt_inFlight (r : Recovery S) (sample : Option ℕ) (delay : ℕ)
    (status : HandshakeStatus) : (r.updateRtt sample delay status).inFlight = r.inFlight := by
  rw [updateRtt.eq_def]
  split
  · rfl
  · split_ifs <;> rfl

theorem recordSent_inFlight (space : PacketNumSpace F) (p : SentPacket F) (now : ℤ) :
    (recordSent space p now).inFlight = space.inFlight + p.burden ∧
      (recordSent space p now).sent = space.sent ++ [p] := by
  simp only [recordSent, burden, weight]
  cases p.inFlight <;> cases p.ackEliciting <;> exact ⟨rfl, rfl⟩

theorem removeFromBytesInFlight_inFlight (r : Recovery S) (space : PacketNumSpace F) :
    (r.removeFromBytesInFlight space).inFlight = r.inFlight - carried space.sent := by
  rw [removeFromBytesInFlight]
  induction space.sent generalizing r with
  | nil => exact (tsub_zero r.inFlight).symm
  | cons p sent ih =>
    rw [List.foldl_cons, ih, carried_cons, ← tsub_tsub]
    congr 1
    obtain ⟨_, _, _, timeAcked, timeLost, ackEliciting, flight, _, _, _, _⟩ := p
    cases flight <;> cases timeAcked <;> cases timeLost <;> cases ackEliciting <;> rfl

/-- A function of the detector works on `space`: both counters follow the queue, whatever other
spaces are counted. -/
def Follows (r r' : Recovery S) (space space' : PacketNumSpace F) : Prop :=
  ∀ other, Counts other 0 r space space.sent → Counts other 0 r' space' space'.sent

theorem follows_recordSent {r r' : Recovery S} (space : PacketNumSpace F)
    {now : ℤ} (hload : p.load = p.burden) (hr : r'.inFlight = r.inFlight + p.burden) :
    Follows r r' space (recordSent space p now) := by
  obtain ⟨hrecord, hsent⟩ := recordSent_inFlight space p now
  have hcarried : carried (recordSent space p now).sent = carried space.sent + p.burden := by
    rw [hsent, carried_append, carried_cons, carried_nil, add_zero, hload]
  rintro other ⟨hpath, hcount⟩
  constructor
  · rw [hr, hpath, hcarried, add_assoc]
  · rw [hrecord, hcount, hcarried, add_assoc]

theorem follows_detectLostPackets (cc : CongestionController F S) (r : Recovery S)
    (space : PacketNumSpace F) (now : ℤ) (rtt : ℕ) :
    Follows r (r.detectLostPackets cc space now).1 space
      (drainSentPackets (r.detectLostPackets cc space now).2.1 now rtt) := by
  intro other hcounts
  obtain ⟨⟨hpath, hcount⟩, -⟩ := detectLostPackets_counts cc hcounts now
  constructor
  · rw [carried_drainSentPackets]
    exact hpath
  · rw [carried_drainSentPackets]
    exact hcount

variable {r₁ r₂ r₃ : Recovery S} {space₁ space₂ : PacketNumSpace F}

/-- Two steps that keep the counters exact keep them exact together. -/
theorem Follows.trans {space₃ : PacketNumSpace F}
    (h : Follows r₁ r₂ space₁ space₂) (h' : Follows r₂ r₃ space₂ space₃) :
    Follows r₁ r₃ space₁ space₃ :=
  fun other hcounts => h' other (h other hcounts)

theorem Follows.congr
    (h : Follows r₁ r₂ space₁ space₂) (hr : r₃.inFlight = r₂.inFlight) :
    Follows r₁ r₃ space₁ space₂ :=
  fun other hcounts => (h other hcounts).congr hr rfl

variable {lost : Result (ℕ × ℕ)}

variable {s : Sender F S}

theorem follows_finishAck {cc : CongestionController F S} {scan : AckScan F S} {sample : Option ℕ}
    {spaceId : SpaceId} {spaces : PacketNumSpaceMap F} {status : HandshakeStatus}
    {now : ℤ}
    (h : finishAck cc scan sample delay spaceId spaces status now = .ok (s, lost)) :
    ∃ space', s.2 = spaces.set spaceId space' ∧ Follows scan.recovery s.1 scan.space space' := by
  have hstart : Follows scan.recovery (scan.recovery.updateRtt sample delay status) scan.space
      scan.space := fun other hcounts => hcounts.congr (updateRtt_inFlight _ _ _ _) rfl
  have hlosses (rtt : ℕ) := hstart.trans (follows_detectLostPackets cc _ scan.space now rtt)
  simp only [finishAck] at h
  split_ifs at h
  · obtain ⟨congestion, -, heq⟩ := bind_eq_ok.mp h
    cases heq
    exact ⟨_, rfl, (hlosses _).congr (setLossDetectionTimer_inFlight _ _ _ _ _)⟩
  · cases h
    exact ⟨_, rfl, (hlosses _).congr (setLossDetectionTimer_inFlight _ _ _ _ _)⟩

theorem sampled_onSent {cc : CongestionController F S} (hcc : cc.SamplesOnly) (r : Recovery S)
    (p : SentPacket F) (spaceId : SpaceId) (now : ℤ) :
    ∃ q congestion, (if p.inFlight && spaceId.isData then
        cc.onSent now { p with timeSent := now } r.bytesInFlight r.congestion
      else ({ p with timeSent := now }, r.congestion)) = (q, congestion) ∧
      ∃ state, q = { p with timeSent := now, rateSampleState := state } := by
  split_ifs
  · exact ⟨_, _, rfl, hcc.onSent now { p with timeSent := now } r.bytesInFlight r.congestion⟩
  · exact ⟨_, _, rfl, p.rateSampleState, rfl⟩

section Events

variable {cc : CongestionController F S} {r : Recovery S} {spaceId : SpaceId}
  {spaces : PacketNumSpaceMap F} {space : PacketNumSpace F}
  (hspace : spaces.get spaceId = some space) (status : HandshakeStatus) (now : ℤ)
include hspace

/-- Sending adds the packet to the counters and to the queue alike. -/
theorem onPacketSent_follows (hcc : cc.SamplesOnly) (hacked : p.timeAcked = none)
    (hlost : p.timeLost = none) :
    ∃ r' space', r.onPacketSent cc p spaceId spaces status now = (r', spaces.set spaceId space') ∧
      Follows r r' space space' := by
  obtain ⟨p₁, c, hp₁, state, hstate⟩ := sampled_onSent hcc r p spaceId now
  have hload : p₁.load = p₁.burden := by
    subst hstate
    exact load_eq_burden fun _ => ⟨hacked, hlost⟩
  simp only [onPacketSent, hspace, hp₁]
  cases hflight : p₁.inFlight with
  | false =>
    refine ⟨_, _, rfl, follows_recordSent space hload ?_⟩
    simp [burden, hflight, inFlight]
  | true =>
    refine ⟨_, _, rfl, follows_recordSent space hload ?_⟩
    rw [setLossDetectionTimer_inFlight]
    cases heliciting : p₁.ackEliciting <;>
      simp [burden, weight, hflight, heliciting, inFlight]

/-- An ACK frame keeps the counters exact unless it acknowledges a packet declared lost. -/
theorem follows_onAckReceived (hcc : cc.SamplesOnly)
    (hunlost : ∀ p ∈ space.sent, p.inFlight = true → p.timeLost.isSome = true →
      p.timeAcked = none → p.pktNum ∉ ranges)
    (h : r.onAckReceived cc ranges delay spaceId spaces status now = .ok (s, lost)) :
    ∃ space', s.2 = spaces.set spaceId space' ∧ Follows r s.1 space space' := by
  simp only [onAckReceived, hspace] at h
  obtain ⟨largest, -, h⟩ := bind_eq_ok.mp h
  obtain ⟨⟨scan, sample⟩, hdetect, h⟩ := bind_eq_ok.mp h
  obtain ⟨⟨scan₁, sent⟩, hranges, heq⟩ := bind_eq_ok.mp hdetect
  cases heq
  have hscan : Follows r scan₁.recovery space { scan₁.space with sent := sent } := by
    intro other hcounts
    have hin : ∀ range ∈ ranges.iter, Unlost range space.sent := by
      intro range hrange p hp hflight hacked hstart hend
      by_contra hlost
      exact hunlost p hp hflight (Option.isSome_iff_ne_none.mpr hlost) hacked
        ⟨range, hrange, hstart, hend⟩
    refine (ackRanges_counts hcc hranges hin ?_).congr rfl rfl
    refine hcounts.congr ?_ rfl
    split_ifs <;> rfl
  split_ifs at h
  · cases h
    exact ⟨_, rfl, hscan⟩
  · obtain ⟨space', hset, hfollows⟩ := follows_finishAck h
    exact ⟨space', hset, hscan.trans hfollows⟩

/-- A discarded space takes all its packets out of the counters. -/
theorem follows_onPktNumSpaceDiscarded :
    ∃ r' space', r.onPktNumSpaceDiscarded spaceId spaces status now =
        (r', spaces.set spaceId space') ∧ Follows r r' space space' := by
  simp only [onPktNumSpaceDiscarded, hspace]
  refine ⟨_, _, rfl, ?_⟩
  rintro other ⟨hpath, -⟩
  refine ⟨?_, rfl⟩
  rw [setLossDetectionTimer_inFlight, removeFromBytesInFlight_inFlight, hpath, carried_nil,
    add_zero, add_tsub_cancel_right]

end Events

end Recovery

/-! ## All paths and spaces of a connection -/

/-- The loss detectors of the paths, in order of creation, and the spaces that they share. -/
structure Flights (F S : Type) where
  paths : ℕ → Recovery S
  spaces : PacketNumSpaceMap F
  nextDataExtId : ℕ

namespace Flights

variable {path : ℕ} {id spaceId : SpaceId}

inductive Op (F : Type) where
  | send (path : ℕ) (p : SentPacket F) (spaceId : SpaceId) (status : HandshakeStatus) (now : ℤ)
  | ack (path : ℕ) (ranges : RangeSet) (nonempty : ∃ x, x ∈ ranges) (delay : ℕ)
      (spaceId : SpaceId) (status : HandshakeStatus) (now : ℤ)
  | timeout (path : ℕ) (spaceId : SpaceId) (status : HandshakeStatus) (now : ℤ)
  | discard (path : ℕ) (spaceId : SpaceId) (status : HandshakeStatus) (now : ℤ)
  | addSpace

def start (conf : RecoveryConfig) (mulTimeThresh : ℕ → ℕ) (congestion : S) : Flights F S where
  paths _ := Recovery.new conf mulTimeThresh congestion
  spaces := PacketNumSpaceMap.new
  nextDataExtId := 3

def put (w : Flights F S) (path : ℕ) (s : Recovery.Sender F S) : Flights F S :=
  { w with paths := Function.update w.paths path s.1, spaces := s.2 }

def step (cc : CongestionController F S) (w : Flights F S) : Op F → Exec (Flights F S × Unit)
  | .send path p spaceId status now =>
    -- `send_packet` records a packet that is neither acknowledged nor lost
    .ok (w.put path ((w.paths path).onPacketSent cc { p with timeAcked := none, timeLost := none }
      spaceId w.spaces status now), ())
  | .ack path ranges _ delay spaceId status now => do
      let (s, _) ← (w.paths path).onAckReceived cc ranges delay spaceId w.spaces status now
      return (w.put path s, ())
  | .timeout path spaceId status now =>
    .ok (w.put path ((w.paths path).onLossDetectionTimeout cc spaceId w.spaces status now).1, ())
  | .discard path spaceId status now =>
    .ok (w.put path ((w.paths path).onPktNumSpaceDiscarded spaceId w.spaces status now), ())
  | .addSpace =>
    .ok ({ w with
      spaces := w.spaces.insert w.nextDataExtId { id := .dataExt w.nextDataExtId }
      nextDataExtId := w.nextDataExtId + 1 }, ())

/-- Every space is used by one path: no other path sends, acknowledges or discards in it, and when a
timeout of another path looks at the space, nothing in it is in flight. -/
def OnePath (owner : ℕ → ℕ) (w : Flights F S) : Op F → Prop
  | .send path _ spaceId _ _ => owner spaceId.key = path
  | .ack path _ _ _ spaceId _ _ => owner spaceId.key = path
  | .timeout path spaceId _ _ => ∀ id ∈ Recovery.candidates spaceId, owner id.key = path ∨
      ∀ space ∈ w.spaces.get id, ∀ p ∈ space.sent, p.live = false
  | .discard path spaceId _ _ => owner spaceId.key = path
  | .addSpace => True

def NoneSpurious (w : Flights F S) : Op F → Prop
  | .ack _ ranges _ _ spaceId _ _ => ∀ space ∈ w.spaces.get spaceId, ∀ p ∈ space.sent,
      p.inFlight = true → p.timeLost.isSome = true → p.timeAcked = none → p.pktNum ∉ ranges
  | _ => True

def carriedOn (owner : ℕ → ℕ) (path : ℕ) (spaces : PacketNumSpaceMap F) : ℕ × ℕ :=
  spaces.sum fun e => if owner e.1 = path then carried e.2.sent else 0

structure Counted (owner : ℕ → ℕ) (w : Flights F S) : Prop where
  space : ∀ key space, w.spaces.get? key = some space → space.inFlight = carried space.sent
  path : ∀ path, (w.paths path).inFlight = carriedOn owner path w.spaces
  fresh : ∀ key, w.nextDataExtId ≤ key → w.spaces.get? key = none

variable {owner : ℕ → ℕ} {w : Flights F S} {cc : CongestionController F S} {r : Recovery S}
  {spaces : PacketNumSpaceMap F}

/-- The part of a path splits into that of one space and that of the others. -/
theorem carriedOn_eq (owner : ℕ → ℕ) (path : ℕ)
    {space : PacketNumSpace F} (hspace : spaces.get id = some space) :
    ∃ other, carriedOn owner path spaces =
        (if owner id.key = path then carried space.sent else 0) + other ∧
      ∀ space', carriedOn owner path (spaces.set id space') =
        (if owner id.key = path then carried space'.sent else 0) + other := by
  refine ⟨(spaces.erase id.key).sum fun e => if owner e.1 = path then carried e.2.sent else 0,
    ?_, ?_⟩
  · exact sum_eq_of_get? _ hspace
  · intro space'
    rw [carriedOn, PacketNumSpaceMap.set, modify_const_eq_insert hspace]
    exact sum_insert _ spaces id.key space'

theorem get?_set {space' found : PacketNumSpace F}
    {key : ℕ} (h : SortedMap.get? (spaces.set id space') key = some found) :
    found = space' ∨ spaces.get? key = some found := by
  rw [PacketNumSpaceMap.set, get?_modify, Option.map_eq_some_iff] at h
  obtain ⟨old, hold, heq⟩ := h
  split_ifs at heq
  · exact .inl heq.symm
  · exact .inr (heq ▸ hold)

theorem Counted.replace (h : Counted owner w)
    {space space' : PacketNumSpace F} (hspace : w.spaces.get id = some space)
    (hcount : space'.inFlight = carried space'.sent)
    (hpath : ∀ other, (w.paths path).inFlight =
        (if owner id.key = path then carried space.sent else 0) + other →
      r.inFlight = (if owner id.key = path then carried space'.sent else 0) + other)
    (hothers : owner id.key = path ∨ carried space'.sent = carried space.sent) :
    Counted owner (w.put path (r, w.spaces.set id space')) where
  space key found hfound := by
    rcases get?_set hfound with rfl | hold
    · exact hcount
    · exact h.space key found hold
  path path' := by
    obtain ⟨other, hbefore, hafter⟩ := carriedOn_eq owner path' hspace
    have hcounted := h.path path'
    change (update w.paths path r path').inFlight = carriedOn owner path' (w.spaces.set id space')
    rw [hafter space']
    by_cases hsame : path' = path
    · subst hsame
      rw [update_self]
      exact hpath other (hcounted.trans hbefore)
    · rw [update_of_ne hsame, hcounted, hbefore]
      rcases hothers with howner | hcarried
      · have hne : owner id.key ≠ path' := fun heq => hsame (heq.symm.trans howner)
        rw [if_neg hne, if_neg hne]
      · rw [hcarried]
  fresh key hkey := by
    change get? (w.spaces.set id space') key = none
    rw [PacketNumSpaceMap.set, get?_modify, h.fresh key hkey]
    rfl

/-- A step on a space of the path at hand keeps every counter of the connection. -/
theorem Counted.replace_own (h : Counted owner w)
    {space space' : PacketNumSpace F} (hspace : w.spaces.get id = some space)
    (howner : owner id.key = path)
    (hcounts : ∀ other, Recovery.Counts other 0 (w.paths path) space space.sent →
      Recovery.Counts other 0 r space' space'.sent) :
    Counted owner (w.put path (r, w.spaces.set id space')) := by
  have hcount : space.inFlight = 0 + carried space.sent :=
    (h.space id.key space hspace).trans (zero_add _).symm
  obtain ⟨other, hbefore, -⟩ := carriedOn_eq owner path hspace
  have hstart := h.path path
  rw [hbefore, if_pos howner, add_comm] at hstart
  apply h.replace hspace
  · rw [(hcounts other ⟨hstart, hcount⟩).space, zero_add]
  · intro other' hother'
    rw [if_pos howner, add_comm] at hother' ⊢
    exact (hcounts other' ⟨hother', hcount⟩).path
  · exact .inl howner

theorem Counted.touch (h : Counted owner w)
    {space space' : PacketNumSpace F} (hspace : w.spaces.get id = some space)
    (hcount : space'.inFlight = carried space'.sent)
    (hcarried : carried space'.sent = carried space.sent)
    (hr : r.inFlight = (w.paths path).inFlight) :
    Counted owner (w.put path (r, w.spaces.set id space')) := by
  apply h.replace hspace hcount
  · intro other hother
    rw [hr, hother, hcarried]
  · exact .inr hcarried

theorem Counted.put_path (h : Counted owner w)
    (hr : r.inFlight = (w.paths path).inFlight) : Counted owner (w.put path (r, w.spaces)) where
  space := h.space
  path path' := by
    change (update w.paths path r path').inFlight = _
    by_cases hsame : path' = path
    · subst hsame
      rw [update_self, hr]
      exact h.path path'
    · rw [update_of_ne hsame]
      exact h.path path'
  fresh := h.fresh

/-! ## One event -/

theorem Counted.send (hcc : cc.SamplesOnly) (h : Counted owner w)
    (howner : owner spaceId.key = path)
    (hacked : p.timeAcked = none) (hlost : p.timeLost = none) (status : HandshakeStatus) (now : ℤ) :
    Counted owner (w.put path ((w.paths path).onPacketSent cc p spaceId w.spaces status now)) := by
  cases hspace : w.spaces.get spaceId with
  | none =>
    rw [onPacketSent, hspace]
    exact h.put_path rfl
  | some =>
    obtain ⟨r, space', heq, hfollows⟩ :=
      onPacketSent_follows hspace status now hcc hacked hlost
    rw [heq]
    exact h.replace_own hspace howner hfollows

theorem Counted.ack (hcc : cc.SamplesOnly) (h : Counted owner w)
    (howner : owner spaceId.key = path) {status : HandshakeStatus} {now : ℤ}
    (hunlost : ∀ space ∈ w.spaces.get spaceId, ∀ p ∈ space.sent, p.inFlight = true →
      p.timeLost.isSome = true → p.timeAcked = none → p.pktNum ∉ ranges)
    {s : Recovery.Sender F S} {lost : Result (ℕ × ℕ)}
    (hack : (w.paths path).onAckReceived cc ranges delay spaceId w.spaces status now =
      .ok (s, lost)) : Counted owner (w.put path s) := by
  cases hspace : w.spaces.get spaceId with
  | none =>
    rw [onAckReceived, hspace] at hack
    cases hack
    exact h.put_path rfl
  | some space =>
    obtain ⟨space', hset, hfollows⟩ :=
      follows_onAckReceived hspace status now hcc (hunlost space hspace) hack
    obtain ⟨r, spaces⟩ := s
    obtain rfl : spaces = w.spaces.set spaceId space' := hset
    exact h.replace_own hspace howner hfollows

theorem Counted.discard (h : Counted owner w)
    (howner : owner spaceId.key = path) (status : HandshakeStatus) (now : ℤ) :
    Counted owner
      (w.put path ((w.paths path).onPktNumSpaceDiscarded spaceId w.spaces status now)) := by
  cases hspace : w.spaces.get spaceId with
  | none =>
    rw [onPktNumSpaceDiscarded, hspace]
    exact h.put_path rfl
  | some =>
    obtain ⟨r, space', heq, hfollows⟩ :=
      follows_onPktNumSpaceDiscarded hspace status now
    rw [heq]
    exact h.replace_own hspace howner hfollows

theorem Counted.probeTimeout (h : Counted owner w) (path : ℕ) (spaceId : SpaceId)
    (status : HandshakeStatus) (now : ℤ) :
    Counted owner (w.put path ((w.paths path).onProbeTimeout spaceId w.spaces status now)) := by
  simp only [onProbeTimeout]
  split
  · exact h.put_path rfl
  · next space hspace =>
      apply h.touch hspace
      · exact h.space _ space hspace
      · rfl
      · exact setLossDetectionTimer_inFlight _ _ _ _ _

theorem getLossTimeAndSpace_mem (spaceId : SpaceId) (spaces : PacketNumSpaceMap F) :
    (Recovery.getLossTimeAndSpace spaceId spaces).2 ∈ Recovery.candidates spaceId := by
  -- the fold starts with the first candidate and only moves to others
  apply List.foldlRecOn (motive := fun best : Option ℤ × SpaceId => best.2 ∈ candidates spaceId)
  · exact .head _
  · rintro ⟨time, sid⟩ hsid id hid
    cases hget : spaces.get id with
    | none => simpa only [hget] using hsid
    | some =>
      simp only
      split_ifs
      · exact hid
      · exact hsid

/-- The loss timer touches one candidate space, on its own path or with nothing in flight. -/
theorem Counted.timeout (cc : CongestionController F S) (h : Counted owner w)
    (howner : ∀ id ∈ Recovery.candidates spaceId, owner id.key = path ∨
      ∀ space ∈ w.spaces.get id, ∀ p ∈ space.sent, p.live = false)
    (status : HandshakeStatus) (now : ℤ) :
    Counted owner
      (w.put path ((w.paths path).onLossDetectionTimeout cc spaceId w.spaces status now).1) := by
  have hmem := getLossTimeAndSpace_mem spaceId w.spaces
  rcases hid : getLossTimeAndSpace spaceId w.spaces with ⟨time, id⟩
  rw [hid] at hmem
  cases hspace : w.spaces.get id with
  | none =>
    simp only [onLossDetectionTimeout, hid, hspace]
    exact h.put_path rfl
  | some space =>
    cases time with
    | none =>
      simp only [onLossDetectionTimeout, hid, hspace]
      exact h.probeTimeout path spaceId status now
    | some =>
      have hfollows := follows_detectLostPackets cc (w.paths path) space now
        (detectLostPackets cc (w.paths path) space now).1.rtt.smoothedRtt
      simp only [onLossDetectionTimeout, hid, hspace]
      rcases howner id hmem with hown | hidle
      · exact h.replace_own hspace hown
          (hfollows.congr (setLossDetectionTimer_inFlight _ _ _ _ _))
      · have hempty : carried space.sent = 0 := carried_eq_zero (hidle space hspace)
        have hcount := h.space id.key space hspace
        have hstart : Recovery.Counts (w.paths path).inFlight 0 (w.paths path) space space.sent :=
          ⟨by rw [hempty, add_zero], by rw [hcount, zero_add]⟩
        obtain ⟨⟨hpath, hspace'⟩, hle⟩ := detectLostPackets_counts cc hstart now
        rw [hempty, nonpos_iff_eq_zero] at hle
        apply h.touch hspace
        · rw [carried_drainSentPackets, ← zero_add (carried _)]
          exact hspace'
        · rw [carried_drainSentPackets, hle, hempty]
        · rw [setLossDetectionTimer_inFlight, hpath, hle, add_zero]

theorem Counted.addSpace (h : Counted owner w) : Counted owner { w with
    spaces := w.spaces.insert w.nextDataExtId { id := .dataExt w.nextDataExtId }
    nextDataExtId := w.nextDataExtId + 1 } where
  space key space hspace := by
    rcases get?_insert_eq_some.mp hspace with ⟨-, rfl⟩ | ⟨hin, -⟩
    · rfl
    · exact h.space key space hin
  path path := by
    have hsum := sum_insert
      (fun e : ℕ × PacketNumSpace F => if owner e.1 = path then carried e.2.sent else 0)
      w.spaces w.nextDataExtId { id := .dataExt w.nextDataExtId }
    rw [erase_eq_self (h.fresh _ le_rfl), carried_nil, ite_self, zero_add] at hsum
    exact (h.path path).trans hsum.symm
  fresh key hkey := by
    have hlt : w.nextDataExtId < key := hkey
    rw [get?_insert_of_ne _ hlt.ne']
    exact h.fresh key hlt.le

theorem entries_new : (PacketNumSpaceMap.new : PacketNumSpaceMap F).entries =
    [(0, { id := .initial }), (1, { id := .handshake }), (2, { id := .data })] := rfl

theorem counted_start (owner : ℕ → ℕ) (conf : RecoveryConfig) (mulTimeThresh : ℕ → ℕ)
    (congestion : S) : Counted owner (start conf mulTimeThresh congestion : Flights F S) where
  space key space hspace := by
    have hmem : (key, space) ∈ (.new : PacketNumSpaceMap F).entries :=
      get?_eq_some_iff.mp hspace
    simp only [entries_new, List.mem_cons, List.not_mem_nil, or_false] at hmem
    rcases hmem with ⟨-, rfl⟩ | ⟨-, rfl⟩ | ⟨-, rfl⟩ <;> rfl
  path path := by
    have hsum : carriedOn owner path (.new : PacketNumSpaceMap F) = 0 := by
      simp [carriedOn, sum, entries_new]
    exact hsum.symm
  fresh key hkey := by
    have hle : 3 ≤ key := hkey
    refine get?_eq_none_iff.mpr fun space hmem => ?_
    rw [mem_def] at hmem
    simp only [start, entries_new, List.mem_cons, Prod.mk.injEq, List.not_mem_nil, or_false] at hmem
    omega

/-- Every event keeps the counters of all paths and spaces exact. -/
theorem Counted.step (hcc : cc.SamplesOnly) (h : Counted owner w)
    {op : Op F} (hone : OnePath owner w op) (hnone : NoneSpurious w op) {w' : Flights F S}
    {u : Unit} (hstep : w.step cc op = .ok (w', u)) : Counted owner w' := by
  cases op with
  | send path p spaceId status now =>
    cases hstep
    exact h.send hcc hone rfl rfl status now
  | ack =>
    obtain ⟨⟨s, lost⟩, hack, heq⟩ := bind_eq_ok.mp hstep
    cases heq
    exact h.ack hcc hone hnone hack
  | timeout path spaceId status now =>
    cases hstep
    exact h.timeout cc hone status now
  | discard path spaceId status now =>
    cases hstep
    exact h.discard hone status now
  | addSpace =>
    cases hstep
    exact h.addSpace

/-- If each space is used by one path and no in-flight packet is acknowledged after it was declared
lost, the counters of every space and path are what the queues carry. -/
theorem counters_exact {cc : CongestionController F S} (hcc : cc.SamplesOnly) (owner : ℕ → ℕ)
    (conf : RecoveryConfig) (mulTimeThresh : ℕ → ℕ) (congestion : S) {w : Flights F S}
    (hreaches : Exec.Reaches (step cc) (fun w op ↦ OnePath owner w op ∧ NoneSpurious w op)
      (start conf mulTimeThresh congestion) w) :
    (∀ id space, w.spaces.get id = some space →
        (space.bytesInFlight, space.ackElicitingInFlight) = carried space.sent) ∧
      ∀ path, ((w.paths path).bytesInFlight, (w.paths path).ackElicitingInFlight) =
        carriedOn owner path w.spaces := by
  have hcounted : Counted owner w := by
    refine hreaches.invariant (Counted owner) ?_ (counted_start owner conf mulTimeThresh congestion)
    intro s op s' u hs hlegal hstep
    exact hs.step hcc hlegal.1 hlegal.2 hstep
  exact ⟨fun id space => hcounted.space id.key space, hcounted.path⟩

/-! ## A packet that was late -/

instance (owner : ℕ → ℕ) (w : Flights F S) (op : Op F) : Decidable (OnePath owner w op) := by
  unfold OnePath
  split <;> infer_instance

instance (w : Flights F S) : (op : Op F) → Decidable (NoneSpurious w op)
  | .ack _ ranges _ _ spaceId _ _ =>
    have (p : SentPacket F) : Decidable (p.pktNum ∉ ranges) :=
      decidable_of_iff (ranges.contains p.pktNum = false) (by
        rw [← RangeSet.contains_iff, Bool.not_eq_true])
    inferInstanceAs (Decidable (∀ space ∈ w.spaces.get spaceId, ∀ p ∈ space.sent,
      p.inFlight = true → p.timeLost.isSome = true → p.timeAcked = none → p.pktNum ∉ ranges))
  | .send .. | .timeout .. | .discard .. | .addSpace => inferInstanceAs (Decidable True)

open Recovery (ping only mem_only completed lanConf noModel)

def lan : Flights Unit (Bbr Unit) :=
  start lanConf (fun d => d * 9 / 8) { deliveryRateEstimator := .new 0, model := () }

/-- Packets 0 to 3 are sent in a row. Only the last one is acknowledged, and the first one is
declared lost. -/
def reordered : List (Op Unit) :=
  [.send 0 (ping 0) .data completed 0,
    .send 0 (ping 1) .data completed 100000,
    .send 0 (ping 2) .data completed 200000,
    .send 0 (ping 3) .data completed 300000,
    .ack 0 (only 3) ⟨3, mem_only 3⟩ 0 .data completed 10300000]

theorem counters_exact_reordered :
    ((Exec.follow (step (Bbr.controller noModel))
        (fun w op ↦ OnePath (fun _ ↦ 0) w op ∧ NoneSpurious w op) lan reordered).paths 0).inFlight =
      (2400, 2) ∧
    (∀ id space, (Exec.follow (step (Bbr.controller noModel))
        (fun w op ↦ OnePath (fun _ ↦ 0) w op ∧ NoneSpurious w op) lan reordered).spaces.get id =
          some space →
        (space.bytesInFlight, space.ackElicitingInFlight) = carried space.sent) := by
  refine ⟨by decide +kernel, ?_⟩
  exact (counters_exact (Bbr.samplesOnly noModel) (fun _ => 0) lanConf (fun d => d * 9 / 8)
    { deliveryRateEstimator := .new 0, model := () } (reaches_follow lan reordered)).1

/-- Packet 0 is acknowledged after it was declared lost: packets 1 and 2 are still in flight, but
only one is counted. -/
theorem late_packet_counted_twice :
    ∃ w, Exec.Reaches (step (Bbr.controller noModel)) (OnePath fun _ ↦ 0) lan w ∧
      (w.paths 0).inFlight = (1200, 1) ∧ carriedOn (fun _ ↦ 0) 0 w.spaces = (2400, 2) ∧
      ∃ space, w.spaces.get .data = some space ∧ space.inFlight = (1200, 1) ∧
        carried space.sent = (2400, 2) := by
  refine ⟨_, reaches_follow lan
    (reordered ++ [.ack 0 (only 0) ⟨0, mem_only 0⟩ 0 .data completed 10400000]), ?_, ?_, ?_⟩
  · decide +kernel
  · decide +kernel
  · refine ⟨_, Option.eq_some_of_isSome (by decide +kernel), ?_, ?_⟩
    · decide +kernel
    · decide +kernel

end Flights

end Tquic
