import Tquic.Codec
import Tquic.Connection.AckSelection

/-!
# What becomes of the frames that were sent

The frames of a packet stay with it in the queue until it is acknowledged or declared lost; then
they move to one of two lists. Loss detection is a sequence of small moves on the queue and the
lists.
-/

namespace Tquic

open List

variable {F S : Type}

/-! ## Moves -/

/-- The queue of a space and the two lists that its frames go to. -/
structure Stock (F : Type) where
  sent : List (SentPacket F)
  acked : List F
  lost : List F

def PacketNumSpace.stock (space : PacketNumSpace F) : Stock F where
  sent := space.sent
  acked := space.acked
  lost := space.lost

namespace Stock

section Moves

/- The numbers that may be acknowledged, and the packets, by number and time sent, that may be
declared lost. -/
variable (acks : ℕ → Prop) (loses : ℕ → ℤ → Prop)

inductive Move : Stock F → Stock F → Prop
  | ack {before after : List (SentPacket F)} {p p' : SentPacket F} {acked lost : List F} {now : ℤ}
      (hacked : p.timeAcked = none) (hnum : acks p.pktNum) (hp : p.Acknowledged now p') :
      Move ⟨before ++ p :: after, acked, lost⟩ ⟨before ++ p' :: after, acked ++ p.frames, lost⟩
  | lose {before after : List (SentPacket F)} {p : SentPacket F} {acked lost : List F} (now : ℤ)
      (hacked : p.timeAcked = none) (hlost : p.timeLost = none)
      (hrule : loses p.pktNum p.timeSent) :
      Move ⟨before ++ p :: after, acked, lost⟩
        ⟨before ++ { p with frames := [], timeLost := some now } :: after, acked, lost ++ p.frames⟩
  | probe (s : Stock F) (frames : List F) : Move s { s with lost := s.lost ++ frames }
  | drop {p : SentPacket F} {sent : List (SentPacket F)} {acked lost : List F}
      (hdone : p.timeAcked.isSome = true ∨ p.timeLost.isSome = true) :
      Move ⟨p :: sent, acked, lost⟩ ⟨sent, acked, lost⟩

abbrev Moves : Stock F → Stock F → Prop := Relation.ReflTransGen (Move acks loses)

/-- The packet was acknowledged or declared lost before, or it is now, and its frames have been
moved to the list. -/
def Done (s' : Stock F) (p : SentPacket F) : Prop :=
  (p.timeAcked.isSome = true ∨ p.timeLost.isSome = true) ∨
    (acks p.pktNum ∧ p.frames ⊆ s'.acked) ∨ (loses p.pktNum p.timeSent ∧ p.frames ⊆ s'.lost)

/-- What moves may do to a packet that stays in the queue. -/
structure Turn (s' : Stock F) (p q : SentPacket F) : Prop where
  pktNum : q.pktNum = p.pktNum
  timeSent : q.timeSent = p.timeSent
  acked : q.timeAcked.isSome = true → p.timeAcked.isSome = true ∨ acks p.pktNum
  lost : q.timeLost.isSome = true → p.timeLost.isSome = true ∨ loses p.pktNum p.timeSent
  frames : Done acks loses s' p ∨ q.timeAcked = none ∧ q.timeLost = none ∧ q.frames = p.frames

/-- What moves may do to the queue and the lists. -/
structure Turns (s s' : Stock F) : Prop where
  acked : s.acked ⊆ s'.acked
  lost : s.lost ⊆ s'.lost
  stays : ∀ p ∈ s.sent, (∃ q ∈ s'.sent, Turn acks loses s' p q) ∨ Done acks loses s' p
  comes : ∀ q ∈ s'.sent, ∃ p ∈ s.sent, Turn acks loses s' p q

end Moves

variable {acks : ℕ → Prop} {loses : ℕ → ℤ → Prop} {s s' s'' : Stock F} {p q r : SentPacket F}

theorem Done.mono (h : Done acks loses s p) (hacked : s.acked ⊆ s'.acked)
    (hlost : s.lost ⊆ s'.lost) : Done acks loses s' p := by
  rcases h with hmarked | ⟨hnum, hframes⟩ | ⟨hrule, hframes⟩
  · exact .inl hmarked
  · exact .inr (.inl ⟨hnum, List.Subset.trans hframes hacked⟩)
  · exact .inr (.inr ⟨hrule, List.Subset.trans hframes hlost⟩)

theorem Turn.refl (s' : Stock F) (p : SentPacket F) : Turn acks loses s' p p where
  pktNum := rfl
  timeSent := rfl
  acked := .inl
  lost := .inl
  frames := by
    cases hacked : p.timeAcked with
    | some => exact .inl (.inl (.inl (by rw [hacked]; rfl)))
    | none =>
      cases hlost : p.timeLost with
      | some => exact .inl (.inl (.inr (by rw [hlost]; rfl)))
      | none => exact .inr ⟨rfl, rfl, rfl⟩

theorem Turn.done (h : Turn acks loses s p q) (hq : Done acks loses s' q)
    (hacked : s.acked ⊆ s'.acked) (hlost : s.lost ⊆ s'.lost) : Done acks loses s' p := by
  rcases h.frames with hdone | ⟨hnone, hnone', hframes⟩
  · exact hdone.mono hacked hlost
  · rw [Done, h.pktNum, h.timeSent, hframes] at hq
    rcases hq with hmarked | hmoved
    · simp [hnone, hnone'] at hmarked
    · exact .inr hmoved

theorem Turn.trans (h : Turn acks loses s p q) (h' : Turn acks loses s' q r)
    (hacked : s.acked ⊆ s'.acked) (hlost : s.lost ⊆ s'.lost) : Turn acks loses s' p r where
  pktNum := h'.pktNum.trans h.pktNum
  timeSent := h'.timeSent.trans h.timeSent
  acked hr := by
    rcases h'.acked hr with hq | hnum
    · exact h.acked hq
    · exact .inr (h.pktNum ▸ hnum)
  lost hr := by
    rcases h'.lost hr with hq | hrule
    · exact h.lost hq
    · exact .inr (h.pktNum ▸ h.timeSent ▸ hrule)
  frames := by
    rcases h'.frames with hdone | ⟨hr, hr', hframes'⟩
    · exact .inl (h.done hdone hacked hlost)
    · rcases h.frames with hdone | ⟨-, -, hframes⟩
      · exact .inl (hdone.mono hacked hlost)
      · exact .inr ⟨hr, hr', hframes'.trans hframes⟩

theorem Turns.refl (s : Stock F) : Turns acks loses s s where
  acked := .refl _
  lost := .refl _
  stays p hp := .inl ⟨p, hp, .refl s p⟩
  comes q hq := ⟨q, hq, .refl s q⟩

theorem Turns.trans (h : Turns acks loses s s') (h' : Turns acks loses s' s'') :
    Turns acks loses s s'' where
  acked := List.Subset.trans h.acked h'.acked
  lost := List.Subset.trans h.lost h'.lost
  stays p hp := by
    rcases h.stays p hp with ⟨q, hq, hpq⟩ | hdone
    · rcases h'.stays q hq with ⟨r, hr, hqr⟩ | hdone
      · exact .inl ⟨r, hr, hpq.trans hqr h'.acked h'.lost⟩
      · exact .inr (hpq.done hdone h'.acked h'.lost)
    · exact .inr (hdone.mono h'.acked h'.lost)
  comes r hr := by
    obtain ⟨q, hq, hqr⟩ := h'.comes r hr
    obtain ⟨p, hp, hpq⟩ := h.comes q hq
    exact ⟨p, hp, hpq.trans hqr h'.acked h'.lost⟩

variable {before after : List (SentPacket F)}

theorem mem_replace {p : SentPacket F} (p' : SentPacket F)
    (hq : q ∈ before ++ p :: after) : q = p ∨ q ∈ before ++ p' :: after := by
  rcases mem_append.mp hq with hq | hq
  · exact .inr (mem_append_left _ hq)
  · rcases mem_cons.mp hq with rfl | hq
    · exact .inl rfl
    · exact .inr (mem_append_right _ (.tail _ hq))

theorem Turns.replace {p p' : SentPacket F}
    {acked lost acked' lost' : List F} (hacked : acked ⊆ acked') (hlost : lost ⊆ lost')
    (h : Turn acks loses ⟨before ++ p' :: after, acked', lost'⟩ p p') :
    Turns acks loses ⟨before ++ p :: after, acked, lost⟩
      ⟨before ++ p' :: after, acked', lost'⟩ where
  acked := hacked
  lost := hlost
  stays q hq := by
    rcases mem_replace p' hq with rfl | hq
    · exact .inl ⟨p', mem_append_right _ mem_cons_self, h⟩
    · exact .inl ⟨q, hq, .refl _ q⟩
  comes q hq := by
    rcases mem_replace p hq with rfl | hq
    · exact ⟨p, mem_append_right _ mem_cons_self, h⟩
    · exact ⟨q, hq, .refl _ q⟩

theorem Move.turns (h : Move acks loses s s') : Turns acks loses s s' := by
  cases h with
  | ack hacked hnum hp =>
    obtain ⟨state, rfl⟩ := hp
    apply Turns.replace (subset_append_left _ _) (.refl _)
    exact ⟨rfl, rfl, fun _ => .inr hnum, .inl, .inl (.inr (.inl ⟨hnum, subset_append_right _ _⟩))⟩
  | lose now hacked hlost hrule =>
    apply Turns.replace (.refl _) (subset_append_left _ _)
    exact ⟨rfl, rfl, .inl, fun _ => .inr hrule, .inl (.inr (.inr ⟨hrule, subset_append_right _ _⟩))⟩
  | probe _ =>
    exact ⟨List.Subset.refl _, subset_append_left _ _, fun p hp => .inl ⟨p, hp, .refl _ p⟩,
      fun q hq => ⟨q, hq, .refl _ q⟩⟩
  | @drop p sent acked lost hdone =>
    refine ⟨List.Subset.refl _, .refl _, fun q hq => ?_, fun q hq => ⟨q, .tail _ hq, .refl _ q⟩⟩
    rcases mem_cons.mp hq with rfl | hq
    · exact .inr (.inl hdone)
    · exact .inl ⟨q, hq, .refl _ q⟩

theorem Moves.turns (h : Moves acks loses s s') : Turns acks loses s s' := by
  induction h with
  | refl => exact .refl s
  | tail _ hmove ih => exact ih.trans hmove.turns

/-! ## Custody -/

/-- The frames of `p` are with the packet of its number in the queue, or they were moved to one of
the lists. -/
def Holds (p : SentPacket F) (s : Stock F) : Prop :=
  (∃ q ∈ s.sent, q.pktNum = p.pktNum ∧ q.frames = p.frames ∧ q.timeAcked = none ∧
    q.timeLost = none) ∨ p.frames ⊆ s.acked ∨ p.frames ⊆ s.lost

theorem Holds.grow (h : Holds p s) (hsent : s.sent ⊆ s'.sent)
    (hacked : s.acked ⊆ s'.acked) (hlost : s.lost ⊆ s'.lost) : Holds p s' := by
  rcases h with ⟨q, hq, hsame⟩ | hframes | hframes
  · exact .inl ⟨q, hsent hq, hsame⟩
  · exact .inr (.inl (List.Subset.trans hframes hacked))
  · exact .inr (.inr (List.Subset.trans hframes hlost))

theorem Holds.turns (h : Holds p s) (hturns : Turns acks loses s s') : Holds p s' := by
  rcases h with ⟨q, hq, hnum, hframes, hacked, hlost⟩ | hframes | hframes
  · have hdone (hdone : Done acks loses s' q) : Holds p s' := by
      rcases hdone with hmarked | ⟨-, hmoved⟩ | ⟨-, hmoved⟩
      · simp [hacked, hlost] at hmarked
      · exact .inr (.inl (hframes ▸ hmoved))
      · exact .inr (.inr (hframes ▸ hmoved))
    rcases hturns.stays q hq with ⟨r, hr, hturn⟩ | hdone'
    · rcases hturn.frames with hdone' | ⟨hracked, hrlost, hrframes⟩
      · exact hdone hdone'
      · exact .inl ⟨r, hr, hturn.pktNum.trans hnum, hrframes.trans hframes, hracked, hrlost⟩
    · exact hdone hdone'
  · exact .inr (.inl (List.Subset.trans hframes hturns.acked))
  · exact .inr (.inr (List.Subset.trans hframes hturns.lost))

theorem Moves.mono {acks' : ℕ → Prop} {loses' : ℕ → ℤ → Prop} (h : Moves acks loses s s')
    (hacks : ∀ n, acks n → acks' n) (hloses : ∀ n t, loses n t → loses' n t) :
    Moves acks' loses' s s' := by
  refine Relation.ReflTransGen.mono (fun a b hmove => ?_) _ _ h
  cases hmove with
  | ack hacked hnum hp => exact .ack hacked (hacks _ hnum) hp
  | lose now hacked hlost hrule => exact .lose now hacked hlost (hloses _ _ hrule)
  | probe _ frames => exact .probe _ frames
  | drop hdone => exact .drop hdone

end Stock

/-! ## The loops of the source -/

namespace Recovery

open Stock (Moves)

variable {acks : ℕ → Prop} {loses : ℕ → ℤ → Prop}

theorem Taken.moves {now : ℤ} {sent hits sent' : List (SentPacket F)}
    (h : Taken now sent hits sent')
    (hits_ok : ∀ p ∈ hits, p.timeAcked = none ∧ acks p.pktNum) (before : List (SentPacket F))
    (acked lost : List F) :
    Moves acks loses ⟨before ++ sent, acked, lost⟩
      ⟨before ++ sent', acked ++ hits.flatMap (·.frames), lost⟩ := by
  induction h generalizing before acked with
  | nil => simpa using .refl
  | skip p _ ih => simpa using ih hits_ok (before ++ [p]) acked
  | @hit p p' sent hits sent' hp _ ih =>
    obtain ⟨⟨hacked, hnum⟩, hits_ok⟩ := forall_mem_cons.mp hits_ok
    have hrest := ih hits_ok (before ++ [p']) (acked ++ p.frames)
    simp only [append_assoc, singleton_append] at hrest
    exact .head (.ack hacked hnum hp) hrest

/-- A packet not beyond the largest number acknowledged is lost if it is so many numbers below it or
so old. -/
def LossRule (r : Recovery S) (now : ℤ) (largest pktNum : ℕ) (timeSent : ℤ) : Prop :=
  pktNum ≤ largest ∧
    (pktNum + r.pktThresh ≤ largest ∨ timeSent + (r.lossDelay : ℤ) ≤ now)

structure SameRule (r r' : Recovery S) : Prop where
  pktThresh : r'.pktThresh = r.pktThresh
  lossDelay : r'.lossDelay = r.lossDelay

theorem SameRule.moves {r r' : Recovery S} (h : SameRule r r') {now : ℤ} {largest : ℕ}
    {s s' : Stock F} (hmoves : Moves acks (r.LossRule now largest) s s') :
    Moves acks (r'.LossRule now largest) s s' := by
  have heq : r'.LossRule now largest = r.LossRule now largest := by
    funext pktNum timeSent
    rw [LossRule, h.pktThresh, h.lossDelay]
    rfl
  rw [heq]
  exact hmoves

theorem SameRule.setLossDetectionTimer {r r' : Recovery S} (h : SameRule r r') (spaceId : SpaceId)
    (spaces : PacketNumSpaceMap F) (status : HandshakeStatus) (now : ℤ) :
    SameRule r (r'.setLossDetectionTimer spaceId spaces status now) := by
  simp only [Recovery.setLossDetectionTimer]
  split_ifs <;> exact ⟨h.pktThresh, h.lossDelay⟩

theorem lose_frame (scan : LossScan F S) (p : SentPacket F) (now : ℤ) :
    SameRule scan.recovery (scan.lose p now).1.recovery ∧
      (scan.lose p now).1.space.lost = scan.space.lost ++ p.frames ∧
      (scan.lose p now).1.space.acked = scan.space.acked ∧
      (scan.lose p now).1.space.largestAckedPkt = scan.space.largestAckedPkt ∧
      (scan.lose p now).2 = { p with frames := [], timeLost := some now } := by
  refine ⟨⟨?_, ?_⟩, ?_, ?_, ?_, rfl⟩
  all_goals
    simp only [LossScan.lose]
    split_ifs <;> rfl

theorem lossLoop_moves (now : ℤ) (r : Recovery S) {scan : LossScan F S}
    (hrule : SameRule r scan.recovery) (before sent : List (SentPacket F)) :
    Moves acks (r.LossRule now scan.space.largestAckedPkt)
        ⟨before ++ sent, scan.space.acked, scan.space.lost⟩
        ⟨before ++ (lossLoop now r.lossDelay scan sent).2,
          (lossLoop now r.lossDelay scan sent).1.space.acked,
          (lossLoop now r.lossDelay scan sent).1.space.lost⟩ ∧
      SameRule r (lossLoop now r.lossDelay scan sent).1.recovery ∧
      (lossLoop now r.lossDelay scan sent).1.space.largestAckedPkt =
        scan.space.largestAckedPkt := by
  induction sent generalizing scan before with
  | nil => exact ⟨.refl, hrule, rfl⟩
  | cons p sent ih =>
    rw [lossLoop]
    split_ifs with hpast hdone hlost
    · exact ⟨.refl, hrule, rfl⟩
    · simpa using ih hrule (before ++ [p])
    · obtain ⟨hsame, hframes, hacked, hlargest, hp⟩ := lose_frame scan p now
      rw [Bool.or_eq_true, not_or, Option.not_isSome_iff_eq_none,
        Option.not_isSome_iff_eq_none] at hdone
      have hloses : r.LossRule now scan.space.largestAckedPkt p.pktNum p.timeSent := by
        rw [Bool.or_eq_true, decide_eq_true_eq, decide_eq_true_eq, hrule.pktThresh] at hlost
        refine ⟨not_lt.mp hpast, ?_⟩
        rcases hlost with hold | hfar
        · exact .inr (by omega)
        · exact .inl hfar
      obtain ⟨hmoves, hrest⟩ := @ih (scan.lose p now).1
        ⟨hsame.pktThresh.trans hrule.pktThresh, hsame.lossDelay.trans hrule.lossDelay⟩
        (before ++ [(scan.lose p now).2])
      rw [hlargest, hframes, hacked] at hmoves
      simp only [append_assoc, singleton_append] at hmoves
      rw [hlargest] at hrest
      refine ⟨.head ?_ hmoves, hrest⟩
      exact .lose now hdone.1 hdone.2 hloses
    · have hawait := @ih (scan.await p r.lossDelay) hrule (before ++ [p])
      simp only [append_assoc, singleton_append] at hawait
      exact hawait

theorem detectLostPackets_moves (cc : CongestionController F S) (r : Recovery S)
    (space : PacketNumSpace F) (now : ℤ) :
    Moves acks (r.LossRule now space.largestAckedPkt) space.stock
        (r.detectLostPackets cc space now).2.1.stock ∧
      SameRule r (r.detectLostPackets cc space now).1 ∧
      (r.detectLostPackets cc space now).2.1.largestAckedPkt = space.largestAckedPkt := by
  obtain ⟨hmoves, hsame, hlargest⟩ := @lossLoop_moves F S acks now r
    { recovery := r, space := { space with lossTime := none } } ⟨rfl, rfl⟩ [] space.sent
  exact ⟨hmoves, ⟨hsame.pktThresh, hsame.lossDelay⟩, hlargest⟩

theorem drainSentPackets_moves (space : PacketNumSpace F) (now : ℤ) (rtt : ℕ) :
    Moves acks loses space.stock (drainSentPackets space now rtt).stock := by
  obtain ⟨_, _, sent, lost, acked, _, _, _, _, _, _⟩ := space
  simp only [drainSentPackets, PacketNumSpace.stock]
  induction sent with
  | nil => exact .refl
  | cons p sent ih =>
    rw [dropWhile_cons]
    split_ifs with hdrop
    · rw [Bool.and_eq_true, Bool.or_eq_true] at hdrop
      exact .head (.drop hdrop.1) ih
    · exact .refl

/-! ## Events -/

def Timed (space : PacketNumSpace F) : Prop :=
  space.lossTime.isSome = true → space.largestAckedPkt ≠ u64Max

@[simp] theorem drainSentPackets_largestAckedPkt (space : PacketNumSpace F) (now : ℤ) (rtt : ℕ) :
    (drainSentPackets space now rtt).largestAckedPkt = space.largestAckedPkt := rfl

theorem losses_moves (cc : CongestionController F S) (r : Recovery S) (space : PacketNumSpace F)
    (now : ℤ) (rtt : ℕ) :
    Moves acks (r.LossRule now space.largestAckedPkt) space.stock
      (drainSentPackets (r.detectLostPackets cc space now).2.1 now rtt).stock :=
  (detectLostPackets_moves cc r space now).1.trans (drainSentPackets_moves _ now rtt)

variable {delay : ℕ} {lost : Result (ℕ × ℕ)}

theorem finishAck_moves {cc : CongestionController F S} {scan : AckScan F S} {sample : Option ℕ}
    {spaceId : SpaceId} {spaces : PacketNumSpaceMap F} {status : HandshakeStatus}
    {now : ℤ} {s : Sender F S}
    (h : finishAck cc scan sample delay spaceId spaces status now = .ok (s, lost)) :
    ∃ space', s.2 = spaces.set spaceId space' ∧
      space'.largestAckedPkt = scan.space.largestAckedPkt ∧
      Moves acks (s.1.LossRule now space'.largestAckedPkt) scan.space.stock space'.stock := by
  obtain ⟨-, hsame, hlargest⟩ := @detectLostPackets_moves F S acks cc
    (scan.recovery.updateRtt sample delay status) scan.space now
  have hmoves (rtt : ℕ) := @losses_moves F S acks cc
    (scan.recovery.updateRtt sample delay status) scan.space now rtt
  simp only [finishAck] at h
  split_ifs at h
  on_goal 1 => obtain ⟨congestion, -, h⟩ := Exec.bind_eq_ok.mp h
  all_goals
    cases h
    refine ⟨_, rfl, hlargest, (SameRule.setLossDetectionTimer ?_ _ _ _ _).moves (?_ :
      Moves acks ((scan.recovery.updateRtt sample delay status).LossRule now _) _ _)⟩
    · exact ⟨hsame.pktThresh, hsame.lossDelay⟩
    · rw [drainSentPackets_largestAckedPkt, hlargest]
      exact hmoves _

theorem raiseLargestAcked_eq (space : PacketNumSpace F) (largest : ℕ) :
    (raiseLargestAcked space largest).largestAckedPkt = space.largestAckedPkt ∧
        space.largestAckedPkt ≠ u64Max ∨
      (raiseLargestAcked space largest).largestAckedPkt = largest := by
  simp only [raiseLargestAcked]
  split_ifs with hnone
  · exact .inr rfl
  · exact (max_choice space.largestAckedPkt largest).imp_left fun heq => ⟨heq, hnone⟩

theorem raiseLargestAcked_ne {space : PacketNumSpace F} {largest : ℕ} (h : largest ≤ vintMax) :
    (raiseLargestAcked space largest).largestAckedPkt ≠ u64Max := by
  have hlt : largest ≠ u64Max := by
    have hvint : vintMax = 2 ^ 62 - 1 := rfl
    have hmax : u64Max = 2 ^ 64 - 1 := rfl
    omega
  rcases raiseLargestAcked_eq space largest with ⟨heq, hne⟩ | heq
  · rw [heq]
    exact hne
  · rw [heq]
    exact hlt

section Events

variable {cc : CongestionController F S} {r : Recovery S} {spaceId : SpaceId}
  {spaces : PacketNumSpaceMap F} {space : PacketNumSpace F}
  (hspace : spaces.get spaceId = some space) {status : HandshakeStatus} {now : ℤ}
include hspace

theorem onAckReceived_moves (hcc : cc.SamplesOnly) {ranges : RangeSet}
    {s : Sender F S}
    (h : r.onAckReceived cc ranges delay spaceId spaces status now = .ok (s, lost)) :
    ∃ space' largest, s.2 = spaces.set spaceId space' ∧ largest ∈ ranges ∧
      space'.largestAckedPkt = (raiseLargestAcked space largest).largestAckedPkt ∧
      Moves (· ∈ ranges) (s.1.LossRule now space'.largestAckedPkt) space.stock space'.stock := by
  simp only [onAckReceived, hspace] at h
  obtain ⟨largest, hlargest, h⟩ := Exec.bind_eq_ok.mp h
  obtain ⟨⟨scan, sample⟩, hdetect, h⟩ := Exec.bind_eq_ok.mp h
  obtain ⟨⟨scan₁, sent⟩, hranges, heq⟩ := Exec.bind_eq_ok.mp hdetect
  cases heq
  have hharvest := ackRanges_harvest hcc hranges
  have hmem : largest ∈ ranges := RangeSet.max_mem (Exec.unwrap_eq_ok.mp hlargest)
  -- the loops only take packets that the ranges name
  have hmoves (loses : ℕ → ℤ → Prop) : Moves (· ∈ ranges) loses space.stock
      { scan₁.space with sent := sent }.stock := by
    have htaken := @Taken.moves F (· ∈ ranges) loses now _ _ _ (ackRanges_taken hcc hranges)
      (fun p hp => (mem_newlyAcked hp).2) [] space.acked space.lost
    simp only [PacketNumSpace.stock, hharvest.acked, hharvest.lost]
    exact htaken
  split_ifs at h
  · cases h
    exact ⟨_, largest, rfl, hmem, hharvest.largestAckedPkt, hmoves _⟩
  · obtain ⟨space', hset, hsame, hlosses⟩ := finishAck_moves h
    exact ⟨space', largest, hset, hmem, hsame.trans hharvest.largestAckedPkt,
      (hmoves _).trans hlosses⟩

end Events

end Recovery

end Tquic
