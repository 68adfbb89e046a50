import Tquic.Connection.InFlight

/-!
# Which packets an ACK frame acknowledges

`detect_acked_packets` merges the ranges of an ACK frame with the queue of sent packets. Of an
ascending queue it takes the packets in the ranges that are not acknowledged yet, and no others.
-/

namespace Tquic

open List Exec

variable {F S : Type}

/-! ## The specification -/

def SentPacket.newlyIn (ranges : RangeSet) (p : SentPacket F) : Bool :=
  p.timeAcked.isNone && ranges.contains p.pktNum

/-- The packet once it is acknowledged; the controller may have written a rate sample into it. -/
def SentPacket.Acknowledged (now : ℤ) (p p' : SentPacket F) : Prop :=
  ∃ state, p' = { p with timeAcked := some now, frames := [], rateSampleState := state }

def SentPacket.report (now : ℤ) (p : SentPacket F) : AckedPacket where
  pktNum := p.pktNum
  timeSent := p.timeSent
  rtt := saturatingDurationSince now p.timeSent

namespace Recovery

/-- Some packets of a queue are acknowledged, and the others stay as they are. -/
inductive Taken (now : ℤ) :
    List (SentPacket F) → List (SentPacket F) → List (SentPacket F) → Prop
  | nil : Taken now [] [] []
  | skip (p : SentPacket F) {sent hits sent' : List (SentPacket F)} :
      Taken now sent hits sent' → Taken now (p :: sent) hits (p :: sent')
  | hit {p p' : SentPacket F} {sent hits sent' : List (SentPacket F)} :
      p.Acknowledged now p' → Taken now sent hits sent' →
        Taken now (p :: sent) (p :: hits) (p' :: sent')

namespace Taken

variable {now : ℤ} {sent hits sent' : List (SentPacket F)}

theorem nothing (sent : List (SentPacket F)) : Taken now sent [] sent := by
  induction sent with
  | nil => exact .nil
  | cons p sent ih => exact .skip p ih

theorem append {sent₂ hits₂ sent₂' : List (SentPacket F)} (h : Taken now sent hits sent')
    (h₂ : Taken now sent₂ hits₂ sent₂') :
    Taken now (sent ++ sent₂) (hits ++ hits₂) (sent' ++ sent₂') := by
  induction h with
  | nil => exact h₂
  | skip p _ ih => exact .skip p ih
  | hit hp _ ih => exact .hit hp ih

theorem sublist (h : Taken now sent hits sent') : hits.Sublist sent := by
  induction h with
  | nil => exact .slnil
  | skip p _ ih => exact .cons p ih
  | hit _ _ ih => exact .cons_cons _ ih

theorem forall₂ {P : SentPacket F → Bool} (h : Taken now sent hits sent')
    (hits_eq : hits = sent.filter P) :
    List.Forall₂ (fun p p' => if P p then p.Acknowledged now p' else p' = p) sent sent' := by
  induction h with
  | nil => exact .nil
  | @skip p sent hits sent' h ih =>
    cases hp : P p with
    | false =>
      rw [filter_cons_of_neg (by simp [hp])] at hits_eq
      exact .cons (by simp [hp]) (ih hits_eq)
    | true =>
      -- the packets taken from the rest would be more than have the property
      rw [filter_cons_of_pos hp] at hits_eq
      have hle := (h.sublist.filter P).length_le
      rw [hits_eq, filter_cons_of_pos hp, filter_filter, length_cons] at hle
      simp only [Bool.and_self] at hle
      exact absurd hle (Nat.not_succ_le_self _)
  | @hit p p' sent hits sent' hack h ih =>
    cases hp : P p with
    | false =>
      rw [filter_cons_of_neg (by simp [hp])] at hits_eq
      have hmem : p ∈ sent.filter P := hits_eq ▸ .head _
      simp [hp] at hmem
    | true =>
      rw [filter_cons_of_pos hp] at hits_eq
      exact .cons (by simpa [hp] using hack) (ih (cons.inj hits_eq).2)

end Taken

/-! ## What the scan collects -/

/-- The scan after the packets `hits` were acknowledged, in this order. -/
structure AckScan.Harvest (now : ℤ) (hits : List (SentPacket F)) (scan scan' : AckScan F S) :
    Prop where
  newlyAcked : scan'.newlyAcked = scan.newlyAcked ++ hits.map (·.report now)
  acked : scan'.space.acked = scan.space.acked ++ hits.flatMap (·.frames)
  lost : scan'.space.lost = scan.space.lost
  id : scan'.space.id = scan.space.id
  largestAckedPkt : scan'.space.largestAckedPkt = scan.space.largestAckedPkt
  lossTime : scan'.space.lossTime = scan.space.lossTime
  largest : (scan'.largestNewlyAckedPktNum, scan'.largestNewlyAckedSentTime) =
    (hits.getLast?.map fun p => (p.pktNum, p.timeSent)).getD
      (scan.largestNewlyAckedPktNum, scan.largestNewlyAckedSentTime)
  eliciting : scan'.newlyAckElicitingPktAcked =
    (scan.newlyAckElicitingPktAcked || hits.any (·.ackEliciting))

theorem AckScan.Harvest.refl (now : ℤ) (scan : AckScan F S) : scan.Harvest now [] scan where
  newlyAcked := (append_nil _).symm
  acked := (append_nil _).symm
  lost := rfl
  id := rfl
  largestAckedPkt := rfl
  lossTime := rfl
  largest := rfl
  eliciting := (Bool.or_false _).symm

variable {sent hits : List (SentPacket F)}

theorem AckScan.Harvest.cons {now : ℤ} {p : SentPacket F}
    {scan scan₁ scan₂ : AckScan F S} (h : scan.Harvest now [p] scan₁)
    (h' : scan₁.Harvest now hits scan₂) : scan.Harvest now (p :: hits) scan₂ where
  newlyAcked := by rw [h'.newlyAcked, h.newlyAcked, append_assoc]; rfl
  acked := by
    rw [h'.acked, h.acked, append_assoc, ← flatMap_append]
    rfl
  lost := h'.lost.trans h.lost
  id := h'.id.trans h.id
  largestAckedPkt := h'.largestAckedPkt.trans h.largestAckedPkt
  lossTime := h'.lossTime.trans h.lossTime
  largest := by
    rw [h'.largest, h.largest]
    cases hits with
    | nil => rfl
    | cons => rw [getLast?_cons_cons, getLast?_cons]; rfl
  eliciting := by
    rw [h'.eliciting, h.eliciting, Bool.or_assoc]
    simp only [any_cons, any_nil, Bool.or_false]

section Controller

variable {cc : CongestionController F S} (hcc : cc.SamplesOnly) {now : ℤ}
include hcc

variable {scan scan' : AckScan F S} {ranges : List (ℕ × ℕ)}

theorem ackPacket_eq_ok {p p' : SentPacket F} (h : ackPacket cc now scan p = .ok (scan', p')) :
    p.Acknowledged now p' ∧ scan.Harvest now [p] scan' := by
  obtain ⟨⟨scan₁, p₁⟩, hnotify, heq⟩ := bind_eq_ok.mp h
  cases heq
  -- the controller only writes its own state and the sample of the packet
  obtain ⟨state, congestion, rfl, rfl⟩ : ∃ state congestion,
      p₁ = { p with timeAcked := some now, rateSampleState := state } ∧
      scan₁ = { (scan.note { p with timeAcked := some now }).leaveFlight
        { p with timeAcked := some now } with
          recovery := { ((scan.note { p with timeAcked := some now }).leaveFlight
            { p with timeAcked := some now }).recovery with congestion := congestion } } := by
    rw [AckScan.notify] at hnotify
    split_ifs at hnotify
    · obtain ⟨⟨q, s⟩, hack, heq⟩ := bind_eq_ok.mp hnotify
      obtain ⟨state, rfl⟩ := hcc.onAck _ _ _ _ _ _ _ _ hack
      cases heq
      exact ⟨state, s, rfl, rfl⟩
    · cases hnotify
      exact ⟨p.rateSampleState, _, rfl, rfl⟩
  refine ⟨⟨state, rfl⟩, ?_⟩
  simp only [AckScan.note, AckScan.leaveFlight, AckScan.spurious]
  constructor
  all_goals
    split_ifs <;> simp [AckScan.finish, SentPacket.report]

theorem foldlM_ackStep_harvest
    (h : hits.foldlM (ackStep cc now) scan = .ok scan') : scan.Harvest now hits scan' := by
  induction hits generalizing scan with
  | nil =>
    cases h
    exact .refl now _
  | cons p hits ih =>
    obtain ⟨scan₁, hstep, h⟩ := bind_eq_ok.mp h
    obtain ⟨⟨scan₂, p'⟩, hack, rfl⟩ := map_eq_ok.mp hstep
    exact (ackPacket_eq_ok hcc hack).2.cons (ih h)

theorem ackRange_taken {range : ℕ × ℕ} {sent passed left : List (SentPacket F)}
    (h : ackRange cc now range scan sent = .ok (scan', passed, left)) :
    ∃ first, sent = first ++ left ∧ Taken now first (hitRange range sent).1 passed ∧
      left = (hitRange range sent).2 := by
  induction sent generalizing scan passed with
  | nil =>
    cases h
    exact ⟨[], rfl, .nil, rfl⟩
  | cons p sent ih =>
    rw [ackRange] at h
    rw [hitRange]
    split_ifs at h ⊢ with hskip hpast
    · obtain ⟨⟨scan₁, passed₁, left₁⟩, hrest, heq⟩ := bind_eq_ok.mp h
      cases heq
      obtain ⟨first, rfl, htaken, hleft⟩ := ih hrest
      exact ⟨p :: first, rfl, .skip p htaken, hleft⟩
    · cases h
      exact ⟨[], rfl, .nil, rfl⟩
    · obtain ⟨⟨scan₁, p₁⟩, hack, h⟩ := bind_eq_ok.mp h
      obtain ⟨⟨scan₂, passed₂, left₂⟩, hrest, heq⟩ := bind_eq_ok.mp h
      cases heq
      obtain ⟨first, rfl, htaken, hleft⟩ := ih hrest
      exact ⟨p :: first, rfl, .hit (ackPacket_eq_ok hcc hack).1 htaken, hleft⟩

theorem ackRanges_taken {sent sent' : List (SentPacket F)}
    (h : ackRanges cc now ranges scan sent = .ok (scan', sent')) :
    Taken now sent (newlyAcked ranges sent) sent' := by
  induction ranges generalizing scan sent sent' with
  | nil =>
    cases h
    exact .nothing sent
  | cons range ranges ih =>
    obtain ⟨⟨scan₁, passed, left⟩, hrange, h⟩ := bind_eq_ok.mp h
    obtain ⟨⟨scan₂, left₂⟩, hranges, heq⟩ := bind_eq_ok.mp h
    cases heq
    obtain ⟨first, hsent, hfirst, rfl⟩ := ackRange_taken hcc hrange
    have htaken := hfirst.append (ih hranges)
    rw [← hsent] at htaken
    exact htaken

theorem ackRanges_harvest {sent sent' : List (SentPacket F)}
    (h : ackRanges cc now ranges scan sent = .ok (scan', sent')) :
    scan.Harvest now (newlyAcked ranges sent) scan' := by
  apply foldlM_ackStep_harvest hcc
  rw [← ackRanges_eq, h]
  rfl

end Controller

/-! ## The merge -/

variable {range : ℕ × ℕ}

theorem hitRange_fst (hsorted : sent.Pairwise fun p q => p.pktNum ≤ q.pktNum) :
    (hitRange range sent).1 = sent.filter fun p =>
      p.timeAcked.isNone && (decide (range.1 ≤ p.pktNum) && decide (p.pktNum < range.2)) := by
  induction sent with
  | nil => rfl
  | cons p sent ih =>
    obtain ⟨hfirst, hsorted⟩ := pairwise_cons.mp hsorted
    rw [hitRange]
    split_ifs with hskip hpast
    · rw [ih hsorted, filter_cons_of_neg]
      rw [Bool.or_eq_true, decide_eq_true_eq] at hskip
      rcases hskip with hlt | hacked
      · simp [hlt]
      · simp [hacked, ← Option.not_isSome]
    · -- the numbers after `p` are beyond the range as well
      symm
      rw [filter_eq_nil_iff]
      intro q hq
      have hle : range.2 ≤ q.pktNum := by
        rcases mem_cons.mp hq with rfl | hq
        · exact hpast
        · exact hpast.trans (hfirst q hq)
      simp [hle]
    · rw [ih hsorted, filter_cons_of_pos]
      rw [Bool.or_eq_true, decide_eq_true_eq, not_or, not_lt, Option.not_isSome_iff_eq_none]
        at hskip
      simp [hskip.1, hskip.2, not_le.mp hpast]

theorem filter_hitRange_snd (hrange : range.1 ≤ range.2) {later : SentPacket F → Bool}
    (hlater : ∀ p, later p = true → p.timeAcked = none ∧ range.2 ≤ p.pktNum)
    (sent : List (SentPacket F)) : (hitRange range sent).2.filter later = sent.filter later := by
  induction sent with
  | nil => rfl
  | cons p sent ih =>
    rw [hitRange]
    split_ifs with hskip hpast
    · rw [ih, filter_cons_of_neg]
      intro hp
      obtain ⟨hacked, hle⟩ := hlater p hp
      rw [hacked, Option.isSome_none, Bool.or_false, decide_eq_true_eq] at hskip
      omega
    · rfl
    · rw [ih, filter_cons_of_neg]
      exact fun hp => hpast (hlater p hp).2

theorem sorted_hitRange_snd (hsorted : sent.Pairwise fun p q => p.pktNum ≤ q.pktNum) :
    (hitRange range sent).2.Pairwise fun p q => p.pktNum ≤ q.pktNum := by
  induction sent with
  | nil => exact hsorted
  | cons p sent ih =>
    rw [hitRange]
    split_ifs
    · exact ih hsorted.of_cons
    · exact hsorted
    · exact ih hsorted.of_cons

theorem filter_or_of_lt {first later : SentPacket F → Bool} {bound : ℕ}
    (hsorted : sent.Pairwise fun p q => p.pktNum ≤ q.pktNum)
    (hfirst : ∀ p, first p = true → p.pktNum < bound)
    (hlater : ∀ p, later p = true → bound ≤ p.pktNum) :
    sent.filter (fun p => first p || later p) = sent.filter first ++ sent.filter later := by
  induction sent with
  | nil => rfl
  | cons p sent ih =>
    obtain ⟨hle, hsorted⟩ := pairwise_cons.mp hsorted
    rw [filter_cons, filter_cons, filter_cons, ih hsorted]
    cases hp : later p with
    | false => cases first p <;> rfl
    | true =>
      have hnot : first p = false := by
        by_contra h
        have := hfirst p (Bool.not_eq_false _ ▸ h)
        have := hlater p hp
        omega
      -- nothing after `p` is small enough for the first property
      have hnil : sent.filter first = [] := by
        rw [filter_eq_nil_iff]
        intro q hq hfirstq
        have := hfirst q hfirstq
        have := hlater p hp
        have := hle q hq
        omega
      simp [hnot, hnil]

theorem newlyAcked_eq_filter {ranges : List (ℕ × ℕ)}
    (hgap : ranges.Pairwise fun e e' => e.2 < e'.1) (hne : ∀ e ∈ ranges, e.1 < e.2)
    (hsorted : sent.Pairwise fun p q => p.pktNum ≤ q.pktNum) :
    newlyAcked ranges sent = sent.filter fun p => p.timeAcked.isNone &&
      ranges.any fun e => decide (e.1 ≤ p.pktNum) && decide (p.pktNum < e.2) := by
  induction ranges generalizing sent with
  | nil => simp [newlyAcked]
  | cons range ranges ih =>
    obtain ⟨hnext, hgap⟩ := pairwise_cons.mp hgap
    obtain ⟨hrange, hne⟩ := forall_mem_cons.mp hne
    have hlater : ∀ p : SentPacket F, (p.timeAcked.isNone && ranges.any fun e =>
        decide (e.1 ≤ p.pktNum) && decide (p.pktNum < e.2)) = true →
        p.timeAcked = none ∧ range.2 ≤ p.pktNum := by
      intro p hp
      simp only [Bool.and_eq_true, Option.isNone_iff_eq_none, any_eq_true, decide_eq_true_eq] at hp
      obtain ⟨hacked, e, he, hstart, -⟩ := hp
      exact ⟨hacked, (hnext e he).le.trans hstart⟩
    calc newlyAcked (range :: ranges) sent
        = _ ++ _ := by
          rw [newlyAcked, ih hgap hne (sorted_hitRange_snd hsorted), hitRange_fst hsorted,
            filter_hitRange_snd hrange.le hlater]
      _ = _ := by
          rw [← filter_or_of_lt hsorted]
          · simp only [any_cons, Bool.and_or_distrib_left]
          · intro p hp
            simp only [Bool.and_eq_true, decide_eq_true_eq] at hp
            exact hp.2.2
          · exact fun p hp => (hlater p hp).2

theorem newlyAcked_iter (ranges : RangeSet)
    (hsorted : sent.Pairwise fun p q => p.pktNum ≤ q.pktNum) :
    newlyAcked ranges.iter sent = sent.filter (·.newlyIn ranges) := by
  refine (newlyAcked_eq_filter ranges.separated.pairwise_gap ranges.separated.nonempty
    hsorted).trans (filter_congr ?_)
  intro p hp
  rw [SentPacket.newlyIn, Bool.eq_iff_iff]
  simp only [Bool.and_eq_true, any_eq_true, decide_eq_true_eq, RangeSet.contains_iff]
  exact .rfl

structure AcksExactly (ranges : RangeSet) (space : PacketNumSpace F) (now : ℤ) (scan : AckScan F S)
    (sample : Option ℕ) : Prop where
  queue : List.Forall₂ (fun p p' => if p.newlyIn ranges then p.Acknowledged now p' else p' = p)
    space.sent scan.space.sent
  newlyAcked : scan.newlyAcked = (space.sent.filter (·.newlyIn ranges)).map (·.report now)
  acked : scan.space.acked =
    space.acked ++ (space.sent.filter (·.newlyIn ranges)).flatMap (·.frames)
  lost : scan.space.lost = space.lost
  /-- The number that the scan ends with is the largest newly acknowledged one. -/
  le_largest : ∀ p ∈ space.sent, p.newlyIn ranges = true → p.pktNum ≤ scan.largestNewlyAckedPktNum
  largest : scan.newlyAcked ≠ [] → ∃ p ∈ space.sent, p.newlyIn ranges = true ∧
    p.pktNum = scan.largestNewlyAckedPktNum ∧ p.timeSent = scan.largestNewlyAckedSentTime
  /-- There is a sample if that number is the largest acknowledged so far and a newly acknowledged
  packet was ack-eliciting. -/
  sample : sample = if scan.largestNewlyAckedPktNum = space.largestAckedPkt &&
      (space.sent.filter (·.newlyIn ranges)).any (·.ackEliciting) then
    some (saturatingDurationSince now scan.largestNewlyAckedSentTime) else none

theorem le_getLast_of_sorted {p last : SentPacket F}
    (hsorted : hits.Pairwise fun p q => p.pktNum ≤ q.pktNum) (hlast : hits.getLast? = some last)
    (hp : p ∈ hits) : p.pktNum ≤ last.pktNum := by
  obtain ⟨init, rfl⟩ := getLast?_eq_some_iff.mp hlast
  rcases mem_append.mp hp with hinit | hself
  · exact (pairwise_append.mp hsorted).2.2 p hinit last mem_cons_self
  · rw [mem_singleton.mp hself]

/-- For every ascending queue and every set of ranges, `detect_acked_packets` returns if the
congestion controller does, and what it returns is exact. -/
theorem detectAckedPackets_exact {cc : CongestionController F S} (hcc : cc.SamplesOnly)
    (r : Recovery S) (ranges : RangeSet) {space : PacketNumSpace F}
    (hsorted : space.sent.Pairwise fun p q ↦ p.pktNum ≤ q.pktNum) (now : ℤ) :
    ((space.id.isData = true → ∀ p ∈ space.sent, p.newlyIn ranges = true → ∀ bytesInFlight s,
        ∃ res, cc.onAck { p with timeAcked := some now } now false r.rtt bytesInFlight s =
          .ok res) →
      ∃ res, r.detectAckedPackets cc ranges space now = .ok res) ∧
    ∀ scan sample, r.detectAckedPackets cc ranges space now = .ok (scan, sample) →
      AcksExactly ranges space now scan sample := by
  have hits_eq := newlyAcked_iter ranges hsorted
  constructor
  · intro hreturns
    have hfold := @foldlM_ackStep_returns F S cc (fun _ => True) now
      (newlyAcked ranges.iter space.sent)
      { recovery := r, space := space, largestNewlyAckedSentTime := now }
      (fun hdata p hp bytesInFlight s _ => by
        rw [hits_eq, mem_filter] at hp
        obtain ⟨res, hres⟩ := hreturns hdata p hp.1 hp.2 bytesInFlight s
        exact ⟨res, hres, trivial⟩)
      trivial rfl
    obtain ⟨scan, hscan, -⟩ := hfold
    rw [← ackRanges_eq] at hscan
    obtain ⟨⟨scan', sent⟩, hrun, rfl⟩ := map_eq_ok.mp hscan
    exact ⟨_, by rw [detectAckedPackets, hrun]; rfl⟩
  · intro scan sample h
    obtain ⟨⟨scan₁, sent⟩, hrun, heq⟩ := bind_eq_ok.mp h
    cases heq
    have hharvest := ackRanges_harvest hcc hrun
    have htaken := ackRanges_taken hcc hrun
    rw [hits_eq] at hharvest htaken
    have hlargest := hharvest.largest
    refine ⟨htaken.forall₂ rfl, ?_, hharvest.acked, hharvest.lost, ?_, ?_, ?_⟩
    · exact hharvest.newlyAcked.trans (nil_append _)
    · intro p hp hnew
      have hmem : p ∈ space.sent.filter (·.newlyIn ranges) := mem_filter.mpr ⟨hp, hnew⟩
      obtain ⟨last, hlast⟩ := Option.ne_none_iff_exists'.mp
        (mt getLast?_eq_none_iff.mp (ne_nil_of_mem hmem))
      rw [hlast] at hlargest
      have hnum : scan₁.largestNewlyAckedPktNum = last.pktNum := (Prod.mk.inj hlargest).1
      exact (le_getLast_of_sorted (hsorted.filter _) hlast hmem).trans hnum.ge
    · intro hne
      have hhits : space.sent.filter (·.newlyIn ranges) ≠ [] := by
        intro hnil
        exact hne (by rw [hharvest.newlyAcked, hnil]; rfl)
      obtain ⟨last, hlast⟩ := Option.ne_none_iff_exists'.mp
        (mt getLast?_eq_none_iff.mp hhits)
      rw [hlast] at hlargest
      obtain ⟨hnum, htime⟩ := Prod.mk.inj hlargest
      obtain ⟨hmem, hnew⟩ := mem_filter.mp (mem_of_getLast? hlast)
      exact ⟨last, hmem, hnew, hnum.symm, htime.symm⟩
    · rw [rttSample, hharvest.largestAckedPkt, hharvest.eliciting]
      rfl

/-- Packet 1 was acknowledged before, and packet 2 is not in the ranges. -/
def pinged : PacketNumSpace Unit where
  id := .data
  sent := [ping 0, { ping 1 with timeAcked := some 5 }, ping 2, ping 3]
  largestAckedPkt := 3

theorem pinged_sorted : pinged.sent.Pairwise fun p q => p.pktNum ≤ q.pktNum := by decide

theorem detectAckedPackets_exact_pinged :
    ∃ scan sample, detectAckedPackets (Bbr.controller noModel) (Flights.lan.paths 0)
        ((only 3).insert 0 2) pinged 7 = .ok (scan, sample) ∧
      AcksExactly ((only 3).insert 0 2) pinged 7 scan sample ∧
      (pinged.sent.filter (·.newlyIn ((only 3).insert 0 2))).map (·.pktNum) = [0, 3] := by
  obtain ⟨hreturns, hexact⟩ := detectAckedPackets_exact (Bbr.samplesOnly noModel)
    (Flights.lan.paths 0) ((only 3).insert 0 2) pinged_sorted 7
  obtain ⟨⟨scan, sample⟩, heq⟩ := hreturns fun _ _ _ _ _ _ => ⟨_, rfl⟩
  exact ⟨scan, sample, heq, hexact scan sample heq, by decide⟩

end Recovery

end Tquic
