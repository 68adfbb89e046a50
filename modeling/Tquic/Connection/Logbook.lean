import Tquic.Connection.Custody

/-!
# No frame is forgotten

The packets sent in each space are written down until it is discarded. Each is in the queue with
its frames or has handed them to one of the two lists; it leaves the queue only when it is done,
and is declared lost only by the rule.
-/

namespace Tquic

open Function Recovery SortedMap List Option

variable {F S : Type}

namespace Recovery

open Stock (Moves)

/-! ## Sending, timeouts and discarding -/

/-- The packet that the queue keeps for a packet sent. -/
structure Copies (p q : SentPacket F) : Prop where
  pktNum : q.pktNum = p.pktNum
  frames : q.frames = p.frames
  timeAcked : q.timeAcked = none
  timeLost : q.timeLost = none

theorem recordSent_frame (space : PacketNumSpace F) (p : SentPacket F) (now : ℤ) :
    (recordSent space p now).stock = { space.stock with sent := space.sent ++ [p] } ∧
      (recordSent space p now).lossTime = space.lossTime ∧
      (recordSent space p now).largestAckedPkt = space.largestAckedPkt := by
  simp only [recordSent]
  cases p.inFlight <;> cases p.ackEliciting <;> exact ⟨rfl, rfl, rfl⟩

section Events

variable {cc : CongestionController F S} {r : Recovery S} {spaceId : SpaceId}
  {spaces : PacketNumSpaceMap F} {space : PacketNumSpace F}

theorem onPacketSent_stock (hspace : spaces.get spaceId = some space) (hcc : cc.SamplesOnly)
    {p : SentPacket F} (hacked : p.timeAcked = none) (hlost : p.timeLost = none)
    (status : HandshakeStatus) (now : ℤ) :
    ∃ r' space' q, r.onPacketSent cc p spaceId spaces status now =
        (r', spaces.set spaceId space') ∧ Copies p q ∧
      space'.stock = { space.stock with sent := space.sent ++ [q] } ∧
      space'.largestAckedPkt = space.largestAckedPkt ∧ (Timed space → Timed space') := by
  obtain ⟨p₁, c, hp₁, state, hstate⟩ := sampled_onSent hcc r p spaceId now
  have hcopies : Copies p p₁ := by
    subst hstate
    exact ⟨rfl, rfl, hacked, hlost⟩
  obtain ⟨hstock, htime, hlargest⟩ := recordSent_frame space p₁ now
  have htimed (h : Timed space) : Timed (recordSent space p₁ now) := by
    rw [Timed, htime, hlargest]
    exact h
  simp only [onPacketSent, hspace, hp₁]
  cases p₁.inFlight with
  | false => exact ⟨_, _, p₁, rfl, hcopies, hstock, hlargest, htimed⟩
  | true => exact ⟨_, _, p₁, rfl, hcopies, hstock, hlargest, htimed⟩

theorem onPktNumSpaceDiscarded_stock (hspace : spaces.get spaceId = some space)
    (status : HandshakeStatus) (now : ℤ) :
    ∃ r' space', r.onPktNumSpaceDiscarded spaceId spaces status now =
        (r', spaces.set spaceId space') ∧ space'.stock = ⟨[], [], []⟩ ∧
      space'.largestAckedPkt = space.largestAckedPkt ∧ Timed space' := by
  simp only [onPktNumSpaceDiscarded, hspace]
  exact ⟨_, _, rfl, rfl, rfl, fun h => absurd h Bool.false_ne_true⟩

theorem getLossTimeAndSpace_lossTime {time : ℤ} {sid : SpaceId}
    (h : getLossTimeAndSpace spaceId spaces = (some time, sid))
    (hspace : spaces.get sid = some space) : space.lossTime = some time := by
  have hinv : ∀ time, (getLossTimeAndSpace spaceId spaces).1 = some time →
      ∀ space, spaces.get (getLossTimeAndSpace spaceId spaces).2 = some space →
        space.lossTime = some time := by
    apply foldlRecOn (motive := fun best : Option ℤ × SpaceId => ∀ time, best.1 = some time →
      ∀ space, spaces.get best.2 = some space → space.lossTime = some time)
    · intro time htime
      cases htime
    · rintro ⟨best, bestId⟩ hbest id -
      cases hget : spaces.get id with
      | none => simpa only [hget] using hbest
      | some found =>
        simp only
        split_ifs
        · intro time htime space hspace
          obtain rfl : found = space := some.inj (hget.symm.trans hspace)
          exact htime
        · exact hbest
  rw [h] at hinv
  exact hinv time rfl space hspace

theorem onLossDetectionTimeout_moves (cc : CongestionController F S) (r : Recovery S)
    (htimed : ∀ id space, spaces.get id = some space → Timed space) (status : HandshakeStatus)
    (now : ℤ) :
    (r.onLossDetectionTimeout cc spaceId spaces status now).1.2 = spaces ∨
      ∃ id space space', spaces.get id = some space ∧
        (r.onLossDetectionTimeout cc spaceId spaces status now).1.2 = spaces.set id space' ∧
        Moves (fun _ => False) (fun n t => space'.largestAckedPkt ≠ u64Max ∧
          (r.onLossDetectionTimeout cc spaceId spaces status now).1.1.LossRule now
            space'.largestAckedPkt n t) space.stock space'.stock ∧
        space'.largestAckedPkt = space.largestAckedPkt ∧ Timed space' := by
  obtain ⟨time, id, hid⟩ : ∃ time id, getLossTimeAndSpace spaceId spaces = (time, id) := ⟨_, _, rfl⟩
  cases hspace : spaces.get id with
  | none =>
    left
    simp only [onLossDetectionTimeout, hid, hspace]
  | some space =>
    cases time with
    | none =>
      simp only [onLossDetectionTimeout, hid, hspace, isSome_none, Bool.false_eq_true,
        if_false, onProbeTimeout]
      split
      · exact .inl rfl
      · next space hspace =>
          refine .inr ⟨_, space, _, hspace, rfl, .single (.probe _ _), rfl, ?_⟩
          exact htimed _ space hspace
    | some =>
      have hlossTime := getLossTimeAndSpace_lossTime hid hspace
      have hne : space.largestAckedPkt ≠ u64Max :=
        htimed id space hspace (by rw [hlossTime]; rfl)
      obtain ⟨-, hsame, hlargest⟩ :=
        @detectLostPackets_moves F S (fun _ => False) cc r space now
      simp only [onLossDetectionTimeout, hid, hspace, isSome_some, if_true]
      refine .inr ⟨id, space, _, hspace, rfl, ?_, hlargest, ?_⟩
      · rw [drainSentPackets_largestAckedPkt, hlargest]
        refine .mono ((SameRule.setLossDetectionTimer ?_ _ _ _ _).moves
          (losses_moves cc r space now _)) (fun _ h => h) fun _ _ h => ⟨hne, h⟩
        exact ⟨hsame.pktThresh, hsame.lossDelay⟩
      · intro _
        rw [drainSentPackets_largestAckedPkt, hlargest]
        exact hne

end Events

end Recovery

namespace Flights

open Stock (Moves Turn Turns Holds)
open Recovery (Timed Copies)

/-! ## One event -/

def Op.Acks (key : ℕ) : Op F → ℕ → Prop
  | .ack _ ranges _ _ spaceId _ _, n => spaceId.key = key ∧ n ∈ ranges
  | _, _ => False

/-- The rule by which an event may declare a packet lost, by the path's thresholds and the largest
number acknowledged after it. -/
def Op.LossRule (w' : Flights F S) (space' : PacketNumSpace F) : Op F → ℕ → ℤ → Prop
  | .ack path _ _ _ _ _ now, n, t => space'.largestAckedPkt ≠ u64Max ∧
      (w'.paths path).LossRule now space'.largestAckedPkt n t
  | .timeout path _ _ now, n, t => space'.largestAckedPkt ≠ u64Max ∧
      (w'.paths path).LossRule now space'.largestAckedPkt n t
  | _, _, _ => False

def Varints : Op F → Prop
  | .ack _ ranges _ _ _ _ _ => ∀ n ∈ ranges, n ≤ vintMax
  | _ => True

def Op.target? : Op F → Option SpaceId
  | .send _ _ id _ _ => some id
  | .discard _ id _ _ => some id
  | _ => none

inductive Effect (w w' : Flights F S) (op : Op F) : Prop
  | nothing (hspaces : w'.spaces = w.spaces) (hadd : op ≠ .addSpace)
      (htarget : ∀ id, op.target? = some id → w.spaces.get id = none)
  | moves (id : SpaceId) (space space' : PacketNumSpace F) (hspace : w.spaces.get id = some space)
      (hspaces : w'.spaces = w.spaces.set id space')
      (hmoves : Moves (op.Acks id.key) (op.LossRule w' space') space.stock space'.stock)
      (hlargest : space'.largestAckedPkt = space.largestAckedPkt ∨
        op.Acks id.key space'.largestAckedPkt)
      (htimed : Timed space') (hadd : op ≠ .addSpace) (htarget : op.target? = none)
  | send (path : ℕ) (p : SentPacket F) (id : SpaceId) (status : HandshakeStatus) (now : ℤ)
      (space space' : PacketNumSpace F) (q : SentPacket F) (hop : op = .send path p id status now)
      (hspace : w.spaces.get id = some space) (hspaces : w'.spaces = w.spaces.set id space')
      (hcopies : Copies p q)
      (hstock : space'.stock = { space.stock with sent := space.sent ++ [q] })
      (hlargest : space'.largestAckedPkt = space.largestAckedPkt) (htimed : Timed space')
  | discard (path : ℕ) (id : SpaceId) (status : HandshakeStatus) (now : ℤ)
      (space space' : PacketNumSpace F) (hop : op = .discard path id status now)
      (hspace : w.spaces.get id = some space) (hspaces : w'.spaces = w.spaces.set id space')
      (hstock : space'.stock = ⟨[], [], []⟩)
      (hlargest : space'.largestAckedPkt = space.largestAckedPkt) (htimed : Timed space')
  | addSpace (hop : op = .addSpace)
      (hspaces : w'.spaces = w.spaces.insert w.nextDataExtId { id := .dataExt w.nextDataExtId })

variable {cc : CongestionController F S}

theorem effect_step (hcc : cc.SamplesOnly) {w w' : Flights F S}
    (htimed : ∀ id space, w.spaces.get id = some space → Timed space) {op : Op F}
    (hvarints : Varints op) {u : Unit} (hstep : w.step cc op = .ok (w', u)) : Effect w w' op := by
  cases op with
  | send path p id status now =>
    cases hstep
    cases hspace : w.spaces.get id with
    | none =>
      refine .nothing ?_ (by rintro ⟨⟩) ?_
      · rw [onPacketSent, hspace]
        rfl
      · rintro _ ⟨⟩
        exact hspace
    | some space =>
      obtain ⟨r', space', q, heq, ⟨hnum, hframes, hacked, hlost⟩, hstock, hlargest, hkeep⟩ :=
        onPacketSent_stock hspace hcc (p := { p with timeAcked := none, timeLost := none })
          rfl rfl status now
      rw [heq]
      exact .send path p id status now space space' q rfl hspace rfl
        ⟨hnum, hframes, hacked, hlost⟩ hstock hlargest (hkeep (htimed id space hspace))
  | ack path ranges nonempty delay id =>
    obtain ⟨⟨s, lost⟩, hack, heq⟩ := Exec.bind_eq_ok.mp hstep
    cases heq
    cases hspace : w.spaces.get id with
    | none =>
      rw [onAckReceived, hspace] at hack
      cases hack
      exact .nothing rfl (by rintro ⟨⟩) fun _ heq => by cases heq
    | some space =>
      obtain ⟨space', largest, hset, hmem, hlargest, hmoves⟩ :=
        onAckReceived_moves hspace hcc hack
      have hne : space'.largestAckedPkt ≠ u64Max := by
        rw [hlargest]
        exact raiseLargestAcked_ne (hvarints largest hmem)
      have hraised : space'.largestAckedPkt = space.largestAckedPkt ∨
          space'.largestAckedPkt ∈ ranges := by
        rw [hlargest]
        rcases raiseLargestAcked_eq space largest with ⟨heq, -⟩ | heq
        · exact .inl heq
        · right
          rw [heq]
          exact hmem
      refine .moves id space space' hspace hset (hmoves.mono (fun n hn => ⟨rfl, hn⟩) ?_)
        (hraised.imp_right fun hin => ⟨rfl, hin⟩) (fun _ => hne) (by rintro ⟨⟩) rfl
      intro n t hrule
      refine ⟨hne, ?_⟩
      change (update w.paths path s.1 path).LossRule _ _ _ _
      rw [update_self]
      exact hrule
  | timeout path id status now =>
    cases hstep
    rcases onLossDetectionTimeout_moves cc (w.paths path) htimed status now with
      hsame | ⟨id', space, space', hspace, hset, hmoves, hlargest, hkeep⟩
    · exact .nothing hsame (by rintro ⟨⟩) fun _ heq => by cases heq
    · refine .moves id' space space' hspace hset (hmoves.mono (fun n hn => hn.elim) ?_)
        (.inl hlargest) hkeep (by rintro ⟨⟩) rfl
      rintro n t ⟨hne, hrule⟩
      refine ⟨hne, ?_⟩
      change (update w.paths path _ path).LossRule _ _ _ _
      rw [update_self]
      exact hrule
  | discard path id status now =>
    cases hstep
    cases hspace : w.spaces.get id with
    | none =>
      rw [onPktNumSpaceDiscarded, hspace]
      refine .nothing rfl (by rintro ⟨⟩) ?_
      rintro _ ⟨⟩
      exact hspace
    | some space =>
      obtain ⟨r', space', heq, hstock, hlargest, hkeep⟩ :=
        onPktNumSpaceDiscarded_stock hspace status now
      rw [heq]
      exact .discard path id status now space space' rfl hspace rfl hstock hlargest hkeep
  | addSpace =>
    cases hstep
    exact .addSpace rfl rfl

/-! ## Runs -/

structure Logbook (F S : Type) where
  flights : Flights F S
  log : ℕ → List (SentPacket F)

namespace Logbook

def write (spaces : PacketNumSpaceMap F) (log : ℕ → List (SentPacket F)) :
    Op F → ℕ → List (SentPacket F)
  | .send _ p id _ _ =>
    if (spaces.get id).isSome then Function.update log id.key (log id.key ++ [p]) else log
  | .discard _ id _ _ =>
    if (spaces.get id).isSome then Function.update log id.key [] else log
  | _ => log

def step (cc : CongestionController F S) (w : Logbook F S) (op : Op F) :
    Exec (Logbook F S × Unit) := do
  let (flights, _) ← w.flights.step cc op
  return ({ flights := flights, log := write w.flights.spaces w.log op }, ())

def start (conf : RecoveryConfig) (mulTimeThresh : ℕ → ℕ) (congestion : S) : Logbook F S where
  flights := .start conf mulTimeThresh congestion
  log _ := []

/-- What is known of one space and the packets written down for it. -/
structure Entry (space : PacketNumSpace F) (log : List (SentPacket F)) : Prop where
  timed : Timed space
  held : ∀ p ∈ log, Holds p space.stock

structure Kept (w : Logbook F S) : Prop where
  entry : ∀ key space, w.flights.spaces.get? key = some space → Entry space (w.log key)
  blank : ∀ key, w.flights.spaces.get? key = none → w.log key = []
  fresh : ∀ key, w.flights.nextDataExtId ≤ key → w.flights.spaces.get? key = none

variable {w w' : Logbook F S}

variable {id : SpaceId} {space' : PacketNumSpace F} {op : Op F} {space : PacketNumSpace F}
  {spaces : PacketNumSpaceMap F}

theorem get?_set_self (hspace : spaces.get id = some space) (space' : PacketNumSpace F) :
    SortedMap.get? (spaces.set id space') id.key = some space' := by
  have hget : spaces.get? id.key = some space := hspace
  rw [PacketNumSpaceMap.set, get?_modify, hget, map_some, if_pos rfl]

theorem get?_set_of_ne {key : ℕ} (hne : key ≠ id.key)
    (space' : PacketNumSpace F) : SortedMap.get? (spaces.set id space') key = spaces.get? key := by
  rw [PacketNumSpaceMap.set, get?_modify]
  simp only [if_neg hne, Option.map_id']

theorem Kept.replace (h : Kept w) (hspace : w.flights.spaces.get id = some space)
    (hspaces : w'.flights.spaces = w.flights.spaces.set id space')
    (hnext : w'.flights.nextDataExtId = w.flights.nextDataExtId)
    (hlog : ∀ key, key ≠ id.key → w'.log key = w.log key) (hentry : Entry space' (w'.log id.key)) :
    Kept w' where
  entry key found hfound := by
    rw [hspaces] at hfound
    by_cases hkey : key = id.key
    · subst hkey
      rw [get?_set_self hspace] at hfound
      cases hfound
      exact hentry
    · rw [get?_set_of_ne hkey] at hfound
      rw [hlog key hkey]
      exact h.entry key found hfound
  blank key hnone := by
    rw [hspaces] at hnone
    by_cases hkey : key = id.key
    · subst hkey
      rw [get?_set_self hspace] at hnone
      cases hnone
    · rw [get?_set_of_ne hkey] at hnone
      rw [hlog key hkey]
      exact h.blank key hnone
  fresh key hle := by
    rw [hnext] at hle
    have hnone := h.fresh key hle
    have hkey : key ≠ id.key := by
      rintro rfl
      cases hspace.symm.trans hnone
    rw [hspaces, get?_set_of_ne hkey]
    exact hnone

theorem nextDataExtId_step {w w' : Flights F S} {u : Unit}
    (hstep : w.step cc op = .ok (w', u)) (hop : op ≠ .addSpace) :
    w'.nextDataExtId = w.nextDataExtId := by
  cases op with
  | ack =>
    obtain ⟨_, -, heq⟩ := Exec.bind_eq_ok.mp hstep
    cases heq
    rfl
  | addSpace => exact absurd rfl hop
  | _ =>
    cases hstep
    rfl

theorem write_eq_self {log : ℕ → List (SentPacket F)}
    (htarget : ∀ id, op.target? = some id → spaces.get id = none) : write spaces log op = log := by
  cases op with
  | send path p id =>
    rw [write, htarget id rfl]
    rfl
  | discard path id =>
    rw [write, htarget id rfl]
    rfl
  | _ => rfl

theorem Kept.addSpace (h : Kept w)
    (hspaces : w'.flights.spaces = w.flights.spaces.insert w.flights.nextDataExtId
      { id := .dataExt w.flights.nextDataExtId })
    (hnext : w'.flights.nextDataExtId = w.flights.nextDataExtId + 1) (hlog : w'.log = w.log) :
    Kept w' where
  entry key found hfound := by
    rw [hspaces] at hfound
    rcases get?_insert_eq_some.mp hfound with ⟨rfl, rfl⟩ | ⟨hfound, -⟩
    · rw [hlog, h.blank _ (h.fresh _ le_rfl)]
      exact ⟨fun hsome => absurd hsome Bool.false_ne_true, fun p hp => absurd hp not_mem_nil⟩
    · rw [hlog]
      exact h.entry key found hfound
  blank key hnone := by
    rw [hspaces] at hnone
    by_cases hkey : key = w.flights.nextDataExtId
    · subst hkey
      rw [get?_insert_self] at hnone
      cases hnone
    · rw [get?_insert_of_ne _ hkey] at hnone
      rw [hlog]
      exact h.blank key hnone
  fresh key hle := by
    rw [hspaces, get?_insert_of_ne _ (by omega)]
    exact h.fresh key (by omega)

/-- Every event keeps the packets that were logged where the spaces hold them. -/
theorem Kept.step (hcc : cc.SamplesOnly) (h : Kept w)
    (hvarints : Varints op) {u : Unit} (hstep : w.step cc op = .ok (w', u)) : Kept w' := by
  obtain ⟨⟨flights, v⟩, hflights, heq⟩ := Exec.bind_eq_ok.mp hstep
  cases heq
  have htimed (id : SpaceId) (space : PacketNumSpace F)
      (hspace : w.flights.spaces.get id = some space) : Timed space :=
    (h.entry id.key space hspace).timed
  have hnext := nextDataExtId_step hflights
  cases effect_step hcc htimed hvarints hflights with
  | nothing hspaces hadd htarget =>
    refine ⟨?_, ?_, ?_⟩
    all_goals simp only [hspaces, write_eq_self htarget, hnext hadd]
    · exact h.entry
    · exact h.blank
    · exact h.fresh
  | moves id space space' hspace hspaces hmoves _ hkeep hadd htarget =>
    have hlog : write w.flights.spaces w.log op = w.log :=
      write_eq_self fun id hid => by rw [htarget] at hid; cases hid
    refine h.replace hspace hspaces (hnext hadd) (fun key _ => congrFun hlog key) ?_
    rw [hlog]
    exact ⟨hkeep, fun p hp => ((h.entry id.key space hspace).held p hp).turns hmoves.turns⟩
  | send path p id status now space space' q hop hspace hspaces hcopies hstock _ hkeep =>
    subst hop
    have hlog : write w.flights.spaces w.log (.send path p id status now) =
        update w.log id.key (w.log id.key ++ [p]) := by
      rw [write, hspace]
      rfl
    refine h.replace hspace hspaces (hnext (by rintro ⟨⟩)) (fun key hkey => ?_) ⟨hkeep, ?_⟩
    · rw [hlog]
      exact update_of_ne hkey _ _
    · rw [hlog, hstock]
      intro p' hp'
      simp only [update_self] at hp'
      rcases mem_append.mp hp' with hold | hnew
      · exact ((h.entry id.key space hspace).held p' hold).grow (subset_append_left _ _)
          (.refl _) (.refl _)
      · rw [mem_singleton.mp hnew]
        exact .inl ⟨q, mem_append_right _ mem_cons_self, hcopies.pktNum, hcopies.frames,
          hcopies.timeAcked, hcopies.timeLost⟩
  | discard path id status now space space' hop hspace hspaces _ _ hkeep =>
    subst hop
    have hlog : write w.flights.spaces w.log (.discard path id status now) =
        update w.log id.key [] := by
      rw [write, hspace]
      rfl
    refine h.replace hspace hspaces (hnext (by rintro ⟨⟩)) (fun key hkey => ?_) ⟨hkeep, ?_⟩
    · rw [hlog]
      exact update_of_ne hkey _ _
    · rw [hlog]
      simp only [update_self]
      exact fun p hp => absurd hp not_mem_nil
  | addSpace hop hspaces =>
    subst hop
    cases hflights
    exact h.addSpace hspaces rfl rfl

theorem kept_start (conf : RecoveryConfig) (mulTimeThresh : ℕ → ℕ) (congestion : S) :
    Kept (start conf mulTimeThresh congestion : Logbook F S) where
  entry key space hspace := by
    have hmem : (key, space) ∈ (.new : PacketNumSpaceMap F).entries :=
      get?_eq_some_iff.mp hspace
    refine ⟨fun hsome => ?_, fun p hp => absurd hp not_mem_nil⟩
    simp only [entries_new, mem_cons, not_mem_nil, or_false] at hmem
    rcases hmem with ⟨-, rfl⟩ | ⟨-, rfl⟩ | ⟨-, rfl⟩ <;> cases hsome
  blank _ _ := rfl
  fresh := (counted_start (fun _ => 0) conf mulTimeThresh congestion).fresh

/-- What an event does to one space that it does not discard. -/
structure Handled (op : Op F) (key : ℕ) (w' : Flights F S) (space space' : PacketNumSpace F) :
    Prop where
  stays : ∀ p ∈ space.sent, (∃ q ∈ space'.sent, q.pktNum = p.pktNum ∧ q.timeSent = p.timeSent) ∨
    Stock.Done (op.Acks key) (op.LossRule w' space') space'.stock p
  lost : ∀ q ∈ space'.sent, q.timeLost.isSome = true →
    (∃ p ∈ space.sent, p.pktNum = q.pktNum ∧ p.timeLost.isSome = true) ∨
      op.LossRule w' space' q.pktNum q.timeSent

theorem Handled.of_turns {key : ℕ} {w' : Flights F S}
    (h : Turns (op.Acks key) (op.LossRule w' space') space.stock space'.stock) :
    Handled op key w' space space' where
  stays p hp := by
    rcases h.stays p hp with ⟨q, hq, hturn⟩ | hdone
    · exact .inl ⟨q, hq, hturn.pktNum, hturn.timeSent⟩
    · exact .inr hdone
  lost q hq hlost := by
    obtain ⟨p, hp, hturn⟩ := h.comes q hq
    rcases hturn.lost hlost with hbefore | hrule
    · exact .inl ⟨p, hp, hturn.pktNum.symm, hbefore⟩
    · exact .inr (by rw [hturn.pktNum, hturn.timeSent]; exact hrule)

theorem Handled.refl (op : Op F) (key : ℕ) (w' : Flights F S) (space : PacketNumSpace F) :
    Handled op key w' space space :=
  .of_turns (.refl space.stock)

theorem Handled.send (op : Op F) (key : ℕ) (w' : Flights F S)
    {p q : SentPacket F} (hcopies : Copies p q)
    (hstock : space'.stock = { space.stock with sent := space.sent ++ [q] }) :
    Handled op key w' space space' := by
  have hsent : space'.sent = space.sent ++ [q] := congrArg Stock.sent hstock
  refine ⟨fun p hp => .inl ⟨p, ?_, rfl, rfl⟩, fun q' hq' hlost => ?_⟩
  · exact hsent ▸ mem_append_left _ hp
  · rw [hsent] at hq'
    rcases mem_append.mp hq' with hold | hnew
    · exact .inl ⟨q', hold, rfl, hlost⟩
    · rw [mem_singleton.mp hnew, hcopies.timeLost] at hlost
      cases hlost

theorem handled_of_effect {w w' : Flights F S} (heffect : Effect w w' op)
    (hfresh : ∀ key, w.nextDataExtId ≤ key → w.spaces.get? key = none)
    (hspace : w.spaces.get id = some space)
    (hdiscard : ∀ path id' status now, op = .discard path id' status now → id'.key ≠ id.key) :
    ∃ space', w'.spaces.get id = some space' ∧ Handled op id.key w' space space' := by
  -- where the event worked on another space, this one is as it was
  have hother {id' : SpaceId} {found : PacketNumSpace F} (hne : id.key ≠ id'.key)
      (hspaces : w'.spaces = w.spaces.set id' found) : w'.spaces.get id = some space := by
    rw [PacketNumSpaceMap.get, hspaces, get?_set_of_ne hne]
    exact hspace
  cases heffect with
  | nothing hspaces => exact ⟨space, by rw [hspaces]; exact hspace, .refl op id.key w' space⟩
  | moves id' space₁ space' hspace₁ hspaces hmoves _ _ _ _ =>
    by_cases hkey : id.key = id'.key
    · have hsame : space₁ = space := by
        rw [PacketNumSpaceMap.get, ← hkey] at hspace₁
        exact some.inj (hspace₁.symm.trans hspace)
      subst hsame
      refine ⟨space', ?_, .of_turns (hkey ▸ hmoves.turns)⟩
      rw [PacketNumSpaceMap.get, hspaces, hkey, get?_set_self hspace₁]
    · exact ⟨space, hother hkey hspaces, .refl op id.key w' space⟩
  | send path p id' status now space₁ space' q _ hspace₁ hspaces hcopies hstock _ _ =>
    by_cases hkey : id.key = id'.key
    · have hsame : space₁ = space := by
        rw [PacketNumSpaceMap.get, ← hkey] at hspace₁
        exact some.inj (hspace₁.symm.trans hspace)
      subst hsame
      refine ⟨space', ?_, .send op id.key w' hcopies hstock⟩
      rw [PacketNumSpaceMap.get, hspaces, hkey, get?_set_self hspace₁]
    · exact ⟨space, hother hkey hspaces, .refl op id.key w' space⟩
  | discard path id' status now _ _ hop _ hspaces =>
    exact ⟨space, hother (hdiscard path id' status now hop).symm hspaces, .refl op id.key w' space⟩
  | addSpace _ hspaces =>
    have hne : id.key ≠ w.nextDataExtId := by
      intro heq
      have hnone := hfresh id.key heq.ge
      cases hspace.symm.trans hnone
    refine ⟨space, ?_, .refl op id.key w' space⟩
    rw [PacketNumSpaceMap.get, hspaces, get?_insert_of_ne _ hne]
    exact hspace

/-- Every packet sent in a space since it was last discarded has its frames in the queue or has
handed them on; it stays there until it is done, and is lost only by the rule. -/
theorem frames_in_custody {cc : CongestionController F S} (hcc : cc.SamplesOnly)
    (conf : RecoveryConfig) (mulTimeThresh : ℕ → ℕ) (congestion : S) {w : Logbook F S}
    (hreaches : Exec.Reaches (step cc) (fun _ op ↦ Varints op)
      (start conf mulTimeThresh congestion) w)
    {id : SpaceId} {space : PacketNumSpace F} (hspace : w.flights.spaces.get id = some space) :
    (∀ p ∈ w.log id.key, Holds p space.stock) ∧
      ∀ op w' u, Varints op → w.step cc op = .ok (w', u) →
        (∀ path id' status now, op = .discard path id' status now → id'.key ≠ id.key) →
        ∃ space', w'.flights.spaces.get id = some space' ∧
          Handled op id.key w'.flights space space' := by
  have hkept : Kept w := by
    apply hreaches.invariant Kept _ (kept_start conf mulTimeThresh congestion)
    intro w op w' u hw hvarints hstep
    exact hw.step hcc hvarints hstep
  refine ⟨(hkept.entry id.key space hspace).held, ?_⟩
  intro op w' u hvarints hstep hdiscard
  obtain ⟨⟨flights, v⟩, hflights, heq⟩ := Exec.bind_eq_ok.mp hstep
  cases heq
  have heffect := effect_step hcc (fun id space hspace => (hkept.entry id.key space hspace).timed)
    hvarints hflights
  exact handled_of_effect heffect hkept.fresh hspace hdiscard

instance (op : Op F) : Decidable (Varints op) := by
  induction op using Op.casesOn <;> unfold Varints <;> infer_instance

open Recovery (ping only mem_only completed lanConf noModel)

def lanStart : Logbook Unit (Bbr Unit) :=
  start lanConf (fun d => d * 9 / 8) { deliveryRateEstimator := .new 0, model := () }

def lanReordered : Logbook Unit (Bbr Unit) :=
  Exec.follow (step (Bbr.controller noModel)) (fun _ op => Varints op) lanStart reordered

theorem frames_in_custody_reordered :
    ∃ space, lanReordered.flights.spaces.get .data = some space ∧
      (lanReordered.log 2).map (·.pktNum) = [0, 1, 2, 3] ∧
      space.sent.map (fun p ↦ (p.pktNum, p.frames)) = [(0, []), (1, [()]), (2, [()]), (3, [])] ∧
      ∀ p ∈ lanReordered.log 2, Holds p space.stock := by
  obtain ⟨space, hspace⟩ : ∃ space, lanReordered.flights.spaces.get .data = some space :=
    ⟨_, eq_some_of_isSome (by decide +kernel)⟩
  refine ⟨space, hspace, by decide +kernel, ?_, ?_⟩
  · have hsent : (lanReordered.flights.spaces.get .data).map
        (fun space => space.sent.map fun p => (p.pktNum, p.frames)) =
          some [(0, []), (1, [()]), (2, [()]), (3, [])] := by decide +kernel
    rw [hspace] at hsent
    exact some.inj hsent
  · exact (frames_in_custody (Bbr.samplesOnly noModel) lanConf (fun d => d * 9 / 8)
      { deliveryRateEstimator := .new 0, model := () }
      (Exec.reaches_follow lanStart reordered) hspace).1

def lanHello : Logbook Unit (Bbr Unit) :=
  Exec.follow (step (Bbr.controller noModel)) (fun _ op => Varints op) lanStart
    [.send 0 (ping 0) .initial completed 0]

/-- Discarding the Initial space drops a packet that is neither acknowledged nor lost, and forgets
its frame. -/
theorem discarded_with_its_frames :
    ∃ w', Exec.Reaches (step (Bbr.controller noModel)) (fun _ op ↦ Varints op) lanStart lanHello ∧
      lanHello.step (Bbr.controller noModel) (.discard 0 .initial completed 1000) = .ok (w', ()) ∧
      (lanHello.flights.spaces.get .initial).map (fun space ↦
        space.sent.map fun p ↦ (p.frames, p.timeAcked, p.timeLost)) = some [([()], none, none)] ∧
      (w'.flights.spaces.get .initial).map (fun space ↦ (space.sent, space.acked, space.lost)) =
        some ([], [], []) :=
  ⟨_, Exec.reaches_follow lanStart _, rfl, by decide +kernel, by decide +kernel⟩

end Logbook

end Flights

end Tquic
