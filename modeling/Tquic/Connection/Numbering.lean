import Tquic.Connection.Logbook

/-!
# The largest number that was acknowledged

Loss detection, the length of packet numbers and key updates compare the largest number
acknowledged with numbers that were sent. It stays below the counter of the space as long as the
peer acknowledges only what was sent.
-/

namespace Tquic

variable {F S : Type}

namespace Flights

open Recovery (Timed)

structure Numbered (F S : Type) where
  flights : Flights F S
  nextPktNum : ℕ → ℕ

namespace Numbered

def number (nextPktNum : ℕ → ℕ) : Op F → Op F
  | .send path p id status now => .send path { p with pktNum := nextPktNum id.key } id status now
  | op => op

/-- `next_pkt_num` goes up with every packet sent in the space; discarding the space leaves it. -/
def count (spaces : PacketNumSpaceMap F) (nextPktNum : ℕ → ℕ) : Op F → ℕ → ℕ
  | .send _ _ id _ _ =>
    if (spaces.get id).isSome then Function.update nextPktNum id.key (nextPktNum id.key + 1)
    else nextPktNum
  | _ => nextPktNum

def step (cc : CongestionController F S) (w : Numbered F S) (op : Op F) :
    Exec (Numbered F S × Unit) := do
  let (flights, _) ← w.flights.step cc (number w.nextPktNum op)
  return ({ flights := flights, nextPktNum := count w.flights.spaces w.nextPktNum op }, ())

def start (conf : RecoveryConfig) (mulTimeThresh : ℕ → ℕ) (congestion : S) : Numbered F S where
  flights := .start conf mulTimeThresh congestion
  nextPktNum _ := 0

def NamesSent (w : Numbered F S) : Op F → Prop
  | .ack _ ranges _ _ id _ _ => ∀ n ∈ ranges, n < w.nextPktNum id.key
  | _ => True

structure Bounded (w : Numbered F S) : Prop where
  timed : ∀ key space, w.flights.spaces.get? key = some space → Timed space
  largest : ∀ key space, w.flights.spaces.get? key = some space →
    space.largestAckedPkt ≠ u64Max → space.largestAckedPkt < w.nextPktNum key

variable {w w' : Numbered F S}

theorem le_count (spaces : PacketNumSpaceMap F) (nextPktNum : ℕ → ℕ) (op : Op F) (key : ℕ) :
    nextPktNum key ≤ count spaces nextPktNum op key := by
  cases op with
  | send path p id =>
    rw [count]
    split_ifs
    · by_cases hkey : key = id.key
      · rw [hkey, Function.update_self]
        exact Nat.le_succ _
      · rw [Function.update_of_ne hkey]
    · exact le_rfl
  | _ => exact le_rfl

variable {op : Op F} {key n : ℕ}

theorem Acks_number {nextPktNum : ℕ → ℕ}
    (h : (number nextPktNum op).Acks key n) : op.Acks key n := by
  cases op with
  | send => exact h
  | _ => exact h

theorem lt_of_acks (hnames : w.NamesSent op) (h : op.Acks key n) : n < w.nextPktNum key := by
  cases op with
  | ack => exact h.1 ▸ hnames n h.2
  | _ => exact h.elim

theorem Bounded.replace (h : Bounded w) {id : SpaceId} {space space' : PacketNumSpace F}
    (hspace : w.flights.spaces.get id = some space)
    (hspaces : w'.flights.spaces = w.flights.spaces.set id space')
    (hle : ∀ key, w.nextPktNum key ≤ w'.nextPktNum key) (htimed : Timed space')
    (hlargest : space'.largestAckedPkt = space.largestAckedPkt ∨
      space'.largestAckedPkt < w.nextPktNum id.key) : Bounded w' where
  timed key found hfound := by
    rw [hspaces] at hfound
    rcases get?_set hfound with rfl | hold
    · exact htimed
    · exact h.timed key found hold
  largest key found hfound hne := by
    rw [hspaces] at hfound
    by_cases hkey : key = id.key
    · subst hkey
      rw [Logbook.get?_set_self hspace] at hfound
      cases hfound
      apply lt_of_lt_of_le _ (hle id.key)
      rcases hlargest with hsame | hlt
      · rw [hsame] at hne ⊢
        exact h.largest id.key space hspace hne
      · exact hlt
    · rw [Logbook.get?_set_of_ne hkey] at hfound
      exact lt_of_lt_of_le (h.largest key found hfound hne) (hle key)

theorem Bounded.step {cc : CongestionController F S} (hcc : cc.SamplesOnly) (h : Bounded w)
    (hvarints : Varints op) (hnames : w.NamesSent op) {u : Unit}
    (hstep : w.step cc op = .ok (w', u)) : Bounded w' := by
  obtain ⟨⟨flights, v⟩, hflights, heq⟩ := Exec.bind_eq_ok.mp hstep
  cases heq
  have hle := le_count w.flights.spaces w.nextPktNum op
  have hvarints' : Varints (number w.nextPktNum op) := by
    cases op with
    | send => exact trivial
    | _ => exact hvarints
  cases effect_step hcc (fun id => h.timed id.key) hvarints' hflights with
  | nothing hspaces _ _ =>
    refine ⟨?_, ?_⟩
    all_goals simp only [hspaces]
    · exact h.timed
    · intro key space hspace hne
      exact lt_of_lt_of_le (h.largest key space hspace hne) (hle key)
  | moves id space space' hspace hspaces _ hlargest htimed =>
    apply h.replace hspace hspaces hle htimed
    exact hlargest.imp_right fun hacks => lt_of_acks hnames (Acks_number hacks)
  | send _ _ id _ _ space space' _ _ hspace hspaces _ _ hlargest htimed =>
    exact h.replace hspace hspaces hle htimed (.inl hlargest)
  | discard _ id _ _ space space' _ hspace hspaces _ hlargest htimed =>
    exact h.replace hspace hspaces hle htimed (.inl hlargest)
  | addSpace _ hspaces =>
    -- the new space has no largest number yet
    refine ⟨fun key found hfound => ?_, fun key found hfound hne => ?_⟩
    all_goals
      rw [hspaces] at hfound
      rcases SortedMap.get?_insert_eq_some.mp hfound with ⟨rfl, rfl⟩ | ⟨hin, -⟩
    · exact fun hsome => absurd hsome Bool.false_ne_true
    · exact h.timed key found hin
    · exact absurd rfl hne
    · exact lt_of_lt_of_le (h.largest key found hin hne) (hle key)

theorem bounded_start (conf : RecoveryConfig) (mulTimeThresh : ℕ → ℕ) (congestion : S) :
    Bounded (start conf mulTimeThresh congestion : Numbered F S) where
  timed key space hspace :=
    ((Logbook.kept_start conf mulTimeThresh congestion).entry key space hspace).timed
  largest key space hspace hne := by
    have hmem : (key, space) ∈ (PacketNumSpaceMap.new : PacketNumSpaceMap F).entries :=
      SortedMap.get?_eq_some_iff.mp hspace
    simp only [entries_new, List.mem_cons, Prod.mk.injEq, List.not_mem_nil, or_false] at hmem
    rcases hmem with ⟨-, rfl⟩ | ⟨-, rfl⟩ | ⟨-, rfl⟩ <;> exact absurd rfl hne

/-- In every run in which ACK frames name only numbers that were sent, the largest number
acknowledged in a space is below the next number. -/
theorem largestAckedPkt_lt_nextPktNum {cc : CongestionController F S} (hcc : cc.SamplesOnly)
    (conf : RecoveryConfig) (mulTimeThresh : ℕ → ℕ) (congestion : S) {w : Numbered F S}
    (hreaches : Exec.Reaches (step cc) (fun w op ↦ Varints op ∧ w.NamesSent op)
      (start conf mulTimeThresh congestion) w)
    {id : SpaceId} {space : PacketNumSpace F} (hspace : w.flights.spaces.get id = some space)
    (hacked : space.largestAckedPkt ≠ u64Max) : space.largestAckedPkt < w.nextPktNum id.key := by
  have hbounded : Bounded w := by
    apply hreaches.invariant Bounded _ (bounded_start conf mulTimeThresh congestion)
    intro w op w' u hw hlegal hstep
    exact hw.step hcc hlegal.1 hlegal.2 hstep
  exact hbounded.largest id.key space hspace hacked

instance (w : Numbered F S) (op : Op F) : Decidable (w.NamesSent op) := by
  induction op using Op.casesOn <;> unfold NamesSent <;> infer_instance

open Recovery (ping only mem_only completed lanConf noModel)

def lanNumbered : Numbered Unit (Bbr Unit) :=
  start lanConf (fun d => d * 9 / 8) { deliveryRateEstimator := .new 0, model := () }

def lanAcked : Numbered Unit (Bbr Unit) :=
  Exec.follow (step (Bbr.controller noModel)) (fun w op => Varints op ∧ w.NamesSent op) lanNumbered
    reordered

theorem largestAckedPkt_lt_nextPktNum_reordered :
    ∃ space, lanAcked.flights.spaces.get .data = some space ∧ space.largestAckedPkt = 3 ∧
      space.largestAckedPkt < lanAcked.nextPktNum 2 := by
  obtain ⟨space, hspace⟩ : ∃ space, lanAcked.flights.spaces.get .data = some space :=
    ⟨_, Option.eq_some_of_isSome (by decide +kernel)⟩
  have hlargest : (lanAcked.flights.spaces.get .data).map (·.largestAckedPkt) = some 3 := by
    decide +kernel
  rw [hspace] at hlargest
  have hthree : space.largestAckedPkt = 3 := Option.some.inj hlargest
  have hacked : space.largestAckedPkt ≠ u64Max := by
    rw [hthree]
    decide
  exact ⟨space, hspace, hthree, largestAckedPkt_lt_nextPktNum (Bbr.samplesOnly noModel) lanConf
    (fun d => d * 9 / 8) { deliveryRateEstimator := .new 0, model := () }
    (Exec.reaches_follow lanNumbered reordered) hspace hacked⟩

def lanPinged : Numbered Unit (Bbr Unit) :=
  Exec.follow (step (Bbr.controller noModel)) (fun _ op => Varints op) lanNumbered
    [.send 0 (ping 0) .data completed 0]

/-- An ACK frame for number 5, which was never sent, is not refused, and 5 becomes the largest
number acknowledged. -/
theorem unsent_acknowledged :
    ∃ s w', Exec.Reaches (step (Bbr.controller noModel)) (fun _ op ↦ Varints op) lanNumbered
        lanPinged ∧
      (lanPinged.flights.paths 0).onAckReceived (Bbr.controller noModel) (only 5) 0 .data
        lanPinged.flights.spaces completed 10000000 = .ok (s, .ok (0, 0)) ∧
      lanPinged.step (Bbr.controller noModel)
        (.ack 0 (only 5) ⟨5, mem_only 5⟩ 0 .data completed 10000000) = .ok (w', ()) ∧
      w'.nextPktNum 2 = 1 ∧
      (w'.flights.spaces.get .data).map (·.largestAckedPkt) = some 5 :=
  ⟨_, _, Exec.reaches_follow lanNumbered _, rfl, rfl, by decide +kernel, by decide +kernel⟩

end Numbered

end Flights

end Tquic
