import Tquic.Connection.Roster

/-!
# Credits for closed streams

The limits on the streams of the peer over whole runs: how many credits were given back, how many
streams the peer can have at once, and what happens to frames beyond the limit.
-/

namespace Tquic

open Finset

def PeerFrame.LooksFor (id : ℕ) : PeerFrame → Prop
  | .resetStream id' _ _ | .stream id' _ _ _ => id'.val = id
  | .stopSending id' _ | .maxStreamData id' _ => id'.val = id ∧ isBidi id = true
  | .maxData _ | .maxStreams _ _ | .dataBlocked _ | .streamDataBlocked _ _ | .streamsBlocked _ _ =>
    False

namespace StreamMap

variable {m : StreamMap} {id : ℕ} {s : Stream}

/-- The streams that were created and then closed; those no longer live were destroyed. -/
def closedIds (m : StreamMap) : Finset ℕ :=
  {id ∈ m.streams.keys | m.isClosed id = true} ∪ (m.destroyed.map Prod.fst).toFinset

def closedPeers (m : StreamMap) (b : Bool) : Finset ℕ :=
  {id ∈ m.closedIds | isLocal id m.isServer = false ∧ isBidi id = b}

/-- The streams that the peer may have opened, by a frame for them or a later one of their kind, and
that are not closed. -/
def openPeers (m : StreamMap) (b : Bool) : Finset ℕ :=
  {id ∈ Finset.range (4 * m.concurrencyControl.localMaxStreams b) |
    isLocal id m.isServer = false ∧ isBidi id = b ∧ m.isClosed id = false}

theorem mem_closedIds :
    id ∈ m.closedIds ↔ (∃ s, m.get? id = some s ∧ s.closed = true) ∨ id ∈ m.book.gone := by
  simp only [closedIds, mem_union, mem_filter, SortedMap.mem_keys, List.mem_toFinset]
  refine or_congr ?_ .rfl
  constructor
  · rintro ⟨⟨s, hget⟩, hclosed⟩
    have hlive : m.get? id = some s := hget
    refine ⟨s, hlive, ?_⟩
    rwa [isClosed, hlive] at hclosed
  · rintro ⟨s, hget, hclosed⟩
    refine ⟨⟨s, hget⟩, ?_⟩
    rw [isClosed, hget]
    exact hclosed

theorem closedIds_eq (m : StreamMap) : m.closedIds = m.roster.closed := by
  ext id
  rw [mem_closedIds, Roster.mem_closed, roster_get?]
  refine or_congr ?_ .rfl
  simp only [Option.map_eq_some_iff]
  constructor
  · rintro ⟨s, hget, hclosed⟩
    exact ⟨s.isLocal, s, hget, by rw [hclosed]⟩
  · rintro ⟨own, s, hget, heq⟩
    exact ⟨s, hget, congrArg Prod.snd heq⟩

theorem closedPeers_eq (m : StreamMap) (b : Bool) : m.closedPeers b = m.roster.closedPeers b := by
  rw [closedPeers, closedIds_eq]
  rfl

theorem isClosed_iff (h : m.book.Kept) : m.isClosed id = true ↔ id ∈ m.closedIds := by
  rw [mem_closedIds]
  cases hget : m.get? id with
  | some s =>
    have hlive : id ∉ m.book.gone := h.disjoint id (mem_live_iff.mpr ⟨s, hget⟩)
    rw [isClosed, hget]
    simp [hlive]
  | none =>
    have hdead : id ∉ m.book.live := fun hin => by
      obtain ⟨s, hs⟩ := mem_live_iff.mp hin
      rw [hget] at hs
      cases hs
    constructor
    · exact fun hclosed => .inr ((used_of_isClosed h hget hclosed).resolve_left hdead)
    · rintro (⟨s, hs, -⟩ | hgone)
      · cases hs
      · have hused : m.book.used id := .inr hgone
        have hlimit := h.used_lt id hused
        have havail : (m.book.availFor id).contains (id / 4) = false := by
          rw [Bool.eq_false_iff]
          intro hcontains
          exact ((h.avail_iff id).mp (RangeSet.contains_iff.mp hcontains)).2 hused
        rw [isClosed, hget]
        have hlim : m.book.limitFor id = m.concurrencyControl.limit id m.isServer := rfl
        have hfree : m.concurrencyControl.isAvailable id m.isServer = false := havail
        simp only [hfree, ConcurrencyControl.isLimited, Bool.false_or, Bool.not_eq_true',
          decide_eq_false_iff_not]
        omega

/-! ## Frames beyond the limit -/

theorem getOrCreate_limited (h : m.book.Kept) (hid : id ≤ vintMax)
    (hpeer : isLocal id m.isServer = false)
    (hlimit : m.concurrencyControl.localMaxStreams (isBidi id) ≤ id / 4) :
    m.getOrCreate id false = (m, .error .streamLimitError) := by
  have hlim : m.book.limitFor id = m.concurrencyControl.localMaxStreams (isBidi id) := by
    change (if isLocal id m.isServer = true then _ else _) = _
    rw [hpeer]
    rfl
  have hunused : ¬m.book.used id := fun hused => by
    have := h.used_lt id hused
    omega
  have hget : m.get? id = none := by
    cases hget : m.get? id with
    | none => rfl
    | some s => exact absurd (.inl (mem_live_iff.mpr ⟨s, hget⟩)) hunused
  have hopen : m.isClosed id = false := by
    rw [Bool.eq_false_iff]
    exact fun hclosed => hunused (used_of_isClosed h hget hclosed)
  have hcheck : m.concurrencyControl.checkConcurrencyLimits id m.isServer =
      (m.concurrencyControl, .error .streamLimitError) := by
    unfold ConcurrencyControl.checkConcurrencyLimits
    rw [hpeer, if_neg Bool.false_ne_true, if_pos (by omega)]
  unfold getOrCreate
  rw [if_neg (not_lt.mpr hid), hget]
  rw [hopen, if_neg Bool.false_ne_true, if_neg (by simp [hpeer]), hcheck]

theorem recvFrame_limited {frame : PeerFrame} (h : m.book.Kept) (hframe : frame.LooksFor id)
    (hpeer : isLocal id m.isServer = false)
    (hlimit : m.concurrencyControl.localMaxStreams (isBidi id) ≤ id / 4) :
    m.recvFrame frame = .ok (m, .error .streamLimitError) := by
  cases frame with
  | resetStream id' code size =>
    obtain rfl : id'.val = id := hframe
    change m.onResetStreamFrameReceived id' code size = _
    unfold onResetStreamFrameReceived
    rw [if_neg (by simp [hpeer])]
    rw [getOrCreate_limited h (Varint.le_vintMax id') hpeer hlimit]
    rfl
  | stream id' off data fin =>
    obtain rfl : id'.val = id := hframe
    change m.onStreamFrameReceived id' off data fin = _
    unfold onStreamFrameReceived
    rw [if_neg (by simp [hpeer])]
    rw [getOrCreate_limited h (Varint.le_vintMax id') hpeer hlimit]
    rfl
  | stopSending id' code =>
    obtain ⟨rfl, hbidi⟩ : id'.val = id ∧ isBidi id = true := hframe
    change Exec.ok (m.onStopSendingFrameReceived id' code) = _
    unfold onStopSendingFrameReceived
    rw [if_neg (by simp [hbidi]), getOrCreate_limited h (Varint.le_vintMax id') hpeer hlimit]
    rfl
  | maxStreamData id' max =>
    obtain ⟨rfl, hbidi⟩ : id'.val = id ∧ isBidi id = true := hframe
    change Exec.ok (m.onMaxStreamDataFrameReceived id' max) = _
    unfold onMaxStreamDataFrameReceived
    rw [if_neg (by simp [hbidi]), getOrCreate_limited h (Varint.le_vintMax id') hpeer hlimit]
    rfl
  | maxData | maxStreams | dataBlocked | streamDataBlocked | streamsBlocked => exact hframe.elim

/-! ## Counting -/

theorem card_le_of_kind {ids : Finset ℕ} {isServer b : Bool} {n : ℕ}
    (h : ∀ id ∈ ids, isLocal id isServer = false ∧ isBidi id = b ∧ id / 4 < n) : ids.card ≤ n := by
  have hmaps : ∀ id ∈ ids, id / 4 ∈ range n :=
    fun id hid => mem_range.mpr (h id hid).2.2
  have hinj : Set.InjOn (· / 4) (ids : Set ℕ) := by
    intro id hid id' hid' hseq
    obtain ⟨hlocal, hbidi, -⟩ := h id hid
    obtain ⟨hlocal', hbidi', -⟩ := h id' hid'
    exact id_eq_of_kind (hlocal.trans hlocal'.symm) (hbidi.trans hbidi'.symm) hseq
  simpa using card_le_card_of_injOn (· / 4) hmaps hinj

theorem lt_of_mem_closedPeers {b : Bool} (h : m.book.Kept) (hid : id ∈ m.closedPeers b) :
    isLocal id m.isServer = false ∧ isBidi id = b ∧
      id / 4 < m.concurrencyControl.localMaxStreams b := by
  obtain ⟨hclosed, hpeer, hbidi⟩ := mem_filter.mp hid
  refine ⟨hpeer, hbidi, ?_⟩
  have hused : m.book.used id := by
    rcases mem_closedIds.mp hclosed with ⟨s, hget, -⟩ | hgone
    · exact .inl (mem_live_iff.mpr ⟨s, hget⟩)
    · exact .inr hgone
  have hlt := h.used_lt id hused
  have hlim : m.book.limitFor id = m.concurrencyControl.localMaxStreams b := by
    change (if isLocal id m.isServer = true then _ else _) = _
    rw [hpeer, hbidi]
    rfl
  rwa [hlim] at hlt

theorem card_open_add_closed_le (h : m.book.Kept) (b : Bool) :
    (m.openPeers b).card + (m.closedPeers b).card ≤ m.concurrencyControl.localMaxStreams b := by
  have hdisjoint : Disjoint (m.openPeers b) (m.closedPeers b) := by
    rw [disjoint_left]
    intro id hopen hclosed
    have hfalse := (mem_filter.mp hopen).2.2.2
    rw [(isClosed_iff h).mpr (mem_filter.mp hclosed).1] at hfalse
    cases hfalse
  rw [← card_union_of_disjoint hdisjoint]
  have hkind : ∀ id ∈ m.openPeers b ∪ m.closedPeers b, isLocal id m.isServer = false ∧
      isBidi id = b ∧ id / 4 < m.concurrencyControl.localMaxStreams b := by
    intro id hid
    rcases mem_union.mp hid with hid | hid
    · obtain ⟨hrange, hpeer, hbidi, -⟩ := mem_filter.mp hid
      have := mem_range.mp hrange
      exact ⟨hpeer, hbidi, by omega⟩
    · exact lt_of_mem_closedPeers h hid
  exact card_le_of_kind hkind

namespace World

variable {conf : ReceiveConfig} {isServer endpoint : Bool} {w w' : World}
  {legal : World → Op → Prop}

section

variable (h : Exec.Reaches step legal (start conf isServer endpoint) w)

include h

theorem next_eq (b : Bool) :
    w.map.concurrencyControl.localMaxStreamsNext b =
      conf.localTransportParams.initialMaxStreams b + (w.map.closedPeers b).card := by
  have hkept := kept_of_reaches h
  have hcredits := (sound_of_reaches h).1.credits b
  have hcount := card_open_add_closed_le hkept b
  have hlimit : w.map.concurrencyControl.localMaxStreams b ≤ vintMax := hkept.limit_le false b
  have hinitial := conf.params_encodable.streams b
  have hmax : vintMax + vintMax ≤ u64Max := by decide
  rw [← closedPeers_eq, min_eq_left (by omega)] at hcredits
  exact hcredits

theorem card_openPeers_le (b : Bool) :
    (w.map.openPeers b).card ≤ conf.localTransportParams.initialMaxStreams b := by
  have hkept := kept_of_reaches h
  have hcount := card_open_add_closed_le hkept b
  have hnext := next_eq h b
  have hle : w.map.concurrencyControl.localMaxStreams b ≤
    w.map.concurrencyControl.localMaxStreamsNext b := hkept.pending_le b
  omega

theorem closed_of_reaches {id : ℕ}
    (h' : Exec.Reaches step legal w w') (hclosed : w.map.isClosed id = true) :
    w'.map.isClosed id = true ∧ (w.map.get? id = none → w'.map.get? id = none) := by
  have hkept := kept_of_reaches h
  have hkept' := kept_of_reaches (h.trans h')
  obtain ⟨hsound, -, hsub, hgone⟩ := (sound_of_reaches h).1.path (rosters_of_reaches hkept h')
  rw [isClosed_iff hkept, closedIds_eq] at hclosed
  refine ⟨?_, fun hget => ?_⟩
  · rw [isClosed_iff hkept', closedIds_eq]
    exact hsub hclosed
  · have hdead : id ∈ w.map.roster.gone := by
      rcases Roster.mem_closed.mp hclosed with ⟨own, hlive⟩ | hdead
      · rw [roster_get?, hget] at hlive
        cases hlive
      · exact hdead
    cases hlive : w'.map.get? id with
    | none => rfl
    | some => exact absurd (hgone hdead) (hsound.disjoint id _ (roster_get?_some hlive))

end

/-- The next limit is the initial one and one more for every closed stream of the kind, the open
streams of the peer never exceed the initial limit, and closed streams are not created again. -/
theorem streams_credited {w' : World}
    (h : Exec.Reaches step (fun _ _ ↦ True) (start conf isServer endpoint) w)
    (h' : Exec.Reaches step (fun _ _ ↦ True) w w') :
    (∀ b, w.map.concurrencyControl.localMaxStreamsNext b =
      conf.localTransportParams.initialMaxStreams b + (w.map.closedPeers b).card) ∧
    (∀ b, (w.map.openPeers b).card ≤ conf.localTransportParams.initialMaxStreams b) ∧
    (∀ id s, w.map.get? id = some s → s.closed = false → isLocal id isServer = false →
      id ∈ w.map.openPeers (isBidi id)) ∧
    (∀ (frame : PeerFrame) (id : ℕ), frame.LooksFor id → isLocal id isServer = false →
      w.map.concurrencyControl.localMaxStreams (isBidi id) ≤ id / 4 → w.closing = false →
      w.step (.receive frame) =
        .ok ({ w with closing := true }, .noted (.error .streamLimitError))) ∧
    (∀ id, w.map.isClosed id = true ↔
      (∃ s, w.map.get? id = some s ∧ s.closed = true) ∨ ∃ s, (id, s) ∈ w.map.destroyed) ∧
    (∀ id, w.map.isClosed id = true →
      w'.map.isClosed id = true ∧ (w.map.get? id = none → w'.map.get? id = none)) := by
  have hkept := kept_of_reaches h
  have hserver : w.map.isServer = isServer := (sound_of_reaches h).2
  refine ⟨next_eq h, card_openPeers_le h, ?_, ?_, ?_, fun id => closed_of_reaches h h'⟩
  · intro id s hget hopen hpeer
    have hused := hkept.used_lt id (.inl (mem_live_iff.mpr ⟨s, hget⟩))
    have hlim : w.map.book.limitFor id = w.map.concurrencyControl.localMaxStreams (isBidi id) := by
      change (if isLocal id w.map.isServer = true then _ else _) = _
      rw [hserver, hpeer]
      rfl
    refine mem_filter.mpr ⟨mem_range.mpr (by omega), hserver ▸ hpeer, rfl, ?_⟩
    rw [isClosed, hget]
    exact hopen
  · intro frame id hframe hpeer hlimit hopen
    change w.receive frame = _
    unfold receive
    rw [hopen, if_neg Bool.false_ne_true,
      recvFrame_limited hkept hframe (hserver ▸ hpeer) hlimit]
    rfl
  · intro id
    rw [isClosed_iff hkept, mem_closedIds]
    refine or_congr .rfl ?_
    constructor
    · intro hgone
      obtain ⟨e, he, rfl⟩ := List.mem_map.mp hgone
      exact ⟨e.2, he⟩
    · rintro ⟨s, hs⟩
      exact List.mem_map.mpr ⟨(id, s), hs, rfl⟩

/-- A server that allows one unidirectional stream at a time; the first was read to its end. -/
def serverClosedOne : World :=
  Exec.follow step (fun _ _ => True) (start (ReceiveConfig.new.setInitialMaxStreamsUni 1) true true)
    [.receive (.stream 2 0 [1] true), .read 2 10]

def serverDestroyedOne : World :=
  Exec.follow step (fun _ _ => True) serverClosedOne [.pollEvent, .pollEvent]

theorem streams_credited_one :
    serverClosedOne.map.concurrencyControl.localMaxStreamsNext false = 2 ∧
      (serverClosedOne.map.openPeers false).card ≤ 1 ∧
      serverClosedOne.step (.receive (.stream 6 0 [1] false)) =
        .ok ({ serverClosedOne with closing := true }, .noted (.error .streamLimitError)) ∧
      serverDestroyedOne.map.isClosed 2 = true ∧ serverDestroyedOne.map.get? 2 = none := by
  have hreach : Exec.Reaches step (fun _ _ => True)
      (start (ReceiveConfig.new.setInitialMaxStreamsUni 1) true true) serverClosedOne :=
    Exec.reaches_follow _ _
  have hlater : Exec.Reaches step (fun _ _ => True) serverClosedOne serverDestroyedOne :=
    Exec.reaches_follow _ _
  obtain ⟨hnext, hopen, -, hframe, -, hclosed⟩ := streams_credited hreach hlater
  refine ⟨?_, hopen false, ?_, (hclosed 2 (by decide +kernel)).1, by decide +kernel⟩
  · decide +kernel
  · exact hframe _ 6 rfl (by decide) (by decide +kernel) (by decide +kernel)

/-- The stream is closed and not destroyed yet; a STREAM_DATA_BLOCKED frame beyond the limit is
accepted, and a STOP_SENDING frame for a stream that only the peer sends on is refused as such. -/
theorem closed_before_destroyed :
    Exec.Reaches step (fun _ _ ↦ True)
        (start (ReceiveConfig.new.setInitialMaxStreamsUni 1) true true) serverClosedOne ∧
      serverClosedOne.map.isClosed 2 = true ∧ (serverClosedOne.map.get? 2).isSome = true ∧
      serverClosedOne.map.destroyed = [] ∧
      serverClosedOne.map.concurrencyControl.localMaxStreams false = 1 ∧
      Exec.output? (serverClosedOne.step (.receive (.streamDataBlocked 6 0))) =
        some (.noted (.ok ())) ∧
      Exec.output? (serverClosedOne.step (.receive (.stopSending 6 0))) =
        some (.noted (.error .streamStateError)) :=
  ⟨Exec.reaches_follow _ _, by decide +kernel, by decide +kernel, by decide +kernel,
    by decide +kernel, by decide +kernel, by decide +kernel⟩

end World

end StreamMap

end Tquic
