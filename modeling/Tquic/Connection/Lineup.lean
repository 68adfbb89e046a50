import Tquic.Connection.Closing

/-!
# Streams in the send queues

If nothing but sending makes a queued stream lose what it has to send, no stream is queued twice,
and each is queued with its own priority.
-/

namespace Tquic

open Multiset SendBuf

/-! ## Streams that have something to send -/

namespace SendBuf

variable {app : List UInt8} {b b' : SendBuf}

theorem Tracked.ready_iff (h : Tracked app b) :
    b.ready = true ↔ (∃ x, x ∈ b.retransmits) ∨ b.unsentOff < b.writeOff := by
  have hle := h.unsent_le
  constructor
  · intro hready
    rw [ready, Bool.and_eq_true, decide_eq_true_eq] at hready
    rcases b.sendOff_cases with ⟨-, heq⟩ | ⟨hmem, -⟩
    · exact .inr (heq ▸ hready.2)
    · exact .inl ⟨_, hmem⟩
  · intro hleft
    have hsend : b.sendOff < b.writeOff := by
      rcases hleft with ⟨x, hx⟩ | hlt
      · rcases b.sendOff_cases with ⟨hnone, -⟩ | ⟨hmem, -⟩
        · exact absurd hx (hnone x)
        · exact (h.lost.lt _ hmem).trans_le hle
      · exact h.send_le_unsent.trans_lt hlt
    have hdata : b.data ≠ [] := by
      intro hnil
      -- everything written would be acknowledged
      have hbase := h.base_le_send
      rw [h.base_eq_of_empty hnil] at hbase
      exact absurd hsend (not_lt.mpr hbase)
    rw [ready, Bool.and_eq_true, decide_eq_true_eq]
    exact ⟨by simpa using hdata, hsend⟩

theorem Tracked.ready_write (h : Tracked app b) {data : List UInt8} {fin : Bool} {r : Result ℕ}
    (hwrite : b.write data fin = .ok (b', r)) (hready : b.ready = true) : b'.ready = true := by
  obtain ⟨htracked, hunsent, -, hlost⟩ := (write_returns h data fin).of_eq hwrite
  have hlen : b.writeOff ≤ b'.writeOff := by
    rw [h.writeOff_eq, htracked.writeOff_eq, List.length_append]
    exact Nat.le_add_right _ _
  rw [htracked.ready_iff, hlost, hunsent]
  rcases h.ready_iff.mp hready with hsome | hlt
  · exact .inl hsome
  · exact .inr (hlt.trans_le hlen)

def Spared (b : SendBuf) (off len : ℕ) : Prop := ∀ i < len, off + i ∉ b.retransmits

instance (b : SendBuf) (off len : ℕ) : Decidable (b.Spared off len) :=
  decidable_of_iff (∀ i < len, ¬b.retransmits.contains (off + i) = true)
    (forall₂_congr fun _ _ => not_congr RangeSet.contains_iff)

variable {off len : ℕ}

theorem Spared.not_mem {x : ℕ} (h : b.Spared off len) (hx : x ∈ b.retransmits) :
    ¬(off ≤ x ∧ x < off + len) := by
  rintro ⟨hlow, hhigh⟩
  refine h (x - off) (by omega) ?_
  rwa [Nat.add_sub_cancel' hlow]

section

variable (h : Tracked app b) (hsent : ∀ x, off ≤ x → x < off + len → x < b.unsentOff)

include h hsent

theorem Tracked.ready_ack
    (hspared : b.Spared off len)
    (hack : b.ackAndDrop off len = .ok b') (hready : b.ready = true) : b'.ready = true := by
  obtain ⟨htracked, hunsent, -, hlost⟩ := (ackAndDrop_returns h hsent).of_eq hack
  rw [htracked.ready_iff, hunsent, (continues_ackAndDrop hack).writeOff_eq]
  rcases h.ready_iff.mp hready with ⟨x, hx⟩ | hlt
  · exact .inl ⟨x, (hlost x).mpr ⟨hx, hspared.not_mem hx⟩⟩
  · exact .inr hlt

theorem Tracked.ready_retransmit
    (hready : b.ready = true) :
    (b.retransmit off len).ready = true := by
  obtain ⟨htracked, hunsent, -, hlost⟩ := retransmit_spec h hsent
  rw [htracked.ready_iff, hunsent, (continues_retransmit b off len).writeOff_eq]
  rcases h.ready_iff.mp hready with ⟨x, hx⟩ | hlt
  · exact .inl ⟨x, (hlost x).mpr (.inl hx)⟩
  · exact .inr hlt

end

theorem mem_of_mem_ackAndDrop {x : ℕ} (hack : b.ackAndDrop off len = .ok b')
    (hx : x ∈ b'.retransmits) : x ∈ b.retransmits := by
  by_cases hdata : b.data = []
  · rw [ackAndDrop, if_pos (by simp [hdata])] at hack
    cases hack
    exact absurd hx (RangeSet.not_mem_new _ _)
  · have hmark : b'.retransmits = (b.markAcked off len).retransmits := by
      rw [ackAndDrop_of_ne_nil hdata] at hack
      split_ifs at hack
      · cases hack
        rfl
      · obtain ⟨base, -, hack⟩ := Exec.bind_eq_ok.mp hack
        obtain ⟨toAdvance, -, hack⟩ := Exec.bind_eq_ok.mp hack
        obtain ⟨unackedLen, -, hack⟩ := Exec.bind_eq_ok.mp hack
        obtain ⟨⟨data, dropBlocks⟩, -, hack⟩ := Exec.bind_eq_ok.mp hack
        cases hack
        rfl
    rw [hmark] at hx
    exact (mem_markAcked_retransmits.mp hx).1

theorem Cleared.not_ready (h : Cleared b) : b.ready = false := by
  rw [ready, h.data_nil]
  rfl

end SendBuf

/-- The stream keeps its priority, and unless it is abandoned, what it has to send. -/
structure Stream.Stays (s s' : Stream) : Prop where
  urgency : s'.urgency = s.urgency
  incremental : s'.incremental = s.incremental
  still : s'.send.isAbandoned = false → s.send.isAbandoned = false
  ready : s'.send.isAbandoned = false → s.send.ready = true → s'.send.ready = true

namespace Stream.Stays

variable {s s' s'' : Stream}

theorem of_send (hurgency : s'.urgency = s.urgency) (hincremental : s'.incremental = s.incremental)
    (hsend : s'.send = s.send) : s.Stays s' :=
  ⟨hurgency, hincremental, fun h => hsend ▸ h, fun _ h => hsend ▸ h⟩

theorem refl (s : Stream) : s.Stays s := of_send rfl rfl rfl

theorem trans (h : s.Stays s') (h' : s'.Stays s'') : s.Stays s'' where
  urgency := h'.urgency.trans h.urgency
  incremental := h'.incremental.trans h.incremental
  still := fun hopen => h.still (h'.still hopen)
  ready := fun hopen hready => h'.ready hopen (h.ready (h'.still hopen) hready)

theorem of_resembles (h : s.Resembles s') : s.Stays s' := by
  obtain ⟨blockedAt, hsend⟩ := h.send
  refine ⟨h.urgency, h.incremental, ?_, ?_⟩ <;> rw [hsend]
  · exact fun hopen => hopen
  · exact fun _ hready => hready

theorem of_abandoned (s : Stream) {send : SendBuf} (h : send.isAbandoned = true) :
    s.Stays { s with send } := by
  have hnot : ¬send.isAbandoned = false := by simp [h]
  exact ⟨rfl, rfl, fun hopen => absurd hopen hnot, fun hopen => absurd hopen hnot⟩

end Stream.Stays

/-- The priority stays as it is, or the stream has nothing to send and so waits in no queue. -/
def Stream.Reranks (s : Stream) (urgency : ℕ) (incremental : Bool) : Prop :=
  s.urgency = urgency ∧ s.incremental = incremental ∨
    s.isSendable = false ∧ s.send.isAbandoned = false

instance (s : Stream) (urgency : ℕ) (incremental : Bool) :
    Decidable (s.Reranks urgency incremental) := inferInstanceAs (Decidable (_ ∨ _))

namespace StreamMap

variable {p : Promise} {m m' m'' : StreamMap} {id : ℕ} {s s' : Stream}

/-! ## Maps with the same queues -/

structure Rests (m m' : StreamMap) : Prop where
  slots : m'.slots = m.slots
  streams : ∀ id t', m'.get? id = some t' → ∃ t, m.get? id = some t ∧ t.Stays t'

namespace Rests

theorem of_same (hstreams : m'.streams = m.streams) (hsendable : m'.sendable = m.sendable) :
    m.Rests m' where
  slots := by rw [StreamMap.slots, hsendable, StreamMap.slots]
  streams id t' ht' := ⟨t', by rwa [get?, ← hstreams], .refl t'⟩

theorem trans (h : m.Rests m') (h' : m'.Rests m'') : m.Rests m'' := by
  refine ⟨h'.slots.trans h.slots, fun id t'' ht'' => ?_⟩
  obtain ⟨t', ht', hstays'⟩ := h'.streams id t'' ht''
  obtain ⟨t, ht, hstays⟩ := h.streams id t' ht'
  exact ⟨t, ht, hstays.trans hstays'⟩

theorem alike (hm : Alike m m') : m.Rests m' := by
  obtain ⟨t, rfl⟩ := hm
  exact of_same rfl rfl

theorem setStream (hget : m.get? id = some s) (hs : s.Stays s') : m.Rests (m.setStream id s') := by
  refine ⟨rfl, fun id' t' ht' => ?_⟩
  by_cases hid : id' = id
  · subst hid
    obtain rfl := Option.some.inj ((get?_setStream_self m id' _).symm.trans ht')
    exact ⟨s, hget, hs⟩
  · exact ⟨t', (get?_setStream_of_ne m hid _).symm.trans ht', .refl t'⟩

theorem setRecv (hget : m.get? id = some s) (recv : RecvBuf) :
    m.Rests (m.setStream id { s with recv }) := setStream hget (.of_send rfl rfl rfl)

section

variable (m : StreamMap)

theorem streamDestroy (id : ℕ) : m.Rests (m.streamDestroy id) where
  slots := by
    unfold StreamMap.streamDestroy
    cases m.get? id with
    | none => rfl
    | some => rfl
  streams id' t' ht' := ⟨t', get?_streamDestroy ht', .refl t'⟩

theorem flagClosed (id : ℕ) : m.Rests (m.flagClosed id) := by
  unfold StreamMap.flagClosed
  cases hget : m.get? id with
  | none => exact of_same rfl rfl
  | some => exact setStream hget (.of_send rfl rfl rfl)

theorem announceClosed (id : ℕ) : m.Rests (m.announceClosed id) := by
  unfold StreamMap.announceClosed
  cases m.events with
  | none => exact streamDestroy m id
  | some => exact of_same rfl rfl

theorem closeWhen (done : Bool) (id : ℕ) (isLocal : Bool) :
    m.Rests (m.closeWhen done id isLocal) := by
  unfold StreamMap.closeWhen closeCore
  cases done with
  | false => exact of_same rfl rfl
  | true =>
    rw [if_pos rfl]
    split_ifs
    · exact of_same rfl rfl
    · have hcredit : m.Rests (m.giveCredit id isLocal) := of_same rfl rfl
      exact (hcredit.trans (flagClosed _ id)).trans (announceClosed _ id)

theorem fillWhen (full : Bool) (id : ℕ) : m.Rests (m.fillWhen full id) := by
  unfold StreamMap.fillWhen
  split_ifs
  · exact of_same rfl rfl
  · exact of_same rfl rfl

theorem consume (delta : ℕ) : m.Rests (m.consume delta) := of_same rfl rfl

theorem charge (delta : ℕ) : m.Rests (m.charge delta) := of_same rfl rfl

theorem peekSendable : m.Rests m.peekSendable.1 where
  slots := slots_peekSendable m
  streams id t' ht' := ⟨t', (Writer.get?_peekSendable m id).symm.trans ht', .refl t'⟩

end

end Rests

/-! ## The invariant -/

structure Lined (m : StreamMap) : Prop where
  once : (m.slots.map Slot.id).Nodup
  used : ∀ slot ∈ m.slots, m.Used slot.id
  ranked : ∀ slot ∈ m.slots, ∀ s, m.get? slot.id = some s →
    s.urgency = slot.urgency ∧ s.incremental = slot.incremental
  waiting : ∀ slot ∈ m.slots, ∀ s, m.get? slot.id = some s → s.send.isAbandoned = false →
    s.send.ready = true

namespace Lined

theorem fewer (h : m.Lined) (hslots : m'.slots ≤ m.slots) (hused : ∀ id, m.Used id → m'.Used id)
    (hstreams : ∀ slot ∈ m'.slots, ∀ t', m'.get? slot.id = some t' →
      ∃ t, m.get? slot.id = some t ∧ t.Stays t') : m'.Lined := by
  have hmem : ∀ slot ∈ m'.slots, slot ∈ m.slots := fun slot hslot => mem_of_le hslots hslot
  refine ⟨nodup_of_le (map_le_map hslots) h.once,
    fun slot hslot => hused _ (h.used slot (hmem slot hslot)), ?_, ?_⟩
  · intro slot hslot t' ht'
    obtain ⟨t, ht, hstays⟩ := hstreams slot hslot t' ht'
    rw [hstays.urgency, hstays.incremental]
    exact h.ranked slot (hmem slot hslot) t ht
  · intro slot hslot t' ht' hopen
    obtain ⟨t, ht, hstays⟩ := hstreams slot hslot t' ht'
    exact hstays.ready hopen (h.waiting slot (hmem slot hslot) t ht (hstays.still hopen))

theorem rests (h : m.Lined) (hused : ∀ id, m.Used id → m'.Used id) (hm : m.Rests m') : m'.Lined :=
  h.fewer hm.slots.le hused fun slot _ t' ht' => hm.streams slot.id t' ht'

section

variable (h : m.Lined) (hget : m.get? id = some s)

include h hget

theorem not_queued (hopen : s.send.isAbandoned = false)
    (hready : s.send.ready = false) : ∀ slot ∈ m.slots, slot.id ≠ id := by
  rintro slot hslot rfl
  rw [h.waiting slot hslot s hget hopen] at hready
  cases hready

theorem push (hready : s.send.ready = true)
    (hnew : ∀ slot ∈ m.slots, slot.id ≠ id) :
    (m.pushSendable id s.urgency s.incremental).Lined := by
  have hslots := slots_pushSendable m id s.urgency s.incremental
  refine ⟨?_, ?_, ?_, ?_⟩ <;> rw [hslots]
  · rw [map_cons, nodup_cons]
    refine ⟨fun hmem => ?_, h.once⟩
    obtain ⟨slot, hslot, heq⟩ := mem_map.mp hmem
    exact hnew slot hslot heq
  · intro slot hslot
    rcases mem_cons.mp hslot with rfl | hslot
    · exact .inl ⟨s, hget⟩
    · exact h.used slot hslot
  · intro slot hslot t ht
    rcases mem_cons.mp hslot with rfl | hslot
    · cases hget.symm.trans ht
      exact ⟨rfl, rfl⟩
    · exact h.ranked slot hslot t ht
  · intro slot hslot t ht hopen
    rcases mem_cons.mp hslot with rfl | hslot
    · cases hget.symm.trans ht
      exact hready
    · exact h.waiting slot hslot t ht hopen

theorem setSend {push : Bool}
    (hused : ∀ id', m.Used id' → (m.setStream id s').Used id') (hs : s.Stays s')
    (hpush : push = true →
      s'.send.ready = true ∧ s.send.ready = false ∧ s.send.isAbandoned = false) :
    ((m.setStream id s').pushWhen push id s).Lined := by
  have hrests := Rests.setStream hget hs
  have hset := h.rests hused hrests
  unfold pushWhen
  cases push with
  | false => exact hset
  | true =>
    obtain ⟨hready, hbefore, hopen⟩ := hpush rfl
    rw [if_pos rfl, ← hs.urgency, ← hs.incremental]
    refine hset.push (get?_setStream_self m id s') hready ?_
    exact h.not_queued hget hopen hbefore

end

end Lined

/-! ## Changes -/

/-- FIN is not written on its own to a stream that has nothing to send, and a stream that has
keeps its priority. -/
structure Promise.Lining (p : Promise) : Prop where
  finish : ∀ s data, p.finish s data → data = [] → s.isSendable = true
  prioritize : ∀ s urgency incremental, p.prioritize s urgency incremental →
    s.Reranks urgency incremental

theorem used_of_book_eq (h : m'.book = m.book) (id : ℕ) (hid : m.Used id) : m'.Used id := by
  rw [used_iff, h]
  exact used_iff.mp hid

namespace Lined

variable {strict : Prop} {flight delivered : ℕ → Set SendBuf.Parcel}

theorem alike (h : m.Lined) (hm : Alike m m') : m'.Lined :=
  h.rests (used_of_book_eq hm.book_eq) (.alike hm)

theorem enroll (h : m.Lined) (hnew : ¬m.Used id) (c : ConcurrencyControl) (opener : Bool)
    (hused : ∀ id', m.Used id' → (m.enroll c id opener).Used id') :
    (m.enroll c id opener).Lined := by
  refine h.fewer le_rfl hused fun slot hslot t' ht' => ⟨t', ?_, .refl t'⟩
  have hne : slot.id ≠ id := fun heq => hnew (heq ▸ h.used slot hslot)
  exact (SortedMap.get?_insert_of_ne _ hne _).symm.trans ht'

theorem prioritize (h : m.Lined) (hget : m.get? id = some s) {urgency : ℕ} {incremental : Bool}
    (hrank : s.Reranks urgency incremental) :
    (m.setStream id { s with urgency, incremental }).Lined := by
  have hbook : (m.setStream id { s with urgency, incremental }).book = m.book :=
    book_setStream hget _
  rcases hrank with ⟨hurgency, hincremental⟩ | ⟨hready, hopen⟩
  · refine h.rests (used_of_book_eq hbook) (.setStream hget ?_)
    exact .of_send hurgency.symm hincremental.symm rfl
  · refine h.fewer le_rfl (used_of_book_eq hbook) fun slot hslot t' ht' => ⟨t', ?_, .refl t'⟩
    have hne := h.not_queued hget hopen hready slot hslot
    exact (get?_setStream_of_ne m hne _).symm.trans ht'

theorem wrote (h : m.Lined) (hships : Ships strict flight delivered m) (hget : m.get? id = some s)
    {n : ℕ} {data : List UInt8} {fin : Bool} {send : SendBuf}
    (hfinish : fin = true → data = [] → s.isSendable = true)
    (hwrite : s.send.write data fin = .ok (send, .ok n))
    (hs : ({ s with send } : Stream).Resembles s') :
    ((m.setStream id s').pushWhen
      ((send.ready || (data.length = 0 && fin)) && !s.isSendable) id s).Lined := by
  obtain ⟨room, -, -, hextends, -⟩ := write_cases hwrite
  have hsame : send.isAbandoned = s.send.isAbandoned := hextends.isAbandoned_eq
  have hstays : s.Stays { s with send } := by
    refine ⟨rfl, rfl, fun hopen => hsame.symm.trans hopen, fun hopen hready => ?_⟩
    obtain ⟨app, ht⟩ := (hships.live id s hget (hsame.symm.trans hopen)).1.tracked
    exact ht.ready_write hwrite hready
  refine h.setSend hget (used_of_book_eq (book_setStream hget s'))
    (hstays.trans (.of_resembles hs)) fun hpush => ?_
  rw [Bool.and_eq_true, Bool.not_eq_true', Bool.or_eq_true] at hpush
  obtain ⟨hcause, hbefore⟩ := hpush
  have hready : send.ready = true := by
    rcases hcause with hready | hempty
    · exact hready
    · rw [Bool.and_eq_true, decide_eq_true_eq, List.length_eq_zero_iff] at hempty
      rw [hfinish hempty.2 hempty.1] at hbefore
      cases hbefore
  have hopen : s.send.isAbandoned = false := by
    by_contra habandoned
    -- an abandoned stream takes no more data
    have hcleared := hships.cleared id s hget (by simpa using habandoned)
    rw [(hcleared.write hwrite).not_ready] at hready
    cases hready
  obtain ⟨blockedAt, hsend⟩ := hs.send
  rw [hsend]
  exact ⟨hready, hbefore, hopen⟩

/-- Every change of the map keeps the send queues in order. -/
theorem change (h : m.Lined) (hships : Ships strict flight delivered m) (hkept : m.book.Kept)
    (hp : p.Lining) (hchange : Change p m m') : m'.Lined := by
  have hused : ∀ id, m.Used id → m'.Used id := fun id hid =>
    used_iff.mpr (used_of_books (books_change hchange) (used_iff.mp hid))
  cases hchange with
  | tables hm => exact h.alike hm
  | created c id opener hget hid hclosed hopener hcheck =>
    refine h.enroll (fun hold => ?_) c opener hused
    exact ((hkept.avail_iff id).mp (mem_availFor hget hclosed hcheck)).2 (used_iff.mp hold)
  | touched hget hs hm =>
    exact h.rests hused ((Rests.setStream hget (.of_resembles hs)).trans (.alike hm))
  | prioritized urgency incremental hget hallowed =>
    exact h.prioritize hget (hp.prioritize _ _ _ hallowed)
  | read hget hready hread hm =>
    refine h.rests hused (.trans ?_ (.alike hm))
    exact (((Rests.setRecv hget _).trans (.fillWhen _ _ _)).trans (.consume _ _)).trans
      (.closeWhen _ _ _ _)
  | readFailed hget hready hread hm =>
    exact h.rests hused (((Rests.setRecv hget _).trans (.closeWhen _ _ _ _)).trans (.alike hm))
  | wrote hget hfinish hwrite hs hm =>
    exact (h.wrote hships hget (fun hfin => hp.finish _ _ (hfinish hfin)) hwrite hs).alike hm
  | shutdownRead hget hallowed hshutdown hm =>
    exact h.rests hused (((Rests.setRecv hget _).trans (.consume _ _)).trans (.alike hm))
  | @shutdownWrite id s send r _ hget hallowed hshutdown hm =>
    have hstays := Stream.Stays.of_abandoned s (abandons_shutdownSend hshutdown).abandoned
    exact h.rests hused ((Rests.setStream hget hstays).trans (.alike hm))
  | @stopped id code s send r _ hget hstop hm =>
    have hstays := Stream.Stays.of_abandoned s (abandons_stop hstop).abandoned
    exact h.rests hused ((Rests.setStream hget hstays).trans (.alike hm))
  | @maxDataRaised id maxData s _ hget hmax hm =>
    have hstays : s.Stays { s with send := s.send.updateMaxData maxData } :=
      ⟨rfl, rfl, fun hopen => hopen, fun _ hready => hready⟩
    refine alike (h.setSend hget ?_ hstays fun hpush => ?_) hm
    · exact used_of_book_eq (book_setStream hget _)
    · -- a higher limit makes no data
      rw [Bool.and_eq_true, Bool.not_eq_true'] at hpush
      cases hpush.1.symm.trans hpush.2
  | received hget hframe hleft hwrite hm =>
    refine h.rests hused (.trans ?_ (.alike hm))
    split_ifs
    · exact ((Rests.setRecv hget _).trans (.charge _ _)).trans (.consume _ _)
    · exact (Rests.setRecv hget _).trans (.charge _ _)
  | wasReset hget hframe hleft hreset hm =>
    refine h.rests hused (.trans ?_ (.alike hm))
    exact (((Rests.setRecv hget _).trans (.closeWhen _ _ _ _)).trans (.charge _ _)).trans
      (.consume _ _)
  | peerLimit | peerParams => exact h.rests hused (.of_same rfl rfl)
  | @polled e rest hevents _ hm =>
    refine h.rests hused ?_
    subst hm
    have hfewer : m.Rests { m with events := some rest } := .of_same rfl rfl
    cases e with
    | streamCreated => exact hfewer
    | streamClosed id => exact hfewer.trans (.streamDestroy _ id)

/-! ## Packets -/

theorem not_mem_of_cons (h : m.Lined) {slot : Slot} {rest : Multiset Slot}
    (hslots : m.slots = slot ::ₘ rest) : ∀ slot' ∈ rest, slot'.id ≠ slot.id := by
  have honce := h.once
  rw [hslots, map_cons, nodup_cons] at honce
  exact fun slot' hslot' heq => honce.1 (mem_map.mpr ⟨slot', hslot', heq⟩)

theorem emission {w w' : Writer} (h : w.map.Lined) (he : Writer.Emission w w') : w'.map.Lined := by
  have hused := used_of_book_eq (book_emission he)
  obtain ⟨hpeeked, -⟩ := register_peekSendable w.map
  cases he with
  | idle => exact h.rests hused (.peekSendable w.map)
  | dropped id hnext =>
    obtain ⟨urgency, incremental, hslots⟩ : ∃ urgency incremental, w.map.slots =
        ⟨urgency, incremental, id⟩ ::ₘ w.map.peekSendable.1.removeSendable.slots :=
      slots_removeSendable hnext rfl
    obtain ⟨hstreams, -⟩ := register_removeSendable w.map.peekSendable.1
    refine h.fewer (hslots ▸ le_cons_self _ _) hused fun slot _ t' ht' =>
      ⟨t', ?_, .refl t'⟩
    rwa [get?, hstreams, hpeeked] at ht'
  | emitted id s outLen dataLen len send data fin hnext hget hstopped hread =>
    have hsame : send.isAbandoned = s.send.isAbandoned :=
      (continues_read hread).isAbandoned_eq
    by_cases hready : ({ s with send } : Stream).isSendable = true
    · rw [if_pos hready] at hused ⊢
      have hstays : s.Stays { s with send } :=
        ⟨rfl, rfl, fun hopen => hsame.symm.trans hopen, fun _ _ => hready⟩
      have hget' : w.map.peekSendable.1.get? id = some s :=
        (Writer.get?_peekSendable w.map id).trans hget
      exact h.rests hused ((Rests.peekSendable w.map).trans (.setStream hget' hstays))
    · rw [if_neg hready] at hused ⊢
      obtain ⟨urgency, incremental, hslots⟩ : ∃ urgency incremental, w.map.slots =
          ⟨urgency, incremental, id⟩ ::ₘ
            (w.map.peekSendable.1.setStream id { s with send }).removeSendable.slots :=
        slots_removeSendable hnext rfl
      obtain ⟨hstreams, -⟩ :=
        register_removeSendable (w.map.peekSendable.1.setStream id { s with send })
      refine h.fewer (hslots ▸ le_cons_self _ _) hused fun slot hslot t' ht' =>
        ⟨t', ?_, .refl t'⟩
      have hne : slot.id ≠ id := h.not_mem_of_cons hslots slot hslot
      rw [get?, hstreams] at ht'
      have hpeek := (get?_setStream_of_ne w.map.peekSendable.1 hne _).symm.trans ht'
      exact (Writer.get?_peekSendable w.map slot.id).symm.trans hpeek

theorem control {now srtt : ℕ} {w w' : Writer} (h : w.map.Lined)
    (hc : Writer.Control now srtt w w') : w'.map.Lined := by
  have hused : ∀ id, w.map.Used id → w'.map.Used id := fun id hid =>
    used_iff.mpr (used_of_books (p := {}) (books_control hc) (used_iff.mp hid))
  refine h.rests hused ?_
  cases hc with
  | maxStreams | forgotten => exact .of_same rfl rfl
  | tuned id s hget => exact .setRecv hget _
  | maxStreamData id s len hget => exact (Rests.setRecv hget _).trans (.of_same rfl rfl)
  | connTuned | maxData | other => exact .of_same rfl rfl

theorem refused (h : m.Lined) (hrefused : Refused p m m') : m'.Lined := by
  obtain ⟨id, s, code, size, recv, r, hget, -, -, rfl⟩ := hrefused
  exact h.rests (used_of_book_eq (book_setStream hget _)) (.setRecv hget recv)

end Lined

/-! ## Frames acknowledged or lost -/

def NotRequeued (m : StreamMap) : Frame → Prop
  | .stream id off len _ => ∀ s, m.get? id = some s → s.send.Spared off len
  | _ => True

def isEmptyFin : Frame → Bool
  | .stream _ _ len fin => len = 0 && fin
  | _ => false

theorem NotRequeued.acked {frame frame' : Frame} (h : m.NotRequeued frame')
    (hack : Acked m frame m') : m'.NotRequeued frame' := by
  -- the streams that are left wait to send no more than before
  have hless : m'.AllLive fun id' t' =>
      ∃ t, m.get? id' = some t ∧ ∀ x ∈ t'.send.retransmits, x ∈ t.send.retransmits := by
    have hsame : ∀ id' t, m.get? id' = some t →
        ∃ t₀, m.get? id' = some t₀ ∧ ∀ x ∈ t.send.retransmits, x ∈ t₀.send.retransmits :=
      fun id' t ht => ⟨t, ht, fun _ hx => hx⟩
    cases hack with
    | @stream id off len fin s send _ hget hdrop hm =>
      have hself : ∀ x ∈ send.retransmits, x ∈ s.send.retransmits :=
        fun x hx => mem_of_mem_ackAndDrop hdrop hx
      refine .alike (.closeWhen ?_ (get?_setStream_self m id { s with send })
        ⟨s, hget, hself⟩ (fun _ => ⟨s, hget, hself⟩) fun _ => ⟨s, hget, hself⟩) hm
      exact fun id' hne t ht => hsame id' t ((get?_setStream_of_ne m hne _).symm.trans ht)
    | @reset id code size s _ hget hm =>
      exact .alike (.closeWhen (fun id' _ t ht => hsame id' t ht) hget
        (hsame id s hget) (fun _ => hsame id s hget) fun _ => hsame id s hget) hm
    | other => exact hsame
  cases frame' with
  | stream id =>
    intro t' ht' i hi hmem
    obtain ⟨t, ht, hsub⟩ := hless id t' ht'
    exact h t ht i hi (hsub _ hmem)
  | _ => trivial

namespace Lined

variable {strict : Prop} {flight delivered : ℕ → Set SendBuf.Parcel}

theorem acked (h : m.Lined) (hships : Ships strict flight delivered m) {frame : Frame}
    (hflight : ∀ id off len fin, frame = .stream id off len fin → (off, len, fin) ∈ flight id)
    (hspared : m.NotRequeued frame) (hack : Acked m frame m') : m'.Lined := by
  have hused : ∀ id, m.Used id → m'.Used id := fun id hid =>
    used_iff.mpr (used_of_books (p := {}) (books_acked hack) (used_iff.mp hid))
  cases hack with
  | @stream id off len fin s send _ hget hdrop hm =>
    have hsame : send.isAbandoned = s.send.isAbandoned :=
      (continues_ackAndDrop hdrop).isAbandoned_eq
    have hstays : s.Stays { s with send } := by
      refine ⟨rfl, rfl, fun hopen => hsame.symm.trans hopen, fun hopen hready => ?_⟩
      have hshipped := (hships.live id s hget (hsame.symm.trans hopen)).1
      obtain ⟨app, ht⟩ := hshipped.tracked
      have hsent := hshipped.sent_le _ (.inl (hflight id off len fin rfl))
      exact ht.ready_ack (fun x _ hx => hx.trans_le hsent) (hspared s hget) hdrop hready
    exact h.rests hused (((Rests.setStream hget hstays).trans (.closeWhen _ _ _ _)).trans
      (.alike hm))
  | reset hget hm => exact h.rests hused ((Rests.closeWhen _ _ _ _).trans (.alike hm))
  | other => exact h

theorem lost (h : m.Lined) (hships : Ships strict flight delivered m) {frame : Frame}
    (hflight : ∀ id off len fin, frame = .stream id off len fin → (off, len, fin) ∈ flight id)
    (hfin : isEmptyFin frame = false) (hlost : Lost m frame m') : m'.Lined := by
  cases hlost with
  | @stream id off len fin s hget =>
    have hsame : (s.send.retransmit off len).isAbandoned = s.send.isAbandoned :=
      (continues_retransmit s.send off len).isAbandoned_eq
    have hstays : s.Stays { s with send := s.send.retransmit off len } := by
      refine ⟨rfl, rfl, fun hopen => hsame.symm.trans hopen, fun hopen hready => ?_⟩
      have hshipped := (hships.live id s hget (hsame.symm.trans hopen)).1
      obtain ⟨app, ht⟩ := hshipped.tracked
      have hsent := hshipped.sent_le _ (.inl (hflight id off len fin rfl))
      exact ht.ready_retransmit (fun x _ hx => hx.trans_le hsent) hready
    refine h.setSend hget (used_of_book_eq (book_setStream hget _)) hstays fun hpush => ?_
    rw [show (decide (len = 0) && fin) = false from hfin, Bool.or_false, Bool.and_eq_true,
      Bool.not_eq_true'] at hpush
    refine ⟨hpush.1, hpush.2, ?_⟩
    by_contra habandoned
    -- an abandoned stream sends nothing again
    have hcleared := hships.cleared id s hget (by simpa using habandoned)
    rw [(hcleared.retransmit off len).not_ready] at hpush
    cases hpush.1
  | maxData | maxStreamData => exact h.rests (used_of_book_eq rfl) (.of_same rfl rfl)
  | other hframe hm => exact h.alike hm

end Lined

end StreamMap

end Tquic
