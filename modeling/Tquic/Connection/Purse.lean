import Tquic.Connection.Identifiers
import Tquic.Stream.SendOffsets
import Tquic.Stream.SendQueues

/-!
# The send side of a connection

What sending depends on: the limits of the connection, the send buffers of all streams ever
created, and what waits to be sent about them. Every step of the stream map but a new limit moves
this part along `Purse.Step`, whose parameter says whether an abandoned stream may have something
left to send.
-/

namespace Tquic

open Exec SendBuf SortedMap

structure Purse where
  maxData : ℕ
  txData : ℕ
  capacity : ℕ
  streams : SortedMap ℕ SendBuf
  destroyed : List (ℕ × SendBuf)
  reset : SortedMap ℕ (ℕ × ℕ)
  dataBlocked : SortedMap ℕ ℕ
  queued : Set ℕ

variable {p : Purse}

namespace Purse

def setSend (p : Purse) (id : ℕ) (b : SendBuf) : Purse :=
  { p with streams := p.streams.insert id b }

def remove (p : Purse) (id : ℕ) (b : SendBuf) : Purse :=
  { p with streams := p.streams.erase id, destroyed := (id, b) :: p.destroyed }

def spend (p : Purse) (n : ℕ) : Purse :=
  { p with capacity := wrappingSub p.capacity n, txData := p.txData + n }

def giveBack (p : Purse) (n : ℕ) : Purse :=
  { p with txData := p.txData - n, capacity := wrappingSub p.maxData (p.txData - n) }

def grant (p : Purse) (n : ℕ) : Purse :=
  { p with maxData := max p.maxData n, capacity := wrappingSub (max p.maxData n) p.txData }

def setReset (p : Purse) (id code size : ℕ) : Purse :=
  { p with reset := p.reset.insert id (code, size) }

def Has (p : Purse) (id : ℕ) (b : SendBuf) : Prop :=
  p.streams.get? id = some b ∨ (id, b) ∈ p.destroyed

def Announced (p : Purse) (id size : ℕ) : Prop :=
  ∃ b, p.Has id b ∧ b.isAbandoned = true ∧ b.finOff = some size

inductive Step (loose : Prop) (p : Purse) : Purse → Prop
  | created (id maxTx : ℕ) (hget : p.streams.get? id = none)
      (hfresh : loose ∨ ∀ b, (id, b) ∉ p.destroyed) :
      Step loose p (p.setSend id (SendBuf.new maxTx))
  | continued {id : ℕ} {b b' : SendBuf} (hget : p.streams.get? id = some b)
      (hb : b.Continues b') : Step loose p (p.setSend id b')
  | wrote {id written : ℕ} {data : List UInt8} {fin : Bool} {b b' : SendBuf}
      (hget : p.streams.get? id = some b) (hroom : data.length ≤ p.capacity)
      (hwrite : b.write data fin = .ok (b', .ok written)) :
      Step loose p ((p.setSend id b').spend written)
  | abandoned {id size unsent : ℕ} {b b' : SendBuf} (code : ℕ)
      (hget : p.streams.get? id = some b) (hb : b.Abandons b' size unsent)
      (hquiet : loose ∨
        p.dataBlocked.get? id = none ∧ (b'.isStopped = true ∨ id ∉ p.queued)) :
      Step loose p (((p.setSend id b').giveBack unsent).setReset id code size)
  | removed {id : ℕ} {b : SendBuf} (hget : p.streams.get? id = some b) :
      Step loose p (p.remove id b)
  | resetSent (id : ℕ) : Step loose p { p with reset := p.reset.erase id }
  | resetLost {id size : ℕ} (code : ℕ) (h : p.Announced id size) :
      Step loose p (p.setReset id code size)
  | queued {id : ℕ} {b : SendBuf} {q : Set ℕ} (hget : p.streams.get? id = some b)
      (hq : q ⊆ insert id p.queued) (hwhy : b.ready = true ∨ loose ∨ b.isAbandoned = false) :
      Step loose p { p with queued := q }
  | unqueued {q : Set ℕ} (hq : q ⊆ p.queued) : Step loose p { p with queued := q }
  | blocked {id : ℕ} {b : SendBuf} (off : ℕ) (hget : p.streams.get? id = some b)
      (hwhy : b.Unfinished ∨ loose ∨ b.isAbandoned = false) :
      Step loose p { p with dataBlocked := p.dataBlocked.insert id off }
  | unblocked (id : ℕ) : Step loose p { p with dataBlocked := p.dataBlocked.erase id }

abbrev Path (loose : Prop) : Purse → Purse → Prop := Relation.ReflTransGen (Step loose)

theorem Path.of_eq {loose : Prop} {p' : Purse} (h : p' = p) : Path loose p p' := h ▸ .refl

end Purse

namespace StreamMap

variable {loose : Prop} {m m' : StreamMap} {id : ℕ} {s t : Stream}

def queuedIds (m : StreamMap) : Set ℕ :=
  {id | ∃ e ∈ m.sendable, id ∈ e.2.nonIncremental ∨ id ∈ e.2.incremental}

def purse (m : StreamMap) : Purse where
  maxData := m.sendCapacity.maxData
  txData := m.sendCapacity.txData
  capacity := m.sendCapacity.capacity
  streams := m.streams.mapValues Stream.send
  destroyed := m.destroyed.map fun e => (e.1, e.2.send)
  reset := m.reset
  dataBlocked := m.dataBlocked
  queued := m.queuedIds

/-! ## Core operations -/

theorem purse_get? (h : m.get? id = some s) : m.purse.streams.get? id = some s.send := by
  change (m.streams.mapValues Stream.send).get? id = _
  rw [get?_mapValues, show m.streams.get? id = some s from h]
  rfl

theorem purse_get?_none (h : m.get? id = none) : m.purse.streams.get? id = none := by
  change (m.streams.mapValues Stream.send).get? id = _
  rw [get?_mapValues, show m.streams.get? id = none from h]
  rfl

theorem purse_setStream (m : StreamMap) (id : ℕ) (s : Stream) :
    (m.setStream id s).purse = m.purse.setSend id s.send := by
  simp only [purse, setStream, Purse.setSend, mapValues_insert]
  rfl

theorem path_setStream (hget : m.get? id = some s) (hb : s.send.Continues t.send) :
    Purse.Path loose m.purse (m.setStream id t).purse := by
  rw [purse_setStream]
  exact .single (.continued (purse_get? hget) hb)

theorem path_setStream_same (hget : m.get? id = some s) (hsend : t.send = s.send) :
    Purse.Path loose m.purse (m.setStream id t).purse :=
  path_setStream hget (hsend ▸ .refl _)

theorem purse_ite {c : Prop} [Decidable c] (h : m.purse = p) (h' : m'.purse = p) :
    (if c then m else m').purse = p := by
  split_ifs
  · exact h
  · exact h'

/-! ### Queues -/

theorem mem_queuedIds : id ∈ m.queuedIds ↔ ∃ slot ∈ m.slots, slot.id = id := by
  constructor
  · rintro ⟨e, he, hmem⟩
    obtain ⟨slot, hslot, hid⟩ := StreamPriorityQueue.exists_mem_slots.mpr hmem
    exact ⟨slot, mem_slots.mpr ⟨e, he, hslot⟩, hid⟩
  · rintro ⟨slot, hslot, hid⟩
    obtain ⟨e, he, hslot⟩ := mem_slots.mp hslot
    exact ⟨e, he, StreamPriorityQueue.exists_mem_slots.mp ⟨slot, hslot, hid⟩⟩

theorem queuedIds_pushSendable (m : StreamMap) (id urgency : ℕ) (incremental : Bool) :
    (m.pushSendable id urgency incremental).queuedIds = insert id m.queuedIds := by
  ext id'
  rw [Set.mem_insert_iff, mem_queuedIds, mem_queuedIds, slots_pushSendable]
  simp only [Multiset.mem_cons, exists_eq_or_imp]
  rw [eq_comm]

theorem queuedIds_peekSendable (m : StreamMap) : m.peekSendable.1.queuedIds = m.queuedIds := by
  ext id
  rw [mem_queuedIds, mem_queuedIds, slots_peekSendable]

theorem mem_queuedIds_of_peekSendable (h : m.peekSendable.2 = some id) : id ∈ m.queuedIds := by
  obtain ⟨urgency, incremental, hslots⟩ : ∃ urgency incremental, m.slots =
      ⟨urgency, incremental, id⟩ ::ₘ m.peekSendable.1.removeSendable.slots :=
    slots_removeSendable h rfl
  exact mem_queuedIds.mpr ⟨_, hslots ▸ Multiset.mem_cons_self _ _, rfl⟩

theorem queuedIds_removeSendable (m : StreamMap) : m.removeSendable.queuedIds ⊆ m.queuedIds := by
  intro id hid
  obtain ⟨slot, hslot, rfl⟩ := mem_queuedIds.mp hid
  exact mem_queuedIds.mpr ⟨slot, Multiset.mem_of_le (slots_removeSendable_le m) hslot, rfl⟩

theorem path_pushWhen (h : Purse.Path loose p m.purse) (c : Prop) [Decidable c]
    (urgency : ℕ) (incremental : Bool) (hget : m.get? id = some s)
    (hwhy : c → s.send.ready = true ∨ loose ∨ s.send.isAbandoned = false) :
    Purse.Path loose p (if c then m.pushSendable id urgency incremental else m).purse := by
  split_ifs with hc
  · exact h.tail (.queued (purse_get? hget) (queuedIds_pushSendable m id urgency incremental).subset
      (hwhy hc))
  · exact h

section

variable (m : StreamMap)

theorem path_removeSendable : Purse.Path loose m.purse m.removeSendable.purse := by
  have heq : m.removeSendable.purse = { m.purse with queued := m.removeSendable.queuedIds } := by
    unfold removeSendable
    split
    · rfl
    · rfl
  rw [heq]
  exact .single (.unqueued (queuedIds_removeSendable m))

theorem path_peekSendable : Purse.Path loose m.purse m.peekSendable.1.purse := by
  have heq : m.peekSendable.1.purse = { m.purse with queued := m.peekSendable.1.queuedIds } := by
    unfold peekSendable
    split
    · rfl
    · rfl
  rw [heq]
  exact .single (.unqueued (queuedIds_peekSendable m).subset)

/-! ### Creating and closing streams -/

theorem path_streamDestroy (id : ℕ) : Purse.Path loose m.purse (m.streamDestroy id).purse := by
  unfold streamDestroy
  cases hget : m.get? id with
  | none => exact .refl
  | some s =>
    have heq : ({ m with
        streams := m.streams.erase id
        destroyed := (id, s) :: m.destroyed } : StreamMap).purse = m.purse.remove id s.send := by
      simp only [purse, Purse.remove, mapValues_erase, List.map_cons]
      rfl
    rw [heq]
    exact .single (.removed (purse_get? hget))

theorem path_announceClosed (id : ℕ) : Purse.Path loose m.purse (m.announceClosed id).purse := by
  unfold announceClosed
  cases m.events with
  | none => exact path_streamDestroy m id
  | some => exact .refl

theorem path_flagClosed (id : ℕ) : Purse.Path loose m.purse (m.flagClosed id).purse := by
  unfold flagClosed
  cases hget : m.get? id with
  | none => exact .refl
  | some => exact path_setStream_same hget rfl

theorem path_markClosed (id : ℕ) (isLocal : Bool) :
    Purse.Path loose m.purse (m.markClosed id isLocal).purse := by
  rw [markClosed_eq]
  by_cases hclosed : m.isClosed id = true
  · rw [if_pos hclosed]
  · rw [if_neg hclosed]
    have hflag : Purse.Path loose m.purse
        ((((m.giveCredit id isLocal).markReadable id false).markWritable id false).flagClosed
          id).purse :=
      path_flagClosed (((m.giveCredit id isLocal).markReadable id false).markWritable id false) id
    exact trans hflag (path_announceClosed _ id)

end

theorem path_closeWhen (h : Purse.Path loose p m.purse) (done : Prop) [Decidable done]
    (id : ℕ) (isLocal : Bool) :
    Purse.Path loose p (if done then m.markClosed id isLocal else m).purse := by
  split_ifs
  · exact h.trans (path_markClosed m id isLocal)
  · exact h

theorem path_closeIfDone (m : StreamMap) (id : ℕ) (s : Stream) :
    Purse.Path loose m.purse (m.closeIfDone id s).purse := by
  exact path_closeWhen .refl _ id s.isLocal

theorem purse_getOrCreate (m : StreamMap) (id : ℕ) (opener : Bool) :
    (m.getOrCreate id opener).1.purse = m.purse ∨
      m.get? id = none ∧ id / 4 ∈ m.book.availFor id ∧ ∃ maxTx,
        (m.getOrCreate id opener).1.purse = m.purse.setSend id (SendBuf.new maxTx) := by
  unfold getOrCreate
  by_cases hid : vintMax < id
  · rw [if_pos hid]
    exact .inl rfl
  rw [if_neg hid]
  cases hget : m.get? id with
  | some => exact .inl rfl
  | none =>
    dsimp only
    split_ifs with hclosed hopener
    · exact .inl rfl
    · exact .inl rfl
    split
    · exact .inl rfl
    · next c hcheck =>
        exact .inr ⟨rfl, mem_availFor hget (by simpa using hclosed) hcheck, _,
          purse_setStream m id (m.newStream id opener)⟩

theorem notMem_destroyed (hkept : m.book.Kept) (havail : id / 4 ∈ m.book.availFor id)
    (b : SendBuf) : (id, b) ∉ m.purse.destroyed := by
  intro hmem
  obtain ⟨e, he, heq⟩ := List.mem_map.mp hmem
  have hgone : id ∈ m.book.gone := List.mem_map.mpr ⟨e, he, (Prod.mk.inj heq).1⟩
  exact ((hkept.avail_iff id).mp havail).2 (.inr hgone)

theorem path_getOrCreate (hkept : loose ∨ m.book.Kept) (id : ℕ) (opener : Bool) :
    Purse.Path loose m.purse (m.getOrCreate id opener).1.purse := by
  rcases purse_getOrCreate m id opener with heq | ⟨hget, havail, maxTx, heq⟩
  · exact .of_eq heq
  · rw [heq]
    exact .single (.created id maxTx (purse_get?_none hget)
      (hkept.imp_right fun hkept => notMem_destroyed hkept havail))

variable {opener : Bool}

theorem path_of_getOrCreate (hkept : loose ∨ m.book.Kept) {m₁ : StreamMap}
    {r : Result Stream} (heq : m.getOrCreate id opener = (m₁, r)) :
    Purse.Path loose m.purse m₁.purse ∧ ∀ s, r = .ok s → m₁.get? id = some s := by
  have hpath := path_getOrCreate hkept id opener
  have hlook := getOrCreate_cases m id opener
  rw [heq] at hpath hlook
  exact ⟨hpath, fun s hr => hlook.get? hr⟩

theorem capacity_getOrCreate (m : StreamMap) (id : ℕ) (opener : Bool) :
    (m.getOrCreate id opener).1.purse.capacity = m.purse.capacity ∧
      (m.getOrCreate id opener).1.purse.dataBlocked = m.purse.dataBlocked := by
  rcases purse_getOrCreate m id opener with heq | ⟨-, -, maxTx, heq⟩
  · rw [heq]
    exact ⟨rfl, rfl⟩
  · rw [heq]
    exact ⟨rfl, rfl⟩

theorem Lookup.not_abandoned {out : StreamMap × Result Stream}
    (h : Lookup m id opener out) (hok : out.2 = .ok s)
    (hopen : ∀ s, m.get? id = some s → s.send.isAbandoned = false) :
    s.send.isAbandoned = false := by
  cases h with
  | failed => cases hok
  | found s hget =>
    cases hok
    exact hopen _ hget
  | created =>
    cases hok
    rfl

/-! ## Calls of the application -/

theorem path_streamSetPriority (hkept : loose ∨ m.book.Kept) (id urgency : ℕ) (incremental : Bool) :
    Purse.Path loose m.purse (m.streamSetPriority id urgency incremental).1.purse := by
  unfold streamSetPriority
  split
  · next m₁ e heq => exact (path_of_getOrCreate hkept heq).1
  · next m₁ s heq =>
      obtain ⟨hpath, hget⟩ := path_of_getOrCreate hkept heq
      exact hpath.trans (path_setStream_same (hget s rfl) rfl)

theorem path_streamSetContext (hkept : loose ∨ m.book.Kept) (id : ℕ) :
    Purse.Path loose m.purse (m.streamSetContext id).1.purse := by
  unfold streamSetContext
  split
  · next m₁ e heq => exact (path_of_getOrCreate hkept heq).1
  · next m₁ s heq => exact (path_of_getOrCreate hkept heq).1

theorem path_streamNew (hkept : loose ∨ m.book.Kept) (bidi : Bool) (urgency : ℕ)
    (incremental : Bool) :
    Purse.Path loose m.purse (m.streamNew bidi urgency incremental).1.purse := by
  have hpath := path_streamSetPriority hkept (m.nextStreamId bidi) urgency incremental
  unfold streamNew
  dsimp only
  split
  · next m₁ heq =>
      rw [heq] at hpath
      exact hpath
  · next m₁ e heq =>
      rw [heq] at hpath
      exact hpath

theorem path_wantWrite (m : StreamMap) (id : ℕ) (want : Bool) :
    Purse.Path loose m.purse (m.wantWrite id want).1.purse := by
  unfold wantWrite
  cases hget : m.get? id with
  | none => exact .refl
  | some =>
    refine path_setStream_same hget ?_
    unfold Stream.markWantwrite
    split_ifs
    all_goals rfl

theorem path_wantRead (m : StreamMap) (id : ℕ) (want : Bool) :
    Purse.Path loose m.purse (m.wantRead id want).1.purse := by
  unfold wantRead
  cases hget : m.get? id with
  | none => exact .refl
  | some =>
    refine path_setStream_same hget ?_
    unfold Stream.markWantread
    split_ifs
    all_goals rfl

theorem path_streamRead {cap : ℕ} {res : Result (List UInt8 × Bool)}
    (h : m.streamRead id cap = .ok (m', res)) : Purse.Path loose m.purse m'.purse := by
  unfold streamRead at h
  split_ifs at h
  · cases h
    exact .refl
  cases hget : m.get? id with
  | none =>
    rw [hget] at h
    cases h
    exact .refl
  | some s =>
    rw [hget] at h
    dsimp only at h
    split_ifs at h with hready
    · cases h
      exact .refl
    obtain ⟨⟨recv, r⟩, -, h⟩ := bind_eq_ok.mp h
    have hset : Purse.Path loose m.purse (m.setStream id { s with recv }).purse :=
      path_setStream_same hget rfl
    cases r with
    | error =>
      cases h
      exact path_closeWhen hset _ id s.isLocal
    | ok =>
      cases h
      refine path_closeWhen (hset.trans (Purse.Path.of_eq ?_)) _ id s.isLocal
      exact purse_ite (purse_ite rfl rfl) (purse_ite rfl rfl)

theorem path_noteBlocked (m : StreamMap) (id : ℕ) (s : Stream) (bufLen written n : ℕ)
    (hwhy : written < bufLen → s.send.Unfinished ∨ loose ∨ s.send.isAbandoned = false) :
    Purse.Path loose ((m.purse.setSend id s.send).spend n)
      ((m.noteBlocked id s bufLen written).purse.spend n) := by
  have hstored : ∀ b : SendBuf, ((m.purse.setSend id b).spend n).streams.get? id = some b :=
    fun b => get?_insert_self _ _ _
  have hnote : ∀ blockedAt, Purse.Path loose ((m.purse.setSend id s.send).spend n)
      ((m.purse.setSend id (s.send.updateBlockedAt blockedAt)).spend n) := by
    intro blockedAt
    have hstep : Purse.Step loose ((m.purse.setSend id s.send).spend n)
        (((m.purse.setSend id s.send).spend n).setSend id (s.send.updateBlockedAt blockedAt)) :=
      .continued (hstored _) (.of_same rfl rfl rfl rfl rfl fun hnil => hnil)
    have heq : ((m.purse.setSend id s.send).spend n).setSend id
        (s.send.updateBlockedAt blockedAt) =
        (m.purse.setSend id (s.send.updateBlockedAt blockedAt)).spend n := by
      simp only [Purse.setSend, Purse.spend, insert_insert]
    exact .single (heq ▸ hstep)
  unfold noteBlocked
  by_cases hshort : written < bufLen
  · rw [if_pos hshort]
    split_ifs with hnew
    · have hstep := (hnote (some s.send.maxData)).tail
        (.blocked s.send.maxData (hstored _) (hwhy hshort))
      rw [← purse_setStream m id { s with send := s.send.updateBlockedAt (some s.send.maxData) }]
        at hstep
      exact hstep
    · rw [purse_setStream]
  · rw [if_neg hshort]
    have hstep := (hnote none).tail (.unblocked id)
    rw [← purse_setStream m id { s with send := s.send.updateBlockedAt none }] at hstep
    exact hstep

theorem purse_noteConnBlocked (m : StreamMap) (len : ℕ) : (m.noteConnBlocked len).purse = m.purse :=
  purse_ite rfl rfl

theorem path_afterWrite (m : StreamMap) (id : ℕ) (old s : Stream)
    (bufLen expectWritten written : ℕ) (fin blockedByCap : Bool)
    (hblocked : written < bufLen → s.send.Unfinished ∨ loose ∨ s.send.isAbandoned = false)
    (hfinish : bufLen = 0 → fin = true → loose ∨ s.send.isAbandoned = false) :
    Purse.Path loose ((m.purse.setSend id s.send).spend written)
      (m.afterWrite id old s bufLen expectWritten written fin blockedByCap).purse := by
  refine (path_noteBlocked m id s bufLen written written hblocked).trans ?_
  unfold afterWrite
  dsimp only
  obtain ⟨s₀, hget₀, hwhy₀⟩ : ∃ s₀, (m.noteBlocked id s bufLen written).get? id = some s₀ ∧
      s₀.send.ready = s.send.ready ∧ s₀.send.isAbandoned = s.send.isAbandoned := by
    unfold noteBlocked
    split_ifs
    · exact ⟨_, get?_setStream_self _ _ _, rfl, rfl⟩
    · exact ⟨_, get?_setStream_self _ _ _, rfl, rfl⟩
    · exact ⟨_, get?_setStream_self _ _ _, rfl, rfl⟩
  generalize m.noteBlocked id s bufLen written = m₀ at hget₀ ⊢
  -- the queues
  generalize hm₁ : (if ((s.isSendable || (decide (bufLen = 0) && fin)) && !old.isSendable) = true
    then m₀.pushSendable id s.urgency s.incremental else m₀) = m₁
  have hpush : Purse.Path loose (m₀.purse.spend written) (m₁.purse.spend written) := by
    rw [← hm₁]
    split_ifs with hc
    · refine .single (.queued (b := s₀.send) (purse_get? hget₀)
        (queuedIds_pushSendable m₀ id s.urgency s.incremental).subset ?_)
      rw [hwhy₀.1, hwhy₀.2]
      simp only [Bool.and_eq_true, Bool.or_eq_true, decide_eq_true_eq] at hc
      rcases hc.1 with hready | ⟨hempty, hfin⟩
      · exact .inl hready
      · exact .inr (hfinish hempty hfin)
    · exact .refl
  refine hpush.trans ?_
  -- the writable set does not matter
  generalize hm₂ : (if (!s.isWritable) = true then m₁.markWritable id false
    else if (old.isWritable && blockedByCap) = true then m₁.markWritable id true else m₁) = m₂
  have hmarked : m₂.purse = m₁.purse := by
    rw [← hm₂]
    exact purse_ite rfl (purse_ite rfl rfl)
  have hspent : ({ m₂ with sendCapacity := { m₂.sendCapacity with
      capacity := wrappingSub m₂.sendCapacity.capacity written
      txData := m₂.sendCapacity.txData + written } } : StreamMap).purse =
      m₁.purse.spend written := by
    rw [← hmarked]
    rfl
  split_ifs
  · rw [← hspent]
    exact path_wantWrite _ id true
  · rw [← hspent]

variable {data : List UInt8} {res : Result Unit}

variable {fin : Bool}

/-- A write moves the purse only as its steps allow. -/
theorem path_writeTo {capacity : ℕ} {res : Result ℕ} (hget : m.get? id = some s)
    (hcap : capacity = m.purse.capacity)
    (hfinish : data = [] → fin = true → loose ∨ s.send.isAbandoned = false)
    (h : m.writeTo id capacity s data fin = .ok (m', res)) : Purse.Path loose m.purse m'.purse := by
  unfold writeTo at h
  by_cases hfull : capacity = 0 ∧ data ≠ []
  · rw [if_pos hfull] at h
    cases h
    have hmark : (if s.isWritable = true then m.markWritable id true else m).purse = m.purse :=
      purse_ite rfl rfl
    rw [← hmark]
    exact path_wantWrite _ id true
  rw [if_neg hfull] at h
  obtain ⟨⟨send, r⟩, hwrite, h⟩ := bind_eq_ok.mp h
  cases r with
  | error =>
    cases h
    obtain rfl := write_error hwrite
    exact path_setStream_same hget rfl
  | ok =>
    cases h
    have hroom : (data.take capacity).length ≤ m.purse.capacity := by
      rw [← hcap, List.length_take]
      exact min_le_left _ _
    refine .head (.wrote (purse_get? hget) hroom hwrite)
      (path_afterWrite m id s { s with send } _ _ _ _ _ ?_ ?_)
    · exact fun hshort => .inl (unfinished_of_write hwrite hshort)
    · intro hempty hfin
      obtain ⟨-, -, -, hextends, -⟩ := write_cases hwrite
      -- the connection has credit, so the data was empty from the start
      have hnil : data = [] := by
        by_contra hne
        rw [List.length_take] at hempty
        have hlen := List.length_pos_iff.mpr hne
        exact hfull ⟨by omega, hne⟩
      rw [show ({ s with send } : Stream).send.isAbandoned = s.send.isAbandoned from
        hextends.isAbandoned_eq]
      exact hfinish hnil (Bool.and_eq_true_iff.mp hfin).1

theorem path_streamWrite {res : Result ℕ} (hkept : loose ∨ m.book.Kept)
    (hfinish : data = [] → fin = true →
      loose ∨ ∀ s, m.get? id = some s → s.send.isAbandoned = false)
    (h : m.streamWrite id data fin = .ok (m', res)) : Purse.Path loose m.purse m'.purse := by
  unfold streamWrite at h
  split_ifs at h
  · cases h
    exact .refl
  have halike := noteConnBlocked_alike m data.length
  have hkept' : loose ∨ (m.noteConnBlocked data.length).book.Kept := by
    rw [halike.book_eq]
    exact hkept
  have hpath := path_getOrCreate hkept' id true
  have hlook := getOrCreate_cases (m.noteConnBlocked data.length) id true
  rw [purse_noteConnBlocked] at hpath
  split at h
  · next m₁ e heq =>
      rw [heq] at hpath
      cases h
      exact hpath
  · next m₁ s heq =>
      rw [heq] at hpath hlook
      -- opening the stream does not touch the credit
      have hcap : m₁.purse.capacity = m.sendCapacity.capacity := by
        have hsame := (capacity_getOrCreate (m.noteConnBlocked data.length) id true).1
        rw [heq, purse_noteConnBlocked] at hsame
        exact hsame
      refine hpath.trans (path_writeTo (hlook.get? rfl) hcap.symm ?_ h)
      intro hnil hfin
      refine (hfinish hnil hfin).imp_right fun hopen => hlook.not_abandoned rfl ?_
      intro s' hs'
      rw [halike.get?] at hs'
      exact hopen s' hs'

theorem path_streamShutdown (m : StreamMap) (id : ℕ) (direction : Direction) (err : ℕ)
    (hquiet : direction = .write → loose ∨ m.dataBlocked.get? id = none ∧ id ∉ m.queuedIds) :
    Purse.Path loose m.purse (m.streamShutdown id direction err).1.purse := by
  unfold streamShutdown
  cases hget : m.get? id with
  | none => exact .refl
  | some s =>
    cases direction with
    | read =>
      dsimp only
      split_ifs
      · exact .refl
      · unfold shutdownRead
        split
        · next recv e _ => exact path_setStream_same hget rfl
        · next recv unread _ =>
            refine (path_setStream_same (t := { s with recv }) hget rfl).trans ?_
            exact Purse.Path.of_eq (purse_ite rfl rfl)
    | write =>
      dsimp only
      split_ifs
      · exact .refl
      · unfold shutdownWrite
        split
        · next send e hshutdown =>
            obtain rfl := shutdownSend_error hshutdown
            exact path_setStream_same hget rfl
        · next send size unsent hshutdown =>
            have hstep : Purse.Step loose m.purse _ := .abandoned err (purse_get? hget)
              (abandons_shutdownSend hshutdown)
              ((hquiet rfl).imp_right fun hq => ⟨hq.1, .inr hq.2⟩)
            rw [← purse_setStream m id { s with send }] at hstep
            exact .single hstep

theorem path_streamWritable {len : ℕ} {res : Result Bool}
    (hopen : ∀ s, m.get? id = some s → loose ∨ s.send.isAbandoned = false)
    (h : m.streamWritable id len = .ok (m', res)) : Purse.Path loose m.purse m'.purse := by
  obtain ⟨r, -, h⟩ := bind_eq_ok.mp h
  cases r with
  | error =>
    cases h
    exact .refl
  | ok =>
    dsimp only at h
    split_ifs at h
    · cases h
      exact .refl
    obtain ⟨s, hs, h⟩ := bind_eq_ok.mp h
    have hm : m.get? id = some s := by
      cases hm : m.get? id with
      | none =>
        rw [hm] at hs
        cases hs
      | some =>
        rw [hm] at hs
        cases hs
        rfl
    have hget : (m.noteConnBlocked len).get? id = some s := by
      rw [(noteConnBlocked_alike m len).get?, hm]
    rw [← purse_noteConnBlocked m len]
    obtain ⟨r, -, h⟩ := bind_eq_ok.mp h
    cases r with
    | error =>
      cases h
      exact path_setStream_same hget rfl
    | ok =>
      dsimp only at h
      split_ifs at h
      · cases h
        -- the stream is stored as it was, and nothing is paid for
        have hstored : (m.noteConnBlocked len).purse.setSend id s.send =
            (m.noteConnBlocked len).purse := by
          rw [← purse_setStream, setStream_eq_self hget]
        have hnote := path_noteBlocked (m.noteConnBlocked len) id
          { s with writeThresh := max 1 len } len 0 0 fun _ => .inr (hopen s hm)
        rw [hstored] at hnote
        exact hnote
      · cases h
        exact path_setStream_same hget rfl
      · cases h
        exact path_setStream_same hget rfl

theorem path_pollEvent (m : StreamMap) : Purse.Path loose m.purse m.pollEvent.purse := by
  unfold pollEvent
  split
  · next id rest _ => exact path_streamDestroy ({ m with events := some rest } : StreamMap) id
  · exact .refl
  · exact .refl

/-! ## Frames of the peer -/

theorem purse_onMaxDataFrameReceived (m : StreamMap) (n : ℕ) :
    (m.onMaxDataFrameReceived n).purse = m.purse.grant n := by
  unfold onMaxDataFrameReceived
  dsimp only
  split_ifs
  · rfl
  · rfl

theorem purse_updatePeerStreamTransportParams (m : StreamMap) (tp : StreamTransportParams) :
    (m.updatePeerStreamTransportParams tp).purse = m.purse.grant tp.initialMaxData := rfl

section

variable (hkept : loose ∨ m.book.Kept)

include hkept

theorem path_onMaxStreamDataFrameReceived (id n : ℕ) :
    Purse.Path loose m.purse (m.onMaxStreamDataFrameReceived id n).1.purse := by
  unfold onMaxStreamDataFrameReceived
  split_ifs
  · exact .refl
  split
  · next m₁ e heq => exact (path_of_getOrCreate hkept heq).1
  · next m₁ s heq =>
      obtain ⟨hpath, hget⟩ := path_of_getOrCreate hkept heq
      have hset : Purse.Path loose m₁.purse
          (m₁.setStream id { s with send := s.send.updateMaxData n }).purse :=
        path_setStream (hget s rfl) (.of_same rfl rfl rfl rfl rfl fun hnil => hnil)
      have hpush := path_pushWhen hset
        ((({ s with send := s.send.updateMaxData n } : Stream).isSendable && !s.isSendable) = true)
        s.urgency s.incremental (get?_setStream_self _ _ _)
        fun hc => .inl (Bool.and_eq_true_iff.mp hc).1
      exact hpath.trans (hpush.trans (Purse.Path.of_eq (purse_ite rfl rfl)))

theorem path_onStopSendingFrameReceived (id code : ℕ)
    (hquiet : loose ∨ m.dataBlocked.get? id = none) :
    Purse.Path loose m.purse (m.onStopSendingFrameReceived id code).1.purse := by
  unfold onStopSendingFrameReceived
  split_ifs
  · exact .refl
  split
  · next m₁ e heq => exact (path_of_getOrCreate hkept heq).1
  · next m₁ s heq =>
      obtain ⟨hpath, hall⟩ := path_of_getOrCreate hkept heq
      refine hpath.trans ?_
      have hget := hall s rfl
      unfold stopSending
      split
      · next send e hstop =>
          obtain rfl := stop_error hstop
          exact path_setStream_same hget rfl
      · next send size unsent hstop =>
          have hblocked : m₁.dataBlocked = m.dataBlocked := by
            have hsame := (capacity_getOrCreate m id false).2
            rw [heq] at hsame
            exact hsame
          have hstep : Purse.Step loose m₁.purse _ := .abandoned code (purse_get? hget)
            (abandons_stop hstop)
            (hquiet.imp_right fun hq => ⟨(congrArg (·.get? id) hblocked).trans hq,
              .inl (isStopped_stop hstop)⟩)
          rw [← purse_setStream m₁ id { s with send }] at hstep
          refine .trans (.single hstep) (Purse.Path.of_eq ?_)
          exact purse_ite rfl rfl

theorem path_onResetStreamFrameReceived {code size : ℕ}
    (h : m.onResetStreamFrameReceived id code size = .ok (m', res)) :
    Purse.Path loose m.purse m'.purse := by
  unfold onResetStreamFrameReceived at h
  split_ifs at h
  · cases h
    exact .refl
  split at h
  · next m₁ e heq =>
      cases h
      exact (path_of_getOrCreate hkept heq).1
  · next m₁ s heq =>
      obtain ⟨hpath, hget⟩ := path_of_getOrCreate hkept heq
      refine hpath.trans ?_
      obtain ⟨⟨recv, r⟩, -, h⟩ := bind_eq_ok.mp h
      have hset : Purse.Path loose m₁.purse (m₁.setStream id { s with recv }).purse :=
        path_setStream_same (hget s rfl) rfl
      cases r with
      | error =>
        cases h
        exact hset
      | ok =>
        dsimp only at h
        split_ifs at h
        · cases h
          exact hset
        · cases h
          refine trans ?_ (path_closeIfDone _ id { s with recv })
          refine hset.trans (Purse.Path.of_eq ?_)
          exact purse_ite rfl rfl

theorem path_onStreamFrameReceived {off : ℕ}
    (h : m.onStreamFrameReceived id off data fin = .ok (m', res)) :
    Purse.Path loose m.purse m'.purse := by
  unfold onStreamFrameReceived at h
  split_ifs at h
  · cases h
    exact .refl
  split at h
  · next m₁ e heq =>
      cases h
      exact (path_of_getOrCreate hkept heq).1
  · next m₁ s heq =>
      obtain ⟨hpath, hget⟩ := path_of_getOrCreate hkept heq
      refine hpath.trans ?_
      unfold receiveData at h
      dsimp only at h
      split_ifs at h
      · cases h
        exact .refl
      obtain ⟨⟨recv, r⟩, -, h⟩ := bind_eq_ok.mp h
      have hset : Purse.Path loose m₁.purse (m₁.setStream id { s with recv }).purse :=
        path_setStream_same (hget s rfl) rfl
      cases r with
      | error =>
        cases h
        exact hset
      | ok =>
        cases h
        refine hset.trans (Purse.Path.of_eq ?_)
        exact purse_ite (purse_ite rfl rfl) (purse_ite rfl rfl)

theorem path_recvFrame {frame : PeerFrame}
    (hother : ∀ n, frame ≠ .maxData n)
    (hquiet : ∀ id code, frame = .stopSending id code → loose ∨ m.dataBlocked.get? id = none)
    (h : m.recvFrame frame = .ok (m', res)) : Purse.Path loose m.purse m'.purse := by
  cases frame with
  | resetStream => exact path_onResetStreamFrameReceived hkept h
  | stopSending id code =>
    obtain rfl := (congrArg Prod.fst (ok.inj h)).symm
    exact path_onStopSendingFrameReceived hkept id code (hquiet id code rfl)
  | stream => exact path_onStreamFrameReceived hkept h
  | maxData n => exact absurd rfl (hother n)
  | maxStreamData id n =>
    obtain rfl := (congrArg Prod.fst (ok.inj h)).symm
    exact path_onMaxStreamDataFrameReceived hkept id n
  | maxStreams =>
    obtain rfl := (congrArg Prod.fst (ok.inj h)).symm
    unfold onMaxStreamsFrameReceived
    split_ifs
    · exact .refl
    · exact .refl
  | dataBlocked =>
    cases h
    exact .refl
  | streamDataBlocked =>
    obtain rfl := (congrArg Prod.fst (ok.inj h)).symm
    unfold onStreamDataBlockedFrameReceived
    split_ifs
    · exact .refl
    · exact .refl
  | streamsBlocked =>
    obtain rfl := (congrArg Prod.fst (ok.inj h)).symm
    unfold onStreamsBlockedFrameReceived
    split_ifs
    · exact .refl
    · exact .refl

end

/-! ## Frames acknowledged or lost -/

theorem path_ackFrame {frame : Frame} (h : m.ackFrame frame = .ok m') :
    Purse.Path loose m.purse m'.purse := by
  cases frame with
  | stream id off len =>
    change m.onStreamFrameAcked id off len = .ok m' at h
    unfold onStreamFrameAcked at h
    cases hget : m.get? id with
    | none =>
      rw [hget] at h
      cases h
      exact .refl
    | some s =>
      rw [hget] at h
      obtain ⟨send, hack, h⟩ := bind_eq_ok.mp h
      cases h
      have hset : Purse.Path loose m.purse (m.setStream id { s with send }).purse :=
        path_setStream hget (continues_ackAndDrop hack)
      exact hset.trans (path_closeIfDone _ id { s with send })
  | resetStream id =>
    obtain rfl := (ok.inj h).symm
    unfold onResetStreamFrameAcked
    cases m.get? id with
    | none => exact .refl
    | some s => exact path_closeIfDone m id s
  | _ =>
    cases h
    exact .refl

def hasAbandoned (m : StreamMap) (id : ℕ) : Bool := (m.get? id).any fun s => s.send.isAbandoned

theorem hasAbandoned_of_get? (h : m.get? id = some s) : m.hasAbandoned id = s.send.isAbandoned := by
  rw [hasAbandoned, h, Option.any_some]

/-- The loss of the frame puts no abandoned stream back into a queue or table, as only an empty
frame with FIN and a STREAM_DATA_BLOCKED frame can. -/
def Spares (m : StreamMap) : Frame → Prop
  | .stream id _ len fin => len = 0 → fin = true → m.hasAbandoned id = false
  | .streamDataBlocked id _ => m.hasAbandoned id = false
  | _ => True

theorem path_loseFrame (m : StreamMap) (frame : Frame)
    (hreset : ∀ id code size, frame = .resetStream id code size → m.purse.Announced id size)
    (hspares : loose ∨ m.Spares frame) :
    Purse.Path loose m.purse (m.loseFrame frame).purse := by
  cases frame with
  | resetStream id code size =>
    change Purse.Path loose m.purse (m.onResetStreamFrameLost id code size).purse
    unfold onResetStreamFrameLost
    cases m.get? id with
    | none => exact .refl
    | some => exact .single (.resetLost code (hreset id code size rfl))
  | stream id off len fin =>
    change Purse.Path loose m.purse (m.onStreamFrameLost id off len fin).purse
    unfold onStreamFrameLost
    cases hget : m.get? id with
    | none => exact .refl
    | some s =>
      have hset : Purse.Path loose m.purse
          (m.setStream id { s with send := s.send.retransmit off len }).purse :=
        path_setStream hget (continues_retransmit s.send off len)
      refine path_pushWhen hset _ s.urgency s.incremental (get?_setStream_self _ _ _) ?_
      intro hc
      simp only [Bool.and_eq_true, Bool.or_eq_true, decide_eq_true_eq] at hc
      rcases hc.1 with hready | ⟨hempty, hfin⟩
      · exact .inl hready
      · refine .inr (hspares.imp_right fun hspares => ?_)
        have hopen := (hasAbandoned_of_get? hget).symm.trans (hspares hempty hfin)
        exact (continues_retransmit s.send off len).isAbandoned_eq.trans hopen
  | stopSending id code =>
    change Purse.Path loose m.purse (m.onStopSendingFrameLost id code).purse
    unfold onStopSendingFrameLost
    cases m.get? id with
    | none => exact .refl
    | some => exact .of_eq (purse_ite rfl rfl)
  | maxStreamData id =>
    change Purse.Path loose m.purse (m.onMaxStreamDataFrameLost id).purse
    unfold onMaxStreamDataFrameLost
    cases m.get? id with
    | none => exact .refl
    | some => exact .refl
  | streamDataBlocked id n =>
    change Purse.Path loose m.purse (m.onStreamDataBlockedFrameLost id n).purse
    unfold onStreamDataBlockedFrameLost
    cases hget : m.get? id with
    | none => exact .refl
    | some =>
      dsimp only
      split_ifs
      · refine .single (.blocked n (purse_get? hget) (.inr (hspares.imp_right ?_)))
        exact fun hspares => (hasAbandoned_of_get? hget).symm.trans hspares
      · exact .refl
  | dataBlocked | streamsBlocked => exact .of_eq (purse_ite rfl rfl)
  | maxData | maxStreams => exact .refl

end StreamMap

end Tquic
