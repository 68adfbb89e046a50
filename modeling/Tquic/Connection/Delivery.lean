import Tquic.Connection.NewStreams
import Tquic.Connection.Purse
import Tquic.Stream.Finishing

/-!
# Delivery of FIN

For every stream that is not abandoned, the STREAM frames in flight and acknowledged account for
what the send buffer has sent. The stream is closed when FIN was acknowledged, in a run in which
FIN is written together with data.
-/

namespace Tquic.StreamMap

open List SendBuf SortedMap

open SendBuf (Parcel Shipped)

variable {m m' : StreamMap} {id : ℕ} {s s' : Stream}

/-! ## Queues -/

theorem mem_queuedIds_removeSendable {id' : ℕ} (hnext : m.peekSendable.2 = some id)
    (hm : m'.sendable = m.peekSendable.1.sendable) (hne : id' ≠ id) (h : id' ∈ m.queuedIds) :
    id' ∈ m'.removeSendable.queuedIds := by
  obtain ⟨urgency, incremental, hslots⟩ := slots_removeSendable hnext hm
  obtain ⟨slot, hslot, rfl⟩ := mem_queuedIds.mp h
  rw [hslots, Multiset.mem_cons] at hslot
  refine mem_queuedIds.mpr ⟨slot, hslot.resolve_left fun heq => hne ?_, rfl⟩
  rw [heq]

/-! ## The invariant -/

def Used (m : StreamMap) (id : ℕ) : Prop :=
  (∃ s, m.get? id = some s) ∨ ∃ s, (id, s) ∈ m.destroyed

theorem used_iff : m.Used id ↔ m.book.used id := by
  refine or_congr mem_live_iff.symm ?_
  constructor
  · rintro ⟨s, hmem⟩
    exact mem_map.mpr ⟨(id, s), hmem, rfl⟩
  · intro hmem
    obtain ⟨e, he, rfl⟩ := mem_map.mp hmem
    exact ⟨e.2, he⟩

/-- If the stream has a send side that was not abandoned, its FIN is among the frames. -/
def Ended (strict : Prop) (delivered : Set Parcel) (s : Stream) : Prop :=
  strict → s.send.isAbandoned = false → (s.bidi || s.isLocal) = true →
    ∃ f, s.send.finOff = some f ∧ ∃ e ∈ delivered, e.Ends f

theorem Ended.mono {strict : Prop} {delivered delivered' : Set Parcel}
    (h : Ended strict delivered s) (hsub : delivered ⊆ delivered') :
    Ended strict delivered' s := by
  intro hstrict hopen hside
  obtain ⟨f, hfin, e, he, hends⟩ := h hstrict hopen hside
  exact ⟨f, hfin, e, hsub he, hends⟩

/-- The frames of every stream account for its send buffer; `strict` says that FIN is written with
data. -/
structure Ships (strict : Prop) (flight delivered : ℕ → Set Parcel) (m : StreamMap) : Prop where
  params : m.peerTransportParams.Encodable
  known : ∀ id, ∀ e ∈ flight id ∪ delivered id, m.Used id
  live : ∀ id s, m.get? id = some s → s.send.isAbandoned = false →
    s.send.Shipped strict (flight id) (delivered id) ∧ (s.send.ready = true → id ∈ m.queuedIds)
  cleared : ∀ id s, m.get? id = some s → s.send.isAbandoned = true → s.send.Cleared
  closed : ∀ id s, m.get? id = some s → s.closed = true → Ended strict (delivered id) s
  gone : ∀ id s, (id, s) ∈ m.destroyed → Ended strict (delivered id) s
  announced : ∀ events id, m.events = some events → .streamClosed id ∈ events →
    m.Used id ∧ ∀ s, m.get? id = some s → s.closed = true

variable {strict : Prop} {flight flight' delivered delivered' : ℕ → Set Parcel}

def docket (m : StreamMap) : SortedMap ℕ Stream × SortedMap ℕ StreamPriorityQueue ×
    List (ℕ × Stream) × Option (List StreamEvent) × StreamTransportParams :=
  (m.streams, m.sendable, m.destroyed, m.events, m.peerTransportParams)

def register (m : StreamMap) :
    List (ℕ × Stream) × Option (List StreamEvent) × StreamTransportParams :=
  (m.destroyed, m.events, m.peerTransportParams)

theorem Ships.congr (h : Ships strict flight delivered m) (heq : m'.docket = m.docket) :
    Ships strict flight delivered m' := by
  simp only [docket, Prod.mk.injEq] at heq
  obtain ⟨hstreams, hsendable, hdestroyed, hevents, hparams⟩ := heq
  have hget : ∀ id, m'.get? id = m.get? id := fun id => by rw [get?, hstreams, get?]
  have hused : ∀ id, m'.Used id ↔ m.Used id := fun id => by simp only [Used, hget, hdestroyed]
  have hqueued : m'.queuedIds = m.queuedIds := by rw [queuedIds, hsendable, queuedIds]
  refine ⟨hparams ▸ h.params, fun id e he => (hused id).mpr (h.known id e he), ?_, ?_, ?_, ?_, ?_⟩
  · intro id s hs hopen
    rw [hqueued]
    exact h.live id s ((hget id).symm.trans hs) hopen
  · exact fun id s hs => h.cleared id s ((hget id).symm.trans hs)
  · exact fun id s hs => h.closed id s ((hget id).symm.trans hs)
  · exact fun id s hs => h.gone id s (hdestroyed ▸ hs)
  · intro events id heq hmem
    obtain ⟨hin, hflag⟩ := h.announced events id (hevents.symm.trans heq) hmem
    exact ⟨(hused id).mpr hin, fun s hs => hflag s ((hget id).symm.trans hs)⟩

theorem Ships.alike (h : Ships strict flight delivered m) (hm : Alike m m') :
    Ships strict flight delivered m' := by
  obtain ⟨t, rfl⟩ := hm
  exact h.congr rfl

/-- The send buffer is abandoned, or it accounts for the frames and keeps its final size. -/
structure Turns (strict : Prop) (flight delivered : Set Parcel) (queued : Prop) (s s' : Stream) :
    Prop where
  closed : s'.closed = s.closed
  bidi : s'.bidi = s.bidi
  isLocal : s'.isLocal = s.isLocal
  still : s'.send.isAbandoned = false → s.send.isAbandoned = false
  shipped : s'.send.isAbandoned = false → s'.send.Shipped strict flight delivered
  queued : s'.send.isAbandoned = false → s'.send.ready = true → queued
  cleared : s'.send.isAbandoned = true → s'.send.Cleared
  final : s'.send.isAbandoned = false → ∀ f, s.send.finOff = some f → s'.send.finOff = some f

theorem Ended.turns {F D : Set Parcel} {q : Prop} (h : Ended strict D s)
    (hs : Turns strict F D q s s') : Ended strict D s' := by
  intro hstrict hopen hside
  rw [hs.bidi, hs.isLocal] at hside
  obtain ⟨f, hfin, hrest⟩ := h hstrict (hs.still hopen) hside
  exact ⟨f, hs.final hopen f hfin, hrest⟩

theorem Ships.put (h : Ships strict flight delivered m)
    (hstreams : m'.streams = m.streams.insert id s') (hrest : m'.register = m.register)
    (hqueue : ∀ id' ≠ id, id' ∈ m.queuedIds → id' ∈ m'.queuedIds)
    (hframes : ∀ id' ≠ id, flight' id' = flight id' ∧ delivered' id' = delivered id')
    (hmore : delivered id ⊆ delivered' id)
    (hlive : s'.send.isAbandoned = false → s'.send.Shipped strict (flight' id) (delivered' id) ∧
      (s'.send.ready = true → id ∈ m'.queuedIds))
    (hcleared : s'.send.isAbandoned = true → s'.send.Cleared)
    (hclosed : s'.closed = true → Ended strict (delivered' id) s')
    (hflag : m.Used id → (∀ s, m.get? id = some s → s.closed = true) → s'.closed = true) :
    Ships strict flight' delivered' m' := by
  simp only [register, Prod.mk.injEq] at hrest
  obtain ⟨hdestroyed, hevents, hparams⟩ := hrest
  have hself : m'.get? id = some s' := by
    rw [get?, hstreams]
    exact get?_insert_self _ _ _
  have hother : ∀ {id'}, id' ≠ id → m'.get? id' = m.get? id' := by
    intro id' hne
    rw [get?, hstreams]
    exact get?_insert_of_ne _ hne _
  have hcases : ∀ {id' t}, m'.get? id' = some t →
      id' = id ∧ t = s' ∨ id' ≠ id ∧ m.get? id' = some t := by
    intro id' t ht
    by_cases hid : id' = id
    · subst hid
      exact .inl ⟨rfl, Option.some.inj (ht.symm.trans hself)⟩
    · exact .inr ⟨hid, (hother hid).symm.trans ht⟩
  have hused : ∀ {id'}, m.Used id' → m'.Used id' := by
    intro id' hin
    by_cases hid : id' = id
    · exact .inl ⟨s', hid ▸ hself⟩
    · rcases hin with ⟨t, ht⟩ | ⟨t, ht⟩
      · exact .inl ⟨t, (hother hid).trans ht⟩
      · exact .inr ⟨t, hdestroyed ▸ ht⟩
  refine ⟨hparams ▸ h.params, ?_, ?_, ?_, ?_, ?_, ?_⟩
  · intro id' e he
    by_cases hid : id' = id
    · exact .inl ⟨s', hid ▸ hself⟩
    · rw [(hframes id' hid).1, (hframes id' hid).2] at he
      exact hused (h.known id' e he)
  · intro id' t ht hopen
    rcases hcases ht with ⟨rfl, rfl⟩ | ⟨hid, ht⟩
    · exact hlive hopen
    · obtain ⟨hshipped, hqueued⟩ := h.live id' t ht hopen
      rw [(hframes id' hid).1, (hframes id' hid).2]
      exact ⟨hshipped, fun hready => hqueue id' hid (hqueued hready)⟩
  · intro id' t ht
    rcases hcases ht with ⟨rfl, rfl⟩ | ⟨-, ht⟩
    · exact hcleared
    · exact h.cleared id' t ht
  · intro id' t ht
    rcases hcases ht with ⟨rfl, rfl⟩ | ⟨hid, ht⟩
    · exact hclosed
    · rw [(hframes id' hid).2]
      exact h.closed id' t ht
  · intro id' t ht
    apply (h.gone id' t (hdestroyed ▸ ht)).mono
    by_cases hid : id' = id
    · exact hid ▸ hmore
    · exact (hframes id' hid).2.symm.subset
  · intro events id' heq hmem
    obtain ⟨hin, hall⟩ := h.announced events id' (hevents.symm.trans heq) hmem
    refine ⟨hused hin, fun t ht => ?_⟩
    rcases hcases ht with ⟨rfl, rfl⟩ | ⟨-, ht⟩
    · exact hflag hin hall
    · exact hall t ht

theorem Ships.replace (h : Ships strict flight delivered m) (hget : m.get? id = some s)
    (hstreams : m'.streams = m.streams.insert id s') (hrest : m'.register = m.register)
    (hqueue : ∀ id' ≠ id, id' ∈ m.queuedIds → id' ∈ m'.queuedIds)
    (hframes : ∀ id' ≠ id, flight' id' = flight id' ∧ delivered' id' = delivered id')
    (hmore : delivered id ⊆ delivered' id)
    (hs : Turns strict (flight' id) (delivered' id) (id ∈ m'.queuedIds) s s') :
    Ships strict flight' delivered' m' := by
  refine h.put hstreams hrest hqueue hframes hmore
    (fun hopen => ⟨hs.shipped hopen, hs.queued hopen⟩) hs.cleared (fun hclosed => ?_)
    fun _ hall => hs.closed.trans (hall s hget)
  exact ((h.closed id s hget (hs.closed.symm.trans hclosed)).mono hmore).turns hs

/-! ## Closing and creating streams -/

section

variable (h : Ships strict flight delivered m)

include h

section

variable (hget : m.get? id = some s)

include hget

theorem Ships.turns_same
    (hsend : s'.send = s.send) (hclosed : s'.closed = s.closed) (hbidi : s'.bidi = s.bidi)
    (hlocal : s'.isLocal = s.isLocal) :
    Turns strict (flight id) (delivered id) (id ∈ m.queuedIds) s s' := by
  refine ⟨hclosed, hbidi, hlocal, ?_, ?_, ?_, ?_, ?_⟩ <;> rw [hsend]
  · exact fun hopen => hopen
  · exact fun hopen => (h.live id s hget hopen).1
  · exact fun hopen => (h.live id s hget hopen).2
  · exact h.cleared id s hget
  · exact fun _ _ hf => hf

theorem Ships.setRecv (recv : RecvBuf) :
    Ships strict flight delivered (m.setStream id { s with recv }) :=
  h.replace hget rfl rfl (fun _ _ hin => hin) (fun _ _ => ⟨rfl, rfl⟩) subset_rfl
    (h.turns_same hget rfl rfl rfl rfl)

theorem Ships.ended_of_complete (hdone : s.isComplete = true) : Ended strict (delivered id) s := by
  intro hstrict hopen hside
  have hsend : s.send.isComplete = true := by
    unfold Stream.isComplete at hdone
    cases hbidi : s.bidi with
    | true =>
      rw [hbidi, Bool.and_eq_true] at hdone
      exact hdone.1
    | false =>
      rw [hbidi, Bool.false_or] at hside
      rw [hbidi, hside] at hdone
      exact hdone
  exact (h.live id s hget hopen).1.complete hstrict hsend

theorem Ships.flag (hend : Ended strict (delivered id) s) :
    Ships strict flight delivered (m.setStream id s.markClosed) :=
  h.put rfl rfl (fun _ _ hin => hin) (fun _ _ => ⟨rfl, rfl⟩) subset_rfl (h.live id s hget)
    (h.cleared id s hget) (fun _ => hend) fun _ _ => rfl

end

theorem Ships.destroy
    (hend : ∀ s, m.get? id = some s → Ended strict (delivered id) s) :
    Ships strict flight delivered (m.streamDestroy id) := by
  unfold streamDestroy
  cases hget : m.get? id with
  | none => exact h
  | some s =>
    have hlive : ∀ {id' t}, (m.streams.erase id).get? id' = some t →
        id' ≠ id ∧ m.get? id' = some t := fun ht => (get?_erase_eq_some.mp ht).symm
    have hused : ∀ {id'}, m.Used id' → Used { m with
        streams := m.streams.erase id, destroyed := (id, s) :: m.destroyed } id' := by
      rintro id' (⟨t, ht⟩ | ⟨t, ht⟩)
      · by_cases hid : id' = id
        · exact .inr ⟨s, hid ▸ .head _⟩
        · exact .inl ⟨t, (get?_erase_of_ne _ hid).trans ht⟩
      · exact .inr ⟨t, .tail _ ht⟩
    refine ⟨h.params, fun id' e he => hused (h.known id' e he), ?_, ?_, ?_, ?_, ?_⟩
    · exact fun id' t ht hopen => h.live id' t (hlive ht).2 hopen
    · exact fun id' t ht => h.cleared id' t (hlive ht).2
    · exact fun id' t ht hclosed => h.closed id' t (hlive ht).2 hclosed
    · intro id' t ht
      rcases mem_cons.mp ht with heq | ht
      · cases heq
        exact hend _ hget
      · exact h.gone id' t ht
    · intro events id' heq hmem
      obtain ⟨hin, hflag⟩ := h.announced events id' heq hmem
      exact ⟨hused hin, fun t ht => hflag t (hlive ht).2⟩

theorem Ships.withEvents {es : Option (List StreamEvent)}
    (hes : ∀ events id, es = some events → .streamClosed id ∈ events →
      m.Used id ∧ ∀ s, m.get? id = some s → s.closed = true) :
    Ships strict flight delivered { m with events := es } :=
  ⟨h.params, h.known, h.live, h.cleared, h.closed, h.gone, hes⟩

theorem Ships.addEvent {e : StreamEvent}
    (he : ∀ id, e = .streamClosed id → m.Used id ∧ ∀ s, m.get? id = some s → s.closed = true) :
    Ships strict flight delivered (m.addEvent e) := by
  refine h.withEvents ?_
  intro events id heq hmem
  obtain ⟨old, hold, rfl⟩ := Option.map_eq_some_iff.mp heq
  rcases mem_append.mp hmem with hmem | hmem
  · exact h.announced old id hold hmem
  · exact he id (mem_singleton.mp hmem).symm

theorem Ships.closeWhen (hget : m.get? id = some s) {done : Bool}
    (hdone : done = true → s.isComplete = true) (isLocal : Bool) :
    Ships strict flight delivered (m.closeWhen done id isLocal) := by
  unfold StreamMap.closeWhen
  split_ifs with hc
  · unfold closeCore
    split_ifs
    · exact h
    · have hcredit : Ships strict flight delivered (m.giveCredit id isLocal) := h.congr rfl
      have hend := h.ended_of_complete hget (hdone hc)
      have hflag : Ships strict flight delivered ((m.giveCredit id isLocal).flagClosed id) := by
        unfold flagClosed
        rw [show (m.giveCredit id isLocal).get? id = some s from hget]
        exact hcredit.flag hget hend
      have hself : ((m.giveCredit id isLocal).flagClosed id).get? id = some s.markClosed := by
        unfold flagClosed
        rw [show (m.giveCredit id isLocal).get? id = some s from hget]
        exact get?_setStream_self _ _ _
      unfold announceClosed
      split
      · refine hflag.addEvent ?_
        rintro id' heq
        cases heq
        refine ⟨.inl ⟨_, hself⟩, fun t ht => ?_⟩
        cases hself.symm.trans ht
        rfl
      · refine hflag.destroy fun t ht => ?_
        cases hself.symm.trans ht
        exact hend
  · exact h

theorem Ships.enroll (hnew : ¬m.Used id) (c : ConcurrencyControl)
    (opener : Bool) : Ships strict flight delivered (m.enroll c id opener) := by
  have hempty : ∀ e, e ∉ flight id ∪ delivered id := fun e he => hnew (h.known id e he)
  have hflight : flight id = ∅ := Set.eq_empty_of_forall_notMem fun e he => hempty e (.inl he)
  have hdelivered : delivered id = ∅ := Set.eq_empty_of_forall_notMem fun e he => hempty e (.inr he)
  have hlimit : (maxStreamDataLimit opener (isBidi id) m.localTransportParams
      m.peerTransportParams).2 ≤ vintMax := by
    unfold maxStreamDataLimit
    split
    · exact h.params.bidiRemote
    · exact h.params.uni
    · exact h.params.bidiLocal
    · exact Nat.zero_le _
  have hput : Ships strict flight delivered { m.enroll c id opener with events := m.events } := by
    refine h.put rfl rfl (fun _ _ hin => hin) (fun _ _ => ⟨rfl, rfl⟩) subset_rfl ?_ nofun
      nofun fun hin => absurd hin hnew
    rw [hflight, hdelivered]
    exact fun _ => ⟨Shipped.new _ (hlimit.trans_lt (by decide)), nofun⟩
  exact hput.addEvent nofun

end

/-! ## Changes of a send buffer -/

theorem queuedIds_pushWhen (m : StreamMap) (push : Bool) (id : ℕ) (s : Stream) :
    m.queuedIds ⊆ (m.pushWhen push id s).queuedIds ∧
      (push = true → id ∈ (m.pushWhen push id s).queuedIds) := by
  cases push with
  | false => exact ⟨subset_rfl, nofun⟩
  | true =>
    have hsub := (queuedIds_pushSendable m id s.urgency s.incremental).superset
    exact ⟨(Set.subset_insert _ _).trans hsub, fun _ => hsub (.inl rfl)⟩

theorem register_pushWhen (m : StreamMap) (push : Bool) (id : ℕ) (s : Stream) :
    (m.pushWhen push id s).streams = m.streams ∧ (m.pushWhen push id s).register = m.register := by
  cases push with
  | false => exact ⟨rfl, rfl⟩
  | true => exact ⟨rfl, rfl⟩

theorem Ships.setSend (h : Ships strict flight delivered m) (hget : m.get? id = some s)
    {push : Bool}
    (hclosed : s'.closed = s.closed) (hbidi : s'.bidi = s.bidi) (hlocal : s'.isLocal = s.isLocal)
    (habandoned : s'.send.isAbandoned = s.send.isAbandoned)
    (hflight : ∀ id' ≠ id, flight' id' = flight id')
    (hshipped : s.send.isAbandoned = false → s.send.Shipped strict (flight id) (delivered id) →
      s'.send.Shipped strict (flight' id) (delivered id) ∧
        (∀ f, s.send.finOff = some f → s'.send.finOff = some f))
    (hcleared : s.send.Cleared → s'.send.Cleared)
    (hpush : s'.send.ready = true → s.send.ready = true ∨ push = true) :
    Ships strict flight' delivered ((m.setStream id s').pushWhen push id s) := by
  obtain ⟨hmore, hself⟩ := queuedIds_pushWhen (m.setStream id s') push id s
  obtain ⟨hstreams, hrest⟩ := register_pushWhen (m.setStream id s') push id s
  refine h.replace hget hstreams hrest (fun id' _ hin => hmore hin)
    (fun id' hne => ⟨hflight id' hne, rfl⟩) subset_rfl ?_
  refine ⟨hclosed, hbidi, hlocal, ?_, ?_, ?_, ?_, ?_⟩ <;> rw [habandoned] <;> intro hopen
  · exact hopen
  · exact (hshipped hopen (h.live id s hget hopen).1).1
  · intro hready
    rcases hpush hready with hold | hnew
    · exact hmore ((h.live id s hget hopen).2 hold)
    · exact hself hnew
  · exact hcleared (h.cleared id s hget hopen)
  · exact (hshipped hopen (h.live id s hget hopen).1).2

variable {send : SendBuf}

section

variable (h : Ships strict flight delivered m)

include h

theorem Ships.wrote (hget : m.get? id = some s) {n : ℕ}
    {data : List UInt8} {fin : Bool} (hfinish : strict → fin = true → s.send.FinishedWith data)
    (hwrite : s.send.write data fin = .ok (send, .ok n))
    (hs : ({ s with send } : Stream).Resembles s') :
    Ships strict flight delivered ((m.setStream id s').pushWhen
      ((send.ready || (data.length = 0 && fin)) && !s.isSendable) id s) := by
  obtain ⟨blockedAt, hsend⟩ := hs.send
  obtain ⟨room, -, -, hextends, -⟩ := write_cases hwrite
  refine h.setSend hget hs.closed hs.bidi hs.isLocal ?_ (fun _ _ => rfl) ?_ ?_ ?_
  · rw [hsend]
    exact hextends.isAbandoned_eq
  · intro _ hshipped
    rw [hsend]
    refine ⟨(hshipped.write hfinish hwrite).updateBlockedAt blockedAt, fun f hf => ?_⟩
    obtain ⟨app, ht⟩ := hshipped.tracked
    have hkeep : send.finOff = some f := ht.write_final hf hwrite
    exact hkeep
  · intro hcleared
    rw [hsend]
    exact (hcleared.write hwrite).updateBlockedAt blockedAt
  · intro hready
    rw [hsend] at hready
    have hready' : send.ready = true := hready
    cases hold : s.send.ready with
    | true => exact .inl rfl
    | false => simp [hready', Stream.isSendable, hold]

theorem Ships.abandoned (hget : m.get? id = some s)
    (hb : send.isAbandoned = true) {code : ℕ} {r : ℕ × ℕ}
    (hgone : s.send.stop code = (send, .ok r) ∨ s.send.shutdownSend = (send, .ok r)) :
    Ships strict flight delivered (m.setStream id { s with send }) := by
  have hnot : ¬send.isAbandoned = false := by simp [hb]
  have hcleared : send.Cleared := by
    cases hopen : s.send.isAbandoned with
    | false => exact (h.live id s hget hopen).1.cleared hgone
    | true =>
      have hbefore := h.cleared id s hget hopen
      exact cleared_of_abandons hbefore.lt hbefore.below hgone
  refine h.replace hget rfl rfl (fun _ _ hin => hin) (fun _ _ => ⟨rfl, rfl⟩) subset_rfl ?_
  exact ⟨rfl, rfl, rfl, fun hopen => absurd hopen hnot, fun hopen => absurd hopen hnot,
    fun hopen => absurd hopen hnot, fun _ => hcleared, fun hopen => absurd hopen hnot⟩

theorem Ships.maxDataRaised (hget : m.get? id = some s)
    {maxData : ℕ} (hmax : maxData ≤ vintMax) :
    Ships strict flight delivered ((m.setStream id
      { s with send := s.send.updateMaxData maxData }).pushWhen
        ((s.send.updateMaxData maxData).ready && !s.isSendable) id s) := by
  refine h.setSend hget rfl rfl rfl rfl (fun _ _ => rfl) ?_
    (fun hcleared => hcleared.updateMaxData maxData) ?_
  · intro _ hshipped
    exact ⟨hshipped.updateMaxData (hmax.trans_lt (by decide)), fun f hf => hf⟩
  · exact fun hready => .inl hready

theorem Ships.lost (hget : m.get? id = some s) {e : Parcel}
    (he : e ∈ flight id) (hother : ∀ id' ≠ id, flight' id' = flight id')
    (hsub : flight' id ⊆ flight id) (hrest : flight id ⊆ insert e (flight' id)) :
    Ships strict flight' delivered ((m.setStream id
      { s with send := s.send.retransmit e.1 e.2.1 }).pushWhen
        (((s.send.retransmit e.1 e.2.1).ready || (e.2.1 = 0 && e.2.2)) && !s.isSendable) id s) := by
  have hcontinues := continues_retransmit s.send e.1 e.2.1
  refine h.setSend hget rfl rfl rfl hcontinues.isAbandoned_eq hother ?_
    (fun hcleared => hcleared.retransmit e.1 e.2.1) ?_
  · intro _ hshipped
    exact ⟨hshipped.lose he hsub hrest, fun f hf => hcontinues.finOff_eq.trans hf⟩
  · intro hready
    have hready' : (s.send.retransmit e.1 e.2.1).ready = true := hready
    cases hold : s.send.ready with
    | true => exact .inl rfl
    | false => simp [hready', Stream.isSendable, hold]

theorem Ships.acked (hget : m.get? id = some s) {e : Parcel}
    (he : e ∈ flight id)
    (hother : ∀ id' ≠ id, flight' id' = flight id' ∧ delivered' id' = delivered id')
    (hsub : flight' id ⊆ flight id) (hrest : flight id ⊆ insert e (flight' id))
    (hdelivered : delivered' id = insert e (delivered id))
    (hack : s.send.ackAndDrop e.1 e.2.1 = .ok send) :
    Ships strict flight' delivered' (m.setStream id { s with send }) := by
  have hcontinues := continues_ackAndDrop hack
  refine h.replace hget rfl rfl (fun _ _ hin => hin) hother (hdelivered ▸ Set.subset_insert e _) ?_
  rw [hdelivered]
  refine ⟨rfl, rfl, rfl, ?_, ?_, ?_, ?_, ?_⟩ <;> dsimp only <;> rw [hcontinues.isAbandoned_eq] <;>
    intro hopen
  · exact hopen
  · exact (h.live id s hget hopen).1.ack he hsub hrest hack
  · intro hready
    obtain ⟨hshipped, hqueued⟩ := h.live id s hget hopen
    obtain ⟨app, ht⟩ := hshipped.tracked
    have hsent : ∀ x, e.1 ≤ x → x < e.1 + e.2.1 → x < s.send.unsentOff :=
      fun x _ hx => hx.trans_le (hshipped.sent_le e (.inl he))
    exact hqueued (ht.ready_of_ack hsent hack hready)
  · exact (h.cleared id s hget hopen).ackAndDrop hack
  · exact fun f hf => hcontinues.finOff_eq.trans hf

end

/-! ## Moves -/

theorem Ships.requeue (h : Ships strict flight delivered m) (hstreams : m'.streams = m.streams)
    (hrest : m'.register = m.register)
    (hqueue : ∀ id s, m.get? id = some s → s.send.isAbandoned = false → id ∈ m.queuedIds →
      id ∈ m'.queuedIds) : Ships strict flight delivered m' := by
  have hget : ∀ id, m'.get? id = m.get? id := fun id => by rw [get?, hstreams, get?]
  have hsame : Ships strict flight delivered { m' with sendable := m.sendable } := by
    apply h.congr
    simp only [register, Prod.mk.injEq] at hrest
    simp only [docket, hstreams, hrest]
  refine ⟨hsame.params, hsame.known, ?_, hsame.cleared, hsame.closed, hsame.gone, hsame.announced⟩
  intro id s hs hopen
  obtain ⟨hshipped, hqueued⟩ := hsame.live id s hs hopen
  exact ⟨hshipped, fun hready => hqueue id s ((hget id).symm.trans hs) hopen (hqueued hready)⟩

theorem register_peekSendable (m : StreamMap) :
    m.peekSendable.1.streams = m.streams ∧ m.peekSendable.1.register = m.register := by
  unfold peekSendable
  split <;> exact ⟨rfl, rfl⟩

theorem register_removeSendable (m : StreamMap) :
    m.removeSendable.streams = m.streams ∧ m.removeSendable.register = m.register := by
  unfold removeSendable
  split <;> exact ⟨rfl, rfl⟩

theorem Ships.consume (h : Ships strict flight delivered m) (delta : ℕ) :
    Ships strict flight delivered (m.consume delta) := h.congr rfl

theorem Ships.charge (h : Ships strict flight delivered m) (delta : ℕ) :
    Ships strict flight delivered (m.charge delta) := h.congr rfl

theorem docket_fillWhen (m : StreamMap) (full : Bool) (id : ℕ) :
    (m.fillWhen full id).docket = m.docket := by
  unfold fillWhen
  split_ifs
  · rfl
  · rfl

theorem get?_fillWhen (m : StreamMap) (full : Bool) (id id' : ℕ) :
    (m.fillWhen full id).get? id' = m.get? id' := by
  unfold fillWhen
  split_ifs
  · rfl
  · rfl

theorem get?_consume_self {full : Bool} {n : ℕ} :
    (((m.setStream id s).fillWhen full id).consume n).get? id = some s :=
  (get?_fillWhen _ _ _ _).trans (get?_setStream_self m id s)

variable {p : Promise}

/-- Every change of the map keeps account of the frames of each stream. -/
theorem Ships.change (h : Ships strict flight delivered m) (hkept : m.book.Kept)
    (hp : strict → ∀ s data, p.finish s data → s.send.FinishedWith data)
    (hchange : Change p m m') :
    Ships strict flight delivered m' := by
  cases hchange with
  | tables hm => exact h.alike hm
  | created c id opener hget hid hclosed hopener hcheck =>
    refine h.enroll (fun hused => ?_) c opener
    exact ((hkept.avail_iff id).mp (mem_availFor hget hclosed hcheck)).2 (used_iff.mp hused)
  | @touched id s s' _ hget hs hm =>
    obtain ⟨blockedAt, hsend⟩ := hs.send
    have hset : Ships strict flight delivered ((m.setStream id s').pushWhen false id s) := by
      apply h.setSend hget hs.closed hs.bidi hs.isLocal _ (fun _ _ => rfl)
      · intro _ hshipped
        rw [hsend]
        exact ⟨hshipped.updateBlockedAt blockedAt, fun f hf => hf⟩
      · intro hcleared
        rw [hsend]
        exact hcleared.updateBlockedAt blockedAt
      · intro hready
        rw [hsend] at hready
        exact .inl hready
      · rw [hsend]
        rfl
    exact hset.alike hm
  | prioritized urgency incremental hget =>
    exact h.replace hget rfl rfl (fun _ _ hin => hin) (fun _ _ => ⟨rfl, rfl⟩) subset_rfl
      (h.turns_same hget rfl rfl rfl rfl)
  | @read id cap s recv out fin _ hget hready hread hm =>
    have hset : Ships strict flight delivered (((m.setStream id { s with recv }).fillWhen
        recv.shouldSendMaxData id).consume out.length) :=
      ((h.setRecv hget recv).congr (docket_fillWhen _ _ _)).consume _
    exact (hset.closeWhen get?_consume_self (fun hdone => hdone) _).alike hm
  | readFailed hget hready hread hm =>
    refine alike ((h.setRecv hget _).closeWhen (get?_setStream_self m _ _) ?_ _) hm
    exact fun hdone => hdone
  | wrote hget hfinish hwrite hs hm =>
    exact (h.wrote hget (fun hstrict hfin => hp hstrict _ _ (hfinish hfin)) hwrite hs).alike hm
  | shutdownRead hget hallowed hshutdown hm =>
    exact ((h.setRecv hget _).consume _).alike hm
  | @shutdownWrite id s send r _ hget hallowed hshutdown hm =>
    have hgone : s.send.stop 0 = (send, .ok r) ∨ s.send.shutdownSend = (send, .ok r) :=
      .inr hshutdown
    exact (h.abandoned hget (abandons_shutdownSend hshutdown).abandoned hgone).alike hm
  | stopped hget hstop hm =>
    exact (h.abandoned hget (abandons_stop hstop).abandoned (.inl hstop)).alike hm
  | maxDataRaised hget hmax hm => exact (h.maxDataRaised hget hmax).alike hm
  | received hget hframe hleft hwrite hm =>
    refine alike ?_ hm
    split_ifs
    · exact ((h.setRecv hget _).charge _).consume _
    · exact (h.setRecv hget _).charge _
  | wasReset hget hframe hleft hreset hm =>
    refine alike (((closeWhen (h.setRecv hget _) (get?_setStream_self m _ _) ?_
      _).charge _).consume _) hm
    intro hdone
    rw [Bool.and_eq_true] at hdone
    exact hdone.1
  | peerLimit => exact h.congr rfl
  | peerParams tp htp => exact ⟨htp, h.known, h.live, h.cleared, h.closed, h.gone, h.announced⟩
  | @polled e rest hevents _ hm =>
    have hfewer : Ships strict flight delivered { m with events := some rest } := by
      refine h.withEvents ?_
      intro events id heq hmem
      cases heq
      exact h.announced _ id hevents (.tail _ hmem)
    subst hm
    cases e with
    | streamCreated => exact hfewer
    | streamClosed id =>
      refine hfewer.destroy fun s hget => ?_
      exact h.closed id s hget ((h.announced _ id hevents mem_cons_self).2 s hget)

theorem Ships.emission {w w' : Writer} (h : Ships strict flight delivered w.map)
    (he : Writer.Emission w w') (hsame : w'.frames = w.frames → flight' = flight)
    (hnew : ∀ id off len fin, w'.frames = w.frames ++ [.stream id off len fin] →
      flight' id = insert (off, len, fin) (flight id) ∧ ∀ id' ≠ id, flight' id' = flight id') :
    Ships strict flight' delivered w'.map := by
  obtain ⟨hstreams, hrest⟩ := register_peekSendable w.map
  have hpeek := (queuedIds_peekSendable w.map).superset
  cases he with
  | idle =>
    rw [hsame rfl]
    exact h.requeue hstreams hrest fun _ _ _ _ hin => hpeek hin
  | dropped id hnext hstale =>
    obtain ⟨hstreams', hrest'⟩ := register_removeSendable w.map.peekSendable.1
    rw [hsame rfl]
    refine h.requeue (hstreams'.trans hstreams) (hrest'.trans hrest) ?_
    intro id' s hget hopen hin
    refine mem_queuedIds_removeSendable hnext rfl ?_ hin
    -- a stream that is dropped from the queues was stopped
    rintro rfl
    have hstopped := hstale s hget
    simp [isAbandoned, hstopped] at hopen
  | emitted id s outLen dataLen len send data fin hnext hget hstopped hread =>
    obtain ⟨hself, hother⟩ := hnew id s.send.sendOff dataLen fin rfl
    have hcontinues := continues_read hread
    obtain ⟨hstreams', hrest'⟩ :=
      register_removeSendable (w.map.peekSendable.1.setStream id { s with send })
    have hinsert : (w.map.peekSendable.1.setStream id { s with send }).streams =
        w.map.streams.insert id { s with send } := by rw [← hstreams]; rfl
    have hturns : ∀ {q : Prop}, (send.ready = true → q) →
        Turns strict (flight' id) (delivered id) q s { s with send } := by
      intro q hq
      refine ⟨rfl, rfl, rfl, ?_, ?_, fun _ => hq, ?_, fun _ f hf => hcontinues.finOff_eq.trans hf⟩
      · exact fun hopen => hcontinues.isAbandoned_eq.symm.trans hopen
      · intro hopen
        have hlive := h.live id s hget (hcontinues.isAbandoned_eq.symm.trans hopen)
        rw [hself]
        exact hlive.1.read hread
      · intro habandoned
        exact (h.cleared id s hget (hcontinues.isAbandoned_eq.symm.trans habandoned)).read hread
    dsimp only
    split_ifs with hready
    · refine h.replace hget hinsert hrest (fun id' _ hin => hpeek hin)
        (fun id' hne => ⟨hother id' hne, rfl⟩) subset_rfl
        (hturns fun _ => hpeek (mem_queuedIds_of_peekSendable hnext))
    · refine h.replace hget (hstreams'.trans hinsert) (hrest'.trans hrest) ?_
        (fun id' hne => ⟨hother id' hne, rfl⟩) subset_rfl (hturns fun hsend => absurd hsend hready)
      exact fun id' hne hin => mem_queuedIds_removeSendable hnext rfl hne hin

theorem Ships.control {now srtt : ℕ} {w w' : Writer} (h : Ships strict flight delivered w.map)
    (hc : Writer.Control now srtt w w') :
    Ships strict flight delivered w'.map ∧ ∀ id off len fin,
      .stream id off len fin ∈ w'.frames ↔ .stream id off len fin ∈ w.frames := by
  have hadd : ∀ {frame : Frame}, (∀ id off len fin, frame ≠ .stream id off len fin) →
      ∀ id off len fin, .stream id off len fin ∈ w.frames ++ [frame] ↔
        .stream id off len fin ∈ w.frames := by
    intro frame hother id off len fin
    rw [mem_append, mem_singleton]
    exact ⟨fun hmem => hmem.resolve_right (hother id off len fin).symm, .inl⟩
  cases hc with
  | maxStreams => exact ⟨h.congr rfl, hadd nofun⟩
  | forgotten => exact ⟨h.congr rfl, fun _ _ _ _ => .rfl⟩
  | tuned id s hget => exact ⟨h.setRecv hget _, fun _ _ _ _ => .rfl⟩
  | maxStreamData id s len hget => exact ⟨(h.setRecv hget _).congr rfl, hadd nofun⟩
  | connTuned => exact ⟨h.congr rfl, fun _ _ _ _ => .rfl⟩
  | maxData => exact ⟨h.congr rfl, hadd nofun⟩
  | other frame len t hframe =>
    refine ⟨h.congr rfl, hadd ?_⟩
    rintro id off len fin rfl
    exact hframe

theorem Ships.forget (h : Ships strict flight delivered m) (hget : m.get? id = none)
    (hsub : flight' id ∪ delivered' id ⊆ flight id ∪ delivered id)
    (hmore : delivered id ⊆ delivered' id)
    (hother : ∀ id' ≠ id, flight' id' = flight id' ∧ delivered' id' = delivered id') :
    Ships strict flight' delivered' m := by
  have hgrow : ∀ id', delivered id' ⊆ delivered' id' := by
    intro id'
    by_cases hid : id' = id
    · exact hid ▸ hmore
    · exact (hother id' hid).2.symm.subset
  refine ⟨h.params, ?_, ?_, h.cleared,
    fun id' s hs hclosed => (h.closed id' s hs hclosed).mono (hgrow id'),
    fun id' s hs => (h.gone id' s hs).mono (hgrow id'), h.announced⟩
  · intro id' e he
    by_cases hid : id' = id
    · subst hid
      exact h.known id' e (hsub he)
    · rw [(hother id' hid).1, (hother id' hid).2] at he
      exact h.known id' e he
  · intro id' s hs hopen
    have hne : id' ≠ id := fun heq => by rw [heq, hget] at hs; cases hs
    rw [(hother id' hne).1, (hother id' hne).2]
    exact h.live id' s hs hopen

namespace Wire

variable {x x' : Wire}

def Travels (x : Wire) (frame : Frame) : Prop :=
  frame ∈ x.draft ∨ (∃ packet ∈ x.sent, frame ∈ packet) ∨ frame ∈ x.lost ∨ frame ∈ x.acking

def onWay (x : Wire) (id : ℕ) : Set Parcel := {e | x.Travels (.stream id e.1 e.2.1 e.2.2)}

def handled (x : Wire) : List Frame := x.acked.take (x.acked.length - x.acking.length)

def arrived (x : Wire) (id : ℕ) : Set Parcel := {e | .stream id e.1 e.2.1 e.2.2 ∈ x.handled}

theorem handled_eq {frames : List Frame} (h : frames ++ x.acking = x.acked) :
    x.handled = frames := by
  simp [handled, ← h]

theorem handled_of_none (h : x.acking = []) : x.handled = x.acked :=
  handled_eq (by simp [h])

variable {frame : Frame} {rest : List Frame}

theorem handled_cons (hsuffix : x.acking <:+ x.acked) (hacking : x.acking = frame :: rest)
    (m : StreamMap) :
    ({ x with map := m, acking := rest } : Wire).handled = x.handled ++ [frame] := by
  obtain ⟨frames, hframes⟩ := hsuffix
  rw [handled_eq hframes]
  apply handled_eq
  rw [append_assoc, ← hframes, hacking]
  rfl

structure Delivering (strict : Prop) (x : Wire) : Prop where
  ships : Ships strict x.onWay x.arrived x.map
  kept : x.map.book.Kept
  acking : x.acking <:+ x.acked

theorem mem_sent_iff {sent : List (List Frame)} {k : ℕ} {frames : List Frame}
    (hk : sent[k]? = some frames) (frame : Frame) :
    (∃ packet ∈ sent, frame ∈ packet) ↔
      (∃ packet ∈ sent.eraseIdx k, frame ∈ packet) ∨ frame ∈ frames := by
  constructor
  · rintro ⟨packet, hpacket, hmem⟩
    rcases mem_iff_getElem?.mp hpacket with ⟨i, hi⟩
    by_cases hik : i = k
    · subst hik
      rw [hk] at hi
      cases hi
      exact .inr hmem
    · exact .inl ⟨packet, mem_eraseIdx_iff_getElem?.mpr ⟨i, hik, hi⟩, hmem⟩
  · rintro (⟨packet, hpacket, hmem⟩ | hmem)
    · exact ⟨packet, mem_of_mem_eraseIdx hpacket, hmem⟩
    · exact ⟨frames, mem_of_getElem? hk, hmem⟩

theorem onWay_of_handled (h : ∀ g, x.Travels g ↔ g = frame ∨ x'.Travels g) (id : ℕ) :
    x'.onWay id ⊆ x.onWay id ∧
      ((∀ off len fin, frame ≠ .stream id off len fin) → x'.onWay id = x.onWay id) ∧
      ∀ off len fin, frame = .stream id off len fin →
        (off, len, fin) ∈ x.onWay id ∧ x.onWay id ⊆ insert (off, len, fin) (x'.onWay id) := by
  have hsub : x'.onWay id ⊆ x.onWay id := fun e he => (h _).mpr (.inr he)
  refine ⟨hsub, fun hother => hsub.antisymm fun e he => ?_, ?_⟩
  · exact ((h _).mp he).resolve_left fun heq => hother e.1 e.2.1 e.2.2 heq.symm
  · rintro off len fin rfl
    refine ⟨(h _).mpr (.inl rfl), fun e he => ?_⟩
    rcases (h _).mp he with heq | he
    · cases heq
      exact .inl rfl
    · exact .inr he

theorem ships_of_handled (h : Ships strict x.onWay x.arrived m)
    (htravels : ∀ g, x.Travels g ↔ g = frame ∨ x'.Travels g)
    (hnew : ∀ g ∈ x'.handled, g ∈ x.handled ∨ g = frame) (hold : ∀ g ∈ x.handled, g ∈ x'.handled)
    (hframe : ∀ id off len fin, frame = .stream id off len fin → m.get? id = none) :
    Ships strict x'.onWay x'.arrived m := by
  -- the streams that the frame is not about
  have hother : ∀ id, (∀ off len fin, frame ≠ .stream id off len fin) →
      x'.onWay id = x.onWay id ∧ x'.arrived id = x.arrived id := by
    intro id hne
    refine ⟨(onWay_of_handled htravels id).2.1 hne, Set.Subset.antisymm ?_ fun e he => hold _ he⟩
    exact fun e he => (hnew _ he).resolve_right fun heq => hne e.1 e.2.1 e.2.2 heq.symm
  by_cases hstream : ∃ id off len fin, frame = .stream id off len fin
  · obtain ⟨id, off, len, fin, rfl⟩ := hstream
    refine h.forget (hframe id off len fin rfl) ?_ (fun e he => hold _ he) ?_
    · rintro e (he | he)
      · exact .inl ((onWay_of_handled htravels id).1 he)
      · rcases hnew _ he with he | heq
        · exact .inr he
        · exact .inl ((htravels _).mpr (.inl heq))
    · intro id' hne
      refine hother id' fun off' len' fin' heq => ?_
      cases heq
      exact hne rfl
  · have hsame : x'.onWay = x.onWay ∧ x'.arrived = x.arrived := by
      constructor <;> funext id
      · exact (hother id fun off len fin heq => hstream ⟨id, off, len, fin, heq⟩).1
      · exact (hother id fun off len fin heq => hstream ⟨id, off, len, fin, heq⟩).2
    rw [hsame.1, hsame.2]
    exact h

theorem Delivering.frames (h : x.Delivering strict) (hmap : x'.map = x.map)
    (htravels : ∀ frame, x'.Travels frame ↔ x.Travels frame) (hhandled : x'.handled = x.handled)
    (hacking : x'.acking <:+ x'.acked) : x'.Delivering strict := by
  have honWay : x'.onWay = x.onWay := by
    funext id
    ext e
    exact htravels _
  have harrived : x'.arrived = x.arrived := by
    funext id
    rw [arrived, hhandled, arrived]
  refine ⟨?_, hmap ▸ h.kept, hacking⟩
  rw [honWay, harrived, hmap]
  exact h.ships

theorem Delivering.ackFrame (h : x.Delivering strict) (hacking : x.acking = frame :: rest)
    (hack : Acked x.map frame m') (hx : x' = { x with map := m', acking := rest }) :
    Ships strict x'.onWay x'.arrived m' := by
  have htravels : ∀ g, x.Travels g ↔ g = frame ∨ x'.Travels g := by
    intro g
    simp only [Travels, hacking, hx, mem_cons]
    grind
  have hmem : ∀ g, g ∈ x'.handled ↔ g ∈ x.handled ∨ g = frame := by
    intro g
    rw [hx, handled_cons h.acking hacking m', mem_append, mem_singleton]
  have hships := h.ships
  cases hack with
  | @stream id off len fin s send _ hget hdrop hm =>
    obtain ⟨hsub, -, hmine⟩ := onWay_of_handled htravels id
    obtain ⟨he, hrest⟩ := hmine off len fin rfl
    have hset : Ships strict x'.onWay x'.arrived (x.map.setStream id { s with send }) := by
      apply hships.acked (e := (off, len, fin)) hget he _ hsub hrest _ hdrop
      · intro id' hne
        have hother : ∀ off' len' fin', Frame.stream id off len fin ≠ .stream id' off' len' fin' :=
          fun off' len' fin' heq => hne (by cases heq; rfl)
        refine ⟨(onWay_of_handled htravels id').2.1 hother, ?_⟩
        ext e
        simp only [arrived, Set.mem_ofPred_eq, hmem]
        exact or_iff_left fun heq => hother _ _ _ heq.symm
      · ext e
        simp only [arrived, Set.mem_ofPred_eq, hmem, Frame.stream.injEq, true_and,
          Set.mem_insert_iff, Prod.ext_iff]
        exact or_comm
    refine .alike (hset.closeWhen (get?_setStream_self x.map id _) ?_ _) hm
    intro hdone
    rw [Bool.and_eq_true] at hdone
    exact hdone.1
  | reset hget hm =>
    have hclose : Ships strict x.onWay x.arrived m' := by
      refine .alike (hships.closeWhen hget ?_ _) hm
      intro hdone
      rw [Bool.and_eq_true] at hdone
      exact hdone.1
    exact ships_of_handled hclose htravels (fun g hg => (hmem g).mp hg)
      (fun g hg => (hmem g).mpr (.inl hg)) nofun
  | other hframe =>
    refine ships_of_handled hships htravels (fun g hg => (hmem g).mp hg)
      (fun g hg => (hmem g).mpr (.inl hg)) ?_
    rintro id off len fin rfl
    exact hframe

theorem Delivering.loseFrame (h : x.Delivering strict) (hlost : x.lost = frame :: rest)
    (hlose : Lost x.map frame m') (hx : x' = { x with map := m', lost := rest }) :
    Ships strict x'.onWay x.arrived m' := by
  have htravels : ∀ g, x.Travels g ↔ g = frame ∨ x'.Travels g := by
    intro g
    simp only [Travels, hlost, hx, mem_cons]
    grind
  have hships := h.ships
  have hother : Ships strict x.onWay x.arrived m' →
      (∀ id off len fin, frame = .stream id off len fin → m'.get? id = none) →
      Ships strict x'.onWay x.arrived m' := by
    intro hmap hframe
    subst hx
    exact ships_of_handled hmap htravels (fun g hg => .inl hg) (fun g hg => hg) hframe
  cases hlose with
  | @stream id off len fin s hget =>
    obtain ⟨hsub, -, hmine⟩ := onWay_of_handled htravels id
    obtain ⟨he, hrest⟩ := hmine off len fin rfl
    exact hships.lost (e := (off, len, fin)) hget he
      (fun id' hne => (onWay_of_handled htravels id').2.1 fun off' len' fin' heq => by
        cases heq
        exact hne rfl) hsub hrest
  | maxData | maxStreamData => exact hother (hships.congr rfl) nofun
  | other hframe hm =>
    refine hother (hships.alike hm) ?_
    rintro id off len fin rfl
    exact (hm.get? id).trans hframe

theorem Delivering.move (h : x.Delivering strict)
    (hp : strict → ∀ s data, p.finish s data → s.send.FinishedWith data) (hmove : Move p x x') :
    x'.Delivering strict := by
  have hkept := kept_of_books h.kept (books_move hmove)
  have hships := h.ships
  cases hmove with
  | call hchange => exact ⟨hships.change (p := p.offline) h.kept hp hchange, hkept, h.acking⟩
  | frame hopen hchange => exact ⟨hships.change h.kept hp hchange, hkept, h.acking⟩
  | refused hopen hrefused =>
    obtain ⟨id, s, code, size, recv, r, hget, -, -, rfl⟩ := hrefused
    exact ⟨hships.setRecv hget recv, hkept, h.acking⟩
  | closed => exact ⟨hships, hkept, h.acking⟩
  | @control now srtt written w' hopen hc =>
    obtain ⟨hmap, hframes⟩ := hships.control hc
    have hsame : ({ x with map := w'.map, draft := w'.frames } : Wire).onWay = x.onWay := by
      funext id
      ext e
      simp only [onWay, Travels, Set.mem_ofPred_eq, hframes]
    exact ⟨hsame ▸ hmap, hkept, h.acking⟩
  | @emission written w' hopen he =>
    refine ⟨hships.emission he ?_ ?_, hkept, h.acking⟩
    · intro hsame
      funext id
      ext e
      simp only [onWay, Travels, Set.mem_ofPred_eq, hsame]
    · intro id off len fin hnew
      refine ⟨?_, fun id' hne => ?_⟩
      · ext e
        simp only [onWay, Travels, Set.mem_ofPred_eq, hnew, mem_append, mem_singleton,
          Frame.stream.injEq, Set.mem_insert_iff, Prod.ext_iff]
        grind
      · ext e
        simp only [onWay, Travels, Set.mem_ofPred_eq, hnew, mem_append, mem_singleton,
          Frame.stream.injEq, hne, false_and, or_false]
  | packed =>
    refine h.frames rfl (fun frame => ?_) rfl h.acking
    by_cases hempty : x.draft = []
    · simp [Travels, hempty]
    · simp only [Travels, if_neg hempty, not_mem_nil, false_or, mem_append,
        mem_singleton]
      constructor
      · rintro (⟨packet, hpacket | rfl, hmem⟩ | hrest)
        · exact .inr (.inl ⟨packet, hpacket, hmem⟩)
        · exact .inl hmem
        · exact .inr (.inr hrest)
      · rintro (hmem | ⟨packet, hpacket, hmem⟩ | hrest)
        · exact .inl ⟨x.draft, .inr rfl, hmem⟩
        · exact .inl ⟨packet, .inl hpacket, hmem⟩
        · exact .inr hrest
  | @ackPacket k frames hopen hk hacking =>
    refine h.frames rfl (fun frame => ?_) ?_ (suffix_append x.acked frames)
    · simp only [Travels, mem_sent_iff hk frame, hacking, not_mem_nil]
      grind
    · rw [handled_of_none hacking]
      exact handled_eq rfl
  | ackFrame hopen hacking hack =>
    refine ⟨h.ackFrame hacking hack rfl, hkept, ?_⟩
    exact (suffix_cons _ _).trans (hacking ▸ h.acking)
  | @losePacket k frames hk | @probePacket k frames hk =>
    refine h.frames rfl (fun frame => ?_) rfl h.acking
    simp only [Travels, mem_sent_iff hk frame, mem_append]
    grind
  | loseFrame hlost hlose => exact ⟨h.loseFrame hlost hlose rfl, hkept, h.acking⟩

end Wire

/-! ## Runs -/

namespace World

variable {conf : ReceiveConfig} {isServer endpoint : Bool} {w : World}

theorem mem_arrived {id : ℕ} {e : Parcel} :
    e ∈ w.wire.arrived id ↔ .stream id e.1 e.2.1 e.2.2 ∈ w.acked := by
  simp only [Wire.arrived, Set.mem_ofPred_eq, Wire.handled_of_none (x := w.wire) rfl]
  exact .rfl

def finishing : Promise := { finish := fun s data => s.send.FinishedWith data }

def FinishesWithData (w : World) : Op → Prop
  | .write id data fin => fin = true → (w.map.streamOf id true).send.FinishedWith data
  | _ => True

theorem keeps_finishing {op : Op} (h : w.FinishesWithData op) : w.Keeps finishing op := by
  have hfree := keeps_free w op
  cases op with
  | write => exact ⟨fun _ => trivial, h⟩
  | _ => exact hfree

theorem delivering_start (strict : Prop) (conf : ReceiveConfig) (isServer endpoint : Bool) :
    (start conf isServer endpoint).wire.Delivering strict := by
  have hnone : ∀ id, (start conf isServer endpoint).map.get? id = none := fun _ => rfl
  have hlive : ∀ {id s}, (start conf isServer endpoint).map.get? id = some s → False := by
    intro id s hget
    cases hget
  refine ⟨⟨?_, ?_, fun _ _ hget _ => (hlive hget).elim, fun _ _ hget _ => (hlive hget).elim,
    fun _ _ hget _ => (hlive hget).elim, ?_, ?_⟩,
    kept_start conf isServer endpoint, suffix_rfl⟩
  · constructor <;> exact Nat.zero_le _
  · rintro id e (he | he)
    · simp [Wire.onWay, Wire.Travels, wire, start, new] at he
    · simp [Wire.arrived, Wire.handled, wire, start, new] at he
  · exact fun id s hmem => absurd hmem not_mem_nil
  · intro events id heq hmem
    cases endpoint with
    | true =>
      obtain rfl : events = [] := (Option.some.inj heq).symm
      exact absurd hmem not_mem_nil
    | false => cases heq

theorem delivering_of_reaches
    (h : Exec.Reaches step FinishesWithData (start conf isServer endpoint) w) :
    w.wire.Delivering True :=
  invariant_of_moves (Wire.Delivering True)
    (fun _ _ hx hmove => hx.move (fun _ _ _ hfinish => hfinish) hmove)
    (delivering_start True conf isServer endpoint) (h.mono fun _ _ hop => keeps_finishing hop)

instance (w : World) (op : Op) : Decidable (w.FinishesWithData op) := by
  induction op using Op.casesOn <;> unfold FinishesWithData <;> infer_instance

/-- Once the final size of a stream is known, a frame with FIN at that size is in flight, lost and
not handled yet, or acknowledged; or the stream is queued and reads from it emit FIN. -/
theorem fin_never_stranded {id f : ℕ} {s : Stream}
    (h : Exec.Reaches step FinishesWithData (start conf isServer endpoint) w)
    (hs : w.map.get? id = some s ∨
      (s.bidi || s.isLocal) = true ∧ (id, s) ∈ w.map.destroyed)
    (hopen : s.send.isAbandoned = false) (hfin : s.send.finOff = some f) :
    (∃ off len, off + len = f ∧ ((∃ packet ∈ w.sent, .stream id off len true ∈ packet) ∨
        .stream id off len true ∈ w.lost ∨ .stream id off len true ∈ w.acked)) ∨
      w.map.get? id = some s ∧ id ∈ w.map.queuedIds ∧ s.send.EmitsFin := by
  have hships := (delivering_of_reaches h).ships
  rcases hs with hget | ⟨hside, hmem⟩
  · obtain ⟨hshipped, hqueued⟩ := hships.live id s hget hopen
    rcases hshipped.fin_somewhere trivial hfin with
      ⟨⟨off, len, fin⟩, he, hflag, hend⟩ | ⟨hready, hemits⟩
    · obtain rfl : fin = true := hflag
      refine .inl ⟨off, len, hend, ?_⟩
      rcases he with (hdraft | hsent | hlost | hacking) | hacked
      · exact absurd hdraft not_mem_nil
      · exact .inl hsent
      · exact .inr (.inl hlost)
      · exact absurd hacking not_mem_nil
      · exact .inr (.inr (mem_arrived.mp hacked))
    · exact .inr ⟨hget, hqueued hready, hemits⟩
  · obtain ⟨f', hfin', ⟨off, len, fin⟩, hacked, hflag, hend⟩ :=
      hships.gone id s hmem trivial hopen hside
    obtain rfl : fin = true := hflag
    cases hfin.symm.trans hfin'
    exact .inl ⟨off, len, hend, .inr (.inr (mem_arrived.mp hacked))⟩

/-- A client that has lost the packet with the last two bytes of a stream and FIN. -/
def clientFinLost : World :=
  Exec.follow step FinishesWithData (start .new false true)
    [.peerParams smallParams, .streamNew true 127 true, .write 0 [1, 2] false,
      .sendPacket ⟨true, 100, 0, 0, 0, 0, {}⟩, .write 0 [3, 4] true,
      .sendPacket ⟨true, 100, 0, 0, 0, 0, {}⟩, .losePacket 1, .handleLost]

theorem fin_never_stranded_lost :
    clientFinLost.sent = [[.stream 0 0 2 false]] ∧ 0 ∈ clientFinLost.map.queuedIds ∧
      ∃ s, clientFinLost.map.get? 0 = some s ∧ s.send.finOff = some 4 ∧ s.send.EmitsFin := by
  have hsent : clientFinLost.sent = [[.stream 0 0 2 false]] := by decide +kernel
  have hlost : clientFinLost.lost = [] := by decide +kernel
  have hacked : clientFinLost.acked = [] := by decide +kernel
  have hstream : (clientFinLost.map.get? 0).any
      (fun s => !s.send.isAbandoned && s.send.finOff == some 4) = true := by decide +kernel
  obtain ⟨s, hget, hs⟩ := Option.any_eq_true _ _ |>.mp hstream
  simp only [Bool.and_eq_true, Bool.not_eq_true', beq_iff_eq] at hs
  have hreach : Exec.Reaches step FinishesWithData (start .new false true) clientFinLost :=
    Exec.reaches_follow _ _
  rcases fin_never_stranded hreach (.inl hget) hs.1 hs.2 with ⟨off, len, -, hframe⟩ | hqueued
  · simp [hsent, hlost, hacked] at hframe
  · exact ⟨hsent, hqueued.2.1, s, hget, hs.2, hqueued.2.2⟩

/-- A client that writes FIN on its own; the empty frame is lost together with older data. -/
def clientStranded : World :=
  Exec.follow step (fun _ _ => True) (start .new false true)
    [.peerParams smallParams, .streamNew true 127 true, .write 0 [1, 2] false,
      .sendPacket ⟨true, 100, 0, 0, 0, 0, {}⟩, .write 0 [3, 4] false,
      .sendPacket ⟨true, 100, 0, 0, 0, 0, {}⟩, .write 0 [] true,
      .sendPacket ⟨true, 100, 0, 0, 0, 0, {}⟩, .ackPacket 1, .losePacket 0, .losePacket 0,
      .handleLost, .sendPacket ⟨true, 100, 0, 0, 0, 0, {}⟩]

/-- The final size is known, no frame with FIN is anywhere, and no queue has the stream. -/
theorem fin_stranded :
    Exec.Reaches step (fun _ _ ↦ True) (start .new false true) clientStranded ∧
      (clientStranded.map.get? 0).any
        (fun s ↦ !s.send.isAbandoned && s.send.finOff == some 4) = true ∧
      clientStranded.sent = [[.stream 0 0 2 false]] ∧ clientStranded.lost = [] ∧
      clientStranded.acked = [.stream 0 2 2 false] ∧
      clientStranded.map.sendable = SortedMap.empty :=
  ⟨Exec.reaches_follow _ _, by decide +kernel, by decide +kernel, by decide +kernel,
    by decide +kernel, by decide +kernel⟩

/-- A stream with a send side that was not abandoned is closed and destroyed only after a frame with
FIN at its final size was acknowledged. -/
theorem closed_after_fin_acked {id : ℕ} {s : Stream}
    (h : Exec.Reaches step FinishesWithData (start conf isServer endpoint) w)
    (hs : w.map.get? id = some s ∧ s.closed = true ∨ (id, s) ∈ w.map.destroyed)
    (hside : (s.bidi || s.isLocal) = true) (hopen : s.send.isAbandoned = false) :
    ∃ off len, s.send.finOff = some (off + len) ∧ .stream id off len true ∈ w.acked := by
  have hships := (delivering_of_reaches h).ships
  have hend : Ended True (w.wire.arrived id) s := by
    rcases hs with ⟨hget, hclosed⟩ | hmem
    · exact hships.closed id s hget hclosed
    · exact hships.gone id s hmem
  obtain ⟨f, hfin, ⟨off, len, fin⟩, hacked, hflag, hsize⟩ := hend trivial hopen hside
  obtain rfl : fin = true := hflag
  obtain rfl : off + len = f := hsize
  exact ⟨off, len, hfin, mem_arrived.mp hacked⟩

def clientFinAcked : World :=
  Exec.follow step FinishesWithData (start .new false true)
    [.peerParams smallParams, .streamNew true 127 true, .write 0 [1, 2] true,
      .sendPacket ⟨true, 100, 0, 0, 0, 0, {}⟩, .receive (.stream 0 0 [1] true), .read 0 10,
      .ackPacket 0]

theorem closed_after_fin_acked_both :
    ∃ s, clientFinAcked.map.get? 0 = some s ∧ s.closed = true ∧
      ∃ off len, s.send.finOff = some (off + len) ∧
        .stream 0 off len true ∈ clientFinAcked.acked := by
  have hstream : (clientFinAcked.map.get? 0).any
      (fun s => s.closed && ((s.bidi || s.isLocal) && !s.send.isAbandoned)) = true := by
    decide +kernel
  obtain ⟨s, hget, hs⟩ := Option.any_eq_true _ _ |>.mp hstream
  simp only [Bool.and_eq_true, Bool.not_eq_true'] at hs
  exact ⟨s, hget, hs.1, closed_after_fin_acked (Exec.reaches_follow _ _) (.inl ⟨hget, hs.1⟩)
    hs.2.1 hs.2.2⟩

/-- A client that writes FIN on its own when all data is acknowledged. -/
def clientClosedEarly : World :=
  Exec.follow step (fun _ _ => True) (start .new false true)
    [.peerParams smallParams, .streamNew true 127 true, .write 0 [1, 2] false,
      .sendPacket ⟨true, 100, 0, 0, 0, 0, {}⟩, .receive (.stream 0 0 [1] true), .ackPacket 0,
      .write 0 [] true, .read 0 10]

/-- The stream is closed, and FIN was not even sent. -/
theorem closed_before_fin_sent :
    Exec.Reaches step (fun _ _ ↦ True) (start .new false true) clientClosedEarly ∧
      (clientClosedEarly.map.get? 0).any
        (fun s ↦ s.closed && (s.bidi && !s.send.isAbandoned)) = true ∧
      clientClosedEarly.acked = [.stream 0 0 2 false] ∧ clientClosedEarly.sent = [] :=
  ⟨Exec.reaches_follow _ _, by decide +kernel, by decide +kernel, by decide +kernel⟩

/-! ## Every byte -/

section

variable {legal : World → Op → Prop} {id x : ℕ} {s : Stream}
  (h : Exec.Reaches step legal (start conf isServer endpoint) w)
  (hget : w.map.get? id = some s) (hopen : s.send.isAbandoned = false)
include h hget hopen

theorem shipped_of_reaches : s.send.Shipped False (w.wire.onWay id) (w.wire.arrived id) ∧
    (s.send.ready = true → id ∈ w.map.queuedIds) := by
  have hdelivering : w.wire.Delivering False :=
    invariant_of_moves _ (fun _ _ hx hmove => hx.move False.elim hmove)
      (delivering_start False conf isServer endpoint) (h.mono fun w op _ => keeps_free w op)
  exact hdelivering.ships.live id s hget hopen

/-- A byte that was written is in a frame on its way or acknowledged, or it waits and the stream is
queued. -/
theorem byte_never_stranded (hx : x < s.send.writeOff) :
    (∃ e ∈ w.wire.onWay id ∪ w.wire.arrived id, e.Covers x) ∨
      id ∈ w.map.queuedIds ∧ (x ∈ s.send.retransmits ∨ s.send.unsentOff ≤ x) := by
  obtain ⟨hshipped, hqueued⟩ := shipped_of_reaches h hget hopen
  obtain ⟨app, ht⟩ := hshipped.tracked
  have hwaits (hwaits : x ∈ s.send.retransmits ∨ s.send.unsentOff ≤ x) : id ∈ w.map.queuedIds :=
    hqueued (ht.ready_of_waiting hx hwaits)
  by_cases hsent : x < s.send.unsentOff
  · rcases hshipped.accounted x hsent with hacked | hlost | ⟨e, he, hcovers⟩
    · obtain ⟨e, he, hcovers⟩ := hshipped.acked_from x hacked
      exact .inl ⟨e, .inr he, hcovers⟩
    · exact .inr ⟨hwaits (.inl hlost), .inl hlost⟩
    · exact .inl ⟨e, .inl he, hcovers⟩
  · exact .inr ⟨hwaits (.inr (not_lt.mp hsent)), .inr (not_lt.mp hsent)⟩

/-- The acknowledged bytes are those of the frames acknowledged, and no frame goes beyond the limit
of the stream or ends it early. -/
theorem frames_accounted : (∀ x, x ∈ s.send.acked ↔ ∃ e ∈ w.wire.arrived id, e.Covers x) ∧
    ∀ e ∈ w.wire.onWay id ∪ w.wire.arrived id, e.1 + e.2.1 ≤ s.send.maxData ∧
      (e.2.2 = true → s.send.finOff = some (e.1 + e.2.1)) := by
  have hshipped := (shipped_of_reaches h hget hopen).1
  obtain ⟨app, ht⟩ := hshipped.tracked
  refine ⟨fun x => ⟨hshipped.acked_from x, ?_⟩, fun e he => ⟨?_, hshipped.ends e he⟩⟩
  · rintro ⟨e, he, hcovers⟩
    exact hshipped.received e he x hcovers
  · calc e.1 + e.2.1 ≤ s.send.unsentOff := hshipped.sent_le e he
      _ ≤ s.send.writeOff := ht.unsent_le
      _ ≤ s.send.maxData := ht.write_le

end

theorem clientStranded_stream : (2, 2, false) ∈ clientStranded.wire.arrived 0 ∧
    ∃ s, clientStranded.map.get? 0 = some s ∧ s.send.isAbandoned = false ∧
      0 < s.send.writeOff := by
  have hs : (clientStranded.map.get? 0).any
      (fun s => !s.send.isAbandoned && decide (0 < s.send.writeOff)) = true := by decide +kernel
  obtain ⟨s, hget, hs⟩ := Option.any_eq_true _ _ |>.mp hs
  exact ⟨mem_arrived.mpr (by decide +kernel), s, hget, by simpa using hs⟩

theorem byte_never_stranded_first : ∃ s, clientStranded.map.get? 0 = some s ∧
    ((∃ e ∈ clientStranded.wire.onWay 0 ∪ clientStranded.wire.arrived 0, e.Covers 0) ∨
      0 ∈ clientStranded.map.queuedIds ∧ (0 ∈ s.send.retransmits ∨ s.send.unsentOff ≤ 0)) := by
  obtain ⟨-, s, hget, hopen, hx⟩ := clientStranded_stream
  exact ⟨s, hget, byte_never_stranded (Exec.reaches_follow _ _) hget hopen hx⟩

theorem frames_accounted_acked : ∃ s, clientStranded.map.get? 0 = some s ∧
    3 ∈ s.send.acked ∧ 2 + 2 ≤ s.send.maxData := by
  obtain ⟨he, s, hget, hopen, -⟩ := clientStranded_stream
  obtain ⟨hacked, hlimit⟩ := frames_accounted (Exec.reaches_follow _ _) hget hopen
  exact ⟨s, hget, (hacked 3).mpr ⟨_, he, by decide, by decide⟩, (hlimit _ (.inr he)).1⟩

end World

end Tquic.StreamMap
