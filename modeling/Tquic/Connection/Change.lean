import Tquic.Connection.Writing

/-!
# What a step can do

`Change` lists what a call or a frame of the peer does to the stream map, up to the tables that
only concern the application and the control frames of the send side; `Move` adds the packets.
Invariants of runs are checked against these two.
-/

namespace Tquic

open Exec

namespace StreamMap

variable {m m' : StreamMap} {id : ℕ}

/-! ## Core operations -/

def pushWhen (m : StreamMap) (push : Bool) (id : ℕ) (s : Stream) : StreamMap :=
  if push then m.pushSendable id s.urgency s.incremental else m

def charge (m : StreamMap) (delta : ℕ) : StreamMap :=
  { m with flowControl := m.flowControl.increaseRecvOff delta }

def fillWhen (m : StreamMap) (full : Bool) (id : ℕ) : StreamMap :=
  if full then m.markAlmostFull id true else m

/-! ## Maps that differ in their tables -/

namespace Alike

section

variable (m : StreamMap) (id : ℕ)

theorem markReadable (flag : Bool) : Alike m (m.markReadable id flag) :=
  ⟨(m.markReadable id flag).tables, rfl⟩

theorem markWritable (flag : Bool) : Alike m (m.markWritable id flag) :=
  ⟨(m.markWritable id flag).tables, rfl⟩

theorem markBlocked (blocked : Bool) (off : ℕ) : Alike m (m.markBlocked id blocked off) :=
  ⟨(m.markBlocked id blocked off).tables, rfl⟩

theorem markReset (reset : Bool) (code size : ℕ) : Alike m (m.markReset id reset code size) :=
  ⟨(m.markReset id reset code size).tables, rfl⟩

theorem markStopped (stopped : Bool) (code : ℕ) : Alike m (m.markStopped id stopped code) :=
  ⟨(m.markStopped id stopped code).tables, rfl⟩

end

theorem withSendCapacity (m : StreamMap) (c : SendCapacity) :
    Alike m { m with sendCapacity := c } :=
  ⟨{ m.tables with sendCapacity := c }, rfl⟩

theorem ite {p : Prop} [Decidable p] {m m₁ m₂ : StreamMap} (h₁ : Alike m m₁) (h₂ : Alike m m₂) :
    Alike m (if p then m₁ else m₂) := by
  split_ifs
  · exact h₁
  · exact h₂

section

variable (h : Alike m m')

include h

theorem get? (id : ℕ) : m'.get? id = m.get? id := by
  obtain ⟨t, rfl⟩ := h
  rfl

theorem pushWhen (push : Bool) (id : ℕ) (s : Stream) :
    Alike (m.pushWhen push id s) (m'.pushWhen push id s) := by
  obtain ⟨t, rfl⟩ := h
  cases push with
  | true => exact ⟨t, rfl⟩
  | false => exact ⟨t, rfl⟩

theorem charge (delta : ℕ) : Alike (m.charge delta) (m'.charge delta) := by
  obtain ⟨t, rfl⟩ := h
  exact ⟨t, rfl⟩

theorem consume (delta : ℕ) : Alike (m.consume delta) (m'.consume delta) := by
  obtain ⟨t, rfl⟩ := h
  exact ⟨t, rfl⟩

theorem streamDestroy (id : ℕ) : Alike (m.streamDestroy id) (m'.streamDestroy id) := by
  obtain ⟨t, rfl⟩ := h
  unfold streamDestroy
  rw [get?_retable]
  cases m.get? id with
  | none => exact ⟨t, rfl⟩
  | some => exact ⟨t, rfl⟩

theorem announceClosed (id : ℕ) : Alike (m.announceClosed id) (m'.announceClosed id) := by
  obtain ⟨t, rfl⟩ := h
  unfold announceClosed
  rw [show (m.retable t).events = m.events from rfl]
  cases m.events with
  | none => exact streamDestroy ⟨t, rfl⟩ id
  | some => exact ⟨t, rfl⟩

end

end Alike

def flagClosed (m : StreamMap) (id : ℕ) : StreamMap :=
  match m.get? id with
  | some s => m.setStream id s.markClosed
  | none => m

def giveCredit (m : StreamMap) (id : ℕ) (isLocal : Bool) : StreamMap :=
  { m with
    concurrencyControl :=
      if isLocal then m.concurrencyControl
      else m.concurrencyControl.increaseMaxStreamsCredits (isBidi id) 1 }

theorem markClosed_eq (m : StreamMap) (id : ℕ) (isLocal : Bool) :
    m.markClosed id isLocal = if m.isClosed id then m
      else ((((m.giveCredit id isLocal).markReadable id false).markWritable id false).flagClosed
        id).announceClosed id := rfl

namespace Alike

theorem giveCredit (h : Alike m m') (id : ℕ) (isLocal : Bool) :
    Alike (m.giveCredit id isLocal) (m'.giveCredit id isLocal) := by
  obtain ⟨t, rfl⟩ := h
  cases isLocal with
  | true => exact ⟨t, rfl⟩
  | false => exact ⟨t, rfl⟩

theorem flagClosed (h : Alike m m') (id : ℕ) : Alike (m.flagClosed id) (m'.flagClosed id) := by
  obtain ⟨t, rfl⟩ := h
  unfold flagClosed
  rw [get?_retable]
  cases m.get? id with
  | none => exact ⟨t, rfl⟩
  | some => exact ⟨t, rfl⟩

end Alike

/-- `mark_closed` without the tables. -/
def closeCore (m : StreamMap) (id : ℕ) (isLocal : Bool) : StreamMap :=
  if m.isClosed id then m else ((m.giveCredit id isLocal).flagClosed id).announceClosed id

def closeWhen (m : StreamMap) (done : Bool) (id : ℕ) (isLocal : Bool) : StreamMap :=
  if done then m.closeCore id isLocal else m

theorem markClosed_alike (h : Alike m m') (id : ℕ) (isLocal : Bool) :
    Alike (m.closeCore id isLocal) (m'.markClosed id isLocal) := by
  obtain ⟨t, rfl⟩ := h
  rw [markClosed_eq, closeCore, show (m.retable t).isClosed id = m.isClosed id from rfl]
  cases m.isClosed id with
  | true => exact ⟨t, rfl⟩
  | false =>
    have hcredit : Alike (m.giveCredit id isLocal) ((m.retable t).giveCredit id isLocal) :=
      .giveCredit ⟨t, rfl⟩ id isLocal
    have hmark := (hcredit.trans (.markReadable _ id false)).trans (.markWritable _ id false)
    exact (hmark.flagClosed id).announceClosed id

theorem closeIfDone_alike (h : Alike m m') (id : ℕ) (s : Stream) :
    Alike (m.closeWhen (s.isComplete && !s.isReadable) id s.isLocal) (m'.closeIfDone id s) := by
  unfold closeWhen closeIfDone
  cases s.isComplete && !s.isReadable with
  | true => exact markClosed_alike h id s.isLocal
  | false => exact h

theorem closeWhen_alike (h : Alike m m') (done : Bool) (id : ℕ) (isLocal : Bool) :
    Alike (m.closeWhen done id isLocal) (if done then m'.markClosed id isLocal else m') := by
  cases done with
  | true => exact markClosed_alike h id isLocal
  | false => exact h

end StreamMap

/-- The streams differ in what the application asked to be told and in the blocked state. -/
structure Stream.Resembles (s s' : Stream) : Prop where
  bidi : s'.bidi = s.bidi
  isLocal : s'.isLocal = s.isLocal
  recv : s'.recv = s.recv
  send : ∃ blockedAt, s'.send = s.send.updateBlockedAt blockedAt
  closed : s'.closed = s.closed
  urgency : s'.urgency = s.urgency
  incremental : s'.incremental = s.incremental

theorem Stream.Resembles.of_blockedAt (s : Stream) (blockedAt : Option ℕ) :
    s.Resembles { s with send := s.send.updateBlockedAt blockedAt } :=
  ⟨rfl, rfl, rfl, ⟨blockedAt, rfl⟩, rfl, rfl, rfl⟩

theorem Stream.Resembles.refl (s : Stream) : s.Resembles s :=
  ⟨rfl, rfl, rfl, ⟨s.send.blockedAt, rfl⟩, rfl, rfl, rfl⟩

theorem Stream.Resembles.trans {s s' s'' : Stream} (h : s.Resembles s') (h' : s'.Resembles s'') :
    s.Resembles s'' := by
  obtain ⟨b, hb⟩ := h.send
  obtain ⟨b', hb'⟩ := h'.send
  refine ⟨h'.bidi.trans h.bidi, h'.isLocal.trans h.isLocal, h'.recv.trans h.recv, ⟨b', ?_⟩,
    h'.closed.trans h.closed, h'.urgency.trans h.urgency, h'.incremental.trans h.incremental⟩
  rw [hb', hb]
  rfl

namespace StreamMap

/-- What is promised about a run: `adopt` says whether calls may open a stream by its identifier,
`overdraw` whether a reset may exceed the limit of the connection, `acks` and `losses` whether
frames are acknowledged and lost. -/
structure Promise where
  stream : Stream → ℕ → List UInt8 → Bool → Prop := fun _ _ _ _ => True
  reset : Stream → ℕ → Prop := fun _ _ => True
  finish : Stream → List UInt8 → Prop := fun _ _ => True
  shutdown : Stream → Direction → Prop := fun _ _ => True
  prioritize : Stream → ℕ → Bool → Prop := fun _ _ _ => True
  adopt : Prop := True
  overdraw : Prop := True
  acks : Prop := True
  losses : Prop := True

inductive Change (p : Promise) (m : StreamMap) : StreamMap → Prop
  | tables {m' : StreamMap} (hm : Alike m m') : Change p m m'
  | created (c : ConcurrencyControl) (id : ℕ) (opener : Bool) (hget : m.get? id = none)
      (hid : id ≤ vintMax) (hclosed : m.isClosed id = false)
      (hopener : opener = isLocal id m.isServer)
      (hcheck : m.concurrencyControl.checkConcurrencyLimits id m.isServer = (c, .ok ()))
      (hadopt : opener = true → p.adopt) : Change p m (m.enroll c id opener)
  | touched {id : ℕ} {s s' : Stream} {m' : StreamMap} (hget : m.get? id = some s)
      (hs : s.Resembles s') (hm : Alike (m.setStream id s') m') : Change p m m'
  | prioritized {id : ℕ} {s : Stream} (urgency : ℕ) (incremental : Bool)
      (hget : m.get? id = some s) (hallowed : p.prioritize s urgency incremental) :
      Change p m (m.setStream id { s with urgency, incremental })
  | read {id cap : ℕ} {s : Stream} {recv : RecvBuf} {out : List UInt8} {fin : Bool}
      {m' : StreamMap} (hget : m.get? id = some s) (hready : s.isReadable = true)
      (hread : s.recv.read cap = .ok (recv, .ok (out, fin)))
      (hm : Alike ((((m.setStream id { s with recv }).fillWhen recv.shouldSendMaxData id).consume
        out.length).closeWhen ({ s with recv } : Stream).isComplete id s.isLocal) m') :
      Change p m m'
  | readFailed {id cap : ℕ} {s : Stream} {recv : RecvBuf} {e : Error} {m' : StreamMap}
      (hget : m.get? id = some s) (hready : s.isReadable = true)
      (hread : s.recv.read cap = .ok (recv, .error e))
      (hm : Alike ((m.setStream id { s with recv }).closeWhen ({ s with recv } : Stream).isComplete
        id s.isLocal) m') : Change p m m'
  | wrote {id written : ℕ} {s s' : Stream} {data : List UInt8} {fin : Bool} {send : SendBuf}
      {m' : StreamMap} (hget : m.get? id = some s)
      (hfinish : fin = true → p.finish s data)
      (hwrite : s.send.write data fin = .ok (send, .ok written))
      (hs : ({ s with send } : Stream).Resembles s')
      (hm : Alike ((m.setStream id s').pushWhen
        ((send.ready || (data.length = 0 && fin)) && !s.isSendable) id s) m') : Change p m m'
  | shutdownRead {id unread : ℕ} {s : Stream} {recv : RecvBuf} {m' : StreamMap}
      (hget : m.get? id = some s) (hallowed : p.shutdown s .read)
      (hshutdown : s.recv.shutdownRecv = (recv, .ok unread))
      (hm : Alike ((m.setStream id { s with recv }).consume unread) m') : Change p m m'
  | shutdownWrite {id : ℕ} {s : Stream} {send : SendBuf} {r : ℕ × ℕ} {m' : StreamMap}
      (hget : m.get? id = some s) (hallowed : p.shutdown s .write)
      (hshutdown : s.send.shutdownSend = (send, .ok r))
      (hm : Alike (m.setStream id { s with send }) m') : Change p m m'
  | stopped {id code : ℕ} {s : Stream} {send : SendBuf} {r : ℕ × ℕ} {m' : StreamMap}
      (hget : m.get? id = some s) (hstop : s.send.stop code = (send, .ok r))
      (hm : Alike (m.setStream id { s with send }) m') : Change p m m'
  | maxDataRaised {id maxData : ℕ} {s : Stream} {m' : StreamMap} (hget : m.get? id = some s)
      (hmax : maxData ≤ vintMax)
      (hm : Alike ((m.setStream id { s with send := s.send.updateMaxData maxData }).pushWhen
        ((s.send.updateMaxData maxData).ready && !s.isSendable) id s) m') : Change p m m'
  | received {id off : ℕ} {data : List UInt8} {fin : Bool} {s : Stream} {recv : RecvBuf}
      {m' : StreamMap} (hget : m.get? id = some s) (hframe : p.stream s off data fin)
      (hleft : off + data.length - s.recv.recvOff ≤ m.maxRxDataLeft)
      (hwrite : s.recv.write off data fin = .ok (recv, .ok ()))
      (hm : Alike (if s.recv.shutdown then
          ((m.setStream id { s with recv }).charge (off + data.length - s.recv.recvOff)).consume
            (off + data.length - s.recv.recvOff)
        else (m.setStream id { s with recv }).charge (off + data.length - s.recv.recvOff)) m') :
      Change p m m'
  | wasReset {id code size delta : ℕ} {s : Stream} {recv : RecvBuf} {m' : StreamMap}
      (hget : m.get? id = some s) (hframe : p.reset s size) (hleft : delta ≤ m.maxRxDataLeft)
      (hreset : s.recv.reset code size = .ok (recv, .ok delta))
      (hm : Alike ((((m.setStream id { s with recv }).closeWhen
        (({ s with recv } : Stream).isComplete && !({ s with recv } : Stream).isReadable) id
        s.isLocal).charge delta).consume (size - s.recv.readOff)) m') : Change p m m'
  | peerLimit (bidi : Bool) {n : ℕ} (hn : n ≤ vintMax) :
      Change p m { m with
        concurrencyControl := m.concurrencyControl.updatePeerMaxStreams bidi n }
  | peerParams (tp : StreamTransportParams) (htp : tp.Encodable) :
      Change p m { m with peerTransportParams := tp }
  | polled {e : StreamEvent} {rest : List StreamEvent} (hevents : m.events = some (e :: rest))
      {m' : StreamMap} (hm : m' = match e with
        | .streamClosed id => ({ m with events := some rest } : StreamMap).streamDestroy id
        | .streamCreated _ => { m with events := some rest }) : Change p m m'

abbrev Changes (p : Promise) : StreamMap → StreamMap → Prop := Relation.ReflTransGen (Change p)

variable {p : Promise} {m m' : StreamMap} {id : ℕ} {s : Stream}

theorem Changes.alike (h : Alike m m') : Changes p m m' := .single (.tables h)

/-! ## Lookups -/

def streamOf (m : StreamMap) (id : ℕ) (opener : Bool) : Stream :=
  (m.get? id).getD (m.newStream id opener)

variable {opener fin : Bool} {out : StreamMap × Result Stream} {res : Result Unit}

theorem Lookup.stream_eq (h : Lookup m id opener out) (hok : out.2 = .ok s) :
    s = m.streamOf id opener := by
  unfold streamOf
  cases h with
  | failed => cases hok
  | found s hget =>
    cases hok
    rw [hget]
    rfl
  | created c hget =>
    cases hok
    rw [hget]
    rfl

/-- A call for the stream may open it: this endpoint has not opened it before. -/
def Opens (m : StreamMap) (id : ℕ) : Prop :=
  (m.get? id).isNone = true ∧ m.isClosed id = false ∧ isLocal id m.isServer = true

instance (m : StreamMap) (id : ℕ) : Decidable (m.Opens id) :=
  inferInstanceAs (Decidable (_ ∧ _))

theorem changes_lookup (h : Lookup m id opener out)
    (hadopt : opener = true → m.Opens id → p.adopt) : Changes p m out.1 := by
  cases h with
  | failed e t => exact .alike ⟨t, rfl⟩
  | found => exact .refl
  | created c hget hid hclosed hopener hcheck =>
    exact .single (.created c id opener hget hid hclosed hopener hcheck
      fun ho => hadopt ho ⟨by rw [hget]; rfl, hclosed, hopener ▸ ho⟩)

theorem changes_of_getOrCreate {m₁ : StreamMap} {r : Result Stream}
    (heq : m.getOrCreate id opener = (m₁, r)) (hadopt : opener = true → m.Opens id → p.adopt) :
    Changes p m m₁ ∧ Lookup m id opener (m₁, r) := by
  have hlook := heq ▸ getOrCreate_cases m id opener
  exact ⟨changes_lookup hlook hadopt, hlook⟩

/-! ## Calls of the application -/

variable {urgency : ℕ} {incremental : Bool}

theorem changes_streamSetPriority
    (hadopt : m.Opens id → p.adopt)
    (hallowed : p.prioritize (m.streamOf id true) urgency incremental) :
    Changes p m (m.streamSetPriority id urgency incremental).1 := by
  unfold streamSetPriority
  split
  · next m₁ e heq => exact (changes_of_getOrCreate heq fun _ => hadopt).1
  · next m₁ s heq =>
      obtain ⟨hchanges, hlook⟩ := changes_of_getOrCreate heq fun _ => hadopt
      have hs : s = m.streamOf id true := hlook.stream_eq rfl
      exact hchanges.tail (.prioritized urgency incremental (hlook.get? rfl) (hs ▸ hallowed))

theorem changes_streamSetContext (hadopt : m.Opens id → p.adopt) :
    Changes p m (m.streamSetContext id).1 := by
  unfold streamSetContext
  split
  · next m₁ e heq => exact (changes_of_getOrCreate heq fun _ => hadopt).1
  · next m₁ s heq => exact (changes_of_getOrCreate heq fun _ => hadopt).1

theorem changes_streamNew {bidi : Bool}
    (hadopt : m.Opens (m.nextStreamId bidi) → p.adopt)
    (hallowed : p.prioritize (m.streamOf (m.nextStreamId bidi) true) urgency incremental) :
    Changes p m (m.streamNew bidi urgency incremental).1 := by
  have hchanges := changes_streamSetPriority hadopt hallowed
  unfold streamNew
  dsimp only
  split
  · next m₁ heq =>
      rw [heq] at hchanges
      exact hchanges
  · next m₁ e heq =>
      rw [heq] at hchanges
      exact hchanges

/-- `stream_read` is a sequence of changes under every promise. -/
theorem changes_streamRead {cap : ℕ} {res : Result (List UInt8 × Bool)}
    (h : m.streamRead id cap = .ok (m', res)) : Changes p m m' := by
  unfold streamRead at h
  split_ifs at h
  · cases h
    exact .refl
  cases hget : m.get? id with
  | none =>
    rw [hget] at h
    cases h
    exact .refl
  | some s =>
    rw [hget] at h
    dsimp only at h
    split_ifs at h with hready
    · cases h
      exact .refl
    obtain ⟨⟨recv, r⟩, hread, h⟩ := bind_eq_ok.mp h
    cases r with
    | error =>
      cases h
      refine .single (.readFailed hget (by simpa using hready) hread ?_)
      exact (closeWhen_alike (.refl _) _ id s.isLocal).trans (.markReadable _ id false)
    | ok r =>
      cases h
      refine .single (.read hget (by simpa using hready) hread ?_)
      have hfill : Alike
          (((m.setStream id { s with recv }).fillWhen recv.shouldSendMaxData id).consume r.1.length)
          (if ({ s with recv } : Stream).isReadable then
            ((m.setStream id { s with recv }).fillWhen recv.shouldSendMaxData id).consume r.1.length
          else (((m.setStream id { s with recv }).fillWhen recv.shouldSendMaxData id).consume
            r.1.length).markReadable id false) :=
        .ite (.refl _) (.markReadable _ id false)
      exact closeWhen_alike hfill _ id s.isLocal

theorem noteConnBlocked_alike (m : StreamMap) (len : ℕ) : Alike m (m.noteConnBlocked len) := by
  exact .ite (.withSendCapacity m _) (.refl m)

theorem noteBlocked_alike (m : StreamMap) (id : ℕ) (s : Stream) (bufLen written : ℕ) :
    ∃ s', s.Resembles s' ∧ Alike (m.setStream id s') (m.noteBlocked id s bufLen written) := by
  unfold noteBlocked
  split_ifs
  · exact ⟨_, .of_blockedAt s (some s.send.maxData), .markBlocked _ id true _⟩
  · exact ⟨s, .refl s, .refl _⟩
  · exact ⟨_, .of_blockedAt s none, .markBlocked _ id false 0⟩

theorem wantWrite_alike (hget : m.get? id = some s) (want : Bool) :
    ∃ s', s.Resembles s' ∧ Alike (m.setStream id s') (m.wantWrite id want).1 := by
  unfold wantWrite
  rw [hget]
  dsimp only [Stream.markWantwrite]
  split_ifs
  · exact ⟨s, .refl s, .refl _⟩
  · exact ⟨{ s with wantWrite := want }, ⟨rfl, rfl, rfl, ⟨_, rfl⟩, rfl, rfl, rfl⟩, .refl _⟩

theorem wantRead_alike (hget : m.get? id = some s) (want : Bool) :
    ∃ s', s.Resembles s' ∧ Alike (m.setStream id s') (m.wantRead id want).1 := by
  unfold wantRead
  rw [hget]
  dsimp only [Stream.markWantread]
  split_ifs
  · exact ⟨s, .refl s, .refl _⟩
  · exact ⟨{ s with wantRead := want }, ⟨rfl, rfl, rfl, ⟨_, rfl⟩, rfl, rfl, rfl⟩, .refl _⟩

theorem changes_wantWrite (m : StreamMap) (id : ℕ) (want : Bool) :
    Changes p m (m.wantWrite id want).1 := by
  cases hget : m.get? id with
  | none =>
    unfold wantWrite
    rw [hget]
  | some =>
    obtain ⟨s', hs, hm⟩ := wantWrite_alike hget want
    exact .single (.touched hget hs hm)

theorem changes_wantRead (m : StreamMap) (id : ℕ) (want : Bool) :
    Changes p m (m.wantRead id want).1 := by
  cases hget : m.get? id with
  | none =>
    unfold wantRead
    rw [hget]
  | some =>
    obtain ⟨s', hs, hm⟩ := wantRead_alike hget want
    exact .single (.touched hget hs hm)

theorem get?_pushWhen (m : StreamMap) (push : Bool) (id' : ℕ) (s : Stream) :
    (m.pushWhen push id' s).get? id = m.get? id := by
  cases push <;> rfl

theorem changes_afterWrite (m : StreamMap) (id : ℕ) (s : Stream) (send : SendBuf)
    (bufLen expectWritten written : ℕ) (fin blockedByCap : Bool) :
    ∃ s', ({ s with send } : Stream).Resembles s' ∧
      Changes p ((m.setStream id s').pushWhen
        ((send.ready || (bufLen = 0 && fin)) && !s.isSendable) id s)
        (m.afterWrite id s { s with send } bufLen expectWritten written fin blockedByCap) := by
  obtain ⟨s', hs, hnote⟩ := noteBlocked_alike m id { s with send } bufLen written
  refine ⟨s', hs, ?_⟩
  have hpush := hnote.pushWhen ((send.ready || (bufLen = 0 && fin)) && !s.isSendable) id s
  unfold afterWrite
  by_cases hwant : written < expectWritten
  · rw [if_pos hwant]
    refine (Changes.alike ?_).trans (changes_wantWrite _ id true)
    refine .trans ?_ (.withSendCapacity _ _)
    exact hpush.trans (.ite (.markWritable _ id false) (.ite (.markWritable _ id true) (.refl _)))
  · rw [if_neg hwant]
    refine .alike ?_
    refine .trans ?_ (.withSendCapacity _ _)
    exact hpush.trans (.ite (.markWritable _ id false) (.ite (.markWritable _ id true) (.refl _)))

variable {buf : List UInt8}

theorem changes_writeTo {capacity : ℕ} {res : Result ℕ}
    (hget : m.get? id = some s) (hfinish : fin = true → p.finish s buf)
    (h : m.writeTo id capacity s buf fin = .ok (m', res)) : Changes p m m' := by
  unfold writeTo at h
  by_cases hempty : capacity = 0 ∧ buf ≠ []
  · rw [if_pos hempty] at h
    cases h
    exact (Changes.alike (.ite (.markWritable m id true) (.refl m))).trans
      (changes_wantWrite _ id true)
  · rw [if_neg hempty] at h
    obtain ⟨⟨send, r⟩, hwrite, h⟩ := bind_eq_ok.mp h
    cases r with
    | error =>
      cases h
      rw [SendBuf.write_error hwrite]
      have hset : m.setStream id { s with send := s.send } = m := setStream_eq_self hget
      rw [hset]
      exact .alike (.markWritable m id false)
    | ok written =>
      cases h
      obtain ⟨s', hs, hafter⟩ := changes_afterWrite (p := p) m id s send
        (buf.take capacity).length buf.length written
        (fin && !decide (capacity < buf.length)) (decide (capacity < buf.length))
      refine .head (.wrote hget ?_ hwrite hs (.refl _)) hafter
      -- with the end of the stream the data is written whole
      intro hfin
      simp only [Bool.and_eq_true, Bool.not_eq_true', decide_eq_false_iff_not, not_lt] at hfin
      rw [List.take_of_length_le hfin.2]
      exact hfinish hfin.1

/-- `stream_write` creates the stream if need be and then writes to its send buffer. -/
theorem changes_streamWrite {res : Result ℕ} (hadopt : m.Opens id → p.adopt)
    (hfinish : fin = true → p.finish (m.streamOf id true) buf)
    (h : m.streamWrite id buf fin = .ok (m', res)) : Changes p m m' := by
  unfold streamWrite at h
  split_ifs at h
  · cases h
    exact .refl
  obtain ⟨t, ht⟩ := noteConnBlocked_alike m buf.length
  rw [ht] at h
  have hlook := getOrCreate_cases (m.retable t) id true
  have hchanges := (Changes.alike (p := p) ⟨t, rfl⟩).trans
    (changes_lookup hlook fun _ => (hadopt : (m.retable t).Opens id → p.adopt))
  split at h
  · next m₁ e heq =>
      cases h
      rw [heq] at hchanges
      exact hchanges
  · next m₁ s heq =>
      rw [heq] at hlook hchanges
      have hs : s = m.streamOf id true := hlook.stream_eq rfl
      exact hchanges.trans (changes_writeTo (hlook.get? rfl) (hs ▸ hfinish) h)

theorem giveBack_alike (m : StreamMap) (unsent : ℕ) : Alike m (m.giveBack unsent) :=
  .withSendCapacity m _

theorem changes_shutdownRead (hget : m.get? id = some s) (hallowed : p.shutdown s .read) (err : ℕ) :
    Changes p m (m.shutdownRead id s err).1 := by
  unfold shutdownRead
  split
  · next recv e heq =>
      have hrecv : recv = s.recv := by
        unfold RecvBuf.shutdownRecv at heq
        split_ifs at heq
        · exact (congrArg Prod.fst heq).symm
        · simp at heq
      rw [hrecv, show ({ s with recv := s.recv } : Stream) = s from rfl, setStream_eq_self hget]
  · next recv unread heq =>
      refine .single (.shutdownRead hget hallowed heq ?_)
      exact ((Alike.ite (.refl _) (.markStopped _ id true err)).trans
        (.markReadable _ id false)).consume unread

theorem changes_shutdownWrite (hget : m.get? id = some s) (hallowed : p.shutdown s .write)
    (err : ℕ) : Changes p m (m.shutdownWrite id s err).1 := by
  unfold shutdownWrite
  split
  · next send e heq =>
      have hsend : send = s.send := by
        unfold SendBuf.shutdownSend at heq
        split_ifs at heq
        · exact (congrArg Prod.fst heq).symm
        · simp at heq
      rw [hsend, show ({ s with send := s.send } : Stream) = s from rfl, setStream_eq_self hget]
  · next send size unsent heq =>
      refine .single (.shutdownWrite hget hallowed heq ?_)
      exact ((giveBack_alike _ unsent).trans (.markReset _ id true err size)).trans
        (.markWritable _ id false)

theorem changes_streamShutdown (direction : Direction) (err : ℕ)
    (hallowed : ∀ s, m.get? id = some s → p.shutdown s direction) :
    Changes p m (m.streamShutdown id direction err).1 := by
  unfold streamShutdown
  cases hget : m.get? id with
  | none => exact .refl
  | some s =>
    cases direction with
    | read =>
      dsimp only
      split_ifs
      · exact .refl
      · exact changes_shutdownRead hget (hallowed s hget) err
    | write =>
      dsimp only
      split_ifs
      · exact .refl
      · exact changes_shutdownWrite hget (hallowed s hget) err

theorem changes_raiseThreshold {len thresh : ℕ} {res : Result Bool} (hget : m.get? id = some s)
    (h : m.raiseThreshold id { s with writeThresh := thresh } len = .ok (m', res)) :
    Changes p m m' := by
  have hs : s.Resembles { s with writeThresh := thresh } :=
    ⟨rfl, rfl, rfl, ⟨_, rfl⟩, rfl, rfl, rfl⟩
  obtain ⟨r, -, h⟩ := bind_eq_ok.mp h
  cases r with
  | error =>
    cases h
    exact .single (.touched hget hs (.refl _))
  | ok =>
    dsimp only at h
    split_ifs at h
    · cases h
      obtain ⟨s', hs', hm⟩ := noteBlocked_alike m id { s with writeThresh := thresh } len 0
      exact .single (.touched hget (hs.trans hs') hm)
    · cases h
      exact .single (.touched hget hs (.markWritable _ id true))
    · cases h
      exact .single (.touched hget hs (.refl _))

theorem changes_streamWritable {len : ℕ} {res : Result Bool}
    (h : m.streamWritable id len = .ok (m', res)) : Changes p m m' := by
  obtain ⟨r, -, h⟩ := bind_eq_ok.mp h
  cases r with
  | error =>
    cases h
    exact .refl
  | ok =>
    dsimp only at h
    split_ifs at h
    · cases h
      exact .refl
    · obtain ⟨s, hunwrap, h⟩ := bind_eq_ok.mp h
      have hget : m.get? id = some s := by
        cases hm : m.get? id with
        | none =>
          rw [hm] at hunwrap
          cases hunwrap
        | some =>
          rw [hm] at hunwrap
          cases hunwrap
          rfl
      have hnote := noteConnBlocked_alike m len
      exact (Changes.alike hnote).trans (changes_raiseThreshold ((hnote.get? id).trans hget) h)

/-! ## Frames from the peer -/

variable {maxData : ℕ}

theorem changes_raiseMaxData (hget : m.get? id = some s) (hmax : maxData ≤ vintMax) :
    Changes p m (m.raiseMaxData id s maxData) := by
  refine .single (.maxDataRaised hget hmax ?_)
  exact .ite (.markWritable _ id true) (.refl _)

theorem Varint.le_vintMax (n : Varint) : (n : ℕ) ≤ vintMax := Nat.le_pred_of_lt n.isLt

theorem changes_onMaxStreamDataFrameReceived (hmax : maxData ≤ vintMax) :
    Changes p m (m.onMaxStreamDataFrameReceived id maxData).1 := by
  unfold onMaxStreamDataFrameReceived
  split_ifs
  · exact .refl
  split
  · next m₁ e heq => exact (changes_of_getOrCreate heq nofun).1
  · next m₁ s heq =>
      obtain ⟨hchanges, hlook⟩ := changes_of_getOrCreate (p := p) heq nofun
      exact hchanges.trans (changes_raiseMaxData (hlook.get? rfl) hmax)

theorem changes_stopSending (hget : m.get? id = some s) (code : ℕ) :
    Changes p m (m.stopSending id s code) := by
  unfold stopSending
  split
  · next send e heq =>
      have hsend : send = s.send := by
        unfold SendBuf.stop at heq
        split_ifs at heq
        · exact (congrArg Prod.fst heq).symm
        · simp at heq
      rw [hsend, show ({ s with send := s.send } : Stream) = s from rfl, setStream_eq_self hget]
  · next send size unsent heq =>
      refine .single (.stopped hget heq ?_)
      exact ((giveBack_alike _ unsent).trans (.markReset _ id true code size)).trans
        (.ite (.refl _) (.markWritable _ id true))

theorem changes_onStopSendingFrameReceived (code : ℕ) :
    Changes p m (m.onStopSendingFrameReceived id code).1 := by
  unfold onStopSendingFrameReceived
  split_ifs
  · exact .refl
  split
  · next m₁ e heq => exact (changes_of_getOrCreate heq nofun).1
  · next m₁ s heq =>
      obtain ⟨hchanges, hlook⟩ := changes_of_getOrCreate (p := p) heq nofun
      exact hchanges.trans (changes_stopSending (hlook.get? rfl) code)

variable {off left : ℕ} {data : List UInt8}

theorem changes_receiveData (hget : m.get? id = some s)
    (hframe : p.stream s off data fin) (hleft : left = m.maxRxDataLeft)
    (h : m.receiveData left id s off data fin = .ok (m', res)) : Changes p m m' := by
  unfold receiveData at h
  dsimp only at h
  split_ifs at h with hlt
  · cases h
    exact .refl
  obtain ⟨⟨recv, out⟩, hwrite, h⟩ := bind_eq_ok.mp h
  cases out with
  | error =>
    cases h
    rw [(RecvBuf.write_error hwrite).1, show ({ s with recv := s.recv } : Stream) = s from rfl,
      setStream_eq_self hget]
  | ok =>
    cases h
    refine .single (.received hget hframe ((not_lt.mp hlt).trans hleft.le) hwrite ?_)
    have hread : Alike (m.setStream id { s with recv })
        (if !s.isReadable && ({ s with recv } : Stream).isReadable then
          (m.setStream id { s with recv }).markReadable id true
        else m.setStream id { s with recv }) :=
      .ite (.markReadable _ id true) (.refl _)
    have hcharge := hread.charge (off + data.length - s.recv.recvOff)
    unfold afterReceive
    by_cases hshut : s.recv.shutdown = true
    · have hdraining : s.isDraining = true := hshut
      rw [if_pos hshut, if_pos hdraining]
      exact hcharge.consume _
    · have hdraining : ¬ s.isDraining = true := hshut
      rw [if_neg hshut, if_neg hdraining]
      exact hcharge

theorem Lookup.maxRxDataLeft_eq (h : Lookup m id opener out) :
    m.maxRxDataLeft = out.1.maxRxDataLeft := by
  cases h <;> rfl

theorem changes_onStreamFrameReceived
    (hframe : p.stream (m.streamOf id false) off data fin)
    (h : m.onStreamFrameReceived id off data fin = .ok (m', res)) : Changes p m m' := by
  unfold onStreamFrameReceived at h
  split_ifs at h with hkind
  · cases h
    exact .refl
  split at h
  · next m₁ e heq =>
      cases h
      exact (changes_of_getOrCreate heq nofun).1
  · next m₁ s heq =>
      obtain ⟨hchanges, hlook⟩ := changes_of_getOrCreate (p := p) heq nofun
      exact hchanges.trans (changes_receiveData (hlook.get? rfl) (hlook.stream_eq rfl ▸ hframe)
        hlook.maxRxDataLeft_eq h)

/-- A reset that is refused: the connection is closed, but the stream may have changed. -/
def Refused (p : Promise) (m m' : StreamMap) : Prop :=
  ∃ id s code size recv r, m.get? id = some s ∧ s.recv.reset code size = .ok (recv, r) ∧
    ((∃ e, r = .error e) ∨ p.overdraw) ∧ m' = m.setStream id { s with recv }

variable {code size : ℕ}

theorem changes_resetRecv (hget : m.get? id = some s) (hframe : p.reset s size)
    (hfits : p.overdraw ∨ size - s.recv.recvOff ≤ m.maxRxDataLeft) (hleft : left = m.maxRxDataLeft)
    (h : m.resetRecv left id s code size = .ok (m', res)) :
    Changes p m m' ∨ Refused p m m' ∧ failed res = true := by
  obtain ⟨⟨recv, out⟩, hreset, h⟩ := bind_eq_ok.mp h
  cases out with
  | error e =>
    cases h
    refine .inr ⟨⟨id, s, code, size, recv, .error e, hget, hreset, .inl ⟨e, rfl⟩, rfl⟩, ?_⟩
    rcases RecvBuf.reset_error hreset with ⟨rfl, -⟩ | rfl <;> rfl
  | ok delta =>
    dsimp only at h
    split_ifs at h with hlt
    · cases h
      have hoverdraw : p.overdraw := by
        rcases hfits with hoverdraw | hfits
        · exact hoverdraw
        · rw [RecvBuf.reset_delta hreset, hleft] at hlt
          exact absurd hfits (not_le.mpr hlt)
      exact .inr ⟨⟨id, s, code, size, recv, .ok delta, hget, hreset, .inr hoverdraw, rfl⟩, rfl⟩
    · cases h
      refine .inl (.single (.wasReset hget hframe ((not_lt.mp hlt).trans hleft.le) hreset ?_))
      have hread : Alike (m.setStream id { s with recv })
          (if !s.isReadable && ({ s with recv } : Stream).isReadable then
            (m.setStream id { s with recv }).markReadable id true
          else m.setStream id { s with recv }) :=
        .ite (.markReadable _ id true) (.refl _)
      exact ((closeIfDone_alike hread id { s with recv }).charge delta).consume _

theorem changes_onResetStreamFrameReceived
    (hframe : p.reset (m.streamOf id false) size)
    (hfits : p.overdraw ∨ size - (m.streamOf id false).recv.recvOff ≤ m.maxRxDataLeft)
    (h : m.onResetStreamFrameReceived id code size = .ok (m', res)) :
    ∃ m₁, Changes p m m₁ ∧ (m' = m₁ ∨ Refused p m₁ m' ∧ failed res = true) := by
  unfold onResetStreamFrameReceived at h
  split_ifs at h with hkind
  · cases h
    exact ⟨m, .refl, .inl rfl⟩
  split at h
  · next m₁ e heq =>
      cases h
      exact ⟨_, (changes_of_getOrCreate heq nofun).1, .inl rfl⟩
  · next m₁ s heq =>
      obtain ⟨hchanges, hlook⟩ := changes_of_getOrCreate (p := p) heq nofun
      have hs : s = m.streamOf id false := hlook.stream_eq rfl
      rw [← hs, hlook.maxRxDataLeft_eq] at hfits
      rcases changes_resetRecv (hlook.get? rfl) (hs ▸ hframe) hfits hlook.maxRxDataLeft_eq h with
        hreset | hrefused
      · exact ⟨m', hchanges.trans hreset, .inl rfl⟩
      · exact ⟨m₁, hchanges, .inr hrefused⟩

def Keeps (p : Promise) (m : StreamMap) : PeerFrame → Prop
  | .stream id off data fin => p.stream (m.streamOf id false) off data fin
  | .resetStream id _ size => p.reset (m.streamOf id false) size ∧
      (p.overdraw ∨ size - (m.streamOf id false).recv.recvOff ≤ m.maxRxDataLeft)
  | _ => True

/-- A frame of the peer is a sequence of changes, up to the point where it is refused. -/
theorem changes_recvFrame {frame : PeerFrame} (hframe : m.Keeps p frame)
    (h : m.recvFrame frame = .ok (m', res)) :
    ∃ m₁, Changes p m m₁ ∧ (m' = m₁ ∨ Refused p m₁ m' ∧ failed res = true) := by
  cases frame with
  | resetStream => exact changes_onResetStreamFrameReceived hframe.1 hframe.2 h
  | stream => exact ⟨m', changes_onStreamFrameReceived hframe h, .inl rfl⟩
  | stopSending id code =>
    obtain rfl := congrArg Prod.fst (ok.inj h)
    exact ⟨_, changes_onStopSendingFrameReceived code, .inl rfl⟩
  | maxData =>
    cases h
    exact ⟨_, .alike (.withSendCapacity m _), .inl rfl⟩
  | maxStreamData id max =>
    obtain rfl := congrArg Prod.fst (ok.inj h)
    exact ⟨_, changes_onMaxStreamDataFrameReceived (Varint.le_vintMax max), .inl rfl⟩
  | maxStreams bidi max =>
    obtain rfl := congrArg Prod.fst (ok.inj h)
    refine ⟨_, ?_, .inl rfl⟩
    unfold onMaxStreamsFrameReceived
    split_ifs
    · exact .refl
    · exact .single (.peerLimit bidi (Varint.le_vintMax max))
  | dataBlocked =>
    cases h
    exact ⟨_, .refl, .inl rfl⟩
  | streamDataBlocked =>
    obtain rfl := congrArg Prod.fst (ok.inj h)
    refine ⟨_, ?_, .inl rfl⟩
    unfold onStreamDataBlockedFrameReceived
    split_ifs <;> exact .refl
  | streamsBlocked =>
    obtain rfl := congrArg Prod.fst (ok.inj h)
    refine ⟨_, ?_, .inl rfl⟩
    unfold onStreamsBlockedFrameReceived
    split_ifs <;> exact .refl

/-! ## The endpoint -/

theorem changes_pollEvent (m : StreamMap) : Changes p m m.pollEvent := by
  unfold pollEvent
  split
  · next id rest hevents => exact .single (.polled hevents rfl)
  · next id rest hevents => exact .single (.polled hevents rfl)
  · exact .refl

theorem changes_updatePeerStreamTransportParams {tp : StreamTransportParams} (htp : tp.Encodable) :
    Changes p m (m.updatePeerStreamTransportParams tp) := by
  have hparams : Changes p m { m with peerTransportParams := tp } := .single (.peerParams tp htp)
  refine ((hparams.tail (.peerLimit true htp.streamsBidi)).tail
    (.peerLimit false htp.streamsUni)).tail (.tables ?_)
  exact .withSendCapacity _ _

end StreamMap

end Tquic
