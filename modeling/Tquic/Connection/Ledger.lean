import Tquic.Connection.Move

/-!
# The receive side of a connection

What flow control of received data depends on: the controller of the connection and the receive
buffers of all streams. Every step of the stream map moves it along `Ledger.Step`.
-/

namespace Tquic

open SortedMap

structure Ledger where
  conn : FlowControl
  streams : SortedMap ℕ RecvBuf
  destroyed : List (ℕ × RecvBuf)
  closing : Bool
  initial : List ℕ
  maxStreamWindow : ℕ

/-- What is promised about the peer's frames, given the receive buffer of their stream. -/
structure FrameRule where
  stream : RecvBuf → ℕ → List UInt8 → Bool → Prop := fun _ _ _ _ => True
  reset : RecvBuf → ℕ → Prop := fun _ _ => True
  overdraw : Prop := True

namespace Ledger

def left (l : Ledger) : ℕ := wrappingSub l.conn.maxData l.conn.recvOff

def setRecv (l : Ledger) (id : ℕ) (b : RecvBuf) : Ledger :=
  { l with streams := l.streams.insert id b }

def charge (l : Ledger) (delta : ℕ) : Ledger := { l with conn := l.conn.increaseRecvOff delta }

def consume (l : Ledger) (delta : ℕ) : Ledger := { l with conn := l.conn.increaseReadOff delta }

def remove (l : Ledger) (id : ℕ) (b : RecvBuf) : Ledger :=
  { l with streams := l.streams.erase id, destroyed := (id, b) :: l.destroyed }

inductive Step (r : FrameRule) (l : Ledger) : Ledger → Prop
  | created (id maxRx : ℕ) (hget : l.streams.get? id = none) (hmax : maxRx ∈ l.initial) :
      Step r l (l.setRecv id (RecvBuf.new maxRx l.maxStreamWindow))
  | received {id off : ℕ} {data : List UInt8} {fin : Bool} {b b' : RecvBuf}
      (hget : l.streams.get? id = some b) (hrule : r.stream b off data fin)
      (hopen : l.closing = false) (hleft : off + data.length - b.recvOff ≤ l.left)
      (hwrite : b.write off data fin = .ok (b', .ok ())) :
      Step r l
        (if b.shutdown then
          ((l.setRecv id b').charge (off + data.length - b.recvOff)).consume
            (off + data.length - b.recvOff)
        else (l.setRecv id b').charge (off + data.length - b.recvOff))
  | wasReset {id code size delta : ℕ} {b b' : RecvBuf} (hget : l.streams.get? id = some b)
      (hrule : r.reset b size) (hopen : l.closing = false) (hleft : delta ≤ l.left)
      (hreset : b.reset code size = .ok (b', .ok delta)) :
      Step r l (((l.setRecv id b').charge delta).consume (size - b.readOff))
  | refused {id code size : ℕ} {b b' : RecvBuf} {res : Result ℕ}
      (hget : l.streams.get? id = some b) (hopen : l.closing = false)
      (hreset : b.reset code size = .ok (b', res))
      (hrefused : (∃ e, res = .error e) ∨ r.overdraw) :
      Step r l { l.setRecv id b' with closing := true }
  | read {id cap : ℕ} {b b' : RecvBuf} {out : List UInt8} {fin : Bool}
      (hget : l.streams.get? id = some b) (hread : b.read cap = .ok (b', .ok (out, fin))) :
      Step r l ((l.setRecv id b').consume out.length)
  | readFailed {id cap : ℕ} {b b' : RecvBuf} {e : Error} (hget : l.streams.get? id = some b)
      (hread : b.read cap = .ok (b', .error e)) : Step r l (l.setRecv id b')
  | shutdown {id unread : ℕ} {b b' : RecvBuf} (hget : l.streams.get? id = some b)
      (hshutdown : b.shutdownRecv = (b', .ok unread)) :
      Step r l ((l.setRecv id b').consume unread)
  | tuned {id : ℕ} {b : RecvBuf} (now srtt : ℕ) (hget : l.streams.get? id = some b) :
      Step r l (l.setRecv id (b.autotuneWindow now srtt))
  | advertised {id : ℕ} {b : RecvBuf} (now : ℕ) (hget : l.streams.get? id = some b)
      (hfit : b.maxDataNext ≤ vintMax) :
      Step r l { l.setRecv id (b.updateMaxData now) with
        conn := l.conn.ensureWindowLowerBound (timesThreeHalves b.flowControl.window) }
  | connTuned (now srtt : ℕ) : Step r l { l with conn := l.conn.autotuneWindow now srtt }
  | connAdvertised (now : ℕ) (hfit : l.conn.maxDataNext ≤ vintMax) :
      Step r l { l with conn := l.conn.updateMaxData now }
  | removed {id : ℕ} {b : RecvBuf} (hget : l.streams.get? id = some b) : Step r l (l.remove id b)
  | closed : Step r l { l with closing := true }

abbrev Path (r : FrameRule) : Ledger → Ledger → Prop := Relation.ReflTransGen (Step r)

theorem setRecv_eq_self {l : Ledger} {id : ℕ} {b : RecvBuf} (h : l.streams.get? id = some b) :
    l.setRecv id b = l := by
  rw [setRecv, insert_eq_self h]

theorem Path.of_eq {r : FrameRule} {l l' : Ledger} (h : l = l') : Path r l l' := h ▸ .refl

end Ledger

namespace StreamMap

variable {r : FrameRule} {c : Bool} {m m' : StreamMap} {id : ℕ} {s t : Stream} {l : Ledger}

/-- The receive side of the map; `closing` is kept outside of it. -/
def ledger (closing : Bool) (m : StreamMap) : Ledger where
  conn := m.flowControl
  streams := m.streams.mapValues Stream.recv
  destroyed := m.destroyed.map fun e => (e.1, e.2.recv)
  closing := closing
  initial := [0, m.localTransportParams.initialMaxStreamDataBidiLocal,
    m.localTransportParams.initialMaxStreamDataBidiRemote,
    m.localTransportParams.initialMaxStreamDataUni]
  maxStreamWindow := m.maxStreamWindow

/-! ## Core operations -/

theorem Alike.ledger_eq (h : Alike m m') : m'.ledger c = m.ledger c := by
  obtain ⟨t, rfl⟩ := h
  rfl

theorem ledger_get? (hget : m.get? id = some s) : (m.ledger c).streams.get? id = some s.recv := by
  change (m.streams.mapValues Stream.recv).get? id = _
  rw [get?_mapValues]
  exact congrArg (Option.map Stream.recv) hget

theorem ledger_get?_none (hget : m.get? id = none) : (m.ledger c).streams.get? id = none := by
  change (m.streams.mapValues Stream.recv).get? id = _
  rw [get?_mapValues]
  exact congrArg (Option.map Stream.recv) hget

theorem ledger_setStream (m : StreamMap) (id : ℕ) (s : Stream) :
    (m.setStream id s).ledger c = (m.ledger c).setRecv id s.recv := by
  simp only [setStream, ledger, Ledger.setRecv, mapValues_insert]

theorem ledger_setStream_same (hget : m.get? id = some s) (hrecv : t.recv = s.recv) :
    (m.setStream id t).ledger c = m.ledger c := by
  rw [ledger_setStream, hrecv, Ledger.setRecv_eq_self (ledger_get? hget)]

theorem ledger_setSend (hget : m.get? id = some s) (send : SendBuf) :
    (m.setStream id { s with send }).ledger c = m.ledger c :=
  ledger_setStream_same hget (by rfl)

theorem ledger_pushWhen (m : StreamMap) (push : Bool) (id : ℕ) (s : Stream) :
    (m.pushWhen push id s).ledger c = m.ledger c := by
  cases push <;> rfl

theorem ledger_fillWhen (m : StreamMap) (full : Bool) (id : ℕ) :
    (m.fillWhen full id).ledger c = m.ledger c := by
  cases full <;> rfl

theorem ledger_charge (m : StreamMap) (delta : ℕ) :
    (m.charge delta).ledger c = (m.ledger c).charge delta := rfl

theorem ledger_consume (m : StreamMap) (delta : ℕ) :
    (m.consume delta).ledger c = (m.ledger c).consume delta := rfl

def Drops (l l' : Ledger) : Prop := l' = l ∨ ∃ id b, l.streams.get? id = some b ∧ l' = l.remove id b

theorem drops_streamDestroy (m : StreamMap) (id : ℕ) :
    Drops (m.ledger c) ((m.streamDestroy id).ledger c) := by
  unfold streamDestroy
  cases hget : m.get? id with
  | none => exact .inl rfl
  | some s =>
    refine .inr ⟨id, s.recv, ledger_get? hget, ?_⟩
    simp only [ledger, Ledger.remove, mapValues_erase, List.map_cons]

theorem drops_closeWhen (m : StreamMap) (done : Bool) (id : ℕ) (isLocal : Bool) :
    Drops (m.ledger c) ((m.closeWhen done id isLocal).ledger c) := by
  unfold closeWhen closeCore
  split_ifs
  · exact .inl rfl
  · have hflag : ((m.giveCredit id isLocal).flagClosed id).ledger c = m.ledger c := by
      unfold flagClosed
      split
      · next s hget => exact ledger_setStream_same hget rfl
      · rfl
    rw [← hflag]
    unfold announceClosed
    split
    · exact .inl rfl
    · exact drops_streamDestroy _ id
  · exact .inl rfl

theorem Drops.path {l l' : Ledger} (h : Drops l l') : Ledger.Path r l l' := by
  rcases h with rfl | ⟨id, b, hget, rfl⟩
  · exact .refl
  · exact .single (.removed hget)

theorem Drops.charge_consume {l l' : Ledger} (h : Drops l l') (delta delta' : ℕ) :
    Drops ((l.charge delta).consume delta') ((l'.charge delta).consume delta') := by
  rcases h with rfl | ⟨id, b, hget, rfl⟩
  · exact .inl rfl
  · exact .inr ⟨id, b, hget, rfl⟩

/-! ## Steps -/

/-- A promise about frames that only looks at the receive buffer. -/
def FrameRule.promise (r : FrameRule) : Promise where
  stream s := r.stream s.recv
  reset s := r.reset s.recv
  overdraw := r.overdraw

/-- What one change of the stream map does to the ledger of received bytes. -/
theorem path_change {p : Promise} (h : Change p m m')
    (hstream : ∀ s off data fin, p.stream s off data fin → c = false ∧ r.stream s.recv off data fin)
    (hreset : ∀ s size, p.reset s size → c = false ∧ r.reset s.recv size) :
    Ledger.Path r (m.ledger c) (m'.ledger c) := by
  cases h with
  | tables hm => exact of_eq hm.ledger_eq.symm
  | created k id opener hget =>
    have hcreate : (m.enroll k id opener).ledger c =
        (m.ledger c).setRecv id (m.newStream id opener).recv := by
      simp only [enroll, create, addEvent, ledger, Ledger.setRecv, mapValues_insert]
      rfl
    rw [hcreate]
    refine .single (.created id _ (ledger_get?_none hget) ?_)
    simp only [maxStreamDataLimit, ledger]
    cases opener <;> cases isBidi id <;> simp
  | touched hget hs hm =>
    rw [hm.ledger_eq, ledger_setStream_same hget hs.recv]
  | @prioritized id s urgency incremental hget =>
    rw [ledger_setStream_same (t := { s with urgency, incremental }) hget rfl]
  | @read id cap s recv out fin _ hget hready hread hm =>
    rw [hm.ledger_eq]
    refine .trans ?_ (drops_closeWhen _ _ _ _).path
    rw [ledger_consume, ledger_fillWhen, ledger_setStream]
    exact .single (.read (ledger_get? hget) hread)
  | @readFailed id cap s recv e _ hget hready hread hm =>
    rw [hm.ledger_eq]
    refine .trans ?_ (drops_closeWhen _ _ _ _).path
    rw [ledger_setStream]
    exact .single (.readFailed (ledger_get? hget) hread)
  | wrote hget hfinish hwrite hs hm =>
    rw [hm.ledger_eq, ledger_pushWhen, ledger_setStream_same hget hs.recv]
  | shutdownRead hget hallowed hshutdown hm =>
    rw [hm.ledger_eq, ledger_consume, ledger_setStream]
    exact .single (.shutdown (ledger_get? hget) hshutdown)
  | shutdownWrite hget hallowed hshutdown hm =>
    rw [hm.ledger_eq, ledger_setSend hget]
  | stopped hget hstop hm => rw [hm.ledger_eq, ledger_setSend hget]
  | maxDataRaised hget hmax hm =>
    rw [hm.ledger_eq, ledger_pushWhen, ledger_setSend hget]
  | received hget hframe hleft hwrite hm =>
    obtain ⟨hopen, hrule⟩ := hstream _ _ _ _ hframe
    rw [hm.ledger_eq]
    have hstep := Ledger.Step.received (l := m.ledger c) (ledger_get? hget) hrule hopen hleft hwrite
    refine .single ?_
    split_ifs at hstep ⊢
    · rw [ledger_consume, ledger_charge, ledger_setStream]
      exact hstep
    · rw [ledger_charge, ledger_setStream]
      exact hstep
  | @wasReset id code size delta s recv _ hget hframe hleft hreset' hm =>
    obtain ⟨hopen, hrule⟩ := hreset _ _ hframe
    have hstep := Ledger.Step.wasReset (l := m.ledger c) (ledger_get? hget) hrule hopen hleft
      hreset'
    rw [hm.ledger_eq, ledger_consume, ledger_charge]
    refine .head hstep ?_
    have hdrops := (drops_closeWhen (c := c) (m.setStream id { s with recv })
      (({ s with recv } : Stream).isComplete && !({ s with recv } : Stream).isReadable) id
      s.isLocal).charge_consume delta (size - s.recv.readOff)
    rw [ledger_setStream] at hdrops
    exact hdrops.path
  | peerLimit | peerParams => exact of_eq rfl
  | @polled e rest hevents _ hm =>
    rw [hm]
    cases e with
    | streamClosed id =>
      exact (drops_streamDestroy ({ m with events := some rest } : StreamMap) id).path
    | streamCreated => exact of_eq rfl

theorem path_control {now srtt : ℕ} {w w' : Writer} (h : Writer.Control now srtt w w') :
    Ledger.Path r (w.map.ledger c) (w'.map.ledger c) := by
  cases h with
  | maxStreams | forgotten => exact of_eq rfl
  | tuned id s hget =>
    rw [ledger_setStream]
    exact .single (.tuned now srtt (ledger_get? hget))
  | maxStreamData id s len hget hlen =>
    have hset : (Writer.applyMaxStreamData now id s w.map).ledger c =
        { (w.map.ledger c).setRecv id (s.recv.updateMaxData now) with
          conn := w.map.flowControl.ensureWindowLowerBound
            (timesThreeHalves s.recv.flowControl.window) } := by
      rw [← ledger_setStream w.map id { s with recv := s.recv.updateMaxData now }]
      rfl
    rw [hset]
    exact .single (.advertised now (ledger_get? hget) (Frame.le_of_wireLen_maxStreamData hlen))
  | connTuned => exact .single (.connTuned now srtt)
  | maxData len hlen => exact .single (.connAdvertised now (Frame.le_of_wireLen_maxData hlen))
  | other => exact of_eq rfl

theorem same_emission {w w' : Writer} (h : Writer.Emission w w') :
    w'.map.ledger c = w.map.ledger c :=
  view_emission h (fun _ _ => rfl) fun send hget => ledger_setSend hget send

theorem path_acked {frame : Frame} (h : Acked m frame m') :
    Ledger.Path r (m.ledger c) (m'.ledger c) := by
  cases h with
  | @stream id off len fin s send _ hget hack hm =>
    rw [hm.ledger_eq]
    have hpath := (drops_closeWhen (c := c) (m.setStream id { s with send })
      (({ s with send } : Stream).isComplete && !s.isReadable) id s.isLocal).path (r := r)
    rw [ledger_setSend hget] at hpath
    exact hpath
  | reset hget hm =>
    rw [hm.ledger_eq]
    exact (drops_closeWhen _ _ _ _).path
  | other => exact .refl

theorem same_lost {frame : Frame} (h : Lost m frame m') : m'.ledger c = m.ledger c := by
  cases h with
  | stream hget => rw [ledger_pushWhen, ledger_setSend hget]
  | maxData | maxStreamData => rfl
  | other hframe hm => exact hm.ledger_eq

def Wire.ledger (x : Wire) : Ledger := x.map.ledger x.closing

theorem path_move {x x' : Wire} (h : Move (FrameRule.promise r) x x') :
    Ledger.Path r x.ledger x'.ledger := by
  cases h with
  | call h =>
    exact path_change h (fun _ _ _ _ hfalse => False.elim hfalse) fun _ _ hfalse =>
      False.elim hfalse
  | frame hopen h =>
    exact path_change h (fun s off data fin hrule => ⟨hopen, hrule⟩) fun s size hrule =>
      ⟨hopen, hrule⟩
  | refused hopen h =>
    obtain ⟨id, s, code, size, recv, res, hget, hreset, hrefused, rfl⟩ := h
    have hset := ledger_setStream (c := true) x.map id { s with recv }
    refine .single ?_
    change Ledger.Step r x.ledger ((x.map.setStream id { s with recv }).ledger true)
    rw [hset]
    exact .refused (ledger_get? hget) hopen hreset hrefused
  | closed => exact .single .closed
  | control hopen h => exact path_control h
  | emission hopen h => exact of_eq (same_emission h).symm
  | packed | ackPacket => exact .refl
  | ackFrame hopen hacking h => exact path_acked h
  | losePacket | probePacket => exact .refl
  | loseFrame hlost h => exact of_eq (same_lost h).symm

end StreamMap

end Tquic
