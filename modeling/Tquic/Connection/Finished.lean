import Tquic.Connection.Accounts
import Tquic.Connection.Delivery
import Tquic.Stream.RecvLayout

/-!
# Finished streams

The stream map looks for finished streams when data is read, a frame is acknowledged or the peer
resets the stream, but not when a frame arrives or the application shuts the receive side down. If
none finishes in these two ways, every finished stream is closed.
-/

namespace Tquic

/-- The send side has nothing left to do: there is none, or everything is acknowledged. -/
def Stream.sendDone (s : Stream) : Bool := !(s.bidi || s.isLocal) || s.send.isComplete

theorem Stream.isComplete_of_over {s : Stream} (hsend : s.sendDone = true) (hrecv : s.recv.Over) :
    s.isComplete = true := by
  have hover := hrecv.1
  unfold sendDone at hsend
  unfold isComplete
  cases hbidi : s.bidi with
  | true =>
    rw [hbidi] at hsend
    simpa [hover] using hsend
  | false =>
    cases hlocal : s.isLocal with
    | true =>
      rw [hbidi, hlocal] at hsend
      simpa using hsend
    | false => exact hover

/-- A first FIN neither meets a receive side that was shut down nor, once the send side is done,
comes with data all read. -/
def Stream.EndsOpenly (s : Stream) (off : ℕ) (data : List UInt8) : Prop :=
  s.recv.finOff = none → s.recv.shutdown = false ∧
    (data ≠ [] → s.sendDone = true → s.recv.readOff < off + data.length)

instance (s : Stream) (off : ℕ) (data : List UInt8) : Decidable (s.EndsOpenly off data) :=
  inferInstanceAs (Decidable (_ → _))

namespace StreamMap

open SendBuf (Parcel)

variable {m m' : StreamMap} {id : ℕ} {s s' : Stream} {p : Promise}

/-! ## Properties of all live streams -/

def AllLive (P : ℕ → Stream → Prop) (m : StreamMap) : Prop := ∀ id s, m.get? id = some s → P id s

variable {P : ℕ → Stream → Prop}

theorem AllLive.congr (h : m.AllLive P) (hstreams : m'.streams = m.streams) : m'.AllLive P := by
  intro id s hget
  apply h id s
  rw [← hget, get?, get?, hstreams]

theorem AllLive.alike (h : m.AllLive P) (hm : Alike m m') : m'.AllLive P :=
  fun id s hget => h id s ((hm.get? id).symm.trans hget)

theorem AllLive.setStream (h : ∀ id' ≠ id, ∀ t, m.get? id' = some t → P id' t) (hs : P id s) :
    (m.setStream id s).AllLive P := by
  intro id' t hget
  by_cases hid : id' = id
  · subst hid
    obtain rfl := Option.some.inj ((get?_setStream_self m id' s).symm.trans hget)
    exact hs
  · exact h id' hid t ((get?_setStream_of_ne m hid s).symm.trans hget)

theorem AllLive.pushWhen (h : m.AllLive P) (push : Bool) (id : ℕ) (s : Stream) :
    (m.pushWhen push id s).AllLive P :=
  h.congr (register_pushWhen m push id s).1

variable {opener : Bool}

theorem AllLive.enroll (h : m.AllLive P) {c : ConcurrencyControl}
    (hnew : P id (m.newStream id opener)) : (m.enroll c id opener).AllLive P := by
  have hset : (m.setStream id (m.newStream id opener)).AllLive P :=
    setStream (fun id' _ t hget => h id' t hget) hnew
  exact hset.congr rfl

variable {id' : ℕ} {t : Stream}

theorem get?_streamDestroy (h : (m.streamDestroy id).get? id' = some t) : m.get? id' = some t := by
  unfold streamDestroy at h
  cases hget : m.get? id with
  | none =>
    rw [hget] at h
    exact h
  | some =>
    rw [hget] at h
    exact (SortedMap.get?_erase_eq_some.mp h).1

theorem AllLive.destroy (h : m.AllLive P) (id : ℕ) : (m.streamDestroy id).AllLive P :=
  fun id' t hget => h id' t (get?_streamDestroy hget)

theorem get?_closeCore (hget : m.get? id = some s) (hopen : s.closed = false) (isLocal : Bool)
    (h : (m.closeCore id isLocal).get? id' = some t) :
    id' = id ∧ t = s.markClosed ∨ id' ≠ id ∧ m.get? id' = some t := by
  have hflag : ∀ {t}, ((m.giveCredit id isLocal).flagClosed id).get? id' = some t →
      id' = id ∧ t = s.markClosed ∨ id' ≠ id ∧ m.get? id' = some t := by
    intro t ht
    unfold flagClosed at ht
    rw [show (m.giveCredit id isLocal).get? id = some s from hget] at ht
    by_cases hid : id' = id
    · subst hid
      exact .inl ⟨rfl, (Option.some.inj ((get?_setStream_self _ _ _).symm.trans ht)).symm⟩
    · exact .inr ⟨hid, (get?_setStream_of_ne _ hid _).symm.trans ht⟩
  have hclosed : m.isClosed id = false := by
    unfold isClosed
    rw [hget]
    exact hopen
  unfold closeCore at h
  rw [if_neg (by simp [hclosed])] at h
  unfold announceClosed at h
  split at h
  · exact hflag h
  · exact hflag (get?_streamDestroy h)

variable {done isLocal : Bool}

theorem AllLive.closeWhen
    (h : ∀ id' ≠ id, ∀ t, m.get? id' = some t → P id' t) (hget : m.get? id = some s)
    (hmark : P id s.markClosed) (hclosed : s.closed = true → P id s)
    (hopen : done = false → P id s) : (m.closeWhen done id isLocal).AllLive P := by
  have hsame : P id s → m.AllLive P := by
    intro hs id' t ht
    by_cases hid : id' = id
    · subst hid
      cases hget.symm.trans ht
      exact hs
    · exact h id' hid t ht
  unfold StreamMap.closeWhen
  cases done with
  | false => exact hsame (hopen rfl)
  | true =>
    cases hflag : s.closed with
    | true =>
      have hnothing : m.closeCore id isLocal = m := by
        unfold closeCore isClosed
        rw [hget]
        exact if_pos hflag
      rw [hnothing]
      exact hsame (hclosed hflag)
    | false =>
      intro id' t ht
      rcases get?_closeCore hget hflag isLocal ht with ⟨rfl, rfl⟩ | ⟨hne, ht⟩
      · exact hmark
      · exact h id' hne t ht

/-! ## Finished streams are closed -/

def Sent (delivered : Set Parcel) : Prop :=
  ∃ e ∈ delivered, e.2.2 = true ∧ ∀ x < e.1 + e.2.1, ∃ e' ∈ delivered, e'.Covers x

/-- The stream has no send side, or its data and FIN are acknowledged or, for a stream of `resets`,
RESET_STREAM. -/
def SendDone (resets : Set ℕ) (acked : List Frame) (id : ℕ) (s : Stream) : Prop :=
  (s.bidi || s.isLocal) = false ∨ Sent {e | .stream id e.1 e.2.1 e.2.2 ∈ acked} ∨
    id ∈ resets ∧ ∃ code size, .resetStream id code size ∈ acked

/-- What holds of a live stream: how its receive buffer is kept, and that it is abandoned if in
`resets`. -/
structure Fit (resets : Set ℕ) (id : ℕ) (s : Stream) : Prop where
  sane : s.recv.Sane
  layout : s.recv.Layout
  reached : ∀ f, s.recv.finOff = some f → s.recv.recvOff = f
  drained : s.recv.shutdown = true → ∀ f, s.recv.finOff = some f → s.recv.readOff = f
  given : id ∈ resets → s.send.isAbandoned = true

/-- A finished stream is closed, unless the connection is being closed after a reset of the stream
was refused. -/
structure Tidy (resets : Set ℕ) (acked : List Frame) (closing : Bool) (id : ℕ) (s : Stream) :
    Prop extends Fit resets id s where
  done : SendDone resets acked id s → s.recv.Over →
    s.closed = true ∨ closing = true ∧ s.recv.error.isSome = true

variable {resets : Set ℕ} {acked : List Frame} {closing : Bool}

theorem Fit.of_closed (h : Fit resets id s) (hclosed : s.closed = true) :
    Tidy resets acked closing id s := ⟨h, fun _ _ => .inl hclosed⟩

theorem Fit.markClosed (h : Fit resets id s) : Tidy resets acked closing id s.markClosed :=
  of_closed ⟨h.sane, h.layout, h.reached, h.drained, h.given⟩ rfl

theorem Tidy.setSend (h : Tidy resets acked closing id s) (hrecv : s'.recv = s.recv)
    (hclosed : s'.closed = s.closed) (hbidi : s'.bidi = s.bidi) (hlocal : s'.isLocal = s.isLocal)
    (habandoned : s.send.isAbandoned = true → s'.send.isAbandoned = true) :
    Tidy resets acked closing id s' := by
  refine ⟨⟨hrecv ▸ h.sane, hrecv ▸ h.layout, hrecv ▸ h.reached, hrecv ▸ h.drained,
    fun hid => habandoned (h.given hid)⟩, ?_⟩
  intro hsend hover
  rw [hclosed, hrecv]
  apply h.done
  · rwa [SendDone, hbidi, hlocal] at hsend
  · exact hrecv ▸ hover

theorem Tidy.withSend (h : Tidy resets acked closing id s) {send : SendBuf}
    (habandoned : s.send.isAbandoned = true → send.isAbandoned = true) :
    Tidy resets acked closing id { s with send } :=
  h.setSend rfl rfl rfl rfl habandoned

theorem Tidy.resembles (h : Tidy resets acked closing id s) (hs : s.Resembles s') :
    Tidy resets acked closing id s' := by
  obtain ⟨blockedAt, hsend⟩ := hs.send
  refine h.setSend hs.recv hs.closed hs.bidi hs.isLocal fun habandoned => ?_
  rw [hsend]
  exact habandoned

theorem tidy_newStream (hnew : id ∉ resets) :
    Tidy resets acked closing id (m.newStream id opener) := by
  refine ⟨⟨RecvBuf.Sane.new _ _, .new _ _, nofun, nofun, ?_⟩, ?_⟩
  · exact fun hin => absurd hin hnew
  · intro _ hover
    cases hover.1

theorem Tidy.withFlowControl (h : Tidy resets acked closing id s) (f : FlowControl) :
    Tidy resets acked closing id { s with recv := { s.recv with flowControl := f } } :=
  ⟨⟨h.sane.withFlowControl f, ⟨h.layout.keyed, h.layout.apart, h.layout.unread⟩, h.reached,
    h.drained, h.given⟩, h.done⟩

theorem Tidy.close (h : Tidy resets acked closing id s) : Tidy resets acked true id s :=
  ⟨h.toFit, fun hsend hover => (h.done hsend hover).imp_right fun hboth => ⟨rfl, hboth.2⟩⟩

/-! ## Receive buffers -/

variable {recv : RecvBuf}

theorem Fit.read (h : Fit resets id s) {cap : ℕ} {out : List UInt8} {fin : Bool}
    (hread : s.recv.read cap = .ok (recv, .ok (out, fin))) : Fit resets id { s with recv } := by
  have hdone := h.sane.read hread
  obtain ⟨hopen, -⟩ := h.sane.read_open hread
  refine ⟨hdone.sane, h.layout.read hread, ?_, ?_, h.given⟩
  · intro f hf
    exact hdone.recvOff.trans (h.reached f (hdone.finOff.symm.trans hf))
  · intro hshut
    rw [show recv.shutdown = s.recv.shutdown from hdone.shutdown, hopen] at hshut
    cases hshut

theorem Fit.clear (h : Fit resets id s) (error : Option ℕ) :
    Fit resets id { s with recv := { s.recv with error := error, data := SortedMap.empty } } where
  sane := ⟨h.sane.read_le, h.sane.clear.chunk_le, h.sane.recv_le_fin, h.sane.clear.drained⟩
  layout := .of_empty SortedMap.not_mem_empty
  reached := h.reached
  drained := h.drained
  given := h.given

theorem Fit.failedRead (h : Fit resets id s) {cap : ℕ} {e : Error}
    (hread : s.recv.read cap = .ok (recv, .error e)) : Fit resets id { s with recv } := by
  rcases RecvBuf.read_error hread with rfl | rfl
  · exact h
  · exact h.clear s.recv.error

theorem Fit.shutdownRecv (h : Fit resets id s) {unread : ℕ}
    (hshut : s.recv.shutdownRecv = (recv, .ok unread)) : Fit resets id { s with recv } := by
  have hsane := h.sane.shutdownRecv hshut
  obtain ⟨-, -, rfl⟩ := RecvBuf.shutdownRecv_ok hshut
  exact ⟨hsane, .of_empty SortedMap.not_mem_empty, h.reached, fun _ => h.reached, h.given⟩

theorem Fit.write (h : Fit resets id s) {off : ℕ} {data : List UInt8} {fin : Bool}
    (hopenly : fin = true → s.EndsOpenly off data)
    (hwrite : s.recv.write off data fin = .ok (recv, .ok ())) : Fit resets id { s with recv } := by
  have hwritten := h.sane.write hwrite
  have hlearn := h.sane.write_finOff hwrite
  refine ⟨hwritten.sane, h.layout.write h.sane hwrite, ?_, ?_, h.given⟩
  · intro f hf
    apply le_antisymm (hwritten.sane.recv_le_fin f hf)
    cases fin with
    | true =>
      -- the frame ends at the final size and was received to its end
      have htop := hwritten.reach (by simp)
      obtain rfl : off + data.length = f := Option.some.inj (hlearn.symm.trans hf)
      exact htop ▸ le_max_right _ _
    | false => exact (h.reached f (hlearn.symm.trans hf)) ▸ hwritten.low
  · intro hshut f hf
    have hshut' : s.recv.shutdown = true := hwritten.shutdown.symm.trans hshut
    refine hwritten.readOff.trans (h.drained hshut' f ?_)
    cases fin with
    | false => exact hlearn.symm.trans hf
    | true =>
      cases hold : s.recv.finOff with
      | some => exact (h.sane.write_final hold hwrite).symm.trans hf
      | none =>
        have hopen := (hopenly rfl hold).1
        rw [hshut'] at hopen
        cases hopen

theorem Fit.reset (h : Fit resets id s) {code size delta : ℕ}
    (hreset : s.recv.reset code size = .ok (recv, .ok delta)) : Fit resets id { s with recv } := by
  obtain ⟨-, -, ⟨-, rfl, -⟩ | ⟨-, hdone⟩⟩ := h.sane.reset hreset
  · exact h
  · refine ⟨hdone.sane, h.layout.reset h.sane hreset, ?_, ?_, h.given⟩
    · intro f hf
      cases hdone.finOff.symm.trans hf
      exact hdone.recvOff
    · intro _ f hf
      cases hdone.finOff.symm.trans hf
      exact hdone.readOff

/-! ## Calls and frames -/

structure Promise.Ending (p : Promise) : Prop where
  stream : ∀ s off data, p.stream s off data true → s.EndsOpenly off data
  shutdown : ∀ s, p.shutdown s .read → ¬(s.sendDone = true ∧ s.recv.finOff.isSome = true)

theorem Promise.Ending.offline (h : p.Ending) : p.offline.Ending :=
  ⟨fun _ _ _ hframe => False.elim hframe, h.shutdown⟩

/-- The send buffers know what the acknowledged frames say. -/
def Accounts (resets : Set ℕ) (acked : List Frame) (m : StreamMap) : Prop :=
  ∀ id s, m.get? id = some s → (id ∈ resets → s.send.isAbandoned = true) →
    SendDone resets acked id s → s.sendDone = true

theorem Fit.tidy (h : Fit resets id s) (hcode : m.Accounts resets acked)
    (hget : m.get? id = some s) (hdone : (s.isComplete && !s.isReadable) = false) :
    Tidy resets acked closing id s := by
  refine ⟨h, fun hsend hover => ?_⟩
  have hcomplete := Stream.isComplete_of_over (hcode id s hget h.given hsend) hover
  have hready : s.isReadable = false := hover.2
  rw [hcomplete, hready] at hdone
  cases hdone

theorem AllLive.closeIfComplete {m₁ : StreamMap}
    (h : ∀ id' ≠ id, ∀ t, m₁.get? id' = some t → Tidy resets acked closing id' t)
    (hget : m₁.get? id = some s) (hfit : Fit resets id s) (hcode : m'.Accounts resets acked)
    (hm : ∀ id', m'.get? id' = (m₁.closeWhen done id isLocal).get? id')
    (hdone : done = false → (s.isComplete && !s.isReadable) = false) :
    m'.AllLive (Tidy resets acked closing) := by
  have hclose : (m₁.closeWhen done id isLocal).AllLive (Tidy resets acked closing) := by
    refine closeWhen h hget hfit.markClosed hfit.of_closed fun hopen => ?_
    refine hfit.tidy hcode ((hm id).trans ?_) (hdone hopen)
    rw [hopen]
    exact hget
  exact fun id' t ht => hclose id' t ((hm id').symm.trans ht)

theorem AllLive.others (h : m.AllLive P) (t : Stream) :
    ∀ id' ≠ id, ∀ t', (m.setStream id t).get? id' = some t' → P id' t' :=
  fun id' hne t' ht' => h id' t' ((get?_setStream_of_ne m hne t).symm.trans ht')

theorem AllLive.replace (h : m.AllLive P) (hs : P id s) : (m.setStream id s).AllLive P :=
  setStream (fun id' _ t ht => h id' t ht) hs

/-- Every change of the map keeps each live stream tidy. -/
theorem AllLive.change (h : m.AllLive (Tidy resets acked closing)) (hkept : m.book.Kept)
    (hused : ∀ id ∈ resets, m.Used id) (hp : p.Ending) (hchange : Change p m m')
    (hcode : m'.Accounts resets acked) : m'.AllLive (Tidy resets acked closing) := by
  cases hchange with
  | tables hm => exact h.alike hm
  | created c id opener hget hid hclosed hopener hcheck =>
    apply h.enroll
    apply tidy_newStream
    intro hin
    exact absurd (used_iff.mp (hused id hin))
      ((hkept.avail_iff id).mp (mem_availFor hget hclosed hcheck)).2
  | touched hget hs hm => exact (h.replace ((h _ _ hget).resembles hs)).alike hm
  | prioritized urgency incremental hget =>
    exact h.replace ((h _ _ hget).setSend rfl rfl rfl rfl fun habandoned => habandoned)
  | @read id cap s recv out fin _ hget hready hread hm =>
    refine closeIfComplete ?_ get?_consume_self ((h id s hget).toFit.read hread) hcode hm.get? ?_
    · intro id' hne t ht
      exact h.others _ id' hne t ((get?_fillWhen _ _ _ _).symm.trans ht)
    · intro hdone
      rw [hdone, Bool.false_and]
  | readFailed hget hready hread hm =>
    refine closeIfComplete (h.others _) (get?_setStream_self m _ _)
      ((h _ _ hget).toFit.failedRead hread) hcode hm.get? fun hdone => ?_
    rw [hdone, Bool.false_and]
  | wrote hget hfinish hwrite hs hm =>
    obtain ⟨room, -, -, hextends, -⟩ := SendBuf.write_cases hwrite
    refine alike (pushWhen (h.replace ?_) _ _ _) hm
    apply Tidy.resembles _ hs
    exact (h _ _ hget).withSend fun habandoned => hextends.isAbandoned_eq.trans habandoned
  | @shutdownRead id unread s recv _ hget hallowed hshutdown hm =>
    have hset : (m.setStream id { s with recv }).AllLive (Tidy resets acked closing) := by
      refine h.replace ⟨(h id s hget).toFit.shutdownRecv hshutdown, fun hsend hover => ?_⟩
      -- a stream whose send side is done has no final size yet
      exfalso
      have hlive : m'.get? id = some { s with recv } :=
        (hm.get? id).trans (get?_setStream_self m id _)
      have hdone := hcode id _ hlive (h id s hget).given hsend
      obtain ⟨-, -, rfl⟩ := RecvBuf.shutdownRecv_ok hshutdown
      refine hp.shutdown s hallowed ⟨hdone, ?_⟩
      have hfin : s.recv.finOff = some s.recv.recvOff := of_decide_eq_true hover.1
      rw [hfin]
      rfl
    exact (hset.congr rfl : ((m.setStream id { s with recv }).consume unread).AllLive _).alike hm
  | shutdownWrite hget hallowed hshutdown hm =>
    refine alike (h.replace ((h _ _ hget).withSend fun _ => ?_)) hm
    exact (SendBuf.abandons_shutdownSend hshutdown).abandoned
  | stopped hget hstop hm =>
    refine alike (h.replace ((h _ _ hget).withSend fun _ => ?_)) hm
    exact (SendBuf.abandons_stop hstop).abandoned
  | maxDataRaised hget hmax hm =>
    refine alike (pushWhen (h.replace ?_) _ _ _) hm
    exact (h _ _ hget).withSend fun habandoned => habandoned
  | @received id off data fin s recv _ hget hframe hleft hwrite hm =>
    have hlive : m'.get? id = some { s with recv } := by
      rw [hm.get? id]
      split_ifs <;> exact get?_setStream_self m id _
    have hset : (m.setStream id { s with recv }).AllLive (Tidy resets acked closing) := by
      have htidy := h id s hget
      have hopenly : fin = true → s.EndsOpenly off data := by
        rintro rfl
        exact hp.stream s off data hframe
      refine h.replace ⟨htidy.toFit.write hopenly hwrite, fun hsend hover => ?_⟩
      rcases htidy.layout.over_of_write htidy.sane hwrite hover with hold | ⟨hfin, hnone, hbad⟩
      · rw [show ({ s with recv } : Stream).recv.error = s.recv.error from
          (htidy.sane.write hwrite).error]
        exact htidy.done hsend hold
      · exfalso
        have hdone : ({ s with recv } : Stream).sendDone = true :=
          hcode id _ hlive htidy.given hsend
        obtain ⟨hopen, hunread⟩ := hopenly hfin hnone
        rcases hbad with hshut | ⟨hdata, hle⟩
        · rw [hopen] at hshut
          cases hshut
        · exact absurd hle (not_le.mpr (hunread hdata hdone))
    refine alike ?_ hm
    split_ifs
    · exact hset.congr rfl
    · exact hset.congr rfl
  | @wasReset id code size delta s recv _ hget hframe hleft hreset hm =>
    refine closeIfComplete (h.others _) (get?_setStream_self m id _)
      ((h id s hget).toFit.reset hreset) hcode (fun id' => (hm.get? id').trans rfl) ?_
    exact fun hdone => hdone
  | peerLimit | peerParams => exact h.congr rfl
  | @polled e rest hevents _ hm =>
    have hrest : ({ m with events := some rest } : StreamMap).AllLive
        (Tidy resets acked closing) := h.congr rfl
    subst hm
    cases e with
    | streamCreated => exact hrest
    | streamClosed id => exact hrest.destroy id

theorem AllLive.refused (h : m.AllLive (Tidy resets acked closing)) (hrefused : Refused p m m') :
    m'.AllLive (Tidy resets acked true) := by
  obtain ⟨id, s, code, size, recv, r, hget, hreset, -, rfl⟩ := hrefused
  have hclosing : m.AllLive (Tidy resets acked true) := fun id' t ht => (h id' t ht).close
  refine hclosing.replace ?_
  have htidy := h id s hget
  cases r with
  | error =>
    rcases RecvBuf.reset_refused hreset with rfl | rfl
    · exact htidy.close
    · exact ⟨htidy.toFit.clear (some code), fun _ _ => .inr ⟨rfl, rfl⟩⟩
  | ok =>
    have hfit := htidy.toFit.reset hreset
    obtain ⟨-, -, ⟨-, rfl, -⟩ | ⟨-, hdone⟩⟩ := htidy.sane.reset hreset
    · exact htidy.close
    · exact ⟨hfit, fun _ _ => .inr ⟨rfl, hdone.error⟩⟩

end StreamMap

end Tquic
