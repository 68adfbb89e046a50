import Tquic.Connection.Abandoned

/-!
# Resets in packets

Every RESET_STREAM frame in flight, acknowledged or lost announces the final size of an abandoned
stream. When nothing else waits about such streams, a packet says nothing else about them.
-/

namespace Tquic

open StreamMap List Exec Act

namespace Writer

open Purse (Path Announced Silent)

/-- The frame says nothing about the streams that the purse `p` has as abandoned. -/
def Discreet (p : Purse) (frame : Frame) : Prop :=
  p.Silent → ∀ id size, p.Announced id size → ¬frame.About id

/-- The packet written so far, starting from the purse `p`: its resets are announced. -/
structure Draws (p : Purse) (w : Writer) : Prop where
  path : Path False p w.map.purse
  resets : ∀ id code size, .resetStream id code size ∈ w.frames → w.map.purse.Announced id size
  discreet : ∀ frame ∈ w.frames, Discreet p frame

variable {p : Purse} {w w' : Writer} {room now srtt : ℕ}

variable {frame : Frame} {out : Writer × Except Error PUnit}

theorem Draws.add (h : Draws p w) (hs : p.Sound) (hpath : Path False w.map.purse w'.map.purse)
    (hframes : w'.frames = w.frames ++ [frame])
    (hframe : ∀ id code size, frame = .resetStream id code size →
      w.map.purse.Announced id size) (hdiscreet : Discreet p frame) : Draws p w' := by
  have hsound := hs.path h.path
  refine ⟨h.path.trans hpath, ?_, ?_⟩
  · intro id code size hmem
    rw [hframes, mem_append, mem_singleton] at hmem
    rcases hmem with hmem | heq
    · exact (h.resets id code size hmem).path hsound hpath
    · exact (hframe id code size heq.symm).path hsound hpath
  · intro frame' hmem
    rw [hframes, mem_append, mem_singleton] at hmem
    rcases hmem with hmem | rfl
    · exact h.discreet frame' hmem
    · exact hdiscreet

theorem Draws.move (h : Draws p w) (hs : p.Sound) (hpath : Path False w.map.purse w'.map.purse)
    (hframes : w'.frames = w.frames) : Draws p w' := by
  refine ⟨h.path.trans hpath, ?_, ?_⟩
  · intro id code size hmem
    rw [hframes] at hmem
    exact (h.resets id code size hmem).path (hs.path h.path) hpath
  · rw [hframes]
    exact h.discreet

theorem discreet_other (h : ∀ id, ¬frame.About id) : Discreet p frame :=
  fun _ id _ _ => h id

abbrev Keeps (p : Purse) (x : Act Writer Error PUnit) : Prop :=
  Act.Valid (Draws p) x (fun _ => Draws p) (fun _ => Draws p)

theorem keeps_frame {f : StreamMap → StreamMap} (hs : p.Sound) (h : Draws p w)
    (hout : (writeFrameToPacket room frame >>= fun _ => update f) w = .ok out)
    (hpath : Path False w.map.purse (f w.map).purse)
    (hframe : ∀ id code size, frame = .resetStream id code size →
      w.map.purse.Announced id size) (hdiscreet : Discreet p frame) : Draws p out.1 := by
  rcases frame_then_update hout with heq | ⟨len, -, heq⟩
  · rw [heq]
    exact h
  · rw [heq]
    exact h.add hs hpath rfl hframe hdiscreet

theorem keeps_each {α : Type} {body : α → Act Writer Error PUnit} (l : List α)
    (hbody : ∀ a ∈ l, Keeps p (body a)) : Keeps p (each body l) := by
  induction l with
  | nil => exact valid_pure fun _ h => h
  | cons a l ih =>
    refine valid_bind (hbody a mem_cons_self) fun _ => ?_
    exact ih fun a' hmem => hbody a' (.tail _ hmem)

theorem keeps_get_bind {f : Writer → Act Writer Error PUnit}
    (h : ∀ w out, Draws p w → f w w = .ok out → Draws p out.1) : Keeps p (Act.get >>= f) := by
  intro w out hw hout
  rw [post_const]
  exact h w out hw hout

variable {e : ℕ × ℕ}

section

variable (hs : p.Sound)

include hs

theorem keeps_writeMaxStreams (bidi : Bool) : Keeps p (writeMaxStreams room bidi) := by
  apply keeps_get_bind
  intro w out hw hout
  split_ifs at hout
  · exact keeps_frame hs hw hout .refl nofun (discreet_other fun _ => not_false)
  · cases hout
    exact hw

theorem keeps_writeDataBlocked : Keeps p (writeDataBlocked room) := by
  apply keeps_get_bind
  intro w out hw hout
  cases hblocked : w.map.sendCapacity.blockedAt with
  | none =>
    rw [hblocked] at hout
    cases hout
    exact hw
  | some =>
    rw [hblocked] at hout
    exact keeps_frame hs hw hout .refl nofun (discreet_other fun _ => not_false)

theorem keeps_writeMaxStreamData (id : ℕ) : Keeps p (writeMaxStreamData room now srtt id) := by
  apply keeps_get_bind
  intro w out hw hout
  cases hget : w.map.get? id with
  | none =>
    rw [hget] at hout
    cases hout
    exact hw.move hs .refl rfl
  | some s =>
    rw [hget] at hout
    have hset : Path False w.map.purse
        (w.map.setStream id { s with recv := s.recv.autotuneWindow now srtt }).purse :=
      path_setStream_same hget rfl
    have htuned : Draws p { w with
        map := w.map.setStream id { s with recv := s.recv.autotuneWindow now srtt } } :=
      hw.move hs hset rfl
    refine keeps_frame hs htuned hout ?_ nofun (discreet_other fun _ => not_false)
    exact path_setStream_same (get?_setStream_self _ _ _) rfl

theorem keeps_writeMaxData : Keeps p (writeMaxData room now srtt) := by
  apply keeps_get_bind
  intro w out hw hout
  split_ifs at hout
  · have htuned : Draws p { w with
        map := { w.map with flowControl := w.map.flowControl.autotuneWindow now srtt } } :=
      hw.move hs .refl rfl
    exact keeps_frame hs htuned hout .refl nofun (discreet_other fun _ => not_false)
  · cases hout
    exact hw

theorem keeps_writeStopSending (e : ℕ × ℕ) : Keeps p (writeStopSending room e) := by
  intro w out hw hout
  rw [post_const]
  exact keeps_frame hs hw hout .refl nofun (discreet_other fun _ => not_false)

theorem keeps_writeStreamDataBlocked
    (he : Discreet p (.streamDataBlocked e.1 e.2)) :
    Keeps p (writeStreamDataBlocked room e) := by
  intro w out hw hout
  rw [post_const]
  exact keeps_frame hs hw hout (.single (.unblocked e.1)) nofun he

theorem keeps_writeStreamsBlocked (bidi : Bool) : Keeps p (writeStreamsBlocked room bidi) := by
  apply keeps_get_bind
  intro w out hw hout
  cases hblocked : w.map.concurrencyControl.streamsBlockedAt bidi with
  | none =>
    rw [hblocked] at hout
    cases hout
    exact hw
  | some =>
    rw [hblocked] at hout
    exact keeps_frame hs hw hout .refl nofun (discreet_other fun _ => not_false)

theorem draws_writeResetStreams {l : List (ℕ × ℕ × ℕ)} {w : Writer} (hw : Draws p w)
    (hl : ∀ e ∈ l, w.map.purse.Announced e.1 e.2.2)
    (hout : each (writeResetStream room) l w = .ok out) : Draws p out.1 := by
  induction l generalizing w with
  | nil =>
    cases hout
    exact hw
  | cons e l ih =>
    have hpath : Path False w.map.purse (w.map.markReset e.1 false 0 0).purse :=
      .single (.resetSent e.1)
    have hframe : ∀ id code size, Frame.resetStream e.1 e.2.1 e.2.2 = .resetStream id code size →
        w.map.purse.Announced id size := by
      intro id code size heq
      cases heq
      exact hl e mem_cons_self
    change Act.bind (writeResetStream room e) (fun _ => each (writeResetStream room) l) w =
      .ok out at hout
    unfold Act.bind at hout
    split at hout
    · next w₁ u hfirst =>
        have hw₁ : Draws p w₁ :=
          keeps_frame hs hw hfirst hpath hframe (discreet_other fun _ => not_false)
        refine ih hw₁ ?_ hout
        intro e' he'
        have hannounced := hl e' (.tail _ he')
        rcases frame_then_update hfirst with heq | ⟨len, -, heq⟩
        · dsimp only at heq
          rw [heq]
          exact hannounced
        · dsimp only at heq
          rw [heq]
          exact hannounced.path (hs.path hw.path) hpath
    · next w₁ e₁ hfirst =>
        cases hout
        exact keeps_frame hs hw hfirst hpath hframe (discreet_other fun _ => not_false)
    · cases hout
    · cases hout

end

theorem mem_arrangeEntries {V : Type} {order : List ℕ} {map : SortedMap ℕ V} {e : ℕ × V}
    (h : e ∈ arrangeEntries order map) : map.get? e.1 = some e.2 := by
  obtain ⟨id, -, hid⟩ := mem_filterMap.mp h
  obtain ⟨v, hv, rfl⟩ := Option.map_eq_some_iff.mp hid
  exact hv

variable {β : Type} {body : β → Act Writer Error PUnit}

theorem keeps_loop {f : Writer → List β}
    {next : PUnit → Act Writer Error PUnit}
    (hloop : ∀ w out, Draws p w → each body (f w) w = .ok out → Draws p out.1)
    (hnext : ∀ u, Keeps p (next u)) : Keeps p (Act.get >>= fun w => each body (f w) >>= next) := by
  intro w out hw hout
  have hbody :
      Act.Valid (fun s => s = w) (each body (f w)) (fun _ => Draws p) (fun _ => Draws p) := by
    rintro s out rfl hout
    exact post_const.mpr (hloop s out hw hout)
  exact valid_bind hbody hnext w out rfl hout

theorem draws_each {l : List β}
    (hbody : ∀ a ∈ l, Keeps p (body a)) (hw : Draws p w) (hout : each body l w = .ok out) :
    Draws p out.1 :=
  post_const.mp (keeps_each l hbody w out hw hout)

theorem discreet_of_blocked (hs : p.Sound) (hw : Draws p w)
    (he : w.map.dataBlocked.get? e.1 = some e.2) : Discreet p (.streamDataBlocked e.1 e.2) := by
  rintro hsilent id size hannounced rfl
  have hnone := (hsilent.path hs hw.path).blocked e.1 size (hannounced.path hs hw.path)
  rw [show w.map.purse.dataBlocked.get? e.1 = some e.2 from he] at hnone
  cases hnone

/-- Writing the control frames keeps to what the purse allows. -/
theorem keeps_tryWriteStreamControlFrames (hs : p.Sound) (orders : Orders) :
    Keeps p (tryWriteStreamControlFrames room now srtt orders) := by
  refine valid_bind (keeps_each _ fun bidi _ => keeps_writeMaxStreams hs bidi) fun _ => ?_
  refine valid_bind (keeps_writeDataBlocked hs) fun _ => ?_
  refine keeps_loop (fun _ _ => draws_each fun id _ => keeps_writeMaxStreamData hs id) fun _ => ?_
  refine valid_bind (keeps_writeMaxData hs) fun _ => ?_
  refine keeps_loop (fun _ _ => draws_each fun e _ => keeps_writeStopSending hs e) fun _ => ?_
  refine keeps_loop ?_ fun _ => ?_
  · intro w out hw hout
    -- the table holds announced resets when the loop over it starts
    refine draws_writeResetStreams hs hw ?_ hout
    intro e he
    exact (hs.path hw.path).announced e.1 e.2.1 e.2.2 (mem_arrangeEntries he)
  refine keeps_loop ?_ fun _ => ?_
  · intro w out hw hout
    refine draws_each (fun e he => ?_) hw hout
    exact keeps_writeStreamDataBlocked hs (discreet_of_blocked hs hw (mem_arrangeEntries he))
  exact keeps_each _ fun bidi _ => keeps_writeStreamsBlocked hs bidi

/-! ### STREAM frames -/

theorem discreet_of_queued (hs : p.Sound) (hw : Draws p w) {id off len : ℕ} {fin : Bool}
    {s : Stream} (hnext : w.map.peekSendable.2 = some id) (hget : w.map.get? id = some s)
    (hstopped : s.send.isStopped = false) : Discreet p (.stream id off len fin) := by
  rintro hsilent id size hannounced rfl
  have hlater := hsilent.path hs hw.path
  obtain ⟨b, hb, habandoned, -⟩ := hannounced.path hs hw.path
  rcases hb with hb | hmem
  · obtain rfl := Option.some.inj ((purse_get? hget).symm.trans hb)
    rcases hlater.queued _ _ hb habandoned with htrue | hout
    · rw [hstopped] at htrue
      cases htrue
    · exact hout (mem_queuedIds_of_peekSendable hnext)
  · exact hlater.apart _ _ (purse_get? hget) b hmem

theorem Draws.emission (h : Draws p w) (hs : p.Sound) (he : Emission w w') : Draws p w' := by
  cases he with
  | idle => exact h.move hs (path_peekSendable _) rfl
  | dropped =>
    exact h.move hs ((path_peekSendable _).trans (path_removeSendable _)) rfl
  | emitted id s outLen dataLen len send data fin hnext hget hstopped hread =>
    have hset : Path False w.map.purse
        (w.map.peekSendable.1.setStream id { s with send }).purse := by
      refine (path_peekSendable _).trans ?_
      apply path_setStream _ (SendBuf.continues_read hread)
      rw [get?_peekSendable]
      exact hget
    refine h.add hs ?_ rfl nofun (discreet_of_queued hs h hnext hget hstopped)
    dsimp only
    split_ifs
    · exact hset
    · exact hset.trans (path_removeSendable _)

theorem Draws.emissions (h : Draws p w) (hs : p.Sound)
    (he : Relation.ReflTransGen Emission w w') : Draws p w' := by
  induction he with
  | refl => exact h
  | tail _ hlast ih => exact ih.emission hs hlast

end Writer

namespace StreamMap

variable {loose : Prop} {m m' : StreamMap}

variable {frames : List Frame}

variable {q : PacketRoom}

theorem draws_sendStreamFrames (hs : m.purse.Sound)
    (h : m.sendStreamFrames q = .ok (m', frames)) :
    ∃ written, Writer.Draws m.purse ⟨m', written, frames⟩ := by
  have hstart : Writer.Draws m.purse ⟨m, q.before, []⟩ := ⟨.refl, nofun, nofun⟩
  have hstreams : ∀ {w w' : Writer}, Writer.Draws m.purse w →
      Writer.tryWriteStreamFrames q.left { w with written := w.written + q.between } = .ok w' →
      Writer.Draws m.purse w' := by
    intro w w' hw hwrite
    have hw₁ : Writer.Draws m.purse { w with written := w.written + q.between } :=
      ⟨hw.path, hw.resets, hw.discreet⟩
    exact hw₁.emissions hs (Writer.tryWriteStreamFrames_moves hwrite)
  unfold sendStreamFrames at h
  split_ifs at h
  · obtain ⟨⟨w₁, r⟩, hcontrol, h⟩ := bind_eq_ok.mp h
    have hw₁ : Writer.Draws m.purse w₁ := post_const.mp
      (Writer.keeps_tryWriteStreamControlFrames hs q.orders _ _ hstart hcontrol)
    cases r with
    | error =>
      cases h
      exact ⟨w₁.written, hw₁⟩
    | ok =>
      obtain ⟨w₂, hwrite, h⟩ := bind_eq_ok.mp h
      cases h
      exact ⟨w₂.written, hstreams hw₁ hwrite⟩
  · obtain ⟨w₂, hwrite, h⟩ := bind_eq_ok.mp h
    cases h
    exact ⟨w₂.written, hstreams hstart hwrite⟩

theorem path_ackFrames (h : frames.foldlM ackFrame m = .ok m') :
    Purse.Path loose m.purse m'.purse :=
  foldlM_keeps (Purse.Path loose m.purse ·.purse)
    (fun _ _ _ hpath hack => hpath.trans (path_ackFrame hack)) .refl h

def Known (m : StreamMap) (frames : List Frame) : Prop :=
  ∀ id code size, .resetStream id code size ∈ frames → m.purse.Announced id size

theorem Known.path (h : m.Known frames) (hs : m.purse.Sound)
    (hpath : Purse.Path loose m.purse m'.purse) : m'.Known frames :=
  fun id code size hmem => (h id code size hmem).path hs hpath

theorem hasAbandoned_loseFrame (m : StreamMap) (frame : Frame) (id : ℕ) :
    (m.loseFrame frame).hasAbandoned id = m.hasAbandoned id := by
  have hlost := lost_loseFrame m frame
  generalize m.loseFrame frame = m₁ at hlost
  unfold hasAbandoned
  cases hlost with
  | @stream id' off len fin s hget =>
    rw [get?_pushWhen]
    by_cases hid : id = id'
    · subst hid
      rw [get?_setStream_self, hget, Option.any_some, Option.any_some]
      exact (SendBuf.continues_retransmit s.send off len).isAbandoned_eq
    · rw [get?_setStream_of_ne _ hid]
  | maxData | maxStreamData => rfl
  | other hframe hm => rw [hm.get?]

theorem Spares.loseFrame {frame : Frame} (h : m.Spares frame) (lost : Frame) :
    (m.loseFrame lost).Spares frame := by
  cases frame with
  | stream =>
    intro hempty hfin
    rw [hasAbandoned_loseFrame]
    exact h hempty hfin
  | streamDataBlocked id => exact (hasAbandoned_loseFrame m lost id).trans h
  | _ => trivial

theorem path_loseFrames (hs : m.purse.Sound) (h : m.Known frames)
    (hspares : loose ∨ ∀ frame ∈ frames, m.Spares frame) :
    Purse.Path loose m.purse (frames.foldl loseFrame m).purse := by
  induction frames generalizing m with
  | nil => exact .refl
  | cons frame frames ih =>
    have hfirst : Purse.Path loose m.purse (m.loseFrame frame).purse := by
      apply path_loseFrame
      · rintro id code size rfl
        exact h id code size mem_cons_self
      · exact hspares.imp_right fun hspares => hspares frame mem_cons_self
    have hrest : (m.loseFrame frame).Known frames :=
      .path (fun id code size hmem => h id code size (.tail _ hmem)) hs hfirst
    refine hfirst.trans (ih (hs.path hfirst) hrest (hspares.imp_right fun hspares => ?_))
    intro frame' hmem
    exact (hspares frame' (.tail _ hmem)).loseFrame frame

/-! ## Runs -/

namespace World

variable {loose : Prop} {w w' : World} {op : Op} {o : Outcome} {m' : StreamMap}

def grants (w : World) : Op → ℕ
  | .receive (.maxData n) => if w.closing then 0 else n
  | .peerParams tp => tp.1.initialMaxData
  | _ => 0

structure Honest (w : World) : Prop where
  sound : w.map.purse.Sound
  sent : ∀ frames ∈ w.sent, w.map.Known frames
  lost : w.map.Known w.lost
  acked : w.map.Known w.acked
  dropped : w.map.Known w.dropped

/-- What a step does to the send side: it follows the purse's steps, or brings a new limit. -/
def Advances (loose : Prop) (w : World) (op : Op) (p' : Purse) : Prop :=
  w.grants op = 0 ∧ Purse.Path loose w.map.purse p' ∨ p' = w.map.purse.grant (w.grants op)

/-- Nothing about an abandoned stream is left behind or put back: it is shut down when in no queue
or table, not finished or asked for room afterwards, and no lost frame brings it back. -/
def Quiet (w : World) : Op → Prop
  | .shutdown id .write _ => w.map.dataBlocked.get? id = none ∧
      ∀ e ∈ w.map.sendable.entries, id ∉ e.2.nonIncremental ∧ id ∉ e.2.incremental
  | .receive (.stopSending id _) => w.map.dataBlocked.get? id = none
  | .write id data fin => data = [] → fin = true → w.map.hasAbandoned id = false
  | .writable id _ => w.map.hasAbandoned id = false
  | .handleLost => ∀ frame ∈ w.lost, w.map.Spares frame
  | _ => True

theorem Honest.move (h : w.Honest) (hpath : Purse.Path loose w.map.purse m'.purse) :
    ({ w with map := m' } : World).Honest where
  sound := h.sound.path hpath
  sent frames hmem := (h.sent frames hmem).path h.sound hpath
  lost := h.lost.path h.sound hpath
  acked := h.acked.path h.sound hpath
  dropped := h.dropped.path h.sound hpath

theorem Honest.grant (h : w.Honest) {n : ℕ} (heq : m'.purse = w.map.purse.grant n) :
    ({ w with map := m' } : World).Honest := by
  have hknown : ∀ {frames : List Frame}, w.map.Known frames → m'.Known frames := by
    intro frames hknown id code size hmem
    rw [heq]
    exact hknown id code size hmem
  refine ⟨?_, fun frames hmem => hknown (h.sent frames hmem), hknown h.lost, hknown h.acked,
    hknown h.dropped⟩
  change m'.purse.Sound
  rw [heq]
  exact ⟨h.sound.accounted, h.sound.announced⟩

theorem Honest.close (h : w.Honest) (closing : Bool) :
    ({ w with closing := closing } : World).Honest :=
  ⟨h.sound, h.sent, h.lost, h.acked, h.dropped⟩

/-- A packet keeps the world honest. -/
theorem Honest.sendPacket (h : w.Honest) (hstep : w.sendPacket q = .ok (w', o)) :
    w'.Honest ∧ Purse.Path loose w.map.purse w'.map.purse := by
  unfold World.sendPacket at hstep
  split_ifs at hstep
  · cases hstep
    exact ⟨h, .refl⟩
  obtain ⟨⟨m', frames⟩, hwrite, hstep⟩ := bind_eq_ok.mp hstep
  cases hstep
  obtain ⟨written, hdraws⟩ := draws_sendStreamFrames h.sound hwrite
  have hmove := h.move hdraws.path
  refine ⟨⟨hmove.sound, ?_, hmove.lost, hmove.acked, hmove.dropped⟩, hdraws.path.loosen⟩
  intro frames' hmem
  split_ifs at hmem
  · exact hmove.sent frames' hmem
  · rw [mem_append, mem_singleton] at hmem
    rcases hmem with hmem | rfl
    · exact hmove.sent frames' hmem
    · exact hdraws.resets

theorem Honest.ackPacket (h : w.Honest) {k : ℕ} (hstep : w.ackPacket k = .ok (w', o)) :
    w'.Honest ∧ Purse.Path loose w.map.purse w'.map.purse := by
  unfold World.ackPacket at hstep
  split_ifs at hstep
  · cases hstep
    exact ⟨h, .refl⟩
  cases hk : w.sent[k]? with
  | none =>
    rw [hk] at hstep
    cases hstep
    exact ⟨h, .refl⟩
  | some frames =>
    rw [hk] at hstep
    obtain ⟨m', hack, hstep⟩ := bind_eq_ok.mp hstep
    cases hstep
    have hpath : Purse.Path loose w.map.purse m'.purse := path_ackFrames hack
    have hmove := h.move hpath
    refine ⟨⟨hmove.sound, ?_, hmove.lost, ?_, hmove.dropped⟩, hpath⟩
    · exact fun frames' hmem => hmove.sent frames' (mem_of_mem_eraseIdx hmem)
    · intro id code size hmem
      rcases mem_append.mp hmem with hmem | hmem
      · exact hmove.acked id code size hmem
      · exact hmove.sent frames (mem_of_getElem? hk) id code size hmem

theorem Honest.losePacket (h : w.Honest) (k : ℕ) : (w.losePacket k).Honest := by
  unfold World.losePacket
  cases hk : w.sent[k]? with
  | none => exact h
  | some frames =>
    have hframes := h.sent frames (mem_of_getElem? hk)
    have happend : ∀ {l : List Frame}, w.map.Known l → w.map.Known (l ++ frames) := by
      intro l hl id code size hmem
      rcases mem_append.mp hmem with hmem | hmem
      · exact hl id code size hmem
      · exact hframes id code size hmem
    exact ⟨h.sound, fun frames' hmem => h.sent frames' (mem_of_mem_eraseIdx hmem),
      happend h.lost, h.acked, happend h.dropped⟩

theorem Honest.probePacket (h : w.Honest) (k : ℕ) : (w.probePacket k).Honest := by
  unfold World.probePacket
  cases hk : w.sent[k]? with
  | none => exact h
  | some frames =>
    refine ⟨h.sound, h.sent, ?_, h.acked, h.dropped⟩
    intro id code size hmem
    rcases mem_append.mp hmem with hmem | hmem
    · exact h.lost id code size hmem
    · exact h.sent frames (mem_of_getElem? hk) id code size hmem

theorem map_losePacket (w : World) (k : ℕ) : (w.losePacket k).map = w.map := by
  unfold losePacket
  split
  · rfl
  · rfl

theorem map_probePacket (w : World) (k : ℕ) : (w.probePacket k).map = w.map := by
  unfold probePacket
  split
  · rfl
  · rfl

theorem Honest.receive (h : w.Honest) {frame : PeerFrame}
    (hquiet : loose ∨ w.map.book.Kept ∧ w.Quiet (.receive frame))
    (hstep : w.receive frame = .ok (w', o)) :
    w'.Honest ∧ Advances loose w (.receive frame) w'.map.purse := by
  unfold World.receive at hstep
  split_ifs at hstep with hclosing
  · cases hstep
    refine ⟨h, .inl ⟨?_, .refl⟩⟩
    cases frame with
    | maxData => exact if_pos hclosing
    | _ => rfl
  obtain ⟨⟨m', res⟩, hframe, hstep⟩ := bind_eq_ok.mp hstep
  cases hstep
  by_cases hmax : ∃ n, frame = .maxData n
  · obtain ⟨n, rfl⟩ := hmax
    have heq : m'.purse = w.map.purse.grant n := by
      cases hframe
      exact purse_onMaxDataFrameReceived w.map n
    have hgrants : w.grants (.receive (.maxData n)) = n := if_neg hclosing
    refine ⟨(h.grant heq).close _, .inr ?_⟩
    rw [hgrants]
    exact heq
  · have hother : ∀ n, frame ≠ .maxData n := fun n heq => hmax ⟨n, heq⟩
    have hpath : Purse.Path loose w.map.purse m'.purse := by
      refine path_recvFrame (hquiet.imp_right And.left) hother ?_ hframe
      rintro id code rfl
      exact hquiet.imp_right And.right
    refine ⟨(h.move hpath).close _, .inl ⟨?_, hpath⟩⟩
    cases frame with
    | maxData n => exact absurd rfl (hother n)
    | _ => rfl

/-- Every operation keeps the world honest. -/
theorem Honest.step (h : w.Honest) (hquiet : loose ∨ w.map.book.Kept ∧ w.Quiet op)
    (hstep : w.step op = .ok (w', o)) : w'.Honest ∧ Advances loose w op w'.map.purse := by
  have hkept : loose ∨ w.map.book.Kept := hquiet.imp_right And.left
  have hmoved : ∀ {m' : StreamMap}, w.grants op = 0 → Purse.Path loose w.map.purse m'.purse →
      ({ w with map := m' } : World).Honest ∧ Advances loose w op m'.purse :=
    fun hnone hpath => ⟨h.move hpath, .inl ⟨hnone, hpath⟩⟩
  cases op with
  | streamNew bidi urgency incremental =>
    have hpath := path_streamNew hkept bidi urgency incremental
    change ok (w.streamNew bidi urgency incremental) = .ok (w', o) at hstep
    unfold streamNew at hstep
    split at hstep
    · next m' e heq =>
        rw [heq] at hpath
        cases hstep
        exact hmoved rfl hpath
    · next m' id heq =>
        rw [heq] at hpath
        cases hstep
        obtain ⟨hhonest, hadvances⟩ := hmoved rfl hpath
        exact ⟨⟨hhonest.sound, hhonest.sent, hhonest.lost, hhonest.acked, hhonest.dropped⟩,
          hadvances⟩
  | setPriority id urgency incremental =>
    cases hstep
    exact hmoved rfl (path_streamSetPriority hkept id urgency incremental)
  | setContext id =>
    cases hstep
    exact hmoved rfl (path_streamSetContext hkept id)
  | read =>
    obtain ⟨⟨m', r⟩, hread, hstep⟩ := bind_eq_ok.mp hstep
    cases hstep
    exact hmoved rfl (path_streamRead hread)
  | write =>
    obtain ⟨⟨m', r⟩, hwrite, hstep⟩ := bind_eq_ok.mp hstep
    cases hstep
    refine hmoved rfl (path_streamWrite hkept (fun hnil hfin => ?_) hwrite)
    refine hquiet.imp_right fun hquiet s hget => ?_
    exact (hasAbandoned_of_get? hget).symm.trans (hquiet.2 hnil hfin)
  | shutdown id direction err =>
    cases hstep
    refine hmoved rfl (path_streamShutdown w.map id direction err ?_)
    rintro rfl
    refine hquiet.imp_right fun hquiet => ⟨hquiet.2.1, ?_⟩
    rintro ⟨e, he, hmem⟩
    exact hmem.elim (hquiet.2.2 e he).1 (hquiet.2.2 e he).2
  | writable =>
    obtain ⟨⟨m', r⟩, hwritable, hstep⟩ := bind_eq_ok.mp hstep
    cases hstep
    refine hmoved rfl (path_streamWritable (fun s hget => ?_) hwritable)
    exact hquiet.imp_right fun hquiet => (hasAbandoned_of_get? hget).symm.trans hquiet.2
  | wantRead id want =>
    cases hstep
    exact hmoved rfl (path_wantRead w.map id want)
  | wantWrite id want =>
    cases hstep
    exact hmoved rfl (path_wantWrite w.map id want)
  | close =>
    cases hstep
    exact ⟨h.close true, .inl ⟨rfl, .refl⟩⟩
  | pollEvent =>
    cases hstep
    exact hmoved rfl (path_pollEvent w.map)
  | receive => exact h.receive hquiet hstep
  | peerParams tp =>
    cases hstep
    have heq := purse_updatePeerStreamTransportParams w.map tp.1
    exact ⟨h.grant heq, .inr heq⟩
  | sendPacket =>
    obtain ⟨hhonest, hpath⟩ := h.sendPacket hstep
    exact ⟨hhonest, .inl ⟨rfl, hpath⟩⟩
  | ackPacket =>
    obtain ⟨hhonest, hpath⟩ := h.ackPacket hstep
    exact ⟨hhonest, .inl ⟨rfl, hpath⟩⟩
  | losePacket k =>
    cases hstep
    refine ⟨h.losePacket k, .inl ⟨rfl, ?_⟩⟩
    rw [map_losePacket]
  | probePacket k =>
    cases hstep
    refine ⟨h.probePacket k, .inl ⟨rfl, ?_⟩⟩
    rw [map_probePacket]
  | handleLost =>
    cases hstep
    have hpath := path_loseFrames h.sound h.lost (hquiet.imp_right And.right)
    obtain ⟨hhonest, hadvances⟩ := hmoved rfl hpath
    exact ⟨⟨hhonest.sound, hhonest.sent, nofun, hhonest.acked, hhonest.dropped⟩, hadvances⟩

theorem honest_start (conf : ReceiveConfig) (isServer endpoint : Bool) :
    (start conf isServer endpoint).Honest := by
  refine ⟨⟨?_, nofun⟩, nofun, nofun, nofun, nofun⟩
  rintro id b (hget | hmem)
  · cases hget
  · cases hmem

end World

end StreamMap

end Tquic
