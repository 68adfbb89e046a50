import Tquic.Connection.Accounts

/-!
# What the connection is charged for

The received offset of the connection is the sum over all streams ever created, but for two frames:
an empty one beyond the data received that does not end the stream, and a reset that the
connection's limit refuses.
-/

namespace Tquic

open Exec RecvBuf

namespace Ledger

/-- Every frame raises the offset of its stream to its end, and no reset exceeds the
limit of the connection. -/
def evenRule : FrameRule where
  stream b off data fin := ¬(data = [] ∧ fin = false ∧ b.recvOff < off)
  overdraw := False

variable {l l' : Ledger}

/-- The account of the connection agrees with those of the streams. -/
structure Tallied (l : Ledger) : Prop where
  regular : l.Regular
  recvOff_eq : l.conn.recvOff = l.sum RecvBuf.recvOff

theorem Tallied.step (h : l.Tallied) (hstep : Step evenRule l l') : l'.Tallied := by
  refine ⟨h.regular.step hstep, ?_⟩
  have hold := h.recvOff_eq
  cases hstep with
  | created id maxRx hget =>
    rw [sum_setRecv_new _ hget]
    exact hold
  | @received id off data fin b b' hget hrule hopen hleft hwrite =>
    have hwritten := (h.regular.sane id b hget).write hwrite
    have hrecv := hwritten.reach hrule
    have hsum := sum_setRecv recvOff hget b'
    have hcharge : l.conn.recvOff + (off + data.length - b.recvOff) =
        (l.setRecv id b').sum recvOff := by
      omega
    split_ifs <;> exact hcharge
  | @wasReset id code size delta b b' hget hrule hopen hleft hreset =>
    have hsum := sum_setRecv recvOff hget b'
    change l.conn.recvOff + delta = (l.setRecv id b').sum recvOff
    obtain ⟨rfl, hle, ⟨herror, rfl, hfinal⟩ | ⟨-, hdone⟩⟩ :=
      (h.regular.sane id b hget).reset hreset
    · -- the stream was reset before, and its final size is the same
      have hsize := hfinal _ (h.regular.settled hopen id _ hget herror).1
      omega
    · have hrecv := hdone.recvOff
      omega
  | @refused id code size b b' res hget hopen hreset hrefused =>
    obtain ⟨e, rfl⟩ | hoverdraw := hrefused
    · have hsame : b'.recvOff = b.recvOff := by
        rcases reset_refused hreset with rfl | rfl <;> rfl
      exact hold.trans (sum_setRecv_same _ hget hsame).symm
    · exact hoverdraw.elim
  | @read id cap b b' out fin hget hread =>
    have hsame := ((h.regular.sane id b hget).read hread).recvOff
    exact hold.trans (sum_setRecv_same _ hget hsame).symm
  | @readFailed id cap b b' e hget hread =>
    have hsame : b'.recvOff = b.recvOff := by
      rw [((h.regular.sane id b hget).failedRead hread).2]
    exact hold.trans (sum_setRecv_same _ hget hsame).symm
  | @shutdown id unread b b' hget hshutdown =>
    obtain ⟨-, -, rfl⟩ := shutdownRecv_ok hshutdown
    exact hold.trans (sum_setRecv_same recvOff hget (by rfl)).symm
  | @tuned id b now srtt hget =>
    exact hold.trans (sum_setRecv_same recvOff hget (by rfl)).symm
  | @advertised id b now hget =>
    exact hold.trans (sum_setRecv_same recvOff hget (by rfl)).symm
  | connTuned =>
    rw [FlowControl.autotuneWindow_eq]
    exact hold
  | connAdvertised => exact hold
  | @removed id b hget =>
    rw [sum_remove _ hget]
    exact hold
  | closed => exact hold

end Ledger

namespace StreamMap

variable {m m' : StreamMap}

def receivedSum (m : StreamMap) : ℕ :=
  m.streams.total (·.recv.recvOff) + (m.destroyed.map fun e => e.2.recv.recvOff).sum

theorem sum_ledger (c : Bool) (f : RecvBuf → ℕ) (m : StreamMap) :
    (m.ledger c).sum f = m.streams.total (fun s => f s.recv) +
      (m.destroyed.map fun e => f e.2.recv).sum := by
  simp only [Ledger.sum, ledger, SortedMap.total, SortedMap.mapValues, List.map_map,
    Function.comp_def]

def reach : PeerFrame → Option (ℕ × ℕ)
  | .stream id off data _ => some (id, off + data.length)
  | .resetStream id _ size => some (id, size)
  | _ => none

/-- The frame is not an empty one that lies beyond the data received and does not end
the stream. -/
def Substantial (m : StreamMap) : PeerFrame → Prop
  | .stream id off data fin =>
    ¬(data = [] ∧ fin = false ∧ (m.streamOf id false).recv.recvOff < off)
  | _ => True

def Affordable (m : StreamMap) : PeerFrame → Prop
  | .resetStream id _ size => size - (m.streamOf id false).recv.recvOff ≤ m.maxRxDataLeft
  | _ => True

def WithinStream (m : StreamMap) (frame : PeerFrame) : Prop :=
  ∀ id top, reach frame = some (id, top) → top ≤ (m.streamOf id false).recv.maxData

def increase (m : StreamMap) : PeerFrame → ℕ
  | .stream id off data fin =>
    if data = [] ∧ fin = false then 0
    else off + data.length - (m.streamOf id false).recv.recvOff
  | .resetStream id _ size => size - (m.streamOf id false).recv.recvOff
  | _ => 0

/-- A frame is refused for want of credit when it exceeds the limit of the connection
or that of its stream. -/
def Exceeds (m : StreamMap) (id top : ℕ) : Prop :=
  m.maxRxDataLeft < top - (m.streamOf id false).recv.recvOff ∨
    (m.streamOf id false).recv.maxData < top

theorem unlessClosed_ne {m : StreamMap} {e : Error} (he : e ≠ .flowControlError) :
    (m.unlessClosed e).2 ≠ .error .flowControlError := by
  unfold unlessClosed
  split_ifs with hdone
  · exact nofun
  · exact fun heq => he (Except.error.inj heq)

theorem exceeds_of_stream {id off : ℕ} {data : List UInt8} {fin : Bool}
    (h : m.onStreamFrameReceived id off data fin = .ok (m', .error .flowControlError)) :
    m.Exceeds id (off + data.length) := by
  have hlook := getOrCreate_cases m id false
  unfold onStreamFrameReceived at h
  split_ifs at h
  · cases h
  generalize hout : m.getOrCreate id false = out at hlook h
  obtain ⟨m₁, r⟩ := out
  cases r with
  | error e =>
    cases hlook with
    | failed e t herror =>
      exact absurd (congrArg Prod.snd (ok.inj h)) (unlessClosed_ne herror)
  | ok s =>
    have hs : s = m.streamOf id false := hlook.stream_eq rfl
    subst hs
    unfold receiveData at h
    dsimp only at h
    split_ifs at h with hlt
    · exact .inl hlt
    · obtain ⟨⟨recv, res⟩, hwrite, h⟩ := bind_eq_ok.mp h
      cases res with
      | ok => cases h
      | error =>
        cases h
        obtain ⟨-, ⟨-, hmax⟩ | hother⟩ := write_error hwrite
        · exact .inr hmax
        · cases hother

theorem exceeds_of_reset {id code size : ℕ}
    (h : m.onResetStreamFrameReceived id code size = .ok (m', .error .flowControlError)) :
    m.Exceeds id size := by
  have hlook := getOrCreate_cases m id false
  unfold onResetStreamFrameReceived at h
  split_ifs at h
  · cases h
  generalize hout : m.getOrCreate id false = out at hlook h
  obtain ⟨m₁, r⟩ := out
  cases r with
  | error e =>
    cases hlook with
    | failed e t herror =>
      exact absurd (congrArg Prod.snd (ok.inj h)) (unlessClosed_ne herror)
  | ok s =>
    have hs : s = m.streamOf id false := hlook.stream_eq rfl
    subst hs
    obtain ⟨⟨recv, res⟩, hreset, h⟩ := bind_eq_ok.mp h
    cases res with
    | error =>
      cases h
      obtain ⟨-, hmax⟩ | hother := reset_error hreset
      · exact .inr hmax
      · cases hother
    | ok =>
      dsimp only at h
      split_ifs at h with hlt
      · rw [reset_delta hreset] at hlt
        exact .inl hlt
      · cases h

theorem exceeds_of_recvFrame {frame : PeerFrame}
    (h : m.recvFrame frame = .ok (m', .error .flowControlError)) :
    ∃ id top, reach frame = some (id, top) ∧ m.Exceeds id top := by
  cases frame with
  | stream => exact ⟨_, _, rfl, exceeds_of_stream h⟩
  | resetStream => exact ⟨_, _, rfl, exceeds_of_reset h⟩
  | stopSending id =>
    have hlook := getOrCreate_cases m id false
    have hout := congrArg Prod.snd (ok.inj h)
    unfold onStopSendingFrameReceived at hout
    split_ifs at hout
    · cases hout
    generalize m.getOrCreate id false = out at hlook hout
    cases hlook with
    | failed e t herror => exact absurd hout (unlessClosed_ne herror)
    | found | created => cases hout
  | maxData => cases h
  | maxStreamData id =>
    have hlook := getOrCreate_cases m id false
    have hout := congrArg Prod.snd (ok.inj h)
    unfold onMaxStreamDataFrameReceived at hout
    split_ifs at hout
    · cases hout
    generalize m.getOrCreate id false = out at hlook hout
    cases hlook with
    | failed e t herror => exact absurd hout (unlessClosed_ne herror)
    | found | created => cases hout
  | maxStreams =>
    have hout := congrArg Prod.snd (ok.inj h)
    unfold onMaxStreamsFrameReceived at hout
    split_ifs at hout
    cases hout
  | dataBlocked => cases h
  | streamDataBlocked =>
    have hout := congrArg Prod.snd (ok.inj h)
    unfold onStreamDataBlockedFrameReceived at hout
    split_ifs at hout
    cases hout
  | streamsBlocked =>
    have hout := congrArg Prod.snd (ok.inj h)
    unfold onStreamsBlockedFrameReceived at hout
    split_ifs at hout
    cases hout

instance (m : StreamMap) (frame : PeerFrame) : Decidable (m.Substantial frame) := by
  unfold Substantial
  split <;> infer_instance

instance (m : StreamMap) (frame : PeerFrame) : Decidable (m.Affordable frame) := by
  unfold Affordable
  split <;> infer_instance

namespace World

variable {w w' : World}

def ChargedEvenly : World → Op → Prop :=
  OnFrames fun m frame => m.Substantial frame ∧ m.Affordable frame

instance (w : World) (op : Op) : Decidable (w.ChargedEvenly op) :=
  inferInstanceAs (Decidable (OnFrames _ w op))

theorem keeps_evenRule {op : Op} (h : w.ChargedEvenly op) :
    w.Keeps (FrameRule.promise Ledger.evenRule) op := by
  apply keeps_promise
  rintro frame rfl hopen
  obtain ⟨hsub, hafford⟩ := h hopen
  cases frame with
  | stream => exact hsub
  | resetStream => exact ⟨trivial, .inr hafford⟩
  | _ => trivial

theorem tallied_start (conf : ReceiveConfig) (isServer endpoint : Bool) :
    (start conf isServer endpoint).ledger.Tallied :=
  ⟨regular_start conf isServer endpoint, rfl⟩

/-- If frames are charged for what they add, the received offset of the connection is the sum over
its streams, and a frame within its stream's limit is refused only beyond the connection's. -/
theorem recvOff_eq_receivedSum {conf : ReceiveConfig} {isServer endpoint : Bool} {w : World}
    (h : Exec.Reaches step ChargedEvenly (start conf isServer endpoint) w) :
    w.map.flowControl.recvOff = w.map.receivedSum ∧
      ∀ frame w', w.map.Substantial frame → w.map.WithinStream frame →
        w.step (.receive frame) = .ok (w', .noted (.error .flowControlError)) →
        w.map.flowControl.maxData < w.map.receivedSum + w.map.increase frame := by
  have htallied : w.ledger.Tallied :=
    invariant_of_ledger (fun l l' hl hstep => .step hl hstep)
      (tallied_start conf isServer endpoint) (h.mono fun _ _ hop => keeps_evenRule hop)
  have hsum : w.map.flowControl.recvOff = w.map.receivedSum := by
    have hrecv := htallied.recvOff_eq
    rw [ledger, sum_ledger] at hrecv
    exact hrecv
  refine ⟨hsum, ?_⟩
  intro frame w' hsub hwithin hstep
  change w.receive frame = _ at hstep
  unfold receive at hstep
  split_ifs at hstep
  · cases hstep
  obtain ⟨⟨m', res⟩, hframe, hstep⟩ := bind_eq_ok.mp hstep
  cases hstep
  obtain ⟨id, top, hreach, hexceeds⟩ := exceeds_of_recvFrame hframe
  have hleft : w.map.maxRxDataLeft < top - (w.map.streamOf id false).recv.recvOff := by
    rcases hexceeds with hleft | hmax
    · exact hleft
    · exact absurd (hwithin id top hreach) (not_le.mpr hmax)
  have hincrease : top - (w.map.streamOf id false).recv.recvOff = w.map.increase frame := by
    cases frame with
    | stream id' off =>
      cases hreach
      simp only [increase]
      split_ifs with hempty
      · have hoff : ¬ (w.map.streamOf id' false).recv.recvOff < off := fun hlt =>
          hsub ⟨hempty.1, hempty.2, hlt⟩
        rw [hempty.1, List.length_nil]
        omega
      · rfl
    | resetStream =>
      cases hreach
      rfl
    | _ => cases hreach
  unfold maxRxDataLeft at hleft
  by_cases hle : w.map.flowControl.recvOff ≤ w.map.flowControl.maxData
  · rw [wrappingSub_of_le hle] at hleft
    omega
  · omega

def narrowConfig : ReceiveConfig := ReceiveConfig.new.setInitialMaxData 8

/-- A server that has received five bytes, of which two arrived twice. -/
def serverWithFive : World :=
  Exec.follow step ChargedEvenly (start narrowConfig true true)
    [.receive (.stream 0 0 [1, 2] false), .receive (.stream 0 0 [1, 2, 3] false),
      .receive (.stream 4 0 [1, 2] true)]

/-- Four more bytes are refused. -/
theorem recvOff_eq_receivedSum_five :
    serverWithFive.map.receivedSum = 5 ∧
      Exec.output? (serverWithFive.step (.receive (.stream 0 3 [1, 2, 3, 4] false))) =
        some (.noted (.error .flowControlError)) ∧
      8 < serverWithFive.map.receivedSum + 4 := by
  have hreach : Exec.Reaches step ChargedEvenly (start narrowConfig true true) serverWithFive :=
    reaches_follow _ _
  have hout : output? (serverWithFive.step (.receive (.stream 0 3 [1, 2, 3, 4] false))) =
      some (.noted (.error .flowControlError)) := by decide +kernel
  obtain ⟨hsum, hrefused⟩ := recvOff_eq_receivedSum hreach
  obtain ⟨w', hstep⟩ := exists_of_output? hout
  have hwithin : serverWithFive.map.WithinStream (.stream 0 3 [1, 2, 3, 4] false) := by
    intro id top htop
    cases htop
    decide +kernel
  have hlt := hrefused _ w' (by decide +kernel) hwithin hstep
  have hmax : serverWithFive.map.flowControl.maxData = 8 := by decide +kernel
  have hincrease : serverWithFive.map.increase (.stream 0 3 [1, 2, 3, 4] false) = 4 := by
    decide +kernel
  have hrecv : serverWithFive.map.flowControl.recvOff = 5 := by decide +kernel
  exact ⟨hsum.symm.trans hrecv, hout, hlt⟩

def serverWithGap : World :=
  Exec.follow step (fun _ _ => True) (start narrowConfig true true)
    [.receive (.stream 0 5 [] false)]

/-- The connection is charged for five bytes that no stream has received, and the same
frame is refused the next time although nothing was received yet. -/
theorem empty_frame_charged_twice :
    ∃ w : World, Exec.Reaches step (fun _ _ ↦ True) (start narrowConfig true true) w ∧
      w.map.receivedSum = 0 ∧ w.map.flowControl.recvOff = 5 ∧
      w.map.flowControl.maxData = 8 ∧
      w.map.WithinStream (.stream 0 5 [] false) ∧
      Exec.output? (w.step (.receive (.stream 0 5 [] false))) =
        some (.noted (.error .flowControlError)) := by
  refine ⟨serverWithGap, reaches_follow _ _, by decide +kernel, by decide +kernel,
    by decide +kernel, ?_, by decide +kernel⟩
  intro id top htop
  cases htop
  decide +kernel

end World

end StreamMap

end Tquic
