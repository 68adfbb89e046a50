import Tquic.Connection.Charging
import Tquic.Connection.Identifiers

/-!
# Limits and windows

A limit follows from the window, which is capped when it is tuned, but not when the connection
starts or the windows of the streams raise it. Where these agree, no limit decreases, no window
shrinks and nothing is received beyond a limit.
-/

namespace Tquic

open RecvBuf

namespace FlowControl

variable {f : FlowControl}

structure Healthy (f : FlowControl) : Prop where
  window_le : f.window ≤ f.maxWindow
  maxData_le : f.maxData ≤ f.readOff + f.window

structure Grows (f f' : FlowControl) : Prop where
  maxData : f.maxData ≤ f'.maxData
  window : f.window ≤ f'.window

theorem Grows.refl (f : FlowControl) : f.Grows f := ⟨le_rfl, le_rfl⟩

theorem Grows.trans {f f' f'' : FlowControl} (h : f.Grows f') (h' : f'.Grows f'') : f.Grows f'' :=
  ⟨h.maxData.trans h'.maxData, h.window.trans h'.window⟩

theorem Healthy.new {window maxWindow : ℕ} (h : window ≤ maxWindow) :
    (FlowControl.new window maxWindow).Healthy :=
  ⟨h, Nat.le_add_left _ _⟩

section

variable (h : f.Healthy)

include h

theorem Healthy.increaseReadOff (delta : ℕ) : (f.increaseReadOff delta).Healthy := by
  refine ⟨h.window_le, h.maxData_le.trans ?_⟩
  exact Nat.add_le_add_right (Nat.le_add_right _ _) _

theorem Healthy.increaseRecvOff (delta : ℕ) : (f.increaseRecvOff delta).Healthy :=
  ⟨h.window_le, h.maxData_le⟩

theorem Healthy.updateMaxData (now : ℕ) :
    (f.updateMaxData now).Healthy ∧ f.Grows (f.updateMaxData now) :=
  ⟨⟨h.window_le, le_rfl⟩, h.maxData_le, le_rfl⟩

theorem Healthy.widen {window : ℕ} (hle : f.window ≤ window)
    (hmax : window ≤ f.maxWindow) :
    ({ f with window } : FlowControl).Healthy ∧ f.Grows { f with window } := by
  refine ⟨⟨hmax, h.maxData_le.trans ?_⟩, le_rfl, hle⟩
  exact Nat.add_le_add_left hle _

theorem Healthy.autotuneWindow (now srtt : ℕ) :
    (f.autotuneWindow now srtt).Healthy ∧ f.Grows (f.autotuneWindow now srtt) := by
  rw [autotuneWindow_eq]
  have hwindow := h.window_le
  apply h.widen
  · simp only [FlowControl.autotuneWindow]
    split
    · exact le_rfl
    · split_ifs
      · exact le_min (by omega) hwindow
      · exact le_rfl
  · simp only [FlowControl.autotuneWindow]
    split
    · exact hwindow
    · split_ifs
      · exact min_le_right _ _
      · exact hwindow

theorem Healthy.ensureWindowLowerBound {minWindow : ℕ}
    (hmin : minWindow ≤ f.maxWindow) :
    (f.ensureWindowLowerBound minWindow).Healthy ∧ f.Grows (f.ensureWindowLowerBound minWindow) :=
  h.widen (le_max_left _ _) (max_le h.window_le hmin)

end

end FlowControl

namespace Ledger

variable {r : FrameRule} {l l' : Ledger} {id : ℕ} {b b' : RecvBuf}

structure Roomy (cap : ℕ) (b : RecvBuf) : Prop where
  healthy : b.flowControl.Healthy
  maxWindow_eq : b.flowControl.maxWindow = cap
  recv_le : b.recvOff ≤ b.maxData

structure Sized (l : Ledger) : Prop where
  sane : l.All RecvBuf.Sane
  healthy : l.conn.Healthy
  recv_le : l.conn.recvOff ≤ l.conn.maxData
  streams : l.All (Roomy l.maxStreamWindow)
  initial_le : ∀ n ∈ l.initial, n ≤ l.maxStreamWindow
  cross_le : timesThreeHalves l.maxStreamWindow ≤ l.conn.maxWindow

variable {cap : ℕ}

theorem Roomy.of_same (h : Roomy cap b) (hflow : b'.flowControl = b.flowControl)
    (hrecv : b'.recvOff ≤ b.maxData) : Roomy cap b' := by
  have hmax : b'.maxData = b.maxData := congrArg FlowControl.maxData hflow
  exact ⟨hflow ▸ h.healthy, hflow ▸ h.maxWindow_eq, hmax ▸ hrecv⟩

theorem Roomy.received {off : ℕ} {data : List UInt8} {fin : Bool} (h : Roomy cap b) (hsane : b.Sane)
    (hwrite : b.write off data fin = .ok (b', .ok ())) : Roomy cap b' := by
  have hwritten := hsane.write hwrite
  apply h.of_same hwritten.flowControl
  exact hwritten.high.trans (max_le h.recv_le (write_cases hwrite).1)

theorem Roomy.refused {code size : ℕ} {res : Result ℕ} (h : Roomy cap b) (hsane : b.Sane)
    (hreset : b.reset code size = .ok (b', res)) : Roomy cap b' := by
  obtain ⟨-, -, -, -, hflow, ⟨hrecv, -⟩ | ⟨-, hle⟩⟩ := hsane.refused hreset
  · exact h.of_same hflow (hrecv.le.trans h.recv_le)
  · exact h.of_same hflow hle

theorem Roomy.read {n : ℕ} {out : List UInt8} {fin : Bool} (h : Roomy cap b) (hsane : b.Sane)
    (hread : b.read n = .ok (b', .ok (out, fin))) : Roomy cap b' := by
  have hdone := hsane.read hread
  have hmax : b'.maxData = b.maxData := by
    rw [maxData, hdone.flowControl]
    rfl
  refine ⟨?_, ?_, ?_⟩
  · exact hdone.flowControl ▸ h.healthy.increaseReadOff out.length
  · exact hdone.flowControl ▸ h.maxWindow_eq
  · rw [hdone.recvOff, hmax]
    exact h.recv_le

theorem Roomy.tuned (h : Roomy cap b) (now srtt : ℕ) : Roomy cap (b.autotuneWindow now srtt) := by
  refine ⟨(h.healthy.autotuneWindow now srtt).1, ?_, ?_⟩
  · simp only [autotuneWindow]
    rw [FlowControl.autotuneWindow_eq]
    exact h.maxWindow_eq
  · simp only [autotuneWindow, maxData]
    rw [FlowControl.autotuneWindow_eq]
    exact h.recv_le

theorem Roomy.advertised (h : Roomy cap b) (now : ℕ) : Roomy cap (b.updateMaxData now) :=
  ⟨(h.healthy.updateMaxData now).1, h.maxWindow_eq,
    h.recv_le.trans (h.healthy.updateMaxData now).2.maxData⟩

/-! ## Limits along a path -/

structure Grown (l l' : Ledger) : Prop where
  conn : l.conn.Grows l'.conn
  gone : ∀ e ∈ l.destroyed, e ∈ l'.destroyed
  stream : ∀ id b, l.streams.get? id = some b →
    (∃ b', l'.streams.get? id = some b' ∧ b.flowControl.Grows b'.flowControl) ∨
      ∃ e ∈ l'.destroyed, e.1 = id

theorem Grown.refl (l : Ledger) : l.Grown l where
  conn := .refl _
  gone := fun _ he => he
  stream := fun _ b hget => .inl ⟨b, hget, .refl _⟩

theorem Grown.trans {l l' l'' : Ledger} (h : l.Grown l') (h' : l'.Grown l'') : l.Grown l'' where
  conn := h.conn.trans h'.conn
  gone := fun e he => h'.gone e (h.gone e he)
  stream := by
    intro id b hget
    rcases h.stream id b hget with ⟨b', hget', hgrows⟩ | ⟨e, he, hid⟩
    · rcases h'.stream id b' hget' with ⟨b'', hget'', hgrows'⟩ | hgone
      · exact .inl ⟨b'', hget'', hgrows.trans hgrows'⟩
      · exact .inr hgone
    · exact .inr ⟨e, h'.gone e he, hid⟩

theorem Grown.setRecv (hget : l.streams.get? id = some b)
    (hgrows : b.flowControl.Grows b'.flowControl) (hconn : l.conn.Grows l'.conn)
    (hset : l' = { l.setRecv id b' with conn := l'.conn, closing := l'.closing }) :
    l.Grown l' where
  conn := hconn
  gone := by
    rw [hset]
    exact fun _ he => he
  stream := by
    rw [hset]
    intro id' b₁ hget'
    by_cases hid : id' = id
    · subst hid
      cases hget.symm.trans hget'
      exact .inl ⟨b', SortedMap.get?_insert_self _ _ _, hgrows⟩
    · exact .inl ⟨b₁, (SortedMap.get?_insert_of_ne _ hid _).trans hget', .refl _⟩

theorem Grown.setConn {conn : FlowControl} (hconn : l.conn.Grows conn) (closing : Bool) :
    l.Grown { l with conn := conn, closing := closing } where
  conn := hconn
  gone := fun _ he => he
  stream := fun _ b hget => .inl ⟨b, hget, .refl _⟩

/-- No step of the ledger lowers a limit. -/
theorem Grown.step (h : l.Sized) (hstep : Step r l l') : l.Grown l' := by
  have hread : ∀ delta, l.conn.Grows (l.conn.increaseReadOff delta) := fun _ => ⟨le_rfl, le_rfl⟩
  cases hstep with
  | created id maxRx hget =>
    refine ⟨.refl _, fun _ he => he, ?_⟩
    intro id' b hget'
    have hid : id' ≠ id := by
      rintro rfl
      rw [hget] at hget'
      cases hget'
    exact .inl ⟨b, (SortedMap.get?_insert_of_ne _ hid _).trans hget', .refl _⟩
  | @received id off data fin b b' hget hrule hopen hleft hwrite =>
    have hflow := ((h.sane id b hget).write hwrite).flowControl
    have hgrows : b.flowControl.Grows b'.flowControl := hflow ▸ .refl _
    split_ifs
    · exact setRecv hget hgrows ⟨le_rfl, le_rfl⟩ rfl
    · exact setRecv hget hgrows ⟨le_rfl, le_rfl⟩ rfl
  | @wasReset id code size delta b b' hget hrule hopen hleft hreset =>
    obtain ⟨-, -, -, -, hflow, -⟩ := (h.sane id b hget).refused hreset
    have hgrows : b.flowControl.Grows b'.flowControl := hflow ▸ .refl _
    exact setRecv hget hgrows ⟨le_rfl, le_rfl⟩ rfl
  | @refused id code size b b' res hget hopen hreset =>
    obtain ⟨-, -, -, -, hflow, -⟩ := (h.sane id b hget).refused hreset
    have hgrows : b.flowControl.Grows b'.flowControl := hflow ▸ .refl _
    exact setRecv hget hgrows (.refl _) rfl
  | @read id cap b b' out fin hget hread' =>
    have hflow := ((h.sane id b hget).read hread').flowControl
    have hgrows : b.flowControl.Grows b'.flowControl := hflow ▸ ⟨le_rfl, le_rfl⟩
    exact setRecv hget hgrows (hread _) rfl
  | @readFailed id cap b b' e hget hread' =>
    have hgrows : b.flowControl.Grows b'.flowControl := by
      rw [((h.sane id b hget).failedRead hread').2]
      exact .refl _
    exact setRecv hget hgrows (.refl _) rfl
  | @shutdown id unread b b' hget hshutdown =>
    have hgrows : b.flowControl.Grows b'.flowControl := by
      obtain ⟨-, -, rfl⟩ := shutdownRecv_ok hshutdown
      exact .refl _
    exact setRecv hget hgrows (hread _) rfl
  | @tuned id b now srtt hget =>
    have hb := h.streams id b hget
    have hgrows : b.flowControl.Grows (b.autotuneWindow now srtt).flowControl :=
      (hb.healthy.autotuneWindow now srtt).2
    exact setRecv hget hgrows (.refl _) rfl
  | @advertised id b now hget =>
    have hb := h.streams id b hget
    have hgrows : b.flowControl.Grows (b.updateMaxData now).flowControl :=
      (hb.healthy.updateMaxData now).2
    exact setRecv hget hgrows ⟨le_rfl, le_max_left _ _⟩ rfl
  | connTuned now srtt => exact .setConn (h.healthy.autotuneWindow now srtt).2 l.closing
  | connAdvertised now => exact .setConn (h.healthy.updateMaxData now).2 l.closing
  | @removed id b =>
    refine ⟨.refl _, fun _ he => .tail _ he, ?_⟩
    intro id' b₁ hget'
    by_cases hid : id' = id
    · exact .inr ⟨(id, b), .head _, hid.symm⟩
    · exact .inl ⟨b₁, (SortedMap.get?_erase_of_ne _ hid).trans hget', .refl _⟩
  | closed => exact .setConn (.refl _) true

theorem Sized.left_eq (h : l.Sized) : l.left = l.conn.maxData - l.conn.recvOff :=
  wrappingSub_of_le h.recv_le

/-- Every step keeps the windows within their sizes. -/
theorem Sized.step (h : l.Sized) (hstep : Step r l l') : l'.Sized := by
  have hsane := all_sane_step h.sane hstep
  cases hstep with
  | created id maxRx hget hmax =>
    have hnew : Roomy l.maxStreamWindow (.new maxRx l.maxStreamWindow) :=
      ⟨.new (h.initial_le maxRx hmax), rfl, Nat.zero_le _⟩
    exact ⟨hsane, h.healthy, h.recv_le, h.streams.setRecv hnew id, h.initial_le, h.cross_le⟩
  | @received id off data fin b b' hget hrule hopen hleft hwrite =>
    have hset := h.streams.setRecv ((h.streams id b hget).received (h.sane id b hget) hwrite) id
    have hle : l.conn.recvOff + (off + data.length - b.recvOff) ≤ l.conn.maxData := by
      have := h.recv_le
      rw [h.left_eq] at hleft
      omega
    split_ifs at hsane ⊢
    · exact ⟨hsane, (h.healthy.increaseRecvOff _).increaseReadOff _, hle, hset, h.initial_le,
        h.cross_le⟩
    · exact ⟨hsane, h.healthy.increaseRecvOff _, hle, hset, h.initial_le, h.cross_le⟩
  | @wasReset id code size delta b b' hget hrule hopen hleft hreset =>
    have hset := h.streams.setRecv ((h.streams id b hget).refused (h.sane id b hget) hreset) id
    have hle : l.conn.recvOff + delta ≤ l.conn.maxData := by
      have := h.recv_le
      rw [h.left_eq] at hleft
      omega
    exact ⟨hsane, (h.healthy.increaseRecvOff _).increaseReadOff _, hle, hset, h.initial_le,
      h.cross_le⟩
  | @refused id code size b b' res hget hopen hreset =>
    have hset := h.streams.setRecv ((h.streams id b hget).refused (h.sane id b hget) hreset) id
    exact ⟨hsane, h.healthy, h.recv_le, hset, h.initial_le, h.cross_le⟩
  | @read id cap b b' out fin hget hread =>
    have hset := h.streams.setRecv ((h.streams id b hget).read (h.sane id b hget) hread) id
    exact ⟨hsane, h.healthy.increaseReadOff _, h.recv_le, hset, h.initial_le, h.cross_le⟩
  | @readFailed id cap b b' e hget hread =>
    have hb : Roomy l.maxStreamWindow b' := by
      rw [((h.sane id b hget).failedRead hread).2]
      exact (h.streams id b hget).of_same rfl (h.streams id b hget).recv_le
    exact ⟨hsane, h.healthy, h.recv_le, h.streams.setRecv hb id, h.initial_le, h.cross_le⟩
  | @shutdown id unread b b' hget hshutdown =>
    have hb : Roomy l.maxStreamWindow b' := by
      obtain ⟨-, -, rfl⟩ := shutdownRecv_ok hshutdown
      exact (h.streams id b hget).of_same rfl (h.streams id b hget).recv_le
    exact ⟨hsane, h.healthy.increaseReadOff _, h.recv_le, h.streams.setRecv hb id, h.initial_le,
      h.cross_le⟩
  | @tuned id b now srtt hget =>
    exact ⟨hsane, h.healthy, h.recv_le, h.streams.setRecv ((h.streams id b hget).tuned now srtt) id,
      h.initial_le, h.cross_le⟩
  | @advertised id b now hget =>
    have hb := h.streams id b hget
    -- the window of the stream is capped, and the cap of the connection has room for it
    have hmin : timesThreeHalves b.flowControl.window ≤ l.conn.maxWindow := by
      refine le_trans ?_ h.cross_le
      apply timesThreeHalves_mono
      exact hb.maxWindow_eq ▸ hb.healthy.window_le
    exact ⟨hsane, (h.healthy.ensureWindowLowerBound hmin).1, h.recv_le,
      h.streams.setRecv (hb.advertised now) id, h.initial_le, h.cross_le⟩
  | connTuned now srtt =>
    have hsame := FlowControl.autotuneWindow_eq l.conn now srtt
    refine ⟨hsane, (h.healthy.autotuneWindow now srtt).1, ?_, h.streams, h.initial_le, ?_⟩
    · rw [hsame]
      exact h.recv_le
    · rw [hsame]
      exact h.cross_le
  | connAdvertised now =>
    have hgrows := (h.healthy.updateMaxData now).2
    exact ⟨hsane, (h.healthy.updateMaxData now).1, h.recv_le.trans hgrows.maxData, h.streams,
      h.initial_le, h.cross_le⟩
  | @removed id b =>
    exact ⟨hsane, h.healthy, h.recv_le, h.streams.remove id b, h.initial_le, h.cross_le⟩
  | closed => exact ⟨hsane, h.healthy, h.recv_le, h.streams, h.initial_le, h.cross_le⟩

theorem Grown.path (h : l.Sized) (hpath : Path r l l') : l.Grown l' := by
  have hboth : l'.Sized ∧ l.Grown l' := by
    induction hpath with
    | refl => exact ⟨h, .refl l⟩
    | tail _ hstep ih => exact ⟨ih.1.step hstep, ih.2.trans (.step ih.1 hstep)⟩
  exact hboth.2

end Ledger

/-- The initial limits respect the caps of the windows, and the cap of the connection has
room for the largest window of a stream. -/
structure ReceiveConfig.Ordered (c : ReceiveConfig) : Prop where
  data : c.localTransportParams.initialMaxData ≤ c.maxConnectionWindow
  bidiLocal : c.localTransportParams.initialMaxStreamDataBidiLocal ≤ c.maxStreamWindow
  bidiRemote : c.localTransportParams.initialMaxStreamDataBidiRemote ≤ c.maxStreamWindow
  uni : c.localTransportParams.initialMaxStreamDataUni ≤ c.maxStreamWindow
  cross : timesThreeHalves c.maxStreamWindow ≤ c.maxConnectionWindow

namespace StreamMap.World

variable {w w' : World} {conf : ReceiveConfig} {isServer endpoint : Bool}

theorem sized_start (hconf : conf.Ordered) (isServer endpoint : Bool) :
    (start conf isServer endpoint).ledger.Sized := by
  have hnone : ∀ id, (start conf isServer endpoint).ledger.streams.get? id = none := fun _ => rfl
  refine ⟨(regular_start conf isServer endpoint).sane, .new hconf.data, Nat.zero_le _, ?_, ?_,
    hconf.cross⟩
  · intro id b hget
    cases hget
  · intro n hn
    simp only [ledger, StreamMap.ledger, List.mem_cons, List.not_mem_nil, or_false] at hn
    rcases hn with rfl | rfl | rfl | rfl
    · exact Nat.zero_le _
    · exact hconf.bidiLocal
    · exact hconf.bidiRemote
    · exact hconf.uni

theorem keeps_any (w : World) (op : Op) : w.Keeps (FrameRule.promise {}) op := keeps_free w op

theorem sized_of_reaches (hconf : conf.Ordered)
    (h : Exec.Reaches step (fun _ _ => True) (start conf isServer endpoint) w) : w.ledger.Sized :=
  invariant_of_ledger (fun _ _ hl hstep => .step hl hstep)
    (sized_start hconf isServer endpoint) (h.mono fun w op _ => keeps_any w op)

/-- Whatever the peer sends, no more of a stream is read than received, nothing is received or
stored beyond its final size, and nothing is stored once it is shut down. -/
theorem recv_buffers_regular (conf : ReceiveConfig) (isServer endpoint : Bool) (ops : List Op) :
    (Exec.follow step (fun _ _ ↦ True) (start conf isServer endpoint) ops).ledger.Regular :=
  invariant_of_ledger (fun _ _ hl hstep => hl.step hstep) (regular_start conf isServer endpoint)
    ((Exec.reaches_follow _ ops).mono fun w op _ => keeps_any w op)

theorem not_destroyed (h : Exec.Reaches step (fun _ _ => True) (start conf isServer endpoint) w)
    {id : ℕ} {s : Stream} (hget : w.map.get? id = some s) : ∀ e ∈ w.map.destroyed, e.1 ≠ id := by
  have hmoves := moves_of_reaches (h.mono fun w op _ => keeps_any w op)
  have hkept := kept_of_books (kept_start conf isServer endpoint) (books_of_moves hmoves)
  intro e he heq
  refine hkept.disjoint id (mem_live_iff.mpr ⟨s, hget⟩) ?_
  exact List.mem_map.mpr ⟨e, he, heq⟩

/-- With an ordered configuration no limit decreases and no window shrinks during a run, and nothing
is received beyond a limit. -/
theorem limits_never_shrink (hconf : conf.Ordered)
    (h : Exec.Reaches step (fun _ _ ↦ True) (start conf isServer endpoint) w)
    (h' : Exec.Reaches step (fun _ _ ↦ True) w w') :
    w.map.flowControl.Grows w'.map.flowControl ∧
      w'.map.flowControl.recvOff ≤ w'.map.flowControl.maxData ∧
      ∀ id s', w'.map.get? id = some s' →
        s'.recv.recvOff ≤ s'.recv.flowControl.maxData ∧
          ∀ s, w.map.get? id = some s → s.recv.flowControl.Grows s'.recv.flowControl := by
  have hsized := sized_of_reaches hconf h
  have hsized' := sized_of_reaches hconf (h.trans h')
  have hgrown : w.ledger.Grown w'.ledger :=
    .path hsized (path_of_reaches (h'.mono fun w op _ => keeps_any w op))
  refine ⟨hgrown.conn, hsized'.recv_le, ?_⟩
  intro id s' hget'
  have hledger' : w'.ledger.streams.get? id = some s'.recv := ledger_get? hget'
  refine ⟨(hsized'.streams id s'.recv hledger').recv_le, ?_⟩
  intro s hget
  rcases hgrown.stream id s.recv (ledger_get? hget) with ⟨b', hb', hgrows⟩ | ⟨e, he, hid⟩
  · rw [hledger'] at hb'
    exact Option.some.inj hb' ▸ hgrows
  · -- the stream would have been destroyed in between
    obtain ⟨e₀, he₀, rfl⟩ := List.mem_map.mp he
    exact absurd hid (not_destroyed (h.trans h') hget' e₀ he₀)

def packetAt (now srtt : ℕ) : PacketRoom :=
  { oneRtt := true, left := 1000, before := 0, between := 0, now, srtt }

def smallWindow : ReceiveConfig := ReceiveConfig.new.setInitialMaxData 20

theorem smallWindow_ordered : smallWindow.Ordered := by constructor <;> decide +kernel

/-- Eleven bytes arrive and are read, and a new limit is advertised; then twenty more
arrive, of which eleven are read. -/
def readingServer (conf : ReceiveConfig) : World :=
  Exec.follow step (fun _ _ => True) (start conf true true)
    [.receive (.stream 0 0 (List.replicate 11 7) false), .read 0 100,
      .sendPacket (packetAt 5 10), .receive (.stream 0 11 (List.replicate 20 7) false),
      .read 0 11]

/-- The next packet of that server, within two round trips after the last limit. -/
def advertisingServer (conf : ReceiveConfig) : World :=
  Exec.follow step (fun _ _ => True) (readingServer conf) [.sendPacket (packetAt 6 10)]

theorem limits_never_shrink_small :
    (readingServer smallWindow).map.flowControl.maxData = 31 ∧
      (advertisingServer smallWindow).map.flowControl.maxData = 62 ∧
      (readingServer smallWindow).map.flowControl.Grows
        (advertisingServer smallWindow).map.flowControl := by
  have hreach : Exec.Reaches step (fun _ _ => True) (start smallWindow true true)
      (readingServer smallWindow) := Exec.reaches_follow _ _
  have hlater : Exec.Reaches step (fun _ _ => True) (readingServer smallWindow)
      (advertisingServer smallWindow) := Exec.reaches_follow _ _
  have hgrows := limits_never_shrink smallWindow_ordered hreach hlater
  exact ⟨by decide +kernel, by decide +kernel, hgrows.1⟩

/-- The cap of the connection's window is set after the initial limit: the window
shrinks, the limit decreases, and more has been received than it allows. -/
theorem limit_shrinks : ∃ w w' : World,
    Exec.Reaches step (fun _ _ ↦ True) (start (smallWindow.setMaxConnectionWindow 5) true true) w ∧
      Exec.Reaches step (fun _ _ ↦ True) w w' ∧
      w.map.flowControl.maxData = 31 ∧ w'.map.flowControl.maxData = 27 ∧
      w.map.flowControl.window = 20 ∧ w'.map.flowControl.window = 5 ∧
      w'.map.flowControl.recvOff = 31 :=
  ⟨readingServer (smallWindow.setMaxConnectionWindow 5),
    advertisingServer (smallWindow.setMaxConnectionWindow 5), Exec.reaches_follow _ _,
    Exec.reaches_follow _ _, by decide +kernel, by decide +kernel, by decide +kernel,
    by decide +kernel, by decide +kernel⟩

end StreamMap.World

end Tquic
