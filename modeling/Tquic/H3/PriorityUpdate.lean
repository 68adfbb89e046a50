import Tquic.H3.Wire
import Tquic.Stream.StreamMap

/-!
# Priority updates of requests

A client may change the priority of a request stream within the number of streams granted. It
compares the identifier with the number itself, the server with four times the number.
-/

namespace Tquic.H3

structure Http3Connection where
  isServer : Bool
  localControlStreamId : Option ℕ := none
  streams : SortedMap ℕ (Option Bytes) := .empty

namespace Http3Connection

/-- `write` is what becomes of the frame on the control stream. -/
def sendPriorityUpdateForRequest (h : Http3Connection) (m : StreamMap) (streamId : ℕ)
    (write : Except Http3Error Unit) : Except Http3Error Unit :=
  if h.isServer || h.localControlStreamId.isNone then .error .frameUnexpected
  else if m.isClosed streamId then .error .frameUnexpected
  else if streamId % 4 ≠ 0 ∨ m.concurrencyControl.peerMaxStreams true < streamId then
    .error .idError
  else write

/-- `conn.close(..)?` and the return of the error after it: a connection that is closed, draining
or closing already is not closed once more, and the result is `Done`. -/
def closeWith (h : Http3Connection) (closing : Bool) (e : Http3Error) (code : ℕ)
    (reason : String) : Http3Connection × Except Http3Error ℕ × Option (ℕ × String) :=
  if closing then (h, .error .done, none) else (h, .error e, some (code, reason))

/-- The result, and the code and reason with which the connection is closed. -/
def onPriorityUpdateRequestFrameReceived (h : Http3Connection) (m : StreamMap) (closing : Bool)
    (elementId : ℕ) (value : Bytes) :
    Http3Connection × Except Http3Error ℕ × Option (ℕ × String) :=
  if !h.isServer then
    h.closeWith closing .frameUnexpected 0x105 "client received PRIORITY_UPDATE"
  else if elementId % 4 ≠ 0 then
    h.closeWith closing .idError 0x108 "PRIORITY_UPDATE for request stream with unexpected ID"
  else if m.concurrencyControl.localMaxStreams true * 4 < elementId then
    h.closeWith closing .idError 0x108
      "PRIORITY_UPDATE for request stream beyond the stream limits"
  else if m.isClosed elementId then (h, .error .done, none)
  else
    let hadUpdate := h.streams.get? elementId matches some (some _)
    ({ h with streams := h.streams.insert elementId (some value) },
      if hadUpdate then .error .done else .ok elementId, none)

variable {client server : Http3Connection} {m m' : StreamMap} {closing : Bool} {n id : ℕ}

theorem sendPriorityUpdate_ok_iff (hclient : client.isServer = false)
    (hcontrol : client.localControlStreamId.isSome = true)
    (hn : m.concurrencyControl.peerMaxStreams true = n) :
    client.sendPriorityUpdateForRequest m id (.ok ()) = .ok () ↔
      id % 4 = 0 ∧ id ≤ n ∧ m.isClosed id = false := by
  have hsome : client.localControlStreamId.isNone = false := by simpa using hcontrol
  simp only [sendPriorityUpdateForRequest, hclient, hsome, hn, Bool.or_self, Bool.false_eq_true,
    if_false]
  split_ifs with hclosed hid
  · simp [hclosed]
  · simp
    omega
  · simp [hclosed]
    omega

theorem onPriorityUpdate_idError_iff (hserver : server.isServer = true)
    (hn : m.concurrencyControl.localMaxStreams true = n) (value : Bytes) :
    (server.onPriorityUpdateRequestFrameReceived m closing id value).2.1 = .error .idError ↔
      (id % 4 ≠ 0 ∨ 4 * n < id) ∧ closing = false := by
  cases closing <;> simp only [onPriorityUpdateRequestFrameReceived, closeWith, hserver, hn,
    Bool.not_true, Bool.false_eq_true, if_false, if_true] <;> split_ifs <;> simp <;> omega

/-- The identifier is not the first one beyond the limit, nor that of an open request stream above
the number of streams, and a connection that is closing gets none that is refused. -/
def Agreeing (m : StreamMap) (closing : Bool) (n id : ℕ) : Prop :=
  id ≠ 4 * n ∧ ¬(id % 4 = 0 ∧ n < id ∧ id < 4 * n ∧ m.isClosed id = false) ∧
    (closing = true → id % 4 = 0 ∧ id < 4 * n)

/-- Client and server both go by the number of streams granted, exactly for these. -/
theorem priority_updates_agree (hclient : client.isServer = false)
    (hcontrol : client.localControlStreamId.isSome = true) (hserver : server.isServer = true)
    (hn : m.concurrencyControl.peerMaxStreams true = n)
    (hn' : m'.concurrencyControl.localMaxStreams true = n) :
    ((client.sendPriorityUpdateForRequest m id (.ok ()) = .ok () ↔
        id % 4 = 0 ∧ id < 4 * n ∧ m.isClosed id = false) ∧
      ∀ value, (server.onPriorityUpdateRequestFrameReceived m' closing id value).2.1 =
        .error .idError ↔ id % 4 ≠ 0 ∨ 4 * n ≤ id) ↔ Agreeing m closing n id := by
  simp only [sendPriorityUpdate_ok_iff hclient hcontrol hn,
    onPriorityUpdate_idError_iff hserver hn', forall_const, Agreeing]
  cases m.isClosed id <;> cases closing <;> simp <;> omega

/-- The streams of a client and of a server that has granted `n` streams. -/
def granted (n : ℕ) : StreamMap × StreamMap :=
  let m := StreamMap.new false 0 0 {}
  ({ m with concurrencyControl := m.concurrencyControl.updatePeerMaxStreams true n },
    StreamMap.new true 0 0 { initialMaxStreamsBidi := n })

theorem priority_updates_agree_four :
    sendPriorityUpdateForRequest ⟨false, some 2, .empty⟩ (granted 4).1 4 (.ok ()) = .ok () ∧
      (onPriorityUpdateRequestFrameReceived ⟨true, none, .empty⟩ (granted 4).2 false 20 []).2.1 =
        .error .idError := by
  have hagree {id : ℕ} := @priority_updates_agree ⟨false, some 2, .empty⟩ ⟨true, none, .empty⟩
    (granted 4).1 (granted 4).2 false 4 id rfl rfl rfl rfl rfl
  exact ⟨(hagree.mpr (by simp [Agreeing])).1.mpr (by decide),
    ((hagree.mpr (by simp [Agreeing])).2 []).mpr (by decide)⟩

theorem priority_update_limits_differ :
    (granted 4).1.isClosed 8 = false ∧
      sendPriorityUpdateForRequest ⟨false, some 2, .empty⟩ (granted 4).1 8 (.ok ()) =
        .error .idError ∧
      (onPriorityUpdateRequestFrameReceived ⟨true, none, .empty⟩ (granted 4).2 false 16 []).2.1 =
        .ok 16 := by
  decide +kernel

end Http3Connection

end Tquic.H3
