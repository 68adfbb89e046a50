import Tquic.Base.Run
import Tquic.Base.SortedMap
import Tquic.Codec

/-!
# Datagram reads of the reactor

`read_datagram` sends a response channel to the reactor, which parks it until a datagram
arrives. A channel is a number here; one that is dropped unanswered makes its reader return
`ReactorGone`.
-/

namespace Tquic.TokioAdapter

inductive AsyncError where
  | tquic (e : Error)
  | connectionClosed
  | reactorGone
  deriving DecidableEq

def dgramRecv : List Bytes → List Bytes × Result Bytes
  | [] => ([], .error .done)
  | data :: queue => (queue, .ok data)

abbrev Answers := List (ℕ × Except AsyncError Bytes)

/-- The datagrams queued in the connections, the reads parked in the reactor, and what the readers
got. -/
structure DgramReactor where
  endpoint : SortedMap ℕ (List Bytes) := .empty
  connections : SortedMap ℕ (List ℕ) := .empty
  answers : Answers := []

namespace DgramReactor

def dropped (txs : List ℕ) : Answers := txs.map (·, .error .reactorGone)

def satisfyDgramReads : List Bytes → List ℕ → List Bytes × List ℕ × Answers
  | queue, [] => (queue, [], [])
  | queue, tx :: pending =>
    match dgramRecv queue with
    | (queue, .ok data) =>
      let (queue, remaining, answers) := satisfyDgramReads queue pending
      (queue, remaining, (tx, .ok data) :: answers)
    -- The loop ends here, and with it the channels that it has not come to.
    | (queue, .error .done) => (queue, [tx], dropped pending)
    | (queue, .error e) =>
      let (queue, remaining, answers) := satisfyDgramReads queue pending
      (queue, remaining, (tx, .error (.tquic e)) :: answers)

def onDgramReadable (r : DgramReactor) (index : ℕ) : DgramReactor :=
  match r.connections.get? index with
  | none | some [] => r
  | some pending =>
    match r.endpoint.get? index with
    | none =>
      { r with
        connections := r.connections.insert index []
        answers := r.answers ++ dropped pending }
    | some queue =>
      let (queue, remaining, answers) := satisfyDgramReads queue pending
      { endpoint := r.endpoint.insert index queue
        connections := r.connections.insert index remaining
        answers := r.answers ++ answers }

def handleDgramRecv (r : DgramReactor) (index tx : ℕ) : DgramReactor :=
  match r.endpoint.get? index with
  | none => { r with answers := r.answers ++ [(tx, .error .connectionClosed)] }
  | some queue =>
    match dgramRecv queue with
    | (queue, .ok data) =>
      { r with
        endpoint := r.endpoint.insert index queue
        answers := r.answers ++ [(tx, .ok data)] }
    | (_, .error .done) =>
      match r.connections.get? index with
      | some pending => { r with connections := r.connections.insert index (pending ++ [tx]) }
      | none => { r with answers := r.answers ++ [(tx, .error .connectionClosed)] }
    | (_, .error e) => { r with answers := r.answers ++ [(tx, .error (.tquic e))] }

def onConnClosed (r : DgramReactor) (index : ℕ) : DgramReactor :=
  match r.connections.get? index with
  | none => r
  | some pending =>
    { r with
      connections := r.connections.erase index
      answers := r.answers ++ pending.map (·, .error .connectionClosed) }

/-- The endpoint changes its connections at will, and gives the reactor something to handle. -/
inductive Input where
  | endpoint (queues : SortedMap ℕ (List Bytes))
  | connCreated (index : ℕ)
  | connClosed (index : ℕ)
  | dgramReadable (index : ℕ)
  | dgramRecv (index tx : ℕ)

def step (r : DgramReactor) : Input → Exec (DgramReactor × Unit)
  | .endpoint queues => .ok ({ r with endpoint := queues }, ())
  | .connCreated index => .ok ({ r with connections := r.connections.insert index [] }, ())
  | .connClosed index => .ok (r.onConnClosed index, ())
  | .dgramReadable index => .ok (r.onDgramReadable index, ())
  | .dgramRecv index tx => .ok (r.handleDgramRecv index tx, ())

/-- A connection is created once before it is closed, and is alive when its datagrams are
reported; at most one of its reads then stays unanswered. -/
def Fed (r : DgramReactor) : Input → Prop
  | .connCreated index => r.connections.get? index = none
  | .dgramReadable index => ∀ parked ∈ r.connections.get? index,
      ∃ queue ∈ r.endpoint.get? index, parked.length ≤ queue.length + 1
  | _ => True

instance (r : DgramReactor) : DecidablePred r.Fed := fun i => by
  cases i <;> unfold Fed <;> infer_instance

variable {r : DgramReactor} {queue : List Bytes} {parked : List ℕ}

theorem satisfyDgramReads_eq (h : parked.length ≤ queue.length + 1) :
    satisfyDgramReads queue parked = (queue.drop parked.length, parked.drop queue.length,
      (parked.zip queue).map fun a => (a.1, .ok a.2)) := by
  induction parked generalizing queue with
  | nil => simp [satisfyDgramReads]
  | cons tx parked ih =>
    cases queue with
    | nil =>
      obtain rfl : parked = [] := by simpa using h
      rfl
    | cons data queue =>
      have hrest : parked.length ≤ queue.length + 1 := by simpa using h
      simp [satisfyDgramReads, dgramRecv, ih hrest]

def Answered (r : DgramReactor) : Prop := ∀ tx, (tx, .error .reactorGone) ∉ r.answers

theorem Answered.append {new : Answers} (h : r.Answered)
    (hnew : ∀ tx, (tx, .error .reactorGone) ∉ new) {endpoint : SortedMap ℕ (List Bytes)}
    {connections : SortedMap ℕ (List ℕ)} :
    Answered ⟨endpoint, connections, r.answers ++ new⟩ :=
  fun tx htx => (List.mem_append.mp htx).elim (h tx) (hnew tx)

/-- As many reads are answered as there are datagrams, in order, and the others stay parked. -/
def served (r : DgramReactor) (index : ℕ) (queue : List Bytes) (parked : List ℕ) : DgramReactor :=
  ⟨r.endpoint.insert index (queue.drop parked.length),
    r.connections.insert index (parked.drop queue.length),
    r.answers ++ (parked.zip queue).map fun a => (a.1, .ok a.2)⟩

theorem onDgramReadable_eq {index : ℕ} (hqueue : r.endpoint.get? index = some queue)
    (hparked : r.connections.get? index = some parked) (h : parked.length ≤ queue.length + 1) :
    r.onDgramReadable index = r.served index queue parked := by
  unfold onDgramReadable
  cases parked with
  | nil =>
    simp [served, hparked, SortedMap.insert_eq_self hqueue, SortedMap.insert_eq_self hparked]
  | cons => simp only [served, hparked, hqueue, satisfyDgramReads_eq h]

theorem Answered.step {i : Input} {r' : DgramReactor} (h : r.Answered) (hfed : r.Fed i)
    (hstep : r.step i = .ok (r', ())) : r'.Answered := by
  cases i with
  | endpoint | connCreated =>
    cases hstep
    exact h
  | connClosed index =>
    cases hstep
    unfold onConnClosed
    split
    · exact h
    · exact h.append (by simp)
  | dgramRecv index tx =>
    cases hstep
    unfold handleDgramRecv
    split
    · exact h.append (by simp)
    · split
      · exact h.append (by simp)
      · split
        · exact h
        · exact h.append (by simp)
      · exact h.append (by simp)
  | dgramReadable index =>
    cases hstep
    cases hparked : r.connections.get? index with
    | none =>
      unfold onDgramReadable
      rwa [hparked]
    | some parked =>
      obtain ⟨queue, hqueue, hle⟩ := hfed parked hparked
      rw [onDgramReadable_eq hqueue hparked hle]
      exact h.append (by simp)

/-- No read is dropped if at most one read of a connection stays unanswered at a time; an event then
answers the reads in order and keeps the others. -/
theorem reads_answered_in_order (h : Exec.Reaches step Fed {} r) :
    r.Answered ∧ ∀ index queue parked, r.endpoint.get? index = some queue →
      r.connections.get? index = some parked → parked.length ≤ queue.length + 1 →
      r.onDgramReadable index = r.served index queue parked := by
  refine ⟨?_, fun index queue parked => onDgramReadable_eq⟩
  exact h.invariant Answered (fun s i s' o hs hfed hstep => hs.step hfed hstep)
    (fun tx htx => List.not_mem_nil htx)

/-- One datagram arrives for the reads of a connection. -/
def readsThenDatagram (reads : List ℕ) : List Input :=
  [.endpoint (.insert .empty 0 []), .connCreated 0] ++ reads.map (.dgramRecv 0) ++
    [.endpoint (.insert .empty 0 [[7]]), .dgramReadable 0]

theorem reads_answered_in_order_two :
    (Exec.follow step Fed {} (readsThenDatagram [1, 2])).answers = [(1, .ok [7])] ∧
      (Exec.follow step Fed {} (readsThenDatagram [1, 2])).Answered :=
  ⟨by decide +kernel, (reads_answered_in_order (Exec.reaches_follow _ _)).1⟩

/-- Of three parked reads and one datagram, the third read is dropped. -/
theorem third_read_dropped :
    (Exec.follow step (fun _ _ => True) {} (readsThenDatagram [1, 2, 3])).answers =
      [(1, .ok [7]), (3, .error .reactorGone)] := by
  decide +kernel

end DgramReactor

end Tquic.TokioAdapter
