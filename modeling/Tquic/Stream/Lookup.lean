import Tquic.Stream.Operations

/-!
# Looking streams up

What `get_or_create` can do, said once, and how the primitive changes of the map
act on the lookup of a stream.
-/

namespace Tquic

open SortedMap

variable {c c' : ConcurrencyControl} {isServer : Bool}

theorem ConcurrencyControl.check_error {id : ℕ}
    {e : Error} (h : c.checkConcurrencyLimits id isServer = (c', .error e)) :
    e = .streamLimitError ∧ ∃ blocked, c' = { c with streamsBlockedAt := blocked } := by
  unfold checkConcurrencyLimits at h
  dsimp only at h
  split_ifs at h
  · obtain ⟨rfl, he⟩ := Prod.mk.inj h
    exact ⟨(Except.error.inj he).symm, _, rfl⟩
  · simp at h
  · obtain ⟨rfl, he⟩ := Prod.mk.inj h
    exact ⟨(Except.error.inj he).symm, c.streamsBlockedAt, rfl⟩
  · simp at h

theorem ConcurrencyControl.check_ok {id : ℕ}
    (h : c.checkConcurrencyLimits id isServer = (c', .ok ())) :
    id / 4 < c.limit id isServer ∧
      ∃ peerOpened localOpened,
        c' = { c with peerOpenedStreams := peerOpened, localOpenedStreams := localOpened } := by
  unfold checkConcurrencyLimits at h
  dsimp only at h
  split_ifs at h with hlocal hmax hmax
  · simp at h
  · refine ⟨?_, _, _, (congrArg Prod.fst h).symm⟩
    rw [limit, if_pos hlocal]
    omega
  · simp at h
  · refine ⟨?_, _, _, (congrArg Prod.fst h).symm⟩
    rw [limit, if_neg hlocal]
    omega

namespace StreamMap

variable {m m' : StreamMap} {id : ℕ} {s : Stream}

/-! ## Primitive changes -/

theorem get?_setStream_self (m : StreamMap) (id : ℕ) (s : Stream) :
    (m.setStream id s).get? id = some s :=
  get?_insert_self _ _ _

theorem get?_setStream_of_ne (m : StreamMap) {id id' : ℕ} (h : id' ≠ id) (s : Stream) :
    (m.setStream id s).get? id' = m.get? id' :=
  get?_insert_of_ne _ h _

theorem setStream_eq_self (h : m.get? id = some s) : m.setStream id s = m := by
  rw [setStream, insert_eq_self h]

theorem get?_create (m : StreamMap) (id : ℕ) (opener : Bool) (id' : ℕ) :
    (m.create id opener).get? id' =
      if id' = id then some (m.newStream id opener) else m.get? id' := by
  split_ifs with h
  · subst h
    exact get?_insert_self _ _ _
  · exact get?_insert_of_ne _ h _

/-- The map as it is when a new stream is inserted after its identifier was checked. -/
def enroll (m : StreamMap) (c : ConcurrencyControl) (id : ℕ) (opener : Bool) : StreamMap :=
  ({ m with concurrencyControl := c } : StreamMap).create id opener

/-! ## Tables on the side -/

/-- What the map keeps for the application and about control frames of the send side. -/
structure Tables where
  readable : Finset ℕ
  writable : Finset ℕ
  reset : SortedMap ℕ (ℕ × ℕ)
  stopped : SortedMap ℕ ℕ
  dataBlocked : SortedMap ℕ ℕ
  sendCapacity : SendCapacity
  streamsBlockedAt : Bool → Option ℕ

def retable (m : StreamMap) (t : Tables) : StreamMap :=
  { m with
    readable := t.readable
    writable := t.writable
    reset := t.reset
    stopped := t.stopped
    dataBlocked := t.dataBlocked
    sendCapacity := t.sendCapacity
    concurrencyControl := { m.concurrencyControl with streamsBlockedAt := t.streamsBlockedAt } }

def tables (m : StreamMap) : Tables :=
  ⟨m.readable, m.writable, m.reset, m.stopped, m.dataBlocked, m.sendCapacity,
    m.concurrencyControl.streamsBlockedAt⟩

@[simp] theorem get?_retable (m : StreamMap) (t : Tables) (id : ℕ) :
    (m.retable t).get? id = m.get? id := rfl

def Alike (m m' : StreamMap) : Prop := ∃ t, m' = m.retable t

theorem Alike.refl (m : StreamMap) : Alike m m := ⟨m.tables, rfl⟩

theorem Alike.trans {m m' m'' : StreamMap} (h : Alike m m') (h' : Alike m' m'') : Alike m m'' := by
  obtain ⟨t, rfl⟩ := h
  obtain ⟨t', rfl⟩ := h'
  exact ⟨t', rfl⟩

/-! ## Lookup or creation -/

/-- The outcomes of `get_or_create`: a failure, which may note that the limit is reached, the stream
there is, or a new one. -/
inductive Lookup (m : StreamMap) (id : ℕ) (opener : Bool) : StreamMap × Result Stream → Prop
  | failed (e : Error) (t : Tables) (herror : e ≠ .flowControlError)
      (hclosed : e = .done → m.get? id = none ∧ m.isClosed id = true) :
      Lookup m id opener (m.retable t, .error e)
  | found (s : Stream) (hget : m.get? id = some s) : Lookup m id opener (m, .ok s)
  | created (c : ConcurrencyControl) (hget : m.get? id = none) (hid : id ≤ vintMax)
      (hclosed : m.isClosed id = false) (hopener : opener = isLocal id m.isServer)
      (hcheck : m.concurrencyControl.checkConcurrencyLimits id m.isServer = (c, .ok ())) :
      Lookup m id opener (m.enroll c id opener, .ok (m.newStream id opener))

theorem getOrCreate_cases (m : StreamMap) (id : ℕ) (opener : Bool) :
    Lookup m id opener (m.getOrCreate id opener) := by
  unfold getOrCreate
  by_cases hid : vintMax < id
  · rw [if_pos hid]
    exact .failed .protocolViolation m.tables nofun nofun
  rw [if_neg hid]
  cases hget : m.get? id with
  | some s => exact .found s hget
  | none =>
    dsimp only
    split_ifs with hclosed hopener
    · exact .failed .done m.tables nofun fun _ => ⟨hget, hclosed⟩
    · exact .failed .streamStateError m.tables nofun nofun
    split
    · next c e hcheck =>
        obtain ⟨rfl, blocked, rfl⟩ := ConcurrencyControl.check_error hcheck
        exact .failed .streamLimitError { m.tables with streamsBlockedAt := blocked } nofun nofun
    · next c hcheck =>
        exact .created c hget (not_lt.mp hid) (by simpa using hclosed) (not_not.mp hopener) hcheck

theorem Lookup.get? {opener : Bool} {out : StreamMap × Result Stream} (h : Lookup m id opener out)
    {s : Stream} (hok : out.2 = .ok s) : out.1.get? id = some s := by
  cases h with
  | failed => cases hok
  | found s hget =>
    cases hok
    exact hget
  | created =>
    cases hok
    rw [enroll, get?_create, if_pos rfl]
    rfl

end StreamMap

end Tquic
