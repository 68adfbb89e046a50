import Tquic.Base.Keyed
import Tquic.Packet.Header

/-!
# Connection ids

The ids that the peer and this endpoint have given to each other, and the queues of sequence
numbers to be announced or retired. An operation that fails may have changed the manager before.
-/

namespace Tquic

def maxCidsCount : ℕ := 16

structure ConnectionIdItem where
  cid : ConnectionId
  seq : ℕ
  resetToken : Option ℕ
  pathId : Option ℕ
  deriving DecidableEq

structure ConnectionIdDeque where
  queue : List ConnectionIdItem := []
  capacity : ℕ
  deriving DecidableEq

namespace ConnectionIdDeque

def get? (d : ConnectionIdDeque) (seq : ℕ) : Option ConnectionIdItem :=
  Keyed.find? ConnectionIdItem.seq d.queue seq

def insert (d : ConnectionIdDeque) (item : ConnectionIdItem) : Result ConnectionIdDeque :=
  if d.queue.length = d.capacity then .error .connectionIdLimitError
  else .ok { d with queue := d.queue ++ [item] }

/-- The item with the number, if any, and the items without it; the last item cannot be removed. -/
def remove (d : ConnectionIdDeque) (seq : ℕ) :
    Result (Option ConnectionIdItem × ConnectionIdDeque) :=
  if d.queue.isEmpty then .error .internalError
  else if d.queue.length = 1 ∧ (d.get? seq).isSome then .error .internalError
  else .ok (d.get? seq, { d with queue := Keyed.remove ConnectionIdItem.seq d.queue seq })

/-- `path_id = Some(path_id)` for the item that `get_mut` finds. -/
def setPath (d : ConnectionIdDeque) (seq pathId : ℕ) : ConnectionIdDeque :=
  { d with
    queue := Keyed.alter ConnectionIdItem.seq (fun e => { e with pathId := some pathId }) seq
      d.queue }

def enlarge (d : ConnectionIdDeque) (capacity : ℕ) : ConnectionIdDeque :=
  { d with capacity := max d.capacity capacity }

end ConnectionIdDeque

structure ConnectionIdMgr where
  dcids : ConnectionIdDeque
  scids : ConnectionIdDeque
  dcidLimit : ℕ
  scidLimit : ℕ := 2
  zeroLengthScid : Bool
  zeroLengthDcid : Bool := false
  nextScidSeq : ℕ := 1
  retirePriorTo : ℕ := 0
  scidsToAdvertise : List ℕ := []
  largestPeerRetirePriorTo : ℕ := 0
  dcidsToRetire : List ℕ := []
  deriving DecidableEq

namespace ConnectionIdMgr

def new (dcidLimit : ℕ) (initialScid : ConnectionId) (initialPathId : ℕ)
    (resetToken : Option ℕ) : ConnectionIdMgr where
  scids := ⟨[⟨initialScid, 0, resetToken, some initialPathId⟩], 2 * 2 - 1⟩
  dcids := ⟨[], dcidLimit * 2 - 1⟩
  dcidLimit := dcidLimit
  zeroLengthScid := initialScid.isEmpty

def setInitialDcid (m : ConnectionIdMgr) (cid : ConnectionId) (resetToken pathId : Option ℕ) :
    ConnectionIdMgr :=
  { m with
    zeroLengthDcid := cid.isEmpty
    dcids := { m.dcids with queue := [⟨cid, 0, resetToken, pathId⟩] } }

def setScidLimit (m : ConnectionIdMgr) (limit : ℕ) : ConnectionIdMgr :=
  let limit := max (min limit maxCidsCount) 2
  { m with scidLimit := limit, scids := m.scids.enlarge (2 * limit - 1) }

def getScid (m : ConnectionIdMgr) (seq : ℕ) : Result ConnectionIdItem :=
  match m.scids.get? seq with
  | some item => .ok item
  | none => .error .internalError

def getDcid (m : ConnectionIdMgr) (seq : ℕ) : Result ConnectionIdItem :=
  match m.dcids.get? seq with
  | some item => .ok item
  | none => .error .internalError

def findScid (m : ConnectionIdMgr) (scid : ConnectionId) : Option ConnectionIdItem :=
  Keyed.find? ConnectionIdItem.cid m.scids.queue scid

def markScidUsed (m : ConnectionIdMgr) (seq pathId : ℕ) : Result ConnectionIdMgr :=
  match m.scids.get? seq with
  | some _ => .ok { m with scids := m.scids.setPath seq pathId }
  | none => .error .internalError

def markDcidUsed (m : ConnectionIdMgr) (seq pathId : ℕ) : Result ConnectionIdMgr :=
  match m.dcids.get? seq with
  | some _ => .ok { m with dcids := m.dcids.setPath seq pathId }
  | none => .error .internalError

def lowestActiveScidSeq (m : ConnectionIdMgr) : Result ℕ :=
  match ((m.scids.queue.map (·.seq)).filter (m.retirePriorTo ≤ ·)).min? with
  | some seq => .ok seq
  | none => .error .internalError

def lowestUnusedDcidSeq (m : ConnectionIdMgr) : Option ℕ :=
  ((m.dcids.queue.filter (·.pathId.isNone)).map (·.seq)).min?

def markScidToAdvertise (m : ConnectionIdMgr) (seq : ℕ) (advertise : Bool) : ConnectionIdMgr :=
  { m with
    scidsToAdvertise :=
      if advertise then m.scidsToAdvertise ++ [seq] else m.scidsToAdvertise.filter (· ≠ seq) }

def markDcidToRetire (m : ConnectionIdMgr) (seq : ℕ) (retire : Bool) : ConnectionIdMgr :=
  { m with
    dcidsToRetire :=
      if retire then m.dcidsToRetire ++ [seq] else m.dcidsToRetire.filter (· ≠ seq) }

/-! ## Source ids -/

def storeScid (m : ConnectionIdMgr) (cid : ConnectionId) (resetToken : Option ℕ)
    (advertise : Bool) (pathId : Option ℕ) : ConnectionIdMgr × Result ℕ :=
  let seq := m.nextScidSeq
  if seq ≠ 0 ∧ resetToken.isNone then (m, .error .internalError)
  else
    match m.scids.insert ⟨cid, seq, resetToken, pathId⟩ with
    | .error e => (m, .error e)
    | .ok scids =>
      ({ m with scids := scids, nextScidSeq := m.nextScidSeq + 1 }.markScidToAdvertise seq
        advertise, .ok seq)

def addScid (m : ConnectionIdMgr) (cid : ConnectionId) (resetToken : Option ℕ)
    (advertise : Bool) (pathId : Option ℕ) (retireIfNeeded : Bool) :
    ConnectionIdMgr × Result ℕ :=
  if m.zeroLengthScid then (m, .error .internalError)
  else if m.scidLimit ≤ m.scids.queue.length then
    if ¬ retireIfNeeded then (m, .error .connectionIdLimitError)
    else
      match m.lowestActiveScidSeq with
      | .error e => (m, .error e)
      | .ok lowest =>
        { m with retirePriorTo := lowest + 1 }.storeScid cid resetToken advertise pathId
  else m.storeScid cid resetToken advertise pathId

def retireScid (m : ConnectionIdMgr) (seq : ℕ) (pktDcid : ConnectionId) :
    ConnectionIdMgr × Result (Option ℕ) :=
  if m.nextScidSeq ≤ seq then (m, .error .protocolViolation)
  else
    match m.scids.remove seq with
    | .error e => (m, .error e)
    | .ok (none, scids) => ({ m with scids := scids }, .ok none)
    | .ok (some item, scids) =>
      let m := { m with scids := scids }
      if item.cid = pktDcid then (m, .error .protocolViolation)
      else
        match m.lowestActiveScidSeq with
        | .error e => (m, .error e)
        | .ok lowest => ({ m with retirePriorTo := lowest }, .ok item.pathId)

/-! ## Destination ids -/

def checkDcidsToRetire (m : ConnectionIdMgr) : Result Unit :=
  if m.dcidLimit * 4 < m.dcidsToRetire.length then .error .protocolViolation else .ok ()

/-- Retire the destination ids below a new threshold; the result names those in use, with their
paths. -/
def retireLower (m : ConnectionIdMgr) (retirePriorTo : ℕ) :
    ConnectionIdMgr × Result (List (ℕ × ℕ)) :=
  if m.largestPeerRetirePriorTo < retirePriorTo then
    let gone := m.dcids.queue.filter (·.seq < retirePriorTo)
    let m := { m with
      dcids := { m.dcids with queue := m.dcids.queue.filter (retirePriorTo ≤ ·.seq) }
      dcidsToRetire := m.dcidsToRetire ++ gone.map (·.seq)
      largestPeerRetirePriorTo := retirePriorTo }
    (m, m.checkDcidsToRetire.map fun _ =>
      gone.filterMap fun e => e.pathId.map fun pathId => (e.seq, pathId))
  else (m, .ok [])

def storeDcid (m : ConnectionIdMgr) (item : ConnectionIdItem) (retirePriorTo : ℕ) :
    ConnectionIdMgr × Result (List (ℕ × ℕ)) :=
  match m.retireLower retirePriorTo with
  | (m, .error e) => (m, .error e)
  | (m, .ok retired) =>
    match m.dcids.insert item with
    | .error e => (m, .error e)
    | .ok dcids => ({ m with dcids := dcids }, .ok retired)

def known? (m : ConnectionIdMgr) (cid : ConnectionId) (seq : ℕ) : Option ConnectionIdItem :=
  m.dcids.queue.find? fun e => e.cid = cid ∨ e.seq = seq

def addDcid (m : ConnectionIdMgr) (cid : ConnectionId) (seq resetToken retirePriorTo : ℕ) :
    ConnectionIdMgr × Result (List (ℕ × ℕ)) :=
  if m.zeroLengthDcid then (m, .error .protocolViolation)
  else
    match m.known? cid seq with
    | some e =>
      if e.cid ≠ cid ∨ e.seq ≠ seq ∨ e.resetToken ≠ some resetToken then
        (m, .error .protocolViolation)
      else (m, .ok [])
    | none =>
      if seq < retirePriorTo then (m, .error .protocolViolation)
      else if seq < m.largestPeerRetirePriorTo ∧ seq ∉ m.dcidsToRetire then
        let m := { m with dcidsToRetire := m.dcidsToRetire ++ [seq] }
        (m, m.checkDcidsToRetire.map fun _ => [])
      else
        -- also reached by an id that waits for its retirement
        m.storeDcid ⟨cid, seq, some resetToken, none⟩ retirePriorTo

/-! ## What a NEW_CONNECTION_ID frame can do -/

def raise (m : ConnectionIdMgr) (threshold : ℕ) : ConnectionIdMgr :=
  { m with
    dcids := { m.dcids with queue := m.dcids.queue.filter (threshold ≤ ·.seq) }
    dcidsToRetire := m.dcidsToRetire ++ (m.dcids.queue.filter (·.seq < threshold)).map (·.seq)
    largestPeerRetirePriorTo := threshold }

def usedBelow (m : ConnectionIdMgr) (threshold : ℕ) : List (ℕ × ℕ) :=
  (m.dcids.queue.filter (·.seq < threshold)).filterMap fun e =>
    e.pathId.map fun pathId => (e.seq, pathId)

inductive Lowers (m : ConnectionIdMgr) (retirePriorTo : ℕ) :
    ConnectionIdMgr → List (ℕ × ℕ) → Prop
  | kept (hle : retirePriorTo ≤ m.largestPeerRetirePriorTo) : Lowers m retirePriorTo m []
  | raised (hlt : m.largestPeerRetirePriorTo < retirePriorTo) :
      Lowers m retirePriorTo (m.raise retirePriorTo) (m.usedBelow retirePriorTo)

inductive AddsDcid (m : ConnectionIdMgr) (cid : ConnectionId)
    (seq resetToken retirePriorTo : ℕ) : ConnectionIdMgr × Result (List (ℕ × ℕ)) → Prop
  | refused : AddsDcid m cid seq resetToken retirePriorTo (m, .error .protocolViolation)
  | repeated {e : ConnectionIdItem} (hzero : m.zeroLengthDcid = false)
      (hknown : m.known? cid seq = some e) (htoken : e.resetToken = some resetToken) :
      AddsDcid m cid seq resetToken retirePriorTo (m, .ok [])
  | late {r : Result (List (ℕ × ℕ))} (hzero : m.zeroLengthDcid = false)
      (hle : retirePriorTo ≤ seq) (hlate : seq < m.largestPeerRetirePriorTo)
      (hr : r = .ok [] ∨ r = .error .protocolViolation) :
      AddsDcid m cid seq resetToken retirePriorTo
        ({ m with dcidsToRetire := m.dcidsToRetire ++ [seq] }, r)
  | overdue (hlt : m.largestPeerRetirePriorTo < retirePriorTo) :
      AddsDcid m cid seq resetToken retirePriorTo
        (m.raise retirePriorTo, .error .protocolViolation)
  | full {m' : ConnectionIdMgr} {retired : List (ℕ × ℕ)}
      (hlow : Lowers m retirePriorTo m' retired) :
      AddsDcid m cid seq resetToken retirePriorTo (m', .error .connectionIdLimitError)
  | stored {m' : ConnectionIdMgr} {retired : List (ℕ × ℕ)} (hzero : m.zeroLengthDcid = false)
      (hknown : m.known? cid seq = none) (hle : retirePriorTo ≤ seq)
      -- an id may come again while it waits for its retirement
      (hseq : m.largestPeerRetirePriorTo ≤ seq ∨ seq ∈ m.dcidsToRetire)
      (hlow : Lowers m retirePriorTo m' retired)
      (hroom : m'.dcids.queue.length ≠ m'.dcids.capacity) :
      AddsDcid m cid seq resetToken retirePriorTo
        ({ m' with dcids := { m'.dcids with
            queue := m'.dcids.queue ++ [⟨cid, seq, some resetToken, none⟩] } }, .ok retired)

theorem checkDcidsToRetire_map (m : ConnectionIdMgr) {α : Type} (a : α) :
    (m.checkDcidsToRetire.map fun _ => a) = .ok a ∨
      (m.checkDcidsToRetire.map fun _ => a) = .error .protocolViolation := by
  rw [checkDcidsToRetire]
  split_ifs
  · exact .inr rfl
  · exact .inl rfl

theorem retireLower_cases (m : ConnectionIdMgr) (retirePriorTo : ℕ) :
    (∃ m' retired, Lowers m retirePriorTo m' retired ∧
      m.retireLower retirePriorTo = (m', .ok retired)) ∨
    m.largestPeerRetirePriorTo < retirePriorTo ∧
      m.retireLower retirePriorTo = (m.raise retirePriorTo, .error .protocolViolation) := by
  rw [retireLower]
  split_ifs with hlt
  · rcases checkDcidsToRetire_map (m.raise retirePriorTo) (m.usedBelow retirePriorTo) with
      hcheck | hcheck
    · exact .inl ⟨_, _, .raised hlt, congrArg (Prod.mk _) hcheck⟩
    · exact .inr ⟨hlt, congrArg (Prod.mk _) hcheck⟩
  · exact .inl ⟨m, [], .kept (not_lt.mp hlt), rfl⟩

theorem addDcid_cases (m : ConnectionIdMgr) (cid : ConnectionId)
    (seq resetToken retirePriorTo : ℕ) :
    AddsDcid m cid seq resetToken retirePriorTo (m.addDcid cid seq resetToken retirePriorTo) := by
  rw [addDcid]
  by_cases hzero : m.zeroLengthDcid = true
  · rw [if_pos hzero]
    exact .refused
  rw [if_neg hzero]
  replace hzero := Bool.eq_false_iff.mpr hzero
  cases hknown : m.known? cid seq with
  | some =>
    dsimp only
    split_ifs with hother
    · exact .refused
    · simp only [not_or, not_not] at hother
      exact .repeated hzero hknown hother.2.2
  | none =>
    split_ifs with hbelow hlate
    · exact .refused
    · exact .late hzero (not_lt.mp hbelow) hlate.1 (checkDcidsToRetire_map _ _)
    · have hseq : m.largestPeerRetirePriorTo ≤ seq ∨ seq ∈ m.dcidsToRetire := by
        by_contra hnot
        exact hlate ⟨not_le.mp fun hle => hnot (.inl hle), fun hmem => hnot (.inr hmem)⟩
      rw [storeDcid]
      rcases retireLower_cases m retirePriorTo with ⟨m', retired, hlow, heq⟩ | ⟨hlt, heq⟩
      · rw [heq]
        dsimp only
        rw [ConnectionIdDeque.insert]
        split_ifs with hfull
        · exact .full hlow
        · exact .stored hzero hknown (not_lt.mp hbelow) hseq hlow hfull
      · rw [heq]
        exact .overdue hlt

section Outcomes

variable {m m' : ConnectionIdMgr} {cid : ConnectionId} {seq resetToken retirePriorTo : ℕ}
  {retired : List (ℕ × ℕ)} {out : ConnectionIdMgr × Result (List (ℕ × ℕ))}

theorem Lowers.largest (h : Lowers m retirePriorTo m' retired) :
    m'.largestPeerRetirePriorTo = max m.largestPeerRetirePriorTo retirePriorTo := by
  cases h with
  | kept hle => exact (max_eq_left hle).symm
  | raised hlt => exact (max_eq_right hlt.le).symm

theorem Lowers.sublist (h : Lowers m retirePriorTo m' retired) :
    m'.dcids.queue.Sublist m.dcids.queue := by
  cases h with
  | kept => exact .refl _
  | raised => exact List.filter_sublist

theorem AddsDcid.fst (h : AddsDcid m cid seq resetToken retirePriorTo out) :
    ∃ dcids waiting largest, out.1 = { m with
      dcids := dcids, dcidsToRetire := waiting, largestPeerRetirePriorTo := largest } := by
  cases h with
  | refused | repeated | late | overdue => exact ⟨_, _, _, rfl⟩
  | full hlow | stored _ _ _ _ hlow =>
    cases hlow with
    | kept | raised => exact ⟨_, _, _, rfl⟩

theorem AddsDcid.zeroLengthDcid
    (h : AddsDcid m cid seq resetToken retirePriorTo (m', .ok retired)) :
    m.zeroLengthDcid = false := by
  cases h with
  | repeated hzero | late hzero | stored hzero => exact hzero

def IsPeerError (e : Error) : Prop := e = .protocolViolation ∨ e = .connectionIdLimitError

theorem AddsDcid.isPeerError {e : Error}
    (h : AddsDcid m cid seq resetToken retirePriorTo (m', .error e)) : IsPeerError e := by
  cases h with
  | refused | overdue => exact .inl rfl
  | late _ _ _ hr => exact .inl (Except.error.inj (hr.resolve_left nofun))
  | full => exact .inr rfl

end Outcomes

end ConnectionIdMgr

end Tquic
