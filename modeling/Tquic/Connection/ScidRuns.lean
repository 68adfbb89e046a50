import Tquic.Connection.Advertised

/-!
# Source ids over time

A NEW_CONNECTION_ID frame asks for the retirement of older ids only, and an id that cannot be
issued changes nothing, unless ids are replaced that wait to be announced, or there is no token or
no room for the new one.
-/

namespace Tquic.ConnectionIdMgr

open List LinkWriter

variable {m : ConnectionIdMgr}

inductive ScidOp where
  | addScid (cid : ConnectionId) (resetToken : Option ℕ) (advertise : Bool) (pathId : Option ℕ)
      (retireIfNeeded : Bool)
  | retireScid (seq : ℕ) (pktDcid : ConnectionId)
  | setScidLimit (limit : ℕ)
  | mark (seq : ℕ) (advertise : Bool)

def scidStep (m : ConnectionIdMgr) : ScidOp → Exec (ConnectionIdMgr × Bool)
  | .addScid cid resetToken advertise pathId retireIfNeeded =>
    let out := m.addScid cid resetToken advertise pathId retireIfNeeded
    .ok (out.1, out.2.isOk)
  | .retireScid seq pktDcid =>
    let out := m.retireScid seq pktDcid
    .ok (out.1, out.2.isOk)
  | .setScidLimit limit => .ok (m.setScidLimit limit, true)
  | .mark seq advertise => .ok (m.markScidToAdvertise seq advertise, true)

/-- An id that replaces another has a token and room, and does not replace one that waits to be
announced; no id to be retired is announced again. -/
def InTurn (m : ConnectionIdMgr) : ScidOp → Prop
  | .addScid _ resetToken _ _ retireIfNeeded =>
    m.scidLimit ≤ m.scids.queue.length → retireIfNeeded = true →
      resetToken ≠ none ∧ m.scids.queue.length ≠ m.scids.capacity ∧
        ∀ seq ∈ m.scidsToAdvertise, ∃ e ∈ m.scids.queue, m.retirePriorTo ≤ e.seq ∧ e.seq < seq
  | .mark seq advertise => advertise = true → m.retirePriorTo ≤ seq
  | _ => True

instance (m : ConnectionIdMgr) (op : ScidOp) : Decidable (m.InTurn op) := by
  unfold InTurn
  split <;> infer_instance

structure Turned (m : ConnectionIdMgr) : Prop where
  sourced : m.Sourced
  prior : m.retirePriorTo ≤ m.nextScidSeq
  waiting : ∀ e ∈ m.scids.queue, e.seq ∈ m.scidsToAdvertise → m.retirePriorTo ≤ e.seq

theorem mem_markScidToAdvertise {seq s : ℕ} {advertise : Bool}
    (h : s ∈ (m.markScidToAdvertise seq advertise).scidsToAdvertise) :
    s ∈ m.scidsToAdvertise ∨ s = seq ∧ advertise = true := by
  cases advertise with
  | true => exact (mem_append.mp h).imp_right fun h => ⟨mem_singleton.mp h, rfl⟩
  | false => exact .inl (mem_filter.mp h).1

theorem Turned.forced (h : m.Turned) {retireIfNeeded : Bool} {lowest : ℕ}
    (hforced : m.Forced retireIfNeeded lowest) (hwait : m.scidLimit ≤ m.scids.queue.length →
      retireIfNeeded = true → ∀ seq ∈ m.scidsToAdvertise,
        ∃ e ∈ m.scids.queue, m.retirePriorTo ≤ e.seq ∧ e.seq < seq) :
    lowest + 1 ≤ m.nextScidSeq ∧ ∀ seq ∈ m.scidsToAdvertise, lowest + 1 ≤ seq := by
  obtain ⟨hfull, hretire, hlowest⟩ := hforced
  obtain ⟨⟨e, he, rfl⟩, -, hleast⟩ := lowestActiveScidSeq_eq_ok hlowest
  refine ⟨h.sourced.below e he, fun seq hseq => ?_⟩
  obtain ⟨e', he', hactive, hlt⟩ := hwait hfull hretire seq hseq
  exact (Nat.succ_le_succ (hleast e' he' hactive)).trans hlt

theorem Turned.addScid (h : m.Turned) {cid : ConnectionId} {resetToken : Option ℕ}
    {advertise : Bool} {pathId : Option ℕ} {retireIfNeeded : Bool}
    (hop : m.InTurn (.addScid cid resetToken advertise pathId retireIfNeeded)) :
    (m.addScid cid resetToken advertise pathId retireIfNeeded).1.Turned := by
  have hwait := fun hfull hforce => (hop hfull hforce).2.2
  have hcases := m.addScid_cases cid resetToken advertise pathId retireIfNeeded
  generalize m.addScid cid resetToken advertise pathId retireIfNeeded = out at hcases ⊢
  cases hcases with
  | refused => exact h
  | raised lowest e hforced =>
    obtain ⟨hnext, hle⟩ := h.forced hforced hwait
    exact ⟨⟨h.sourced.seqs, h.sourced.below⟩, hnext, fun e _ hmem => hle e.seq hmem⟩
  | stored r hr =>
    have hnew : r ≤ m.nextScidSeq ∧ ∀ e ∈ m.scids.queue, e.seq ∈ m.scidsToAdvertise →
        r ≤ e.seq := by
      rcases hr with rfl | ⟨lowest, hforced, rfl⟩
      · exact ⟨h.prior, h.waiting⟩
      · obtain ⟨hnext, hle⟩ := h.forced hforced hwait
        exact ⟨hnext, fun e _ hmem => hle e.seq hmem⟩
    refine ⟨⟨?_, fun e he => ?_⟩, hnew.1.trans (Nat.le_succ _), fun e he hmem => ?_⟩
    · exact h.sourced.seqs.concat fun e he => (h.sourced.below e he).ne
    · rcases mem_append.mp he with he | he
      · exact (h.sourced.below e he).trans (Nat.lt_succ_self _)
      · rw [mem_singleton.mp he]
        exact Nat.lt_succ_self _
    · rcases mem_append.mp he with he | he
      · have hne := (h.sourced.below e he).ne
        exact hnew.2 e he ((mem_markScidToAdvertise hmem).resolve_right fun heq => hne heq.1)
      · rw [mem_singleton.mp he]
        exact hnew.1

theorem Turned.retireScid (h : m.Turned) (seq : ℕ) (pktDcid : ConnectionId) :
    (m.retireScid seq pktDcid).1.Turned ∧
      m.retirePriorTo ≤ (m.retireScid seq pktDcid).1.retirePriorTo := by
  have hsourced := h.sourced.retireScid seq pktDcid
  obtain ⟨queue, r, hfst, hqueue, hr⟩ := m.retireScid_fst seq pktDcid
  rw [hfst] at hsourced ⊢
  have hsub : ∀ e ∈ queue, e ∈ m.scids.queue := by
    rcases hqueue with rfl | rfl
    · exact fun e he => he
    · exact fun e he => (Keyed.remove_sublist _ _).subset he
  rcases hr with rfl | hlowest
  · exact ⟨⟨hsourced, h.prior, fun e he => h.waiting e (hsub e he)⟩, le_rfl⟩
  · obtain ⟨⟨e, he, hseq⟩, hle, hleast⟩ := lowestActiveScidSeq_eq_ok hlowest
    have hbelow := h.sourced.below e (hsub e he)
    refine ⟨⟨hsourced, (hseq ▸ hbelow).le, fun e' he' hmem => ?_⟩, hle⟩
    exact hleast e' he' (h.waiting e' (hsub e' he') hmem)

theorem Turned.step (h : m.Turned) {m' : ConnectionIdMgr} {op : ScidOp} {o : Bool}
    (hop : m.InTurn op) (hstep : m.scidStep op = .ok (m', o)) :
    m'.Turned ∧ m.retirePriorTo ≤ m'.retirePriorTo := by
  cases op with
  | addScid cid resetToken advertise pathId retireIfNeeded =>
    cases hstep
    refine ⟨h.addScid hop, ?_⟩
    have hcases := m.addScid_cases cid resetToken advertise pathId retireIfNeeded
    generalize m.addScid cid resetToken advertise pathId retireIfNeeded = out at hcases ⊢
    have hforced : ∀ lowest, m.Forced retireIfNeeded lowest → m.retirePriorTo ≤ lowest + 1 :=
      fun lowest hlowest => (lowestActiveScidSeq_eq_ok hlowest.2.2).2.1.trans (Nat.le_succ _)
    cases hcases with
    | refused => exact le_rfl
    | raised lowest e hlowest => exact hforced lowest hlowest
    | stored r hr =>
      rcases hr with rfl | ⟨lowest, hlowest, rfl⟩
      · exact le_rfl
      · exact hforced lowest hlowest
  | retireScid seq pktDcid =>
    cases hstep
    exact h.retireScid seq pktDcid
  | setScidLimit =>
    cases hstep
    exact ⟨⟨⟨h.sourced.seqs, h.sourced.below⟩, h.prior, h.waiting⟩, le_rfl⟩
  | mark =>
    cases hstep
    refine ⟨⟨⟨h.sourced.seqs, h.sourced.below⟩, h.prior, fun e he hmem => ?_⟩, le_rfl⟩
    rcases mem_markScidToAdvertise hmem with hmem | ⟨heq, hadvertise⟩
    · exact h.waiting e he hmem
    · rw [heq]
      exact hop hadvertise

theorem turned_new (dcidLimit : ℕ) (scid : ConnectionId) (pathId : ℕ) (resetToken : Option ℕ) :
    (new dcidLimit scid pathId resetToken).Turned :=
  ⟨⟨nodup_singleton _, by simp [new]⟩, Nat.zero_le _, fun _ _ h => absurd h not_mem_nil⟩

/-- The sequence numbers are distinct and given out before, every frame for a waiting id retires
older ids only, no step lowers the threshold, and a refused id changes nothing. -/
theorem newConnectionId_in_turn {dcidLimit pathId : ℕ} {scid : ConnectionId}
    {resetToken : Option ℕ}
    (h : Exec.Reaches scidStep InTurn (new dcidLimit scid pathId resetToken) m) :
    ((m.scids.queue.map (·.seq)).Nodup ∧ ∀ e ∈ m.scids.queue, e.seq < m.nextScidSeq) ∧
    (∀ seq ∈ m.scidsToAdvertise, ∀ frame, LinkWriter.createNewConnectionIdFrame m seq = .ok frame →
      ∃ retirePriorTo cid token,
        frame = .newConnectionId seq retirePriorTo cid token ∧ retirePriorTo ≤ seq) ∧
    (∀ op m' o, m.InTurn op → m.scidStep op = .ok (m', o) → m.retirePriorTo ≤ m'.retirePriorTo) ∧
    ∀ cid token advertise path retireIfNeeded e,
      m.InTurn (.addScid cid token advertise path retireIfNeeded) →
      (m.addScid cid token advertise path retireIfNeeded).2 = .error e →
      (m.addScid cid token advertise path retireIfNeeded).1 = m := by
  have hinv : m.Turned := h.invariant Turned (fun _ _ _ _ hm hop hstep => (hm.step hop hstep).1)
    (turned_new dcidLimit scid pathId resetToken)
  refine ⟨⟨hinv.sourced.seqs, hinv.sourced.below⟩, ?_, ?_, ?_⟩
  · intro seq hseq frame hframe
    rw [createNewConnectionIdFrame] at hframe
    cases hget : m.scids.get? seq with
    | none => simp [hget] at hframe
    | some item =>
      obtain ⟨hmem, hkey⟩ := Keyed.find?_some hget
      cases htoken : item.resetToken with
      | none => simp [hget, htoken] at hframe
      | some =>
        simp only [hget, htoken] at hframe
        cases hframe
        exact ⟨_, _, _, rfl, hkey ▸ hinv.waiting item hmem (hkey ▸ hseq)⟩
  · exact fun op m' o hop hstep => (hinv.step hop hstep).2
  · intro cid token advertise path retireIfNeeded e hop herror
    have hcases := m.addScid_cases cid token advertise path retireIfNeeded
    generalize m.addScid cid token advertise path retireIfNeeded = out at hcases herror ⊢
    cases hcases with
    | refused => rfl
    | raised lowest e hforced hfailed =>
      obtain ⟨htoken, hroom, -⟩ := hop hforced.1 hforced.2.1
      exact absurd hfailed (not_or.mpr ⟨htoken, hroom⟩)
    | stored => cases herror

def replacement : List ScidOp :=
  [.addScid (.new [8]) (some 6) true none false, .mark 1 false,
    .addScid (.new [9]) (some 7) true none true, .retireScid 0 (.new [8]), .mark 1 true]

theorem newConnectionId_in_turn_replacement :
    let m := Exec.follow scidStep InTurn (new 2 (.new [7]) 0 none) replacement
    m.retirePriorTo = 1 ∧ m.scidsToAdvertise = [2, 1] ∧
      ∀ seq ∈ m.scidsToAdvertise, ∀ frame, LinkWriter.createNewConnectionIdFrame m seq = .ok frame →
        ∃ retirePriorTo cid token,
          frame = .newConnectionId seq retirePriorTo cid token ∧ retirePriorTo ≤ seq := by
  have hreach : Exec.Reaches scidStep InTurn (new 2 (.new [7]) 0 none)
      (Exec.follow scidStep InTurn (new 2 (.new [7]) 0 none) replacement) :=
    Exec.reaches_follow _ _
  exact ⟨by decide +kernel, by decide +kernel, (newConnectionId_in_turn hreach).2.1⟩

/-- A second replacement in a row fails for lack of room, and yet raises the threshold: the
frame for the first new id then asks for its own retirement. -/
theorem replaced_before_announced :
    let m := Exec.follow scidStep (fun _ _ ↦ True) (new 2 (.new [7]) 0 none)
      [.addScid (.new [8]) (some 6) true none false, .addScid (.new [9]) (some 7) true none true]
    let m' := (m.addScid (.new [10]) (some 8) true none true).1
    LinkWriter.createNewConnectionIdFrame m 1 = .ok (.newConnectionId 1 1 (.new [8]) 6) ∧
      (m.addScid (.new [10]) (some 8) true none true).2 = .error .connectionIdLimitError ∧
      LinkWriter.createNewConnectionIdFrame m' 1 = .ok (.newConnectionId 1 2 (.new [8]) 6) := by
  decide +kernel

end Tquic.ConnectionIdMgr
