import Tquic.Base.Run
import Tquic.Connection.Cid

/-!
# Destination ids over any sequence of NEW_CONNECTION_ID frames

Stored destination ids lie at or above the largest threshold the peer has set, and the ids that
wait to be retired below it, unless a frame brings an id that waits for its retirement. There is
room for more ids than the limit, so that the peer has to heed it.
-/

namespace Tquic.ConnectionIdMgr

open List

variable {m m' : ConnectionIdMgr} {cid : ConnectionId} {seq resetToken retirePriorTo : ℕ}

structure Settled (m : ConnectionIdMgr) : Prop where
  seqs : Keyed.Distinct ConnectionIdItem.seq m.dcids.queue
  cids : Keyed.Distinct ConnectionIdItem.cid m.dcids.queue
  above : ∀ e ∈ m.dcids.queue, m.largestPeerRetirePriorTo ≤ e.seq
  queued : ∀ s ∈ m.dcidsToRetire, s < m.largestPeerRetirePriorTo

theorem Settled.not_queued (h : m.Settled) {e : ConnectionIdItem} (he : e ∈ m.dcids.queue) :
    e.seq ∉ m.dcidsToRetire := by
  intro hqueued
  have h₁ := h.above e he
  have h₂ := h.queued e.seq hqueued
  omega

theorem settled_setInitialDcid (dcidLimit : ℕ) (scid : ConnectionId)
    (path : ℕ) (scidToken dcidToken pathId : Option ℕ) :
    ((new dcidLimit scid path scidToken).setInitialDcid cid dcidToken pathId).Settled :=
  ⟨nodup_singleton _, nodup_singleton _, fun e _ => Nat.zero_le e.seq, nofun⟩

/-! ## One call -/

theorem Settled.of_sublist (h : m.Settled) {queue : List ConnectionIdItem} {waiting : List ℕ}
    {threshold : ℕ} (hsub : queue.Sublist m.dcids.queue)
    (habove : ∀ e ∈ queue, threshold ≤ e.seq) (hwaiting : ∀ s ∈ waiting, s < threshold) :
    { m with
      dcids := { m.dcids with queue := queue }
      dcidsToRetire := waiting
      largestPeerRetirePriorTo := threshold }.Settled :=
  ⟨h.seqs.sublist hsub, h.cids.sublist hsub, habove, hwaiting⟩

theorem Settled.lowers (h : m.Settled) {retired : List (ℕ × ℕ)}
    (hlow : Lowers m retirePriorTo m' retired) : m'.Settled := by
  cases hlow with
  | kept => exact h
  | raised hlt =>
    apply h.of_sublist filter_sublist
    · intro e he
      simpa using (mem_filter.mp he).2
    · intro s hs
      rcases mem_append.mp hs with hs | hs
      · exact (h.queued s hs).trans hlt
      · obtain ⟨e, he, rfl⟩ := mem_map.mp hs
        simpa using (mem_filter.mp he).2

theorem known?_eq_none (h : m.known? cid seq = none) {e : ConnectionIdItem}
    (he : e ∈ m.dcids.queue) : e.cid ≠ cid ∧ e.seq ≠ seq := by
  have hne := find?_eq_none.mp h e he
  simpa using hne

variable {out : ConnectionIdMgr × Result (List (ℕ × ℕ))}

theorem AddsDcid.dcidLimit (h : AddsDcid m cid seq resetToken retirePriorTo out) :
    out.1.dcidLimit = m.dcidLimit := by
  obtain ⟨dcids, waiting, largest, hfst⟩ := h.fst
  rw [hfst]

theorem Settled.adds (h : m.Settled) (hseq : seq ∉ m.dcidsToRetire)
    (hadds : AddsDcid m cid seq resetToken retirePriorTo out) : out.1.Settled := by
  cases hadds with
  | refused | repeated => exact h
  | late _ _ hlate =>
    apply h.of_sublist (.refl _) h.above
    intro s hs
    rcases mem_append.mp hs with hs | hs
    · exact h.queued s hs
    · rw [mem_singleton.mp hs]
      exact hlate
  | overdue hlt => exact h.lowers (.raised hlt)
  | full hlow => exact h.lowers hlow
  | @stored m' retired _ hknown hle hwait hlow =>
    have hset := h.lowers hlow
    have hnew : ∀ e ∈ m'.dcids.queue, e.cid ≠ cid ∧ e.seq ≠ seq :=
      fun e he => known?_eq_none hknown (hlow.sublist.subset he)
    refine ⟨hset.seqs.concat fun e he => (hnew e he).2,
      hset.cids.concat fun e he => (hnew e he).1, ?_, hset.queued⟩
    intro e he
    rcases mem_append.mp he with he | he
    · exact hset.above e he
    · rw [mem_singleton.mp he]
      change m'.largestPeerRetirePriorTo ≤ seq
      rw [hlow.largest]
      exact max_le (hwait.resolve_right hseq) hle

theorem AddsDcid.largest (h : AddsDcid m cid seq resetToken retirePriorTo out) :
    m.largestPeerRetirePriorTo ≤ out.1.largestPeerRetirePriorTo ∧
      ∀ retired, out.2 = .ok retired → m.known? cid seq = none →
        retirePriorTo ≤ out.1.largestPeerRetirePriorTo := by
  cases h with
  | refused => exact ⟨le_rfl, fun _ hr => nomatch hr⟩
  | repeated _ hknown => exact ⟨le_rfl, fun _ _ hnone => nomatch hknown.symm.trans hnone⟩
  | late _ hle hlate => exact ⟨le_rfl, fun _ _ _ => hle.trans hlate.le⟩
  | overdue hlt => exact ⟨hlt.le, fun _ hr => nomatch hr⟩
  | full hlow => exact ⟨hlow.largest ▸ le_max_left _ _, fun _ hr => nomatch hr⟩
  | stored _ _ _ _ hlow =>
    exact ⟨hlow.largest ▸ le_max_left _ _, fun _ _ _ => hlow.largest ▸ le_max_right _ _⟩

theorem Settled.markDcidToRetire (h : m.Settled) {retire : Bool}
    (hseq : retire = true → seq < m.largestPeerRetirePriorTo) :
    (m.markDcidToRetire seq retire).Settled := by
  refine ⟨h.seqs, h.cids, h.above, ?_⟩
  intro s hs
  cases retire with
  | true =>
    rcases mem_append.mp hs with hs | hs
    · exact h.queued s hs
    · rw [mem_singleton.mp hs]
      exact hseq rfl
  | false => exact h.queued s (mem_filter.mp hs).1

/-- The ids that stay when the peer sets a threshold. -/
def staying (m : ConnectionIdMgr) (retirePriorTo : ℕ) : List ConnectionIdItem :=
  m.dcids.queue.filter (retirePriorTo ≤ ·.seq)

theorem Lowers.length_le {retired : List (ℕ × ℕ)} (h : m.Settled)
    (hlow : Lowers m retirePriorTo m' retired) :
    m'.dcids.queue.length ≤ (m.staying retirePriorTo).length := by
  cases hlow with
  | raised => exact le_rfl
  | kept hle =>
    rw [staying, filter_eq_self.mpr fun e he => by simpa using hle.trans (h.above e he)]

theorem AddsDcid.length_le {limit : ℕ} (h : m.Settled) (hlen : m.dcids.queue.length ≤ limit)
    (hadds : AddsDcid m cid seq resetToken retirePriorTo out)
    (hroom : m.known? cid seq = none → (m.staying retirePriorTo).length < limit) :
    out.1.dcids.queue.length ≤ limit := by
  cases hadds with
  | refused | repeated | late => exact hlen
  | overdue => exact (length_filter_le _ _).trans hlen
  | full hlow => exact hlow.sublist.length_le.trans hlen
  | stored _ hknown _ _ hlow =>
    have hstay := hlow.length_le h
    have hlt := hroom hknown
    simp only [length_append, length_singleton]
    omega

/-! ## Runs -/

/-- The manager with the RETIRE_CONNECTION_ID frames sent, and the largest threshold in a frame that
was accepted. -/
structure DcidWorld where
  mgr : ConnectionIdMgr
  sent : List ℕ
  heard : ℕ

inductive DcidOp where
  | add (cid : ConnectionId) (seq resetToken retirePriorTo : ℕ)
  | sendRetire
  | loseRetire (seq : ℕ)

namespace DcidWorld

def start (dcidLimit : ℕ) (scid dcid : ConnectionId) (dcidToken : Option ℕ) : DcidWorld where
  mgr := (ConnectionIdMgr.new dcidLimit scid 0 none).setInitialDcid dcid dcidToken (some 0)
  sent := []
  heard := 0

def add (w : DcidWorld) (cid : ConnectionId) (seq resetToken retirePriorTo : ℕ) :
    DcidWorld × Result Unit :=
  match w.mgr.addDcid cid seq resetToken retirePriorTo with
  | (mgr, .error e) => ({ w with mgr := mgr }, .error e)
  | (mgr, .ok _) => ({ w with mgr := mgr, heard := max w.heard retirePriorTo }, .ok ())

def sendRetire (w : DcidWorld) : DcidWorld :=
  match w.mgr.dcidsToRetire with
  | [] => w
  | seq :: _ => { w with mgr := w.mgr.markDcidToRetire seq false, sent := seq :: w.sent }

def loseRetire (w : DcidWorld) (seq : ℕ) : DcidWorld :=
  if seq ∈ w.sent then { w with mgr := w.mgr.markDcidToRetire seq true } else w

def step (w : DcidWorld) : DcidOp → Exec (DcidWorld × Result Unit)
  | .add cid seq resetToken retirePriorTo => .ok (w.add cid seq resetToken retirePriorTo)
  | .sendRetire => .ok (w.sendRetire, .ok ())
  | .loseRetire seq => .ok (w.loseRetire seq, .ok ())

/-- The peer does not repeat an id that waits for its retirement, raises the threshold with new
ids only, and sends a new one only where fewer ids than the limit stay. -/
def Heeds (w : DcidWorld) : DcidOp → Prop
  | .add cid seq _ retirePriorTo => seq ∉ w.mgr.dcidsToRetire ∧
      (retirePriorTo ≤ w.mgr.largestPeerRetirePriorTo ∨ w.mgr.known? cid seq = none) ∧
      (w.mgr.known? cid seq = none →
        (w.mgr.staying retirePriorTo).length < w.mgr.dcidLimit)
  | .sendRetire => True
  | .loseRetire _ => True

instance (w : DcidWorld) (op : DcidOp) : Decidable (w.Heeds op) :=
  match op with
  | .add _ _ _ _ => inferInstanceAs (Decidable (_ ∧ _))
  | .sendRetire | .loseRetire _ => inferInstanceAs (Decidable True)

structure Inv (limit : ℕ) (w : DcidWorld) : Prop where
  settled : w.mgr.Settled
  limit_eq : w.mgr.dcidLimit = limit
  length_le : w.mgr.dcids.queue.length ≤ limit
  heard_le : w.heard ≤ w.mgr.largestPeerRetirePriorTo
  sent_lt : ∀ s ∈ w.sent, s < w.mgr.largestPeerRetirePriorTo

variable {w w' : DcidWorld} {limit : ℕ}

theorem Inv.add (h : w.Inv limit) (hop : w.Heeds (.add cid seq resetToken retirePriorTo)) :
    (w.add cid seq resetToken retirePriorTo).1.Inv limit := by
  obtain ⟨hseq, hraise, hroom⟩ := hop
  have hadds := addDcid_cases w.mgr cid seq resetToken retirePriorTo
  have hset := h.settled.adds hseq hadds
  have hlimit := hadds.dcidLimit.trans h.limit_eq
  rw [h.limit_eq] at hroom
  have hlen := AddsDcid.length_le h.settled h.length_le hadds hroom
  obtain ⟨hle, hheard⟩ := hadds.largest
  rw [DcidWorld.add]
  generalize w.mgr.addDcid cid seq resetToken retirePriorTo = out at hset hlimit hlen hle hheard ⊢
  obtain ⟨mgr, r⟩ := out
  cases r with
  | error =>
    exact ⟨hset, hlimit, hlen, h.heard_le.trans hle, fun s hs => (h.sent_lt s hs).trans_le hle⟩
  | ok retired =>
    refine ⟨hset, hlimit, hlen, max_le (h.heard_le.trans hle) ?_,
      fun s hs => (h.sent_lt s hs).trans_le hle⟩
    exact hraise.elim (fun hold => hold.trans hle) (hheard retired rfl)

theorem Inv.step (h : w.Inv limit) {op : DcidOp} (hop : w.Heeds op) {r : Result Unit}
    (hstep : w.step op = .ok (w', r)) : w'.Inv limit := by
  cases op with
  | add =>
    obtain ⟨rfl, -⟩ := Prod.mk.inj (Exec.ok.inj hstep)
    exact h.add hop
  | sendRetire =>
    obtain ⟨rfl, -⟩ := Prod.mk.inj (Exec.ok.inj hstep)
    rw [sendRetire]
    cases hqueue : w.mgr.dcidsToRetire with
    | nil => exact h
    | cons =>
      refine ⟨h.settled.markDcidToRetire (nofun), h.limit_eq, h.length_le, h.heard_le, ?_⟩
      intro s hs
      rcases mem_cons.mp hs with rfl | hs
      · exact h.settled.queued s (by simp [hqueue])
      · exact h.sent_lt s hs
  | loseRetire seq =>
    obtain ⟨rfl, -⟩ := Prod.mk.inj (Exec.ok.inj hstep)
    rw [loseRetire]
    split_ifs with hsent
    · exact ⟨h.settled.markDcidToRetire fun _ => h.sent_lt seq hsent, h.limit_eq, h.length_le,
        h.heard_le, h.sent_lt⟩
    · exact h

theorem inv_start {dcidLimit : ℕ} (hlimit : 2 ≤ dcidLimit) (scid dcid : ConnectionId)
    (dcidToken : Option ℕ) : (start dcidLimit scid dcid dcidToken).Inv dcidLimit :=
  ⟨settled_setInitialDcid dcidLimit scid 0 none dcidToken (some 0), rfl, one_le_two.trans hlimit,
    le_rfl, nofun⟩

/-- After any sequence of calls and of RETIRE_CONNECTION_ID frames sent and lost, with a peer that
heeds the limit and its own thresholds. -/
theorem stored_ids_above_threshold {dcidLimit : ℕ} (hlimit : 2 ≤ dcidLimit)
    (scid dcid : ConnectionId) (dcidToken : Option ℕ)
    (h : Exec.Reaches step Heeds (start dcidLimit scid dcid dcidToken) w) :
    (∀ e ∈ w.mgr.dcids.queue, w.heard ≤ e.seq ∧ e.seq ∉ w.mgr.dcidsToRetire) ∧
      Keyed.Distinct ConnectionIdItem.seq w.mgr.dcids.queue ∧
      Keyed.Distinct ConnectionIdItem.cid w.mgr.dcids.queue ∧
      w.mgr.dcids.queue.length ≤ dcidLimit := by
  have hinv : w.Inv dcidLimit :=
    h.invariant (Inv dcidLimit) (fun _ _ _ _ hw hop hstep => hw.step hop hstep)
      (inv_start hlimit scid dcid dcidToken)
  exact ⟨fun e he => ⟨hinv.heard_le.trans (hinv.settled.above e he), hinv.settled.not_queued he⟩,
    hinv.settled.seqs, hinv.settled.cids, hinv.length_le⟩

/-- Id 1 arrives, then id 2 retires the first; the RETIRE_CONNECTION_ID frame is sent and lost. -/
def renewal : List DcidOp :=
  [.add (.new [1]) 1 11 0, .add (.new [2]) 2 12 1, .sendRetire, .loseRetire 0]

def small : DcidWorld := start 2 (.new [9]) (.new [0]) none

theorem stored_ids_above_threshold_renewal :
    (Exec.follow step Heeds small renewal).heard = 1 ∧
      ∀ e ∈ (Exec.follow step Heeds small renewal).mgr.dcids.queue,
        (Exec.follow step Heeds small renewal).heard ≤ e.seq ∧
          e.seq ∉ (Exec.follow step Heeds small renewal).mgr.dcidsToRetire :=
  ⟨by decide +kernel,
    (stored_ids_above_threshold le_rfl (.new [9]) (.new [0]) none
      (Exec.reaches_follow small renewal)).1⟩

/-- Three ids are stored although the limit is two; a frame for an id that waits for its retirement
stores it below the threshold; and the threshold in a frame for a stored id is ignored. -/
theorem limit_exceeded :
    (Exec.follow step (fun _ _ ↦ True) small
        [.add (.new [1]) 1 11 0, .add (.new [2]) 2 12 0]).mgr.dcids.queue.length = 3 ∧
      (let w := Exec.follow step (fun _ _ ↦ True) small
        [.add (.new [1]) 1 11 1, .add (.new [0]) 0 10 0]
       ∃ e ∈ w.mgr.dcids.queue, e.seq < w.heard ∧ e.seq ∈ w.mgr.dcidsToRetire) ∧
      (let w := Exec.follow step (fun _ _ ↦ True) small
        [.add (.new [1]) 1 11 0, .add (.new [1]) 1 11 1]
       ∃ e ∈ w.mgr.dcids.queue, e.seq < w.heard) := by
  decide +kernel

end DcidWorld

end Tquic.ConnectionIdMgr
