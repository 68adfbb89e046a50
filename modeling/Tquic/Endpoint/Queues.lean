import Tquic.Endpoint.Invariant

/-!
# The work queues and the connection table

Every index in a queue belongs to a connection in the table that carries the flag of that queue,
except for a connection that was just inserted and does not know its index yet.
-/

namespace Tquic

open Option ConnectionQueues ConnectionTable

namespace Endpoint

variable {C W : Type}

def coreAt (ep : Endpoint C W) (idx : ℕ) : Option C := (ep.conns.get? idx).map Conn.core

/-- The queues hold connections of the table; `hole` is a connection that does not
know its index yet. -/
structure Queued (hole : Option ℕ) (ep : Endpoint C W) : Prop where
  index : ∀ {i conn}, ep.conns.get? i = some conn → some i ≠ hole → conn.index = some i
  member : ∀ {work i}, i ∈ ep.queues.members work →
    some i ≠ hole ∧ ∃ conn, ep.conns.get? i = some conn ∧ conn.flags work = true

variable {hole : Option ℕ} {ep ep' : Endpoint C W} {idx : ℕ}

theorem Queued.congr (h : Queued hole ep) (hconns : ep'.conns = ep.conns)
    (hqueues : ep'.queues = ep.queues) : Queued hole ep' := by
  constructor
  · rw [hconns]
    exact h.index
  · rw [hconns, hqueues]
    exact h.member

theorem Queued.new (size : ℕ) (world : W) : Queued none (new size world : Endpoint C W) where
  index h := by cases h
  member h := by cases h

theorem Queued.setCore (h : Queued hole ep) (idx : ℕ) (core : C) :
    Queued hole (ep.setCore idx core) := by
  have hget := ep.conns.get?_update idx fun conn => { conn with core := core }
  constructor
  · intro i conn' hconn' hi
    obtain ⟨conn, hconn, rfl⟩ := map_eq_some_iff.mp ((hget i).symm.trans hconn')
    have hindex := h.index hconn hi
    split <;> exact hindex
  · intro work i hi
    obtain ⟨hhole, conn, hconn, hflag⟩ := h.member hi
    refine ⟨hhole, _, (hget i).trans (by rw [hconn]; rfl), ?_⟩
    split <;> exact hflag

theorem Queued.setIndex (h : Queued (some idx) ep) : Queued none (ep.setIndex idx) := by
  have hget := ep.conns.get?_update idx fun conn => { conn with index := some idx }
  constructor
  · intro i conn' hconn' _
    obtain ⟨conn, hconn, rfl⟩ := map_eq_some_iff.mp ((hget i).symm.trans hconn')
    split
    · next hi => rw [hi]
    · next hi => exact h.index hconn (by simpa using hi)
  · intro work i hi
    obtain ⟨-, conn, hconn, hflag⟩ := h.member hi
    refine ⟨by simp, _, (hget i).trans (by rw [hconn]; rfl), ?_⟩
    split <;> exact hflag

theorem Queued.insert (h : Queued none ep) (core : C) :
    Queued (some ep.conns.nextIndex) { ep with conns := ep.conns.insert core } := by
  constructor
  · intro i conn hconn hi
    have hne : i ≠ ep.conns.nextIndex := by simpa using hi
    exact h.index ((ep.conns.get?_insert_of_ne hne core).symm.trans hconn) (by simp)
  · intro work i hi
    obtain ⟨-, conn, hconn, hflag⟩ := h.member hi
    have hne : i ≠ ep.conns.nextIndex := by
      rintro rfl
      rw [ep.conns.get?_nextIndex] at hconn
      cases hconn
    exact ⟨by simpa using hne, conn, (ep.conns.get?_insert_of_ne hne core).trans hconn, hflag⟩

theorem Queued.remove (h : Queued none ep) (hidx : ∀ work, idx ∉ ep.queues.members work) :
    Queued none { ep with conns := ep.conns.remove idx } := by
  constructor
  · intro i conn hconn _
    by_cases hi : i = idx
    · subst hi
      rw [ep.conns.get?_remove_self] at hconn
      cases hconn
    · exact h.index ((ep.conns.get?_remove_of_ne hi).symm.trans hconn) (by simp)
  · intro work i hi
    obtain ⟨-, conn, hconn, hflag⟩ := h.member hi
    have hne : i ≠ idx := fun heq => hidx work (heq ▸ hi)
    exact ⟨by simp, conn, (ep.conns.get?_remove_of_ne hne).trans hconn, hflag⟩

/-! ## Marking -/

variable {work : Work} {queued : Bool}

/-- Marking does nothing, or flips the flag of a connection and puts it into the queue or takes it
out. -/
theorem Queued.mark_cases (h : Queued none ep) (work : Work) (idx : ℕ) (queued : Bool) :
    (ep.mark work idx queued = ep ∧
      ∀ conn, ep.conns.get? idx = some conn → conn.flags work = queued) ∨
    ∃ conn, ep.conns.get? idx = some conn ∧ conn.flags work = !queued ∧
      ep.mark work idx queued =
        { ep with
          conns := ep.conns.update idx fun conn =>
            { conn with flags := Function.update conn.flags work queued }
          queues := ep.queues.put work idx queued } := by
  unfold mark
  cases hconn : ep.conns.get? idx with
  | none => exact .inl ⟨rfl, by simp⟩
  | some conn =>
    have hindex := h.index hconn (by simp)
    dsimp only
    split_ifs with hflag
    · exact .inl ⟨rfl, by rintro conn' ⟨⟩; exact hflag⟩
    · rw [hindex]
      exact .inr ⟨conn, rfl, Bool.eq_not.mpr hflag, rfl⟩

theorem Queued.mark (h : Queued none ep) (work : Work) (idx : ℕ) (queued : Bool) :
    Queued none (ep.mark work idx queued) := by
  rcases h.mark_cases work idx queued with ⟨heq, -⟩ | ⟨conn₀, hconn₀, -, heq⟩
  · rwa [heq]
  rw [heq]
  have hget := ep.conns.get?_update idx fun conn =>
    { conn with flags := Function.update conn.flags work queued }
  constructor
  · intro i conn' hconn' hi
    obtain ⟨conn, hconn, rfl⟩ := map_eq_some_iff.mp ((hget i).symm.trans hconn')
    have hindex := h.index hconn hi
    split <;> exact hindex
  · intro work' i hi
    -- A member is an old one, or the connection that was just put in.
    have hold : i ∈ ep.queues.members work' ∧ ¬ (i = idx ∧ work' = work) ∨
        i = idx ∧ work' = work ∧ queued = true := by
      by_cases hwork : work' = work
      · subst hwork
        cases queued <;> simp_all [put]
        tauto
      · simp_all [put]
    rcases hold with ⟨hi, hne⟩ | ⟨rfl, rfl, rfl⟩
    · obtain ⟨-, conn, hconn, hflag⟩ := h.member hi
      refine ⟨by simp, _, (hget i).trans (by rw [hconn]; rfl), ?_⟩
      split
      · next hidx =>
          have hwork : work' ≠ work := fun hwork => hne ⟨hidx, hwork⟩
          simpa [hwork] using hflag
      · exact hflag
    · refine ⟨by simp, _, (hget i).trans (by rw [hconn₀]; rfl), ?_⟩
      simp

@[simp] theorem world_mark (ep : Endpoint C W) (work : Work) (idx : ℕ) (queued : Bool) :
    (ep.mark work idx queued).world = ep.world := by
  unfold mark
  repeat' split
  all_goals rfl

theorem members_mark_of_ne (ep : Endpoint C W) {work work' : Work} (hwork : work' ≠ work)
    (idx : ℕ) (queued : Bool) :
    (ep.mark work idx queued).queues.members work' = ep.queues.members work' := by
  unfold mark
  repeat' split
  all_goals first | rfl | exact Function.update_of_ne hwork _ _

theorem coreAt_setCore (ep : Endpoint C W) (idx : ℕ) (core : C) (i : ℕ) :
    (ep.setCore idx core).coreAt i = (ep.coreAt i).map fun c => if i = idx then core else c := by
  rw [coreAt, setCore, get?_update, coreAt, map_map, map_map]
  congr 1
  funext conn
  split <;> rfl

@[simp] theorem coreAt_mark (ep : Endpoint C W) (work : Work) (idx : ℕ) (queued : Bool) (i : ℕ) :
    (ep.mark work idx queued).coreAt i = ep.coreAt i := by
  unfold mark
  split
  · rfl
  · split
    · rfl
    · split
      · rfl
      · rw [coreAt, get?_update, coreAt, map_map]
        congr 1
        funext conn
        split <;> rfl

theorem Queued.members_mark_false (h : Queued none ep) (work : Work) (idx : ℕ) :
    (ep.mark work idx false).queues.members work = (ep.queues.members work).erase idx := by
  rcases h.mark_cases work idx false with ⟨heq, hflag⟩ | ⟨conn, -, -, heq⟩
  · rw [heq, Finset.erase_eq_of_notMem]
    intro hmem
    obtain ⟨-, conn, hconn, htrue⟩ := h.member hmem
    rw [hflag conn hconn] at htrue
    cases htrue
  · rw [heq]
    simp [put]

theorem Queued.members_mark_true (h : Queued none ep) (work : Work) (idx : ℕ) :
    ep.queues.members work ⊆ (ep.mark work idx true).queues.members work ∧
      ((ep.mark work idx true).queues.members work).card ≤ (ep.queues.members work).card + 1 := by
  rcases h.mark_cases work idx true with ⟨heq, -⟩ | ⟨conn, -, -, heq⟩
  · rw [heq]
    exact ⟨subset_rfl, Nat.le_succ _⟩
  · rw [heq]
    simp only [put, Function.update_self, if_true]
    exact ⟨Finset.subset_insert _ _, Finset.card_insert_le _ _⟩

/-- The connection at `idx`, if there is one, carries the tickable flag. -/
def Flagged (idx : ℕ) (ep : Endpoint C W) : Prop :=
  ∀ conn, ep.conns.get? idx = some conn → conn.flags .tickable = true

theorem Flagged.mark_eq (h : Flagged idx ep) : ep.mark .tickable idx true = ep := by
  unfold mark
  split
  · rfl
  · next conn hconn => rw [if_pos (h conn hconn)]

theorem Flagged.setCore (h : Flagged idx ep) (core : C) : Flagged idx (ep.setCore idx core) := by
  intro conn' hconn'
  rw [Endpoint.setCore, get?_update] at hconn'
  obtain ⟨conn, hconn, rfl⟩ := map_eq_some_iff.mp hconn'
  have hflag := h conn hconn
  split <;> exact hflag

theorem Flagged.mark (h : Flagged idx ep) (hq : Queued none ep) (i : ℕ) :
    Flagged idx (ep.mark .tickable i true) := by
  rcases hq.mark_cases .tickable i true with ⟨heq, -⟩ | ⟨conn₀, -, -, heq⟩
  · rwa [heq]
  rw [heq]
  intro conn' hconn'
  obtain ⟨conn, hconn, rfl⟩ :=
    map_eq_some_iff.mp ((ep.conns.get?_update i _ idx).symm.trans hconn')
  split
  · simp
  · exact h conn hconn

theorem Queued.flagged (h : Queued none ep) (hidx : idx ∈ ep.queues.tickable) : Flagged idx ep := by
  intro conn hconn
  obtain ⟨-, conn', hconn', hflag⟩ := h.member hidx
  rwa [some.inj (hconn.symm.trans hconn')]

theorem Queued.flagged_mark (h : Queued none ep) (idx : ℕ) :
    Flagged idx (ep.mark .tickable idx true) := by
  rcases h.mark_cases .tickable idx true with ⟨heq, hflag⟩ | ⟨conn₀, -, -, heq⟩
  · rw [heq]
    exact hflag
  rw [heq]
  intro conn' hconn'
  obtain ⟨conn, -, rfl⟩ :=
    map_eq_some_iff.mp ((ep.conns.get?_update idx _ idx).symm.trans hconn')
  simp

theorem queued_invariant :
    Env.Invariant (Queued none : Endpoint C W → Prop) (fun idx => Queued (some idx)) where
  frame h hconns hqueues _ := h.congr hconns hqueues
  core idx core h := h.setCore idx core
  mark idx h := h.mark .tickable idx true
  packet _ h := h.congr rfl rfl
  insert core h := h.insert core
  pending h hconns hqueues _ := h.congr hconns hqueues
  setIndex h := h.setIndex

end Endpoint

end Tquic
