import Tquic.Connection.Actives

/-!
# Abandoning paths

The last path of a multipath connection is protected by a count of the active paths, which
includes those that were given up and are still active.
-/

namespace Tquic

open Tquic.Path List

abbrev Path.Usable (p : Path) : Prop := p.isActive = true ∧ p.isAbandon = false

namespace Links

variable {c c' : Links}

inductive PathOp where
  | abandonPath (addrs : SocketAddr × SocketAddr)
  | pathResponse (pathId : ℕ) (data : UInt64)
  | challengeSent (pathId : ℕ) (data : UInt64) (pktSize : ℕ) (now : ℤ)
  | chalTimeout (now : ℤ)
  | keepAlive (now : ℤ) (timeout : ℕ)

def pathStep (c : Links) : PathOp → Exec (Links × Result Unit)
  | .abandonPath addrs => .ok (c.abandonPath addrs)
  | .pathResponse pathId data =>
    .ok ({ c with paths := c.paths.onPathRespReceived pathId data }, .ok ())
  | .challengeSent pathId data pktSize now =>
    .ok ({ c with paths := c.paths.onPathChalSent pathId data pktSize now }, .ok ())
  | .chalTimeout now => .ok ({ c with paths := c.paths.onPathChalTimeout now }, .ok ())
  | .keepAlive now timeout =>
    .ok ({ c with paths := c.paths.abandonStalePaths now timeout }, .ok ())

/-- A path is given up only when no active path was given up before. -/
def Spaced (c : Links) : PathOp → Prop
  | .abandonPath _ => ∀ p ∈ c.paths.paths, p.isActive = true → p.isAbandon = false
  | _ => True

instance (c : Links) (op : PathOp) : Decidable (c.Spaced op) := by
  unfold Spaced
  split <;> infer_instance

/-- A path is usable, and active paths are validated: time takes them out of use no more. -/
structure Manned (c : Links) : Prop where
  usable : ∃ p ∈ c.paths.paths, p.Usable
  validated : ∀ p ∈ c.paths.paths, p.active = true → p.state = .validated

theorem Manned.turns (h : c.Manned) {m : PathMap} (hturns : c.paths.Turns m)
    (hvalid : ∀ p ∈ m.paths, p.active = true → p.state = .validated) :
    { c with paths := m }.Manned := by
  refine ⟨?_, hvalid⟩
  obtain ⟨p, hp, hactive, hkept⟩ := h.usable
  obtain ⟨hon, hdcid⟩ := Bool.and_eq_true_iff.mp hactive
  obtain ⟨i, hi⟩ := getElem?_of_mem hp
  have hlt : i < m.paths.length := by
    rw [hturns.length_eq]
    exact (List.getElem?_eq_some_iff.mp hi).1
  obtain ⟨q, hq, hturn⟩ := exists_left_of_forall₂ hturns.paths (getElem?_eq_getElem hlt)
  cases hi.symm.trans hq
  have hflags := hturn.steady hon (h.validated p hp hon) hkept
  refine ⟨m.paths[i], getElem_mem hlt, ?_, ?_⟩
  · rw [isActive, hturn.dcidSeq, hdcid, Bool.and_true]
    exact (congrArg Prod.fst hflags).trans hon
  · exact (congrArg (·.2.2) hflags).trans hkept

theorem validated_pathResponse {p : Path} {multipath : Bool} (data : UInt64)
    (h : p.active = true → p.state = .validated) :
    (p.onPathRespReceived data multipath).1.active = true →
      (p.onPathRespReceived data multipath).1.state = .validated := by
  rw [onPathRespReceived]
  split_ifs with hstate
  · exact h
  · dsimp only
    split_ifs
    · intro _
      rw [promoteTo]
      split_ifs with hrank
      · rfl
      · cases hpromoted : (promoteTo _ PathState.validatingMtu).state with
        | validated => rfl
        | failed | unknown | validating | validatingMtu =>
          rw [hpromoted] at hrank
          exact absurd hrank (by decide)
    · intro hactive
      simp only [promoteTo_active] at hactive
      exact absurd (h hactive) hstate

theorem Manned.step (h : c.Manned) {op : PathOp} {r : Result Unit} (hop : c.Spaced op)
    (hstep : c.pathStep op = .ok (c', r)) : c'.Manned := by
  cases op with
  | abandonPath addrs =>
    obtain rfl : (c.abandonPath addrs).1 = c' := congrArg Prod.fst (Exec.ok.inj hstep)
    rw [abandonPath]
    split_ifs
    · exact h
    cases c.paths.getPathId addrs with
    | none => exact h
    | some i =>
      dsimp only
      cases hpath : c.paths.get? i with
      | none => exact h
      | some path =>
        dsimp only
        split_ifs with hlast
        · exact h
        have hvalid : ∀ p ∈ (c.paths.update i fun p => { p with isAbandon := true }).paths,
            p.active = true → p.state = .validated := by
          intro p hp
          rcases mem_update hp with hp | ⟨q, hq, rfl⟩
          · exact h.validated p hp
          · exact h.validated q (mem_of_getElem? hq)
        refine ⟨?_, hvalid⟩
        -- some other path is active, and by the promise it was not given up
        obtain ⟨j, q, hq, hactive, hne⟩ : ∃ j q, c.paths.get? j = some q ∧ q.isActive = true ∧
            j ≠ i := by
          by_contra hnone
          push Not at hnone
          obtain ⟨p, hp, hactive, -⟩ := h.usable
          obtain ⟨j, hj⟩ := getElem?_of_mem hp
          obtain rfl := hnone j p hj hactive
          cases hj.symm.trans hpath
          exact hlast ⟨hactive, (countP_le_one_iff hj hactive).mpr hnone⟩
        refine ⟨q, mem_of_getElem? (i := j) ?_, hactive, hop q (mem_of_getElem? hq) hactive⟩
        exact (get?_update _ _ _ _).trans ((if_neg hne.symm).trans hq)
  | pathResponse i data =>
    cases hstep
    refine h.turns (c.paths.turns_onPathRespReceived i data) fun p hp => ?_
    rcases mem_update hp with hp | ⟨q, hq, rfl⟩
    · exact h.validated p hp
    · exact validated_pathResponse data (h.validated q (mem_of_getElem? hq))
  | challengeSent i data pktSize now =>
    cases hstep
    refine h.turns (c.paths.turns_onPathChalSent i data pktSize now) fun p hp hactive => ?_
    rcases mem_update hp with hp | ⟨q, hq, rfl⟩
    · exact h.validated p hp hactive
    · simp only [onPathChalSent, promoteTo_active] at hactive
      have hstate := h.validated q (mem_of_getElem? hq) hactive
      simp [onPathChalSent, promoteTo_of_validated hstate, hstate]
  | chalTimeout now =>
    cases hstep
    refine h.turns (c.paths.turns_onPathChalTimeout now) fun p hp => ?_
    obtain ⟨q, hq, rfl⟩ := mem_map.mp hp
    rw [onPathChalTimeout]
    split_ifs with hstate
    · exact h.validated q hq
    · intro hactive
      have hvalid := h.validated q hq ((expireChals_core now q.sentChals q).2.2 hactive)
      exact absurd ⟨by simp [hvalid], by simp [hvalid]⟩ hstate
  | keepAlive now timeout =>
    cases hstep
    refine h.turns (c.paths.turns_abandonStalePaths now timeout) fun p hp => ?_
    rw [PathMap.abandonStalePaths] at hp
    split_ifs at hp
    · exact h.validated p hp
    · obtain ⟨q, hq, rfl⟩ := mem_map.mp hp
      split_ifs
      · exact h.validated q hq
      · rintro ⟨⟩
      · exact h.validated q hq

/-- From a connection with a usable path whose active paths are validated, in every state reached a
path is usable, and the last one cannot be given up. -/
theorem abandonPath_spares_last {c₀ : Links} (hstart : c₀.Manned)
    (h : Exec.Reaches pathStep Spaced c₀ c) :
    (∃ p ∈ c.paths.paths, p.Usable) ∧
      ∀ addrs i path, c.enableMultipath = true → c.Spaced (.abandonPath addrs) →
        c.paths.getPathId addrs = some i → c.paths.get? i = some path → path.Usable →
        (∀ j q, c.paths.get? j = some q → q.Usable → j = i) →
        c.abandonPath addrs =
          (c, .error (.invalidOperation "cannot abandon last active path")) := by
  have hinv := h.invariant Manned (fun _ _ _ _ hc hop hstep => hc.step hop hstep) hstart
  refine ⟨hinv.usable, fun addrs i path hmulti hop hid hpath husable hall => ?_⟩
  have hcount : c.paths.paths.countP (·.isActive) ≤ 1 :=
    (countP_le_one_iff hpath husable.1).mpr fun j q hq hon =>
      hall j q hq ⟨hon, hop q (mem_of_getElem? hq) hon⟩
  rw [abandonPath, if_neg (by simp [hmulti]), hid]
  dsimp only
  rw [hpath]
  exact if_pos ⟨husable.1, hcount⟩

def twoPaths : Links :=
  Exec.follow step (fun _ _ => True) (start client)
    [.receive (client.handshakePacket [3]), .complete true,
      .receive (client.packet client.main [1] [.newConnectionId 1 0 (.new [4]) 9]),
      .addPath (client.other 2) 0]

theorem abandonPath_spares_last_first :
    let c := Exec.follow pathStep Spaced twoPaths
      [.challengeSent 1 7 1200 0, .pathResponse 1 7, .abandonPath client.main]
    c.paths.paths.map (fun p ↦ (p.isActive, p.isAbandon)) = [(true, true), (true, false)] ∧
      ∃ p ∈ c.paths.paths, p.Usable := by
  have hstart : twoPaths.Manned := ⟨by decide +kernel, by decide +kernel⟩
  have hreach : Exec.Reaches pathStep Spaced twoPaths (Exec.follow pathStep Spaced twoPaths
      [.challengeSent 1 7 1200 0, .pathResponse 1 7, .abandonPath client.main]) :=
    Exec.reaches_follow _ _
  exact ⟨by decide +kernel, (abandonPath_spares_last hstart hreach).1⟩

/-- Both paths are given up, one after the other. -/
theorem last_path_abandoned :
    let c := Exec.follow pathStep (fun _ _ ↦ True) twoPaths
      [.challengeSent 1 7 1200 0, .pathResponse 1 7, .abandonPath client.main]
    (c.abandonPath (client.other 2)).2 = .ok () ∧
      ∀ p ∈ (c.abandonPath (client.other 2)).1.paths.paths, ¬ p.Usable := by
  decide +kernel

end Links

end Tquic
