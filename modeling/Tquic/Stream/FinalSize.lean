import Tquic.Base.Run
import Tquic.Stream.RecvOffsets

/-!
# Frames that contradict each other

Whatever a peer sends, a known final size is fixed and bounds what was received, as the flow
control limit does. A refused frame leaves the buffer as it was, except for a reset beyond the
limit.
-/

namespace Tquic

open Exec RecvBuf

namespace RecvBuf

inductive Event where
  | write (offset : ℕ) (data : List UInt8) (fin : Bool)
  | reset (errorCode finalSize : ℕ)
  | shutdown
  | read (cap : ℕ)

def errorOf {α : Type} : Result α → Option Error
  | .error e => some e
  | .ok _ => none

def handle (b : RecvBuf) : Event → Exec (RecvBuf × Option Error)
  | .write offset data fin => do
      let (b, r) ← b.write offset data fin
      return (b, errorOf r)
  | .reset errorCode finalSize => do
      let (b, r) ← b.reset errorCode finalSize
      return (b, errorOf r)
  | .shutdown => .ok (b.shutdownRecv.1, errorOf b.shutdownRecv.2)
  | .read cap => do
      let (b, r) ← b.read cap
      return (b, errorOf r)

def WithinLimit (b : RecvBuf) : Event → Prop
  | .reset _ finalSize => b.error = none → b.finOff = none → finalSize ≤ b.maxData
  | _ => True

structure Bounded (b : RecvBuf) : Prop where
  sane : Sane b
  recv_le : b.recvOff ≤ b.maxData
  fin_le : ∀ f, b.finOff = some f → f ≤ b.maxData

theorem bounded_new (maxData maxWindow : ℕ) : Bounded (RecvBuf.new maxData maxWindow) where
  sane := .new maxData maxWindow
  recv_le := Nat.zero_le _
  fin_le _ hf := by cases hf

variable {b b' : RecvBuf}

def Keeps (b b' : RecvBuf) : Prop := Bounded b' ∧ ∀ f, b.finOff = some f → b'.finOff = some f

theorem Bounded.keeps_refl (h : Bounded b) : Keeps b b := ⟨h, fun _ hf => hf⟩

theorem Bounded.clear (h : Bounded b) (error : Option ℕ) :
    Bounded { b with error := error, data := SortedMap.empty } where
  sane := ⟨h.sane.read_le, h.sane.clear.chunk_le, h.sane.recv_le_fin, h.sane.clear.drained⟩
  recv_le := h.recv_le
  fin_le := h.fin_le

theorem Bounded.write (h : Bounded b) {offset : ℕ} {data : List UInt8} {fin : Bool}
    (hwrite : b.write offset data fin = .ok (b', .ok ())) : Keeps b b' := by
  obtain ⟨hmax, hfinal, -⟩ := write_cases hwrite
  have hwritten := h.sane.write hwrite
  have hfin := h.sane.write_finOff hwrite
  have hlimit : b'.maxData = b.maxData := congrArg FlowControl.maxData hwritten.flowControl
  refine ⟨⟨hwritten.sane, ?_, ?_⟩, ?_⟩
  · rw [hlimit]
    exact hwritten.high.trans (max_le h.recv_le hmax)
  · intro f hf
    rw [hlimit]
    rw [hfin] at hf
    split_ifs at hf
    · cases hf
      exact hmax
    · exact h.fin_le f hf
  · intro f hf
    rw [hfin]
    split_ifs with hend
    · -- a second final size passes the checks only if it is the first one
      unfold violatesFinalSize at hfinal
      rw [hf] at hfinal
      simp only [RangeBuf.new, hend, Bool.true_and, Bool.or_eq_false_iff, bne_eq_false_iff_eq]
        at hfinal
      exact congrArg some hfinal.1.2.symm
    · exact hf

variable {errorCode finalSize : ℕ}

theorem reset_agrees {delta f : ℕ} (hreset : b.reset errorCode finalSize = .ok (b', .ok delta))
    (hf : b.finOff = some f) : f = finalSize := by
  by_contra hne
  simp only [reset, hf, bne_iff_ne, ne_eq, hne, not_false_eq_true, if_true] at hreset
  cases hreset

theorem Bounded.reset (h : Bounded b) {delta : ℕ}
    (hreset : b.reset errorCode finalSize = .ok (b', .ok delta)) : Keeps b b' := by
  obtain ⟨-, -, ⟨-, rfl, -⟩ | ⟨-, hdone⟩⟩ := h.sane.reset hreset
  · exact h.keeps_refl
  · have hlimit : b'.maxData = b.maxData := congrArg FlowControl.maxData hdone.flowControl
    refine ⟨⟨hdone.sane, ?_, ?_⟩, ?_⟩
    · rw [hdone.recvOff, hlimit]
      exact hdone.le_maxData
    · intro f hf
      rw [hdone.finOff] at hf
      cases hf
      exact hlimit ▸ hdone.le_maxData
    · intro f hf
      rw [hdone.finOff, reset_agrees hreset hf]

theorem not_violatesFinalSize_end (hfin : ∀ f, b.finOff = some f → f = finalSize)
    (hsize : b.recvOff ≤ finalSize) :
    b.violatesFinalSize (RangeBuf.new [] finalSize true) = false := by
  have hmax : (RangeBuf.new [] finalSize true).maxOff = finalSize := rfl
  rw [violatesFinalSize, hmax]
  cases hf : b.finOff with
  | none => simpa [RangeBuf.new] using hsize
  | some f =>
    obtain rfl := hfin f hf
    simpa [RangeBuf.new] using hsize

theorem reset_unchanged (h : Bounded b) {e : Error}
    (hlimit : WithinLimit b (.reset errorCode finalSize))
    (hreset : b.reset errorCode finalSize = .ok (b', .error e)) : b' = b := by
  unfold reset at hreset
  split_ifs at hreset with hfin hsize herror
  · cases hreset
    rfl
  · cases hreset
    rfl
  · cases hreset
  · have hnone : b.error = none := by simpa using herror
    have hagree : ∀ f, b.finOff = some f → f = finalSize := by
      intro f hf
      rw [hf] at hfin
      simpa using hfin
    have hle : finalSize ≤ b.maxData := by
      cases hf : b.finOff with
      | none => exact hlimit hnone hf
      | some f => exact hagree f hf ▸ h.fin_le f hf
    -- the checks of `write` are met, so it is not `write` that fails
    obtain ⟨⟨b₁, r⟩, hwrite, hreset⟩ := bind_eq_ok.mp hreset
    cases r with
    | ok => cases hreset
    | error =>
      have hchecks : violatesFinalSize
          { b with error := some errorCode, data := SortedMap.empty }
          (RangeBuf.new [] finalSize true) = false :=
        not_violatesFinalSize_end hagree (not_lt.mp hsize)
      have hmax : ¬ b.maxData < (RangeBuf.new [] finalSize true).maxOff := not_lt.mpr hle
      unfold write at hwrite
      dsimp only at hwrite
      split_ifs at hwrite with hover hviolates
      · exact absurd hover hmax
      · exact absurd (hchecks.symm.trans hviolates) Bool.false_ne_true
      · cases hwrite
      · obtain ⟨b₂, -, hwrite⟩ := bind_eq_ok.mp hwrite
        cases hwrite

theorem Bounded.handle (h : Bounded b) {event : Event} {r : Option Error}
    (hhandle : b.handle event = .ok (b', r)) : Keeps b b' := by
  cases event with
  | write =>
    obtain ⟨⟨b₁, res⟩, hwrite, heq⟩ := bind_eq_ok.mp hhandle
    cases heq
    cases res with
    | error =>
      rw [(write_error hwrite).1]
      exact h.keeps_refl
    | ok => exact h.write hwrite
  | reset =>
    obtain ⟨⟨b₁, res⟩, hreset, heq⟩ := bind_eq_ok.mp hhandle
    cases heq
    cases res with
    | error =>
      rcases reset_refused hreset with rfl | rfl
      · exact h.keeps_refl
      · exact ⟨h.clear _, fun _ hf => hf⟩
    | ok => exact h.reset hreset
  | shutdown =>
    cases hhandle
    rw [shutdownRecv]
    split_ifs
    · exact h.keeps_refl
    · exact ⟨⟨⟨le_rfl, (h.clear b.error).sane.chunk_le, h.sane.recv_le_fin,
        fun _ => SortedMap.not_mem_empty⟩, h.recv_le, h.fin_le⟩, fun _ hf => hf⟩
  | read =>
    obtain ⟨⟨b₁, res⟩, hread, heq⟩ := bind_eq_ok.mp hhandle
    cases heq
    cases res with
    | error =>
      rcases read_error hread with rfl | rfl
      · exact h.keeps_refl
      · exact ⟨h.clear b.error, fun _ hf => hf⟩
    | ok =>
      have hdone := h.sane.read hread
      have hlimit : b'.maxData = b.maxData := by
        rw [maxData, hdone.flowControl]
        rfl
      refine ⟨⟨hdone.sane, ?_, ?_⟩, ?_⟩
      · rw [hdone.recvOff, hlimit]
        exact h.recv_le
      · rw [hdone.finOff, hlimit]
        exact h.fin_le
      · rw [hdone.finOff]
        exact fun _ hf => hf

/-- What was received is below the limit and the final size, a known final size stays, and a refused
call changes nothing, unless it is a reset beyond the limit that would fix the final size. -/
theorem refused_frames_change_nothing (maxData maxWindow : ℕ) {b : RecvBuf}
    (hreaches : Exec.Reaches handle (fun _ _ ↦ True) (RecvBuf.new maxData maxWindow) b) :
    b.recvOff ≤ b.maxData ∧ (∀ f, b.finOff = some f → b.recvOff ≤ f) ∧
      (∀ f b', b.finOff = some f → Exec.Reaches handle (fun _ _ ↦ True) b b' →
        b'.finOff = some f) ∧
      ∀ event b' e, (∀ cap, event ≠ .read cap) → WithinLimit b event →
        b.handle event = .ok (b', some e) → b' = b := by
  have hbounded : Bounded b := by
    refine hreaches.invariant Bounded ?_ (bounded_new maxData maxWindow)
    intro s event s' r hs _ hhandle
    exact (hs.handle hhandle).1
  refine ⟨hbounded.recv_le, hbounded.sane.recv_le_fin, ?_, ?_⟩
  · intro f b' hf hlater
    have hboth : Bounded b' ∧ b'.finOff = some f := by
      refine hlater.invariant (fun b => Bounded b ∧ b.finOff = some f) ?_ ⟨hbounded, hf⟩
      rintro s event s' r ⟨hs, hsf⟩ _ hhandle
      obtain ⟨hs', hkeeps⟩ := hs.handle hhandle
      exact ⟨hs', hkeeps f hsf⟩
    exact hboth.2
  · intro event b' e hcall hlimit hhandle
    cases event with
    | write =>
      obtain ⟨⟨b₁, res⟩, hwrite, heq⟩ := bind_eq_ok.mp hhandle
      cases res with
      | ok => cases heq
      | error =>
        cases heq
        exact (write_error hwrite).1
    | reset =>
      obtain ⟨⟨b₁, res⟩, hreset, heq⟩ := bind_eq_ok.mp hhandle
      cases res with
      | ok => cases heq
      | error =>
        cases heq
        exact reset_unchanged hbounded hlimit hreset
    | shutdown =>
      rw [handle, shutdownRecv] at hhandle
      split_ifs at hhandle
      · cases hhandle
        rfl
      · cases hhandle
    | read cap => exact absurd rfl (hcall cap)

def threeBytes : RecvBuf :=
  Exec.follow handle (fun _ _ => True) (RecvBuf.new 10 10) [.write 0 [1, 2, 3] false]

theorem refused_frames_change_nothing_threeBytes :
    threeBytes.recvOff = 3 ∧ threeBytes.recvOff ≤ threeBytes.maxData ∧
      ∀ event b' e, (∀ cap, event ≠ .read cap) → WithinLimit threeBytes event →
        threeBytes.handle event = .ok (b', some e) → b' = threeBytes := by
  obtain ⟨hlimit, -, -, hrefused⟩ := refused_frames_change_nothing 10 10
    (reaches_follow (new 10 10) [.write 0 [1, 2, 3] false])
  exact ⟨by decide, hlimit, hrefused⟩

/-- A reset at 20 bytes is beyond the limit and refused, but the data is gone and an error set. -/
theorem refused_reset_clears :
    Exec.Reaches handle (fun _ _ ↦ True) (RecvBuf.new 10 10) threeBytes ∧
      ∃ b', threeBytes.handle (.reset 7 20) = .ok (b', some .flowControlError) ∧
        threeBytes.data.length = 1 ∧ threeBytes.error = none ∧
        b'.data.length = 0 ∧ b'.error = some 7 :=
  ⟨reaches_follow _ _, _, rfl, by decide, by decide, by decide, by decide⟩

end RecvBuf

end Tquic
