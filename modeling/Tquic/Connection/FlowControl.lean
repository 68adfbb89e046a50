import Tquic.Base.Word

/-!
# Receive-side flow control

One controller per stream and one for the whole connection: what was consumed and received, the
limit that is enforced, and the window of the next limit.
-/

namespace Tquic

structure FlowControl where
  readOff : ℕ := 0
  recvOff : ℕ := 0
  maxData : ℕ
  window : ℕ
  maxWindow : ℕ
  lastUpdated : Option ℕ := none
  deriving DecidableEq, Repr

namespace FlowControl

def new (window maxWindow : ℕ) : FlowControl where
  maxData := window
  window := window
  maxWindow := maxWindow

def increaseRecvOff (f : FlowControl) (delta : ℕ) : FlowControl :=
  { f with recvOff := f.recvOff + delta }

def increaseReadOff (f : FlowControl) (delta : ℕ) : FlowControl :=
  { f with readOff := f.readOff + delta }

/-- A new limit is due when less than half of the window is left, in unchecked `u64` arithmetic. -/
def shouldSendMaxData (f : FlowControl) : Bool :=
  wrap (wrappingSub f.maxData f.readOff * 2) < f.window

def maxDataNext (f : FlowControl) : ℕ := f.readOff + f.window

def updateMaxData (f : FlowControl) (now : ℕ) : FlowControl :=
  { f with maxData := f.maxDataNext, lastUpdated := some now }

def autotuneWindow (f : FlowControl) (now srtt : ℕ) : FlowControl :=
  match f.lastUpdated with
  | none => f
  | some lastUpdated =>
    if now - lastUpdated < srtt * 2 then
      { f with window := min (f.window * 2) f.maxWindow }
    else f

def ensureWindowLowerBound (f : FlowControl) (minWindow : ℕ) : FlowControl :=
  { f with window := max f.window minWindow }

theorem autotuneWindow_eq (f : FlowControl) (now srtt : ℕ) :
    f.autotuneWindow now srtt = { f with window := (f.autotuneWindow now srtt).window } := by
  unfold autotuneWindow
  split
  · rfl
  · split_ifs <;> rfl

end FlowControl

end Tquic
