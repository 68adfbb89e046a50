import Tquic.Base.Act
import Tquic.Base.BigEndian

/-!
# Writing into a bounded buffer

A sink is a buffer that is filled from the front. `Sink.Writes` says of a piece of code that it
writes a given string, or fails for lack of room and writes too little.
-/

structure Sink where
  written : Bytes
  room : ℕ
  deriving DecidableEq

namespace Sink

variable {ε : Type} (full : ε)

def put (bytes : Bytes) : Act Sink ε Unit := fun s =>
  if s.room < bytes.length then .ok (s, .error full)
  else .ok (⟨s.written ++ bytes, s.room - bytes.length⟩, .ok ())

/-- The code writes `bytes`, or fails with `full` if they do not fit. -/
structure Writes (x : Act Sink ε Unit) (bytes : Bytes) : Prop where
  fits : ∀ s, bytes.length ≤ s.room →
    x s = .ok (⟨s.written ++ bytes, s.room - bytes.length⟩, .ok ())
  lacks : ∀ s, s.room < bytes.length → ∃ s', x s = .ok (s', .error full)

variable {full} {x y : Act Sink ε Unit} {bytes bytes' : Bytes}

theorem writes_put (bytes : Bytes) : Writes full (put full bytes) bytes where
  fits _ hroom := if_neg (not_lt.mpr hroom)
  lacks s hroom := ⟨s, if_pos hroom⟩

end Sink
