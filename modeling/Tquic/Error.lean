import Mathlib

/-!
# Transport errors

The first group has a wire value of its own in a CONNECTION_CLOSE frame, the second is private to
the library.
-/

namespace Tquic

inductive Error where
  | noError
  | internalError
  | connectionRefused
  | flowControlError
  | streamLimitError
  | streamStateError
  | finalSizeError
  | frameEncodingError
  | transportParameterError
  | connectionIdLimitError
  | protocolViolation
  | invalidToken
  | applicationError
  | cryptoBufferExceeded
  | keyUpdateError
  | aeadLimitReached
  | noViablePath
  | cryptoError (alert : UInt8)
  | multipathProtocolViolation
  | done
  | bufferTooShort
  | unknownVersion
  | invalidPacket
  | invalidState (reason : String)
  | invalidOperation (reason : String)
  | invalidConfig (reason : String)
  | expiredToken
  | cryptoFail
  | tlsFail (reason : String)
  | streamStopped (code : ℕ)
  | streamReset (code : ℕ)
  | ioError (reason : String)
  deriving DecidableEq, Repr

abbrev Result (α : Type) := Except Error α

namespace Result

variable {α β : Type}

@[simp] theorem pure_def (a : α) : (pure a : Result α) = .ok a := rfl

@[simp] theorem ok_bind (a : α) (f : α → Result β) : ((.ok a : Result α) >>= f) = f a := rfl

@[simp] theorem error_bind (e : Error) (f : α → Result β) :
    ((.error e : Result α) >>= f) = .error e := rfl

theorem bind_eq_ok {x : Result α} {f : α → Result β} {b : β} :
    (x >>= f) = .ok b ↔ ∃ a, x = .ok a ∧ f a = .ok b := by
  cases x <;> simp

end Result

end Tquic
