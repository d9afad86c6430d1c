import Mathlib.Data.Nat.Notation
import Mathlib.Data.Int.Notation

/-! What the code throws: the error classes of `errors.ts` with their context,
the runtime's own errors, and the two rejections of WebCrypto. -/
namespace SFrameRatchet

/-- A thrown value. Callers tell the classes apart with `instanceof`. -/
inductive JsError where
  | error (message : String)
  | rangeError (message : String)
  /-- A WebCrypto rejection, such as a failed encryption. -/
  | operationError
  | keyNotFound (message : String) (kid : Option ℕ) (epoch peerIndex : ℤ)
  | staleEpoch (message : String) (frameEpoch minValidEpoch : ℤ) (kid : ℕ)
  | aeadAuth (message : String) (kid : ℕ) (epoch peerIndex : Option ℤ) (ctr : ℕ)
  | ratchetWindowExhausted (message : String) (epoch peerIndex : ℤ) (attempts : ℕ)
  | headerParse (message : String) (bufferLength : ℕ)
  | replay (message : String) (epoch peerIndex : ℤ) (ctr : ℕ)
  | chatReplay (message : String) (roomId senderUid : String) (ctr : ℕ)
  | keyInvalid (message : String) (epoch peerIndex : ℤ) (failures : ℕ)
  deriving DecidableEq, Repr, Inhabited

namespace JsError

def message : JsError → String
  | error message | rangeError message | keyNotFound message .. | staleEpoch message ..
  | aeadAuth message .. | ratchetWindowExhausted message .. | headerParse message ..
  | replay message .. | chatReplay message .. | keyInvalid message .. => message
  | operationError => "The operation failed for an operation-specific reason"

/-- `String(err.code)`: the stable identifier of a domain error, `0` for the
`DOMException` of WebCrypto, and `UNKNOWN` for an error without a `code`. -/
def code : JsError → String
  | error _ | rangeError _ => "UNKNOWN"
  | operationError => "0"
  | keyNotFound .. => "KEY_NOT_FOUND"
  | staleEpoch .. => "STALE_EPOCH"
  | aeadAuth .. => "AEAD_AUTH_FAIL"
  | ratchetWindowExhausted .. => "RATCHET_WINDOW_EXHAUSTED"
  | headerParse .. => "HEADER_PARSE"
  | replay .. | chatReplay .. => "REPLAY"
  | keyInvalid .. => "KEY_INVALID"

/-- An AEAD-correctness failure: `AEADAuthError` or `RatchetWindowExhaustedError`. -/
def isAeadFailure : JsError → Bool
  | aeadAuth .. | ratchetWindowExhausted .. => true
  | _ => false

end JsError
end SFrameRatchet
