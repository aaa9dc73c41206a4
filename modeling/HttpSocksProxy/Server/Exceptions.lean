import Mathlib.Data.Nat.Notation

/-! Exceptions as the `except` clauses of the servers tell them apart. -/
namespace HttpSocksProxy

inductive Exn where
  | cancelledError
  | connectionError
  | timeoutError
  | osError (errno : Nat)
  | attributeError
  | exception
  deriving DecidableEq, Repr

namespace Exn

/-- `ConnectionError` and `TimeoutError` are subclasses of `OSError`. -/
def isOSError : Exn → Bool
  | connectionError | timeoutError | osError _ => true
  | cancelledError | attributeError | exception => false

/-- `except (ConnectionError, asyncio.CancelledError)` -/
def isConnectionOrCancelled : Exn → Bool
  | connectionError | cancelledError => true
  | _ => false

/-- `except (ConnectionError, asyncio.CancelledError, OSError)` -/
def isOSErrorOrCancelled (e : Exn) : Bool := e.isConnectionOrCancelled || e.isOSError

end Exn
end HttpSocksProxy
