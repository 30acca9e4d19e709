-- The part of the generated `ipc-contracts.ts` that both sides of the program speak: error
-- codes and the result of a serial write.
import Mathlib

namespace bbcom.ipc_contracts

inductive AppErrorCode
  | busy | rateLimited | cancelled | timeout | aiProviderFailed | invalidInput | limitExceeded
  | securityDenied | serialDisconnected | serialQueueFull | serialPartialWrite
  | ioPermissionDenied | ioDiskFull | exportReplaceFailed | revisionConflict
  | workspaceReadOnly | workspaceCorrupt | portInUse
  deriving DecidableEq

/-- The numbers are safe integers once an error is normalized. -/
structure IpcError (number : Type) where
  code : AppErrorCode
  messageKey : String
  retryable : Bool
  operation : String
  requestId : Option String := none
  field : Option String := none
  limit : Option number := none
  actual : Option number := none
  retryAfterMs : Option number := none
  deriving DecidableEq

inductive SerialSendOutcome
  | complete | partialWrite | failed | cancelled
  deriving DecidableEq

structure SerialSendResult where
  outcome : SerialSendOutcome
  requestedBytes : Nat
  sentBytes : Nat
  error : Option (IpcError Nat)
  deriving DecidableEq

end bbcom.ipc_contracts
