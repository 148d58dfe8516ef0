import Quiche.Octets

namespace Quiche.H3

inductive Error where
  | done
  | bufferTooShort
  | internalError
  | excessiveLoad
  | idError
  | streamCreationError
  | closedCriticalStream
  | missingSettings
  | frameUnexpected
  | frameError
  | qpackDecompressionFailed
  | transportError (error : Quiche.Error)
  | streamBlocked
  | settingsError
  | requestRejected
  | requestCancelled
  | requestIncomplete
  | messageError
  | connectError
  | versionFallback
deriving DecidableEq, Repr

/-- `From<super::Error>` -/
def Error.ofTransport : Quiche.Error → Error
  | .done => .done
  | error => .transportError error

/-- How a call can end without a value: with an error, or in a panic. -/
inductive Failure where
  | error (error : Error)
  | panic
deriving DecidableEq, Repr

def dataFrameTypeId : Nat := 0x0
def headersFrameTypeId : Nat := 0x1
def cancelPushFrameTypeId : Nat := 0x3
def settingsFrameTypeId : Nat := 0x4
def pushPromiseFrameTypeId : Nat := 0x5
def goawayFrameTypeId : Nat := 0x7
def maxPushFrameTypeId : Nat := 0xD
def priorityUpdateFrameRequestTypeId : Nat := 0xF0700
def priorityUpdateFramePushTypeId : Nat := 0xF0701

end Quiche.H3
