/-
What the ports of a component report about a send (`componentmodel/ports`).

A send ends in one call of ZeroMQ, which returns `0` when the socket has taken
the message over and sets `errno` otherwise.  The port turns this into a
`PortError`, whose conversion to `bool` is true on an error.

The frames that a port puts around the message (the time stamp of a timed port,
the ids of a query) do not bear on the result and are left out, as is
`zmq_error_`, which nothing reads.
-/
import RiapsCore.Messages

namespace Riaps

/-- The outcome of `zmsg_send` or `zsock_send`: the return code, and
`zmq_errno()` after the call. -/
structure SendResult where
  rc : Int32
  errno : Int32
deriving DecidableEq, Repr

/-- `riaps::ports::PortError`. -/
structure PortError where
  success : Bool
  errorCode : Int32 := 0
deriving DecidableEq, Repr

namespace PortError

/-- `error()`. -/
def error (e : PortError) : Bool := !e.success

/-- `operator bool()`. -/
def toBool (e : PortError) : Bool := e.error

end PortError

/-- `SenderPort::Send`, in all its overloads. -/
def SenderPort.send (r : SendResult) : PortError :=
  if r.rc = 0 then { success := true } else { success := false, errorCode := r.errno }

/-- `AnswerPort::SendAnswer(builder, params)`. -/
def AnswerPort.sendAnswer (r : SendResult) : PortError := SenderPort.send r

/-- `QueryPort::SendQuery(message, requestId, addTimestamp)`, with `msgId` drawn
for the query: the result and the new value of `requestId`.  The return code is
passed where `PortError` expects the success flag. -/
def QueryPort.sendQuery (r : SendResult) (msgId requestId : String) : PortError × String :=
  ({ success := decide (r.rc ≠ 0) }, if r.rc = 0 then msgId else requestId)

end Riaps
