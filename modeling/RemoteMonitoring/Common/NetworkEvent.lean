/-
Module: RemoteMonitoring.Common.NetworkEvent
Purpose: The two network events of the event bus (common/network_event.hpp).
Trusted boundary: none
Main exports: NetworkSendEvent, NetworkRecvEvent
-/
import RemoteMonitoring.Lib.ByteText

namespace RemoteMonitoring

open ByteText (Bytes)

/-- A payload to be sent to the peer at `ip` and `port`. -/
structure NetworkSendEvent where
  ip : Bytes
  port : UInt16
  payload : Bytes
deriving DecidableEq, Repr

/-- A payload received from the peer at `ip` and `port`. -/
structure NetworkRecvEvent where
  ip : Bytes
  port : UInt16
  payload : Bytes
deriving DecidableEq, Repr

end RemoteMonitoring
