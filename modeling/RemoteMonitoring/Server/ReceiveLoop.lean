/-
Module: RemoteMonitoring.Server.ReceiveLoop
Purpose: `ClientHandler::recv_input_from_client` (server/client_handler.cpp): the loop that
  receives a client's messages, publishes them, and counts the exceptions in a row.
Trusted boundary: `recv` does not fail
Main exports: Received, maxTries, recvInputFromClient
-/
import RemoteMonitoring.Common.Message
import RemoteMonitoring.Server.EventBus

namespace RemoteMonitoring

open ByteText

/-- A message with the values that the uninitialised variables hold while it is
handled. -/
structure Received where
  payload : Bytes
  junk : Indeterminate
  netCount : UInt32

def maxTries : Nat := 10

/-- The two nested loops, on what is on the wire.  Every call of `recv_message` takes the
next of the uninitialised values, so their number bounds the number of calls; a call on
an incomplete message waits for more.  The handler is left for good when `count_fail`
exceeds `max_tries`. -/
def recvInputFromClient (handlers : List ClientInfo) (info : ClientInfo)
    (available : Nat → Nat) :
    List (Indeterminate × UInt32) → Bytes → Nat → Disk → Disk × List NetworkSendEvent
  | [], _, _, disk => (disk, [])
  | (junk, netCount) :: calls, wire, countFail, disk =>
      match recvMessage available wire with
      | none => (disk, [])
      | some (message, wire) =>
          if message = [] then
            recvInputFromClient handlers info available calls wire countFail disk
          else
            let event : NetworkRecvEvent := ⟨info.clientIp, info.clientPort, message⟩
            match publish junk netCount event handlers disk with
            | (.ok (), disk, sends) =>
                let (disk, later) :=
                  recvInputFromClient handlers info available calls wire 0 disk
                (disk, sends ++ later)
            | (.error _, disk, sends) =>
                if countFail + 1 > maxTries then (disk, sends)
                else
                  let (disk, later) :=
                    recvInputFromClient handlers info available calls wire (countFail + 1) disk
                  (disk, sends ++ later)

/-- The loop on a connection on which these messages arrive, from its start. -/
def receiveAll (handlers : List ClientInfo) (info : ClientInfo) (available : Nat → Nat)
    (messages : List Received) (disk : Disk) : Disk × List NetworkSendEvent :=
  recvInputFromClient handlers info available
    (messages.map fun message => (message.junk, message.netCount))
    (messages.map fun message => frame message.payload).flatten 0 disk

end RemoteMonitoring
