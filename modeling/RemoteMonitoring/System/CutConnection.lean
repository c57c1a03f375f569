/-
Module: RemoteMonitoring.System.CutConnection
Purpose: A connection that ends at any byte: `recv_input_from_client` (server/client_handler.cpp)
  when the client has closed the connection, with what had arrived before.
Trusted boundary: a socket whose peer has closed goes on giving no bytes
Main exports: recvUntilClosed, stream
-/
import RemoteMonitoring.Server.ReceiveLoop

namespace RemoteMonitoring

open ByteText

/-- The two nested loops.  A message that is not there as a whole makes `recv_exact` throw, with
the bytes there were consumed.  Nothing when the calls given do not reach the end of the loops. -/
def recvUntilClosed (handlers : List ClientInfo) (info : ClientInfo) (available : Nat → Nat) :
    List (Indeterminate × UInt32) → Bytes → Nat → Disk → Option (Disk × List NetworkSendEvent)
  | [], _, _, _ => none
  | (junk, netCount) :: calls, wire, countFail, disk =>
      match recvMessage available wire with
      | none =>
          if countFail + 1 > maxTries then some (disk, [])
          else recvUntilClosed handlers info available calls [] (countFail + 1) disk
      | some (message, wire) =>
          if message = [] then
            recvUntilClosed handlers info available calls wire countFail disk
          else
            let event : NetworkRecvEvent := ⟨info.clientIp, info.clientPort, message⟩
            match publish junk netCount event handlers disk with
            | (.ok (), disk, sends) =>
                match recvUntilClosed handlers info available calls wire 0 disk with
                | none => none
                | some (disk, later) => some (disk, sends ++ later)
            | (.error _, disk, sends) =>
                if countFail + 1 > maxTries then some (disk, sends)
                else
                  match recvUntilClosed handlers info available calls wire (countFail + 1) disk with
                  | none => none
                  | some (disk, later) => some (disk, sends ++ later)

/-- What one thread that sends some payloads one after another puts on the wire. -/
def stream (payloads : List Bytes) : Bytes := (payloads.map frame).flatten

end RemoteMonitoring
