/-
Module: RemoteMonitoring.Server.Server
Purpose: The arguments of `server_main` (server/server.cpp).
Trusted boundary: none
Main exports: ServerMain.boundPort
-/
import RemoteMonitoring.Common.Util

namespace RemoteMonitoring

open ByteText

namespace ServerMain

def port : Int := 12345

/-- One argument: `chosen_port` behind it. -/
def takeArg (chosenPort : Int) (arg : Bytes) : Int :=
  if (ascii "--server-port=").isPrefixOf arg then
    let port := strToInt (arg.drop (ascii "--server-port=").length)
    if port < 0 then chosenPort
    else if port < 1024 ∨ port > 65536 then chosenPort
    else port
  else chosenPort

/-- The port of the address that the socket is bound to, which `htons` takes in 16 bits. -/
def boundPort (args : List Bytes) : UInt16 := UInt16.ofInt (args.foldl takeArg port)

end ServerMain

end RemoteMonitoring
