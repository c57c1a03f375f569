/-
Module: RemoteMonitoring.System.Reception
Purpose: What the client's receive thread does with a message: `receive_server_input`
  (client/client.cpp), and the messages that a server sends.
Trusted boundary: the JSON library is a parameter
Main exports: ConfiguredClient.receiveServerInput, ServerMessage, WellFormed, ackText
-/
import RemoteMonitoring.System.Configuration

namespace RemoteMonitoring

open ByteText

namespace ConfiguredClient

/-- One round of `receive_server_input`, with what `recv_input` returned.  There is no
handler around `publish`. -/
def receiveServerInput (json : JsonLibrary) (serverIp : Bytes) (serverPort : UInt16)
    (junkId : UInt64) (message : Bytes) (s : ConfiguredClient) :
    Except RuntimeError (List NetworkSendEvent) × ConfiguredClient :=
  if message = [] then (.ok [], s)
  else publishRecv json serverIp serverPort junkId ⟨serverIp, serverPort, message⟩ s

end ConfiguredClient

/-- The messages of a server. -/
inductive ServerMessage (json : JsonLibrary) : Bytes → Prop where
  | ack {idStr : Bytes} (nonempty : idStr ≠ []) (digits : ∀ byte ∈ idStr, isDigit byte = true)
      (fits : numeralValue idStr < 2 ^ 64) : ServerMessage json (ascii "ack " ++ idStr)
  | config {content : Bytes} {entries : List ConfigEntry}
      (parses : json.parse content = some entries) :
      ServerMessage json (ascii "config " ++ content)

/-- The payload is such a message behind its length, and nothing else. -/
def WellFormed (json : JsonLibrary) (payload : Bytes) : Prop :=
  ∃ message, ServerMessage json message ∧ writeString message = .ok payload

/-- What stands for the id in a message that the ack subscriber takes for an ack. -/
def ackText (event : NetworkRecvEvent) : Option Bytes :=
  match readString (.ofBytes event.payload) with
  | .error _ => none
  | .ok (message, _) =>
      if (ascii "ack ").isPrefixOf message then some (message.drop (ascii "ack ").length)
      else none

end RemoteMonitoring
