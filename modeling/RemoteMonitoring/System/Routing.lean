/-
Module: RemoteMonitoring.System.Routing
Purpose: What an operator's line asks for, and which lines reach the client they name after a
  given history of connections.
Trusted boundary: the JSON library is a parameter
Main exports: History, CommandFor, CarriesText, Routed, Routable
-/
import RemoteMonitoring.Server.ClientManager

namespace RemoteMonitoring

open ByteText

/-- The connections accepted so far.  Ids are positive ints, and no socket is ever closed,
so none is handed out twice. -/
structure History where
  connections : List Accepted
  fits : connections.length < 2 ^ 31
  distinct : (connections.map Accepted.clientSocket).Nodup

namespace History

def clients (history : History) : List ClientInfo := acceptedClients 1 history.connections

def handlers (history : History) : ClientHandlers := acceptNewClients history.connections

end History

/-- The operator's "config" command: digits, and a file whose text the library accepts. -/
structure ConfigCommand (json : JsonLibrary) (disk : Disk) (line : Bytes) where
  idStr : Bytes
  configFileName : Bytes
  content : Bytes
  configEntries : List ConfigEntry
  same : line = idStr ++ colon :: (ascii "config " ++ configFileName)
  nonempty : idStr ≠ []
  digits : ∀ byte ∈ idStr, isDigit byte = true
  opens : (disk configFileName).content = some content
  parses : json.parse content = some configEntries

/-- The line is such a command for the client with this id. -/
def CommandFor (json : JsonLibrary) (disk : Disk) (line : Bytes) (clientId : Nat) : Prop :=
  ∃ command : ConfigCommand json disk line, numeralValue command.idStr = clientId

/-- The message that the line asks for, with the text of the file that it names. -/
def CarriesText (json : JsonLibrary) (disk : Disk) (line payload : Bytes) : Prop :=
  ∃ command : ConfigCommand json disk line,
    writeString (ascii "config " ++ command.content) = .ok payload

/-- In whatever order the hash map is visited, something is handed to the socket of a
client exactly when the line is a command for that client, and then it is the message that
the line asks for. -/
def Routed (json : JsonLibrary) (disk : Disk) (history : History) (line : Bytes) : Prop :=
  ∀ order, ∀ client ∈ history.clients,
    ((∃ payload, (client.clientSocket, payload) ∈
        handedOver json disk order history.handlers line) ↔
      CommandFor json disk line client.clientId) ∧
    ∀ payload, (client.clientSocket, payload) ∈
        handedOver json disk order history.handlers line → CarriesText json disk line payload

/-- The message has a length that `write_string` takes. -/
def Sendable (content : Bytes) : Prop := (ascii "config " ++ content).length < 2 ^ 32

/-- The command names an accepted client, whose address and port no other connection has,
and its text can be sent; or it names no accepted client, and its number does not wrap
around to the id of one. -/
def Routable (json : JsonLibrary) (disk : Disk) (history : History) (line : Bytes) : Prop :=
  ∀ command : ConfigCommand json disk line,
    (∀ client ∈ history.clients, client.clientId = numeralValue command.idStr →
      Sendable command.content ∧ ∀ other ∈ history.clients,
        other.clientIp = client.clientIp → other.clientPort = client.clientPort →
          other = client) ∧
    ((∀ client ∈ history.clients, client.clientId ≠ numeralValue command.idStr) →
      Sendable command.content → ∀ client ∈ history.clients,
        (client.clientId : Int) ≠ Int.bmod (numeralValue command.idStr) (2 ^ 32))

end RemoteMonitoring
