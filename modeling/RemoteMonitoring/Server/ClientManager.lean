/-
Module: RemoteMonitoring.Server.ClientManager
Purpose: `ClientManager` (server/client_manager.cpp): the handlers of the accepted connections,
  the operator's commands, and the lookups on the way from a command to a socket.
Trusted boundary: the JSON library is a parameter; fewer than 2^31 connections are accepted
Main exports: acceptNewClients, findClientFromInput, getClientInfoFromIpAndPort, userMessage,
  onInput, sendOutputToClient
-/
import RemoteMonitoring.Common.Config
import RemoteMonitoring.Lib.UnorderedMap
import RemoteMonitoring.Server.ClientHandler

namespace RemoteMonitoring

open ByteText

/-! ### The handlers -/

/-- The member `client_handlers`; of a handler only its `ClientInfo` is looked at. -/
abbrev ClientHandlers := UnorderedMap Int ClientInfo

def addNewClient (handlers : ClientHandlers) (client : ClientInfo) : ClientHandlers :=
  handlers.emplace client.clientId client

/-- What `accept` returns: the socket, and the peer's address and port. -/
structure Accepted where
  clientSocket : Nat
  clientIp : Bytes
  clientPort : UInt16
deriving DecidableEq, Repr

/-- The connections in the order in which they are accepted, with ids that count up. -/
def acceptedClients : Nat → List Accepted → List ClientInfo
  | _, [] => []
  | clientId, connection :: later =>
      ⟨clientId, connection.clientSocket, connection.clientIp, connection.clientPort⟩ ::
        acceptedClients (clientId + 1) later

/-- The loop of `accept_new_client`; no handler is ever removed. -/
def acceptNewClients (connections : List Accepted) : ClientHandlers :=
  (acceptedClients 1 connections).foldl addNewClient ∅

/-- Stands for "no such client". -/
def noClient : ClientInfo := ⟨0, 0, [], 0⟩

def colon : UInt8 := 58

def findClientFromInput (handlers : ClientHandlers) (input : Bytes) : ClientInfo × Bytes :=
  if colon ∉ input then (noClient, [])
  else
    let targetId := strToInt (input.takeWhile (· != colon))
    let message := (input.dropWhile (· != colon)).tail
    match handlers.lookup targetId with
    | none => (noClient, [])
    | some client => (client, message)

/-- The loop over the handlers, in the order in which the hash map shows them. -/
def getClientInfoFromIpAndPort (order : IterationOrder ((_ : Int) × ClientInfo))
    (handlers : ClientHandlers) (clientIp : Bytes) (clientPort : UInt16) : ClientInfo :=
  match (order.visit handlers.entries).find? fun entry =>
      entry.2.clientIp = clientIp ∧ entry.2.clientPort = clientPort with
  | none => noClient
  | some entry => entry.2

/-! ### The operator's commands -/

/-- What the handler publishes for a message to the client `info`, which
`find_client_from_input` has looked up; id 0 stands for no client.  The text is
parsed to make sure that it is valid, and then sent as it is. -/
def userMessage (json : JsonLibrary) (disk : Disk) (info : ClientInfo) (message : Bytes) :
    List NetworkSendEvent :=
  if info.clientId = 0 then []
  else if (ascii "config ").isPrefixOf message then
    let configFileName := message.drop (ascii "config ").length
    match (disk configFileName).content with
    | none => []
    | some content =>
        match json.parse content with
        | none => []
        | some _ =>
            match writeString (ascii "config " ++ content) with
            | .error _ => []
            | .ok payload => [⟨info.clientIp, info.clientPort, payload⟩]
  else []

/-- The subscriber of `register_user_input_handler`. -/
def onInput (json : JsonLibrary) (disk : Disk) (handlers : ClientHandlers) (payload : Bytes) :
    List NetworkSendEvent :=
  if payload = ascii "exit" then []
  else
    let (client, message) := findClientFromInput handlers payload
    userMessage json disk client message

/-- The subscriber of `register_send_output_to_client`: the socket on which a new thread
sends, and the payload. -/
def sendOutputToClient (order : IterationOrder ((_ : Int) × ClientInfo))
    (handlers : ClientHandlers) (event : NetworkSendEvent) : Option (Nat × Bytes) :=
  let client := getClientInfoFromIpAndPort order handlers event.ip event.port
  if client.clientId = 0 then none else some (client.clientSocket, event.payload)

/-- What a line of the operator hands to which sockets. -/
def handedOver (json : JsonLibrary) (disk : Disk) (order : IterationOrder ((_ : Int) × ClientInfo))
    (handlers : ClientHandlers) (line : Bytes) : List (Nat × Bytes) :=
  (onInput json disk handlers line).filterMap (sendOutputToClient order handlers)

/-! ### What is published, and where it goes -/

/-- The handler publishes for a "config" message with a valid file, and then the text of
the file behind the word "config". -/
theorem mem_userMessage_iff {json : JsonLibrary} {disk : Disk} {info : ClientInfo}
    {message : Bytes} {event : NetworkSendEvent} :
    event ∈ userMessage json disk info message ↔
      info.clientId ≠ 0 ∧ event.ip = info.clientIp ∧ event.port = info.clientPort ∧
        ∃ configFileName content entries, message = ascii "config " ++ configFileName ∧
          (disk configFileName).content = some content ∧ json.parse content = some entries ∧
            writeString (ascii "config " ++ content) = .ok event.payload := by
  unfold userMessage
  constructor
  · intro member
    split at member
    · cases member
    · rename_i known
      split at member
      · rename_i front
        obtain ⟨name, rfl⟩ := List.isPrefixOf_iff_prefix.mp front
        rw [List.drop_left] at member
        cases opened : (disk name).content with
        | none => simp [opened] at member
        | some content =>
            cases parses : json.parse content with
            | none => simp [opened, parses] at member
            | some entries =>
                cases written : writeString (ascii "config " ++ content) with
                | error e => simp [opened, parses, written] at member
                | ok payload =>
                    simp only [opened, parses, written, List.mem_singleton] at member
                    subst member
                    exact ⟨known, rfl, rfl, name, content, entries, rfl, opened, parses, written⟩
      · cases member
  · rintro ⟨known, ip, port, name, content, entries, rfl, opened, parses, written⟩
    cases event with
    | mk eventIp eventPort payload =>
        subst ip port
        simp [known, opened, parses, written]

/-- A push carries the text of the file behind the word "config". -/
theorem mem_userMessage {json : JsonLibrary} {disk : Disk} {info : ClientInfo}
    {configFileName : Bytes} {event : NetworkSendEvent}
    (pushed : event ∈ userMessage json disk info (ascii "config " ++ configFileName)) :
    ∃ content entries, (disk configFileName).content = some content ∧
      json.parse content = some entries ∧
      writeString (ascii "config " ++ content) = .ok event.payload := by
  obtain ⟨_, _, _, name, content, entries, same, opened, parses, written⟩ :=
    mem_userMessage_iff.mp pushed
  rw [List.append_cancel_left same]
  exact ⟨content, entries, opened, parses, written⟩

/-- Up to its first colon a line is the id, and behind it the message. -/
theorem split_at_colon {input : Bytes} (there : colon ∈ input) :
    input = input.takeWhile (· != colon) ++ colon :: (input.dropWhile (· != colon)).tail := by
  have whole := @List.takeWhile_append_dropWhile _ (· != colon) input
  cases rest : input.dropWhile (· != colon) with
  | nil =>
      have none := List.dropWhile_eq_nil_iff.mp rest colon there
      simp at none
  | cons byte later =>
      have stops := List.head?_dropWhile_not (· != colon) input
      rw [rest] at stops whole
      have same : byte = colon := by simpa using stops
      rw [same] at whole
      exact whole.symm

/-- The client is looked up by what is in front of the first colon. -/
theorem findClientFromInput_append (handlers : ClientHandlers) {idStr : Bytes}
    (free : colon ∉ idStr) (message : Bytes) :
    findClientFromInput handlers (idStr ++ colon :: message) =
      match handlers.lookup (strToInt idStr) with
      | none => (noClient, [])
      | some client => (client, message) := by
  have inside : ∀ byte ∈ idStr, (byte != colon) = true := by
    intro byte member
    simp only [bne_iff_ne, ne_eq]
    rintro rfl
    exact free member
  have front : (idStr ++ colon :: message).takeWhile (· != colon) = idStr := by
    rw [List.takeWhile_append_of_pos inside]
    simp
  have behind : (idStr ++ colon :: message).dropWhile (· != colon) = colon :: message := by
    rw [List.dropWhile_append_of_pos inside]
    simp
  have there : ¬ colon ∉ idStr ++ colon :: message := by simp
  rw [findClientFromInput, if_neg there, front, behind]
  rfl

end RemoteMonitoring
