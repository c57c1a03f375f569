/-
Module: RemoteMonitoring.Proofs.Routing
Purpose: When an operator's line reaches the client it names, and no other: exactly when the two
  lookups on the way, from the number to a client and from its address back to a socket, agree.
Trusted boundary: the JSON library is a parameter
Main exports: lookup_handlers, mem_handedOver_iff, handedOver_of_command, routed_iff
-/
import RemoteMonitoring.Proofs.Configuration
import RemoteMonitoring.System.Routing

namespace RemoteMonitoring

open ByteText

/-! ### The handlers of a history -/

/-- The ids are given in the order of the connections. -/
theorem map_clientId (start : Nat) (connections : List Accepted) :
    (acceptedClients start connections).map ClientInfo.clientId =
      List.range' start connections.length := by
  induction connections generalizing start with
  | nil => rfl
  | cons connection later ih => simp [acceptedClients, ih, List.range'_succ]

/-- Each client has the socket of its connection. -/
theorem map_clientSocket (start : Nat) (connections : List Accepted) :
    (acceptedClients start connections).map ClientInfo.clientSocket =
      connections.map Accepted.clientSocket := by
  induction connections generalizing start with
  | nil => rfl
  | cons connection later ih => simp [acceptedClients, ih]

/-- The ids go on from the first one. -/
theorem clientId_bounds {start : Nat} {connections : List Accepted} {client : ClientInfo}
    (member : client ∈ acceptedClients start connections) :
    start ≤ client.clientId ∧ client.clientId < start + connections.length := by
  have inside := List.mem_map_of_mem (f := ClientInfo.clientId) member
  rw [map_clientId] at inside
  exact List.mem_range'_1.mp inside

/-- An id belongs to one client only. -/
theorem eq_of_clientId {start : Nat} {connections : List Accepted} {one two : ClientInfo}
    (first : one ∈ acceptedClients start connections)
    (second : two ∈ acceptedClients start connections) (same : one.clientId = two.clientId) :
    one = two := by
  have distinct : ((acceptedClients start connections).map ClientInfo.clientId).Nodup := by
    rw [map_clientId]
    exact List.nodup_range'
  exact List.inj_on_of_nodup_map distinct first second same

/-- And so does a socket. -/
theorem eq_of_clientSocket {start : Nat} {connections : List Accepted} {one two : ClientInfo}
    (distinct : (connections.map Accepted.clientSocket).Nodup)
    (first : one ∈ acceptedClients start connections)
    (second : two ∈ acceptedClients start connections)
    (same : one.clientSocket = two.clientSocket) : one = two := by
  rw [← map_clientSocket start] at distinct
  exact List.inj_on_of_nodup_map distinct first second same

/-- Looking up an id in the map finds the client that was accepted with it. -/
theorem lookup_addNewClients {start : Nat} {connections : List Accepted}
    {handlers : ClientHandlers}
    (below : ∀ id : Int, id ∈ handlers → id < start) {id : Int} {client : ClientInfo} :
    ((acceptedClients start connections).foldl addNewClient handlers).lookup id = some client ↔
      handlers.lookup id = some client ∨
        client ∈ acceptedClients start connections ∧ (client.clientId : Int) = id := by
  induction connections generalizing start handlers with
  | nil => simp [acceptedClients]
  | cons connection later ih =>
      have new : (start : Int) ∉ handlers := fun there => Int.lt_irrefl _ (below _ there)
      have added (info : ClientInfo) (same : info.clientId = start) :
          (addNewClient handlers info).lookup id =
            if id = start then some info else handlers.lookup id := by
        rw [addNewClient, same]
        exact UnorderedMap.lookup_emplace_of_not_mem new info id
      rw [acceptedClients, List.foldl_cons, ih, added _ rfl, List.mem_cons]
      · by_cases here : id = start
        · subst here
          have none := AList.lookup_eq_none.mpr new
          simp only [if_true, none, Option.some.injEq, reduceCtorEq, false_or]
          constructor
          · intro either
            cases either with
            | inl same =>
                subst same
                exact ⟨Or.inl rfl, rfl⟩
            | inr behind => exact ⟨Or.inr behind.1, behind.2⟩
          · rintro ⟨either, same⟩
            cases either with
            | inl first => exact Or.inl first.symm
            | inr behind => exact Or.inr ⟨behind, same⟩
        · simp only [here, if_false]
          constructor
          · intro either
            cases either with
            | inl before => exact Or.inl before
            | inr behind => exact Or.inr ⟨Or.inr behind.1, behind.2⟩
          · intro either
            cases either with
            | inl before => exact Or.inl before
            | inr member =>
                cases member.1 with
                | inl first =>
                    rw [first] at member
                    exact absurd member.2.symm here
                | inr behind => exact Or.inr ⟨behind, member.2⟩
      · intro other there
        rw [addNewClient, UnorderedMap.mem_emplace] at there
        cases there with
        | inl same =>
            rw [same]
            exact Int.lt_succ _
        | inr before => exact Int.lt_trans (below other before) (Int.lt_succ _)

section Lookups

variable {history : History} {client : ClientInfo}

/-- The table has the accepted clients under their ids. -/
theorem lookup_handlers {id : Int} :
    history.handlers.lookup id = some client ↔
      client ∈ history.clients ∧ (client.clientId : Int) = id := by
  have found := @lookup_addNewClients 1 history.connections ∅ (by simp) id client
  simp only [AList.lookup_empty, reduceCtorEq, false_or] at found
  exact found

/-- Ids start at 1, and are ints. -/
theorem clientId_range (member : client ∈ history.clients) :
    0 < client.clientId ∧ client.clientId < 2 ^ 31 := by
  have bounds := clientId_bounds member
  have fits := history.fits
  omega

theorem mem_handlers {entry : (_ : Int) × ClientInfo} :
    entry ∈ history.handlers.entries ↔
      entry.2 ∈ history.clients ∧ (entry.2.clientId : Int) = entry.1 := by
  rw [← lookup_handlers]
  exact AList.mem_lookup_iff.symm

/-- The way back from an address leads to a client with that address. -/
theorem getClientInfo_mem (order : IterationOrder ((_ : Int) × ClientInfo))
    (member : client ∈ history.clients) :
    ∃ found ∈ history.clients,
      getClientInfoFromIpAndPort order history.handlers client.clientIp client.clientPort = found ∧
        found.clientIp = client.clientIp ∧ found.clientPort = client.clientPort := by
  unfold getClientInfoFromIpAndPort
  cases search : (order.visit history.handlers.entries).find? fun entry =>
      entry.2.clientIp = client.clientIp ∧ entry.2.clientPort = client.clientPort with
  | none =>
      have fails := List.find?_eq_none.mp search ⟨client.clientId, client⟩
        (order.mem_visit.mpr (mem_handlers.mpr ⟨member, rfl⟩))
      simp at fails
  | some entry =>
      have inside := order.mem_visit.mp (List.mem_of_find?_eq_some search)
      have passes := List.find?_some search
      simp only [decide_eq_true_eq] at passes
      exact ⟨entry.2, (mem_handlers.mp inside).1, rfl, passes⟩

/-- Some order leads to any client with that address. -/
theorem exists_order {other : ClientInfo} (member : other ∈ history.clients)
    (ip : other.clientIp = client.clientIp) (port : other.clientPort = client.clientPort) :
    ∃ order, getClientInfoFromIpAndPort order history.handlers client.clientIp
      client.clientPort = other := by
  have inside : (⟨other.clientId, other⟩ : (_ : Int) × ClientInfo) ∈ history.handlers.entries :=
    mem_handlers.mpr ⟨member, rfl⟩
  refine ⟨.beginning ⟨other.clientId, other⟩, ?_⟩
  rw [getClientInfoFromIpAndPort, IterationOrder.visit_beginning inside]
  simp [ip, port]

end Lookups

/-! ### From the line to a socket -/

section Commands

variable {json : JsonLibrary} {disk : Disk} {history : History} {line : Bytes}

theorem colon_not_mem_digits {idStr : Bytes} (digits : ∀ byte ∈ idStr, isDigit byte = true) :
    colon ∉ idStr := by
  intro member
  exact absurd (digits colon member) (by decide)

/-- What is handed over are the published messages, each to the client that the lookup by
address finds. -/
theorem mem_handedOver_iff {order : IterationOrder ((_ : Int) × ClientInfo)} {socket : Nat}
    {payload : Bytes} :
    (socket, payload) ∈ handedOver json disk order history.handlers line ↔
      ∃ client ∈ history.clients, ∃ idStr message, line = idStr ++ colon :: message ∧
        colon ∉ idStr ∧ strToInt idStr = client.clientId ∧
        ⟨client.clientIp, client.clientPort, payload⟩ ∈ userMessage json disk client message ∧
        socket = (getClientInfoFromIpAndPort order history.handlers client.clientIp
          client.clientPort).clientSocket := by
  have goes (client : ClientInfo) (member : client ∈ history.clients) (payload : Bytes) :
      sendOutputToClient order history.handlers ⟨client.clientIp, client.clientPort, payload⟩ =
        some ((getClientInfoFromIpAndPort order history.handlers client.clientIp
          client.clientPort).clientSocket, payload) := by
    obtain ⟨found, inside, same, _⟩ := getClientInfo_mem order member
    have known : found.clientId ≠ 0 := Nat.ne_of_gt (clientId_range inside).1
    simp only [sendOutputToClient, same, known, if_false]
  unfold handedOver
  rw [List.mem_filterMap]
  constructor
  · rintro ⟨event, published, sends⟩
    unfold onInput at published
    split at published
    · cases published
    · by_cases there : colon ∈ line
      · have split := split_at_colon there
        have free : colon ∉ line.takeWhile (· != colon) := by
          intro member
          simpa using List.mem_takeWhile_imp member
        rw [split, findClientFromInput_append _ free] at published
        cases found : history.handlers.lookup (strToInt (line.takeWhile (· != colon))) with
        | none => simp [found, userMessage, noClient] at published
        | some client =>
            simp only [found] at published
            obtain ⟨member, id⟩ := lookup_handlers.mp found
            obtain ⟨_, ip, port, _⟩ := mem_userMessage_iff.mp published
            cases event with
            | mk eventIp eventPort eventPayload =>
                subst ip port
                rw [goes client member, Option.some.injEq, Prod.mk.injEq] at sends
                obtain ⟨rfl, rfl⟩ := sends
                exact ⟨client, member, _, _, split, free, id.symm, published, rfl⟩
      · simp [findClientFromInput, there, userMessage, noClient] at published
  · rintro ⟨client, member, idStr, message, rfl, free, id, published, rfl⟩
    have found : history.handlers.lookup (strToInt idStr) = some client :=
      lookup_handlers.mpr ⟨member, id.symm⟩
    have other : idStr ++ colon :: message ≠ ascii "exit" := by
      intro same
      have inside : colon ∈ ascii "exit" := by
        rw [← same]
        simp
      exact absurd inside (by decide)
    refine ⟨_, ?_, goes client member payload⟩
    rw [onInput, if_neg other, findClientFromInput_append _ free, found]
    exact published

/-- A command hands its text to the client that the lookup by address finds for the client
that the lookup by number finds. -/
theorem handedOver_of_command (command : ConfigCommand json disk line)
    (order : IterationOrder ((_ : Int) × ClientInfo)) {client : ClientInfo}
    (member : client ∈ history.clients)
    (named : (client.clientId : Int) = Int.bmod (numeralValue command.idStr) (2 ^ 32))
    (sendable : Sendable command.content) :
    ∃ payload,
      ((getClientInfoFromIpAndPort order history.handlers client.clientIp
          client.clientPort).clientSocket, payload) ∈
        handedOver json disk order history.handlers line := by
  obtain ⟨payload, written⟩ : ∃ payload,
      writeString (ascii "config " ++ command.content) = .ok payload :=
    ⟨_, writeString_eq_ok.mpr ⟨sendable, rfl⟩⟩
  have id : strToInt command.idStr = client.clientId := by
    rw [strToInt_of_digits command.digits, named]
  have known : client.clientId ≠ 0 := Nat.ne_of_gt (clientId_range member).1
  refine ⟨payload, mem_handedOver_iff.mpr ⟨client, member, command.idStr, _, command.same,
    colon_not_mem_digits command.digits, id, ?_, rfl⟩⟩
  exact mem_userMessage_iff.mpr ⟨known, rfl, rfl, command.configFileName, command.content,
    command.configEntries, rfl, command.opens, command.parses, written⟩

/-- Whatever is handed over comes from a command in this way. -/
theorem command_of_handedOver {order : IterationOrder ((_ : Int) × ClientInfo)} {socket : Nat}
    {payload : Bytes} (handed : (socket, payload) ∈
      handedOver json disk order history.handlers line) :
    ∃ command : ConfigCommand json disk line, ∃ client ∈ history.clients,
      (client.clientId : Int) = Int.bmod (numeralValue command.idStr) (2 ^ 32) ∧
        writeString (ascii "config " ++ command.content) = .ok payload ∧
        socket = (getClientInfoFromIpAndPort order history.handlers client.clientIp
          client.clientPort).clientSocket := by
  obtain ⟨client, member, idStr, message, same, _, id, published, goes⟩ :=
    mem_handedOver_iff.mp handed
  obtain ⟨_, _, _, name, content, entries, rfl, opens, parses, written⟩ :=
    mem_userMessage_iff.mp published
  have positive := (clientId_range member).1
  have digits : ∀ byte ∈ idStr, isDigit byte = true := by
    by_contra other
    rw [strToInt_of_not_digits other] at id
    omega
  have nonempty : idStr ≠ [] := by
    rintro rfl
    have zero : strToInt [] = 0 := rfl
    rw [zero] at id
    omega
  rw [strToInt_of_digits digits] at id
  exact ⟨⟨idStr, name, content, entries, same, nonempty, digits, opens, parses⟩, client, member,
    id.symm, written, goes⟩

/-- The id ends at the first colon. -/
theorem takeWhile_eq_idStr (command : ConfigCommand json disk line) :
    line.takeWhile (· != colon) = command.idStr := by
  have inside : ∀ byte ∈ command.idStr, (byte != colon) = true := by
    intro byte member
    simp only [bne_iff_ne, ne_eq]
    rintro rfl
    exact colon_not_mem_digits command.digits member
  have front : (command.idStr ++ colon :: (ascii "config " ++ command.configFileName)).takeWhile
      (· != colon) = command.idStr := by
    rw [List.takeWhile_append_of_pos inside]
    simp
  exact (congrArg (List.takeWhile (· != colon)) command.same).trans front

/-- A line is a command in one way only. -/
theorem command_unique (one two : ConfigCommand json disk line) :
    one.idStr = two.idStr ∧ one.content = two.content := by
  have id : one.idStr = two.idStr := by rw [← takeWhile_eq_idStr one, takeWhile_eq_idStr two]
  have lines := one.same.symm.trans two.same
  rw [id, List.append_cancel_left_eq, List.cons.injEq, List.append_cancel_left_eq] at lines
  have opened := one.opens
  rw [lines.2, two.opens, Option.some.injEq] at opened
  exact ⟨id, opened.symm⟩

/-- The id of an accepted client fits an `int`. -/
theorem bmod_clientId {client : ClientInfo} (member : client ∈ history.clients) :
    Int.bmod client.clientId (2 ^ 32) = client.clientId := by
  have range := clientId_range member
  apply Int.bmod_eq_of_le
  · omega
  · omega

/-- The exact number of an accepted client is found as it is. -/
theorem bmod_of_clientId_eq {client : ClientInfo} (member : client ∈ history.clients)
    {value : Nat} (id : client.clientId = value) :
    (client.clientId : Int) = Int.bmod value (2 ^ 32) := by
  rw [← id, bmod_clientId member]

/-- If the line is routed, then the socket it reaches shows which clients share an address, and
that the number did not wrap. -/
theorem routable_of_routed (routed : Routed json disk history line) :
    Routable json disk history line := by
  intro command
  constructor
  · intro client member id
    have named := bmod_of_clientId_eq member id
    have sendable : Sendable command.content := by
      obtain ⟨payload, handed⟩ := (routed .stored client member).1.mpr ⟨command, id.symm⟩
      obtain ⟨other, _, _, _, written, _⟩ := command_of_handedOver handed
      exact (command_unique other command).2 ▸ (writeString_eq_ok.mp written).1
    refine ⟨sendable, ?_⟩
    intro other there ip port
    obtain ⟨order, finds⟩ := exists_order there ip port
    obtain ⟨payload, handed⟩ := handedOver_of_command command order member named sendable
    rw [finds] at handed
    obtain ⟨again, same⟩ := (routed order other there).1.mp ⟨payload, handed⟩
    rw [(command_unique again command).1, ← id] at same
    exact eq_of_clientId there member same.symm
  · intro unknown sendable client member named
    obtain ⟨found, inside, finds, _⟩ := getClientInfo_mem .stored member
    obtain ⟨payload, handed⟩ := handedOver_of_command command .stored member named sendable
    rw [finds] at handed
    obtain ⟨again, same⟩ := (routed .stored found inside).1.mp ⟨payload, handed⟩
    rw [(command_unique again command).1] at same
    exact unknown found inside same.symm

/-- Under the condition the number that is looked up has not wrapped. -/
theorem clientId_of_routable (routable : Routable json disk history line)
    (command : ConfigCommand json disk line) (sendable : Sendable command.content)
    {client : ClientInfo} (member : client ∈ history.clients)
    (named : (client.clientId : Int) = Int.bmod (numeralValue command.idStr) (2 ^ 32)) :
    client.clientId = numeralValue command.idStr := by
  by_contra other
  have known : ¬ ∀ client ∈ history.clients, client.clientId ≠ numeralValue command.idStr :=
    fun unknown => (routable command).2 unknown sendable client member named
  simp only [ne_eq, not_forall, not_not] at known
  obtain ⟨second, accepted, id⟩ := known
  rw [← bmod_of_clientId_eq accepted id, Int.natCast_inj] at named
  exact other (named.trans id)

/-- With an address of its own, the client that is found by its number is found by its address
too. -/
theorem routed_of_routable (routable : Routable json disk history line) :
    Routed json disk history line := by
  intro order client member
  refine ⟨⟨?_, ?_⟩, ?_⟩
  · rintro ⟨payload, handed⟩
    obtain ⟨command, first, inside, named, written, goes⟩ := command_of_handedOver handed
    have sendable : Sendable command.content := (writeString_eq_ok.mp written).1
    obtain ⟨found, there, finds, ip, port⟩ := getClientInfo_mem order inside
    rw [finds] at goes
    have meant : client = found := eq_of_clientSocket history.distinct member there goes
    have id := clientId_of_routable routable command sendable inside named
    have only := ((routable command).1 first inside id).2 found there ip port
    exact ⟨command, by rw [meant, only, id]⟩
  · rintro ⟨command, id⟩
    obtain ⟨sendable, only⟩ := (routable command).1 client member id.symm
    obtain ⟨found, there, finds, ip, port⟩ := getClientInfo_mem order member
    obtain ⟨payload, handed⟩ := handedOver_of_command command order member
      (bmod_of_clientId_eq member id.symm) sendable
    rw [finds, only found there ip port] at handed
    exact ⟨payload, handed⟩
  · intro payload handed
    obtain ⟨command, _, _, _, written, _⟩ := command_of_handedOver handed
    exact ⟨command, written⟩

/-- Operator commands reach the client they name.  For every history and every line,
whatever the order of the hash map: the text of the file is handed to the socket of exactly
the client whose number stands in front of a valid "config" command, if and only if the two
lookups agree on that client, or find none. -/
theorem routed_iff (json : JsonLibrary) (disk : Disk) (history : History) (line : Bytes) :
    Routed json disk history line ↔ Routable json disk history line :=
  ⟨routable_of_routed, routed_of_routable⟩

end Commands

/-- One connection of 10.0.0.7, and the same with another on the same port after it. -/
def firstVisit : History where
  connections := [⟨4, ascii "10.0.0.7", 50000⟩]
  fits := by decide
  distinct := by decide

def secondVisit : History where
  connections := [⟨4, ascii "10.0.0.7", 50000⟩, ⟨5, ascii "10.0.0.7", 50000⟩]
  fits := by decide
  distinct := by decide

/-- The command for client 2 is handed to the dead socket of client 1 if the map shows
client 1 first, and a command for client 4294967297 is handed to client 1. -/
theorem wrong_client_served :
    let dead : ClientInfo := ⟨1, 4, ascii "10.0.0.7", 50000⟩
    handedOver sampleJson sampleDisk (.beginning ⟨1, dead⟩) secondVisit.handlers
        (ascii "2:config chrome.json") = [(4, samplePush.payload)] ∧
      ¬ Routed sampleJson sampleDisk secondVisit (ascii "2:config chrome.json") ∧
      handedOver sampleJson sampleDisk .stored firstVisit.handlers
        (ascii "4294967297:config chrome.json") = [(4, samplePush.payload)] ∧
      ¬ Routed sampleJson sampleDisk firstVisit (ascii "4294967297:config chrome.json") := by
  intro dead
  have swapped : handedOver sampleJson sampleDisk (.beginning ⟨1, dead⟩) secondVisit.handlers
      (ascii "2:config chrome.json") = [(4, samplePush.payload)] := by decide +kernel
  have wrapped : handedOver sampleJson sampleDisk .stored firstVisit.handlers
      (ascii "4294967297:config chrome.json") = [(4, samplePush.payload)] := by decide +kernel
  refine ⟨swapped, ?_, wrapped, ?_⟩
  · intro routed
    obtain ⟨command, id⟩ := (routed (.beginning ⟨1, dead⟩) dead (by decide)).1.mp
      ⟨samplePush.payload, by rw [swapped]; exact List.mem_singleton.mpr rfl⟩
    rw [← takeWhile_eq_idStr command] at id
    exact absurd id (by decide)
  · intro routed
    obtain ⟨command, id⟩ := (routed .stored dead (by decide)).1.mp
      ⟨samplePush.payload, by rw [wrapped]; exact List.mem_singleton.mpr rfl⟩
    rw [← takeWhile_eq_idStr command] at id
    exact absurd id (by decide)

end RemoteMonitoring
