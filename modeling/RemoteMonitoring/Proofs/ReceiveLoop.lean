/-
Module: RemoteMonitoring.Proofs.ReceiveLoop
Purpose: Messages on which the handler throws are as if they had never been sent, as long as
  there are not too many of them in a row.
Trusted boundary: `recv` does not fail
Main exports: throws_eq, receiveAll_eq, malformed_removed
-/
import RemoteMonitoring.Server.ReceiveLoop

namespace RemoteMonitoring

open ByteText

/-! ### Messages that make the handler throw -/

/-- The message as it is published on the connection of `info`. -/
def Received.event (message : Received) (info : ClientInfo) : NetworkRecvEvent :=
  ⟨info.clientIp, info.clientPort, message.payload⟩

/-- The handler of `info` throws on the message when the disk is this. -/
def Received.throws (info : ClientInfo) (disk : Disk) (message : Received) : Bool :=
  match ClientHandler.onNetworkRecv info message.junk message.netCount (message.event info)
      disk with
  | .error _ => true
  | .ok _ => false

/-- The message has no string in front, or it is a log whose batch does not decode. -/
def Received.malformed (message : Received) : Bool :=
  match readString (.ofBytes message.payload) with
  | .error _ => true
  | .ok (response, is) =>
      if response = ascii "log" then
        match readVectorSerializeable LogEntry.deserialize message.netCount is with
        | .error _ => true
        | .ok _ => false
      else false

/-- Decoding comes before the disk is looked at, and nothing throws behind it. -/
theorem throws_eq (info : ClientInfo) (disk : Disk) (message : Received) :
    message.throws info disk = message.malformed := by
  unfold Received.throws Received.malformed ClientHandler.onNetworkRecv Received.event
  simp only [ne_eq, not_true_eq_false, if_false]
  cases readString (.ofBytes message.payload) with
  | error e => rfl
  | ok outcome =>
      obtain ⟨response, is⟩ := outcome
      simp only [bind, Except.bind]
      by_cases log : response = ascii "log"
      · simp only [log, if_true, handleRecvLog]
        cases readVectorSerializeable LogEntry.deserialize message.netCount is with
        | error e => rfl
        | ok outcome =>
            cases opens : (disk (clientLogFile info.clientIp)).writable with
            | false => simp [bind, Except.bind, pure, Except.pure]
            | true => simp [bind, Except.bind, pure, Except.pure, writeString_ackMessage]
      · simp [log, pure, Except.pure]

/-! ### The loop over the messages -/

/-- What the handler makes of the messages one after another, when nothing limits the
exceptions. -/
def handleAll (info : ClientInfo) : List Received → Disk → Disk × List NetworkSendEvent
  | [], disk => (disk, [])
  | message :: later, disk =>
      match ClientHandler.onNetworkRecv info message.junk message.netCount (message.event info)
          disk with
      | .error _ => handleAll info later disk
      | .ok (disk, sends) =>
          let (disk, others) := handleAll info later disk
          (disk, sends ++ others)

/-- The messages that are published. -/
def visible (messages : List Received) : List Received :=
  messages.filter fun message => message.payload ≠ []

/-- The messages that have an effect. -/
def effective (messages : List Received) : List Received :=
  messages.filter fun message => message.payload ≠ [] ∧ message.malformed = false

theorem effective_cons (message : Received) (messages : List Received) :
    effective (message :: messages) =
      if message.payload ≠ [] ∧ message.malformed = false then message :: effective messages
      else effective messages := by
  simp [effective, List.filter_cons]

/-- The loop, with `countFail` exceptions so far, stays below its limit: the run of
exceptions that is going on ends in time, and so does every other. -/
structure Patient (countFail : Nat) (messages : List Received) : Prop where
  current : ∀ run, run <+: visible messages → (∀ message ∈ run, message.malformed = true) →
    countFail + run.length ≤ maxTries
  every : ∀ run, run <:+: visible messages → (∀ message ∈ run, message.malformed = true) →
    run.length ≤ maxTries

namespace Patient

variable {countFail : Nat} {message : Received} {messages : List Received}

/-- With no more malformed messages in a row than there are tries, the loop is patient from its
start. -/
theorem start (every : ∀ run, run <:+: visible messages →
    (∀ message ∈ run, message.malformed = true) → run.length ≤ maxTries) :
    Patient 0 messages where
  current run front fails := by
    rw [Nat.zero_add]
    exact every run front.isInfix fails
  every := every

/-- An empty message neither counts nor resets. -/
theorem of_empty (patient : Patient countFail (message :: messages))
    (empty : message.payload = []) : Patient countFail messages := by
  have same : visible (message :: messages) = visible messages := by simp [visible, empty]
  exact ⟨same ▸ patient.current, same ▸ patient.every⟩

theorem visible_cons (shown : message.payload ≠ []) (messages : List Received) :
    visible (message :: messages) = message :: visible messages := by
  simp [visible, shown]

/-- A message that throws uses up one of the tries. -/
theorem of_throws (patient : Patient countFail (message :: messages))
    (shown : message.payload ≠ []) (fails : message.malformed = true) :
    countFail + 1 ≤ maxTries ∧ Patient (countFail + 1) messages := by
  have front {run : List Received} (before : run <+: visible messages)
      (all : ∀ other ∈ run, other.malformed = true) :
      countFail + (message :: run).length ≤ maxTries := by
    apply patient.current
    · rw [visible_cons shown]
      exact List.cons_prefix_cons.mpr ⟨rfl, before⟩
    · exact List.forall_mem_cons.mpr ⟨fails, all⟩
  refine ⟨front (List.nil_prefix) (by simp), ?_, ?_⟩
  · intro run before all
    have bound := front before all
    rw [List.length_cons] at bound
    omega
  · intro run inside all
    apply patient.every run _ all
    rw [visible_cons shown]
    exact inside.trans (List.suffix_cons _ _).isInfix

/-- A message that is handled gives all tries back. -/
theorem of_success (patient : Patient countFail (message :: messages))
    (shown : message.payload ≠ []) : Patient 0 messages := by
  apply start
  intro run inside all
  apply patient.every run _ all
  rw [visible_cons shown]
  exact inside.trans (List.suffix_cons _ _).isInfix

/-- Where nothing throws the limit is never reached. -/
theorem of_effective (messages : List Received) : Patient 0 (effective messages) := by
  apply start
  intro run inside all
  cases run with
  | nil => exact Nat.zero_le _
  | cons message run =>
      have member : message ∈ visible (effective messages) := inside.subset List.mem_cons_self
      have fails := all message List.mem_cons_self
      simp [visible, effective, fails] at member

end Patient

section Loop

variable {before after : List ClientInfo} {info : ClientInfo} (available : Nat → Nat)

/-- One round of the loop on a frame. -/
theorem recvInput_step (alone : info.connection ∉ (before ++ after).map ClientInfo.connection)
    {message : Received} (fits : message.payload.length < 2 ^ 32)
    (calls : List (Indeterminate × UInt32)) (wire : Bytes) (countFail : Nat) (disk : Disk) :
    recvInputFromClient (before ++ info :: after) info available
        ((message.junk, message.netCount) :: calls) (frame message.payload ++ wire) countFail
        disk =
      let next := recvInputFromClient (before ++ info :: after) info available calls wire
      if message.payload = [] then next countFail disk
      else
        match ClientHandler.onNetworkRecv info message.junk message.netCount
            (message.event info) disk with
        | .ok (disk, sends) => ((next 0 disk).1, sends ++ (next 0 disk).2)
        | .error _ =>
            if countFail + 1 > maxTries then (disk, []) else next (countFail + 1) disk := by
  have published := publish_of_split (message.event info) rfl alone message.junk
    message.netCount disk
  unfold Received.event at published ⊢
  rw [recvInputFromClient, recvMessage_frame available fits]
  simp only [published]
  split
  · rfl
  · cases ClientHandler.onNetworkRecv info message.junk message.netCount
        ⟨info.clientIp, info.clientPort, message.payload⟩ disk with
    | ok outcome => rfl
    | error e => simp

/-- As long as the limit is not reached, the loop handles the effective messages. -/
theorem recvInput_eq (alone : info.connection ∉ (before ++ after).map ClientInfo.connection)
    {messages : List Received}
    (fits : ∀ message ∈ messages, message.payload.length < 2 ^ 32) {countFail : Nat}
    (patient : Patient countFail messages) (disk : Disk) :
    recvInputFromClient (before ++ info :: after) info available
        (messages.map fun message => (message.junk, message.netCount))
        (messages.map fun message => frame message.payload).flatten countFail disk =
      handleAll info (effective messages) disk := by
  induction messages generalizing countFail disk with
  | nil => rfl
  | cons message messages ih =>
      have later := fun other member => fits other (List.mem_cons_of_mem message member)
      simp only [List.map_cons, List.flatten_cons,
        recvInput_step available alone (fits message List.mem_cons_self)]
      by_cases empty : message.payload = []
      · simp [empty, effective_cons, ← ih later (patient.of_empty empty)]
      · have thrown := throws_eq info disk message
        unfold Received.throws at thrown
        cases handled : ClientHandler.onNetworkRecv info message.junk message.netCount
            (message.event info) disk with
        | error e =>
            simp only [handled] at thrown
            obtain ⟨room, rest⟩ := patient.of_throws empty thrown.symm
            have within : ¬ countFail + 1 > maxTries := Nat.not_lt.mpr room
            simp [empty, effective_cons, within, ih later rest, ← thrown]
        | ok outcome =>
            simp only [handled] at thrown
            have rest := ih later (patient.of_success empty)
            simp [empty, effective_cons, rest, ← thrown, handleAll, handled]

end Loop

/-- A message on which the handler throws changes nothing and is not answered; the
exception is left to the receive loop. -/
theorem publish_of_throws {before after : List ClientInfo} {info : ClientInfo}
    (alone : info.connection ∉ (before ++ after).map ClientInfo.connection)
    {message : Received} {disk : Disk} (throws : message.throws info disk = true) :
    ∃ e, publish message.junk message.netCount (message.event info) (before ++ info :: after)
      disk = (.error e, disk, []) := by
  have published := publish_of_split (message.event info) rfl alone message.junk
    message.netCount disk
  unfold Received.throws at throws
  cases handled : ClientHandler.onNetworkRecv info message.junk message.netCount
      (message.event info) disk with
  | error e =>
      rw [handled] at published
      exact ⟨e, published⟩
  | ok outcome => simp [handled] at throws

/-- The word "log" as `write_string` writes it. -/
def logTag : Bytes := writeUint32 3 ++ ascii "log"

/-- A batch that cannot be decoded makes its handler throw. -/
theorem throws_of_undecodable {message : Received} {body : Bytes} {e : RuntimeError}
    (log : message.payload = logTag ++ body)
    (undecodable : readVectorSerializeable LogEntry.deserialize message.netCount (.ofBytes body) =
      .error e) (info : ClientInfo) (disk : Disk) : message.throws info disk = true := by
  have tag : writeString (ascii "log") = .ok logTag := rfl
  rw [throws_eq]
  simp only [Received.malformed, log, readString_writeString tag, if_true, undecodable]

/-- Malformed messages are as if never sent.  `before` and `after` are the handlers of
other connections.  As long as no more than `max_tries` published messages in a row make
the handler throw, the disk and the acks are those of the messages that are neither
empty nor make it throw.  Whether a message does is decided by the message alone.  In
particular, a log that does not decode changes nothing and is not acknowledged. -/
theorem malformed_removed {before after : List ClientInfo} {info : ClientInfo}
    (alone : info.connection ∉ (before ++ after).map ClientInfo.connection) (disk : Disk)
    {messages : List Received} (fits : ∀ message ∈ messages, message.payload.length < 2 ^ 32)
    (inRow : ∀ run, run <:+: messages.filter (fun message => message.payload ≠ []) →
      (∀ message ∈ run, message.throws info disk = true) → run.length ≤ 10)
    (available available' : Nat → Nat) :
    receiveAll (before ++ info :: after) info available messages disk =
        receiveAll (before ++ info :: after) info available'
          (messages.filter fun message =>
            message.payload ≠ [] ∧ message.throws info disk = false) disk ∧
      (∀ (message : Received) other, message.throws info other = message.throws info disk) ∧
      ∀ (message : Received) other body e, message.payload = logTag ++ body →
        readVectorSerializeable LogEntry.deserialize message.netCount (.ofBytes body) = .error e →
        ∃ e, publish message.junk message.netCount (message.event info)
          (before ++ info :: after) other = (.error e, other, []) := by
  refine ⟨?_, ?_, ?_⟩
  · simp only [throws_eq] at inRow ⊢
    have kept : ∀ message ∈ effective messages, message.payload.length < 2 ^ 32 :=
      fun message member => fits message (List.mem_of_mem_filter member)
    have twice : effective (effective messages) = effective messages := by
      simp [effective, List.filter_filter]
    have all := recvInput_eq available alone fits (.start inRow) disk
    have removed := recvInput_eq available' alone kept (.of_effective messages) disk
    rw [twice] at removed
    exact all.trans removed.symm
  · intro message other
    rw [throws_eq, throws_eq]
  · intro message other body e log undecodable
    exact publish_of_throws alone (throws_of_undecodable log undecodable info other)

/-- Noise, an empty message, a log of one entry, and the same log cut short. -/
def sampleMessages : List Received :=
  let batch := writeUint32 1 ++ writeUint64 1 ++ writeUint32 1 ++ ascii "a" ++ writeUint64 5 ++
    writeUint32 LogType.cpu ++ writeUint64 9
  [⟨[1, 2, 3], default, 0⟩, ⟨[], default, 0⟩, ⟨logTag ++ batch, default, 7⟩,
    ⟨logTag ++ batch.take 9, default, 7⟩]

/-- Only the whole log is left, and it is stored and acknowledged. -/
theorem malformed_removed_sample :
    let info : ClientInfo := ⟨1, 4, ascii "10.0.0.7", 50000⟩
    let other : ClientInfo := ⟨2, 5, ascii "10.0.0.7", 50001⟩
    let disk : Disk := fun _ => File.absent
    (sampleMessages.filter fun message =>
        message.payload ≠ [] ∧ message.throws info disk = false).length = 1 ∧
      (receiveAll [other, info] info (fun _ => 3) sampleMessages disk).2 =
        [⟨ascii "10.0.0.7", 50000, ackPayload 1⟩] ∧
      receiveAll [other, info] info (fun _ => 3) sampleMessages disk =
        receiveAll [other, info] info (fun _ => 1) (sampleMessages.filter fun message =>
          message.payload ≠ [] ∧ message.throws info disk = false) disk := by
  intro info other disk
  refine ⟨by decide +kernel, by decide +kernel, ?_⟩
  have fits : ∀ message ∈ sampleMessages, message.payload.length < 2 ^ 32 := by decide +kernel
  have few : (sampleMessages.filter fun message => message.payload ≠ []).length ≤ 10 := by
    decide +kernel
  exact (@malformed_removed [other] [] info (by decide) disk sampleMessages fits
    (fun run inside _ => inside.length_le.trans few) (fun _ => 3) (fun _ => 1)).1

end RemoteMonitoring
