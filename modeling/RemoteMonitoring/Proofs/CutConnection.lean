/-
Module: RemoteMonitoring.Proofs.CutConnection
Purpose: A message arrives whole or not at all, wherever the connection breaks: the server does
  with what has arrived what it does with the messages that are there as a whole.
Trusted boundary: none
Main exports: wholeMessages, take_stream, recvUntilClosed_eq, cut_connection
-/
import RemoteMonitoring.System.CutConnection

namespace RemoteMonitoring

open ByteText

/-! ### Whole messages -/

@[simp] theorem stream_cons (payload : Bytes) (later : List Bytes) :
    stream (payload :: later) = frame payload ++ stream later := by
  simp [stream]

/-- How many of the messages are whole when only the front of the stream arrives. -/
def wholeMessages : List Bytes → Nat → Nat
  | [], _ => 0
  | payload :: later, arrived =>
      if (frame payload).length ≤ arrived then
        wholeMessages later (arrived - (frame payload).length) + 1
      else 0

/-- No more messages arrive than were sent. -/
theorem wholeMessages_le (payloads : List Bytes) (arrived : Nat) :
    wholeMessages payloads arrived ≤ payloads.length := by
  induction payloads generalizing arrived with
  | nil => exact Nat.le_refl 0
  | cons payload later ih =>
      rw [wholeMessages]
      split
      · exact Nat.succ_le_succ (ih _)
      · exact Nat.zero_le _

/-- What arrives are the whole messages, and behind them the front of another that is no message
itself. -/
theorem take_stream (available : Nat → Nat) {payloads : List Bytes}
    (fits : ∀ payload ∈ payloads, payload.length < 2 ^ 32) (arrived : Nat) :
    ∃ rest, (stream payloads).take arrived =
        stream (payloads.take (wholeMessages payloads arrived)) ++ rest ∧
      recvMessage available rest = none := by
  induction payloads generalizing arrived with
  | nil => exact ⟨[], by simp [stream], rfl⟩
  | cons payload later ih =>
      have others := fun other member => fits other (List.mem_cons_of_mem payload member)
      rw [wholeMessages, stream_cons]
      by_cases whole : (frame payload).length ≤ arrived
      · obtain ⟨rest, same, nothing⟩ := ih others (arrived - (frame payload).length)
        refine ⟨rest, ?_, nothing⟩
        rw [if_pos whole, List.take_append, List.take_of_length_le whole, same, List.take_succ_cons,
          stream_cons, List.append_assoc]
      · have short : arrived < (frame payload).length := Nat.lt_of_not_le whole
        refine ⟨(frame payload).take arrived, ?_, ?_⟩
        · rw [if_neg whole, List.take_append_of_le_length (Nat.le_of_lt short)]
          rfl
        · apply recvMessage_cut available (fits payload List.mem_cons_self) (List.take_prefix _ _)
          rw [List.length_take]
          omega

/-- The number of whole messages is the largest that fits into what arrives. -/
theorem le_wholeMessages_iff (payloads : List Bytes) (arrived : Nat) {count : Nat}
    (inside : count ≤ payloads.length) :
    count ≤ wholeMessages payloads arrived ↔ (stream (payloads.take count)).length ≤ arrived := by
  induction payloads generalizing arrived count with
  | nil =>
      cases Nat.le_zero.mp inside
      simp [stream]
  | cons payload later ih =>
      cases count with
      | zero => simp [stream]
      | succ count =>
          have rest := ih (arrived - (frame payload).length) (Nat.le_of_succ_le_succ inside)
          rw [wholeMessages, List.take_succ_cons, stream_cons, List.length_append]
          split
          · rw [Nat.succ_le_succ_iff, rest]
            omega
          · constructor
            · intro impossible
              omega
            · intro impossible
              omega

/-! ### The loops -/

section Loops

variable {handlers : List ClientInfo} {info : ClientInfo} {available : Nat → Nat}

/-- Without a whole message the exceptions add up until the loops are left. -/
theorem recvUntilClosed_rest {rest : Bytes} (nothing : recvMessage available rest = none)
    {calls : List (Indeterminate × UInt32)} {countFail : Nat} (below : countFail ≤ maxTries)
    (enough : maxTries + 1 ≤ countFail + calls.length) (disk : Disk) :
    recvUntilClosed handlers info available calls rest countFail disk = some (disk, []) := by
  induction calls generalizing rest countFail with
  | nil =>
      rw [List.length_nil] at enough
      omega
  | cons call later ih =>
      obtain ⟨junk, netCount⟩ := call
      rw [List.length_cons] at enough
      rw [recvUntilClosed, nothing]
      simp only
      by_cases last : countFail + 1 > maxTries
      · rw [if_pos last]
      · have empty : recvMessage available [] = none := rfl
        rw [if_neg last]
        exact ih empty (by omega) (by omega)

/-- A stream without a byte changes nothing, however often it is read. -/
theorem recvInputFromClient_nil (calls : List (Indeterminate × UInt32)) (countFail : Nat)
    (disk : Disk) : recvInputFromClient handlers info available calls [] countFail disk =
      (disk, []) := by
  cases calls with
  | nil => rfl
  | cons call later => rfl

/-- On whole messages with the front of another behind them, the loops end, and do with the whole
messages what they do with a connection that stays open. -/
theorem recvUntilClosed_eq {payloads : List Bytes}
    (fits : ∀ payload ∈ payloads, payload.length < 2 ^ 32) {rest : Bytes}
    (nothing : recvMessage available rest = none) {calls : List (Indeterminate × UInt32)}
    {countFail : Nat} (below : countFail ≤ maxTries)
    (enough : payloads.length + maxTries + 1 ≤ calls.length) (disk : Disk) :
    recvUntilClosed handlers info available calls (stream payloads ++ rest) countFail disk =
      some (recvInputFromClient handlers info available calls (stream payloads) countFail
        disk) := by
  induction payloads generalizing calls countFail disk with
  | nil =>
      rw [List.length_nil] at enough
      have ends := @recvUntilClosed_rest handlers info available rest nothing calls countFail below
        (by omega) disk
      have open' : stream [] = [] := rfl
      rw [open', List.nil_append, recvInputFromClient_nil, ends]
  | cons payload later ih =>
      have others := fun other member => fits other (List.mem_cons_of_mem payload member)
      have first := fits payload List.mem_cons_self
      cases calls with
      | nil => cases enough
      | cons call calls =>
          obtain ⟨junk, netCount⟩ := call
          rw [List.length_cons, List.length_cons] at enough
          have room : later.length + maxTries + 1 ≤ calls.length := by omega
          rw [stream_cons, List.append_assoc, recvUntilClosed, recvInputFromClient,
            recvMessage_frame available first, recvMessage_frame available first]
          simp only
          by_cases empty : payload = []
          · rw [if_pos empty, if_pos empty]
            exact ih others below room disk
          · rw [if_neg empty, if_neg empty]
            obtain ⟨outcome, after, sends⟩ :=
              publish junk netCount ⟨info.clientIp, info.clientPort, payload⟩ handlers disk
            cases outcome with
            | ok done => simp only [ih others (Nat.zero_le maxTries) room after]
            | error e =>
                by_cases last : countFail + 1 > maxTries
                · simp only [if_pos last]
                · simp only [if_neg last, ih others (Nat.le_of_not_lt last) room after]

end Loops

/-- A client sends some messages one after another, in `send()` calls of any size, of which the
last may fail; the connection breaks and any number of the bytes sent has arrived.  Then the
server's loops end, and do what they do with the messages that have arrived as a whole: these are
the first ones, and as many as fit into what has arrived. -/
theorem cut_connection (handlers : List ClientInfo) (info : ClientInfo)
    (accepts available : Nat → Nat) {payloads : List Bytes}
    (fits : ∀ payload ∈ payloads, payload.length < 2 ^ 32) {arrived : Nat}
    (part : arrived ≤ (sendMessages accepts payloads []).2.length)
    {calls : List (Indeterminate × UInt32)}
    (enough : payloads.length + maxTries + 1 ≤ calls.length) (disk : Disk) :
    ∃ whole ≤ payloads.length,
      (∀ count ≤ payloads.length,
        count ≤ whole ↔ (stream (payloads.take count)).length ≤ arrived) ∧
      recvUntilClosed handlers info available calls
          ((sendMessages accepts payloads []).2.take arrived) 0 disk =
        some (recvInputFromClient handlers info available calls (stream (payloads.take whole)) 0
          disk) := by
  obtain ⟨sent, left, split, there, _⟩ := sendMessages_puts accepts payloads []
  rw [there, List.nil_append] at part ⊢
  have front : sent.take arrived = (stream payloads).take arrived := by
    rw [stream, split, List.take_append_of_le_length part]
  obtain ⟨rest, same, nothing⟩ := take_stream available fits arrived
  have bound := wholeMessages_le payloads arrived
  refine ⟨wholeMessages payloads arrived, bound,
    fun count inside => le_wholeMessages_iff payloads arrived inside, ?_⟩
  rw [front, same]
  refine recvUntilClosed_eq (fun payload member => fits payload (List.mem_of_mem_take member))
    nothing (Nat.zero_le maxTries) ?_ disk
  rw [List.length_take]
  omega

/-- Two batches of one entry each.  The last byte is not sent, and much of the second batch that
was sent does not arrive: the first is stored and acknowledged. -/
theorem cut_connection_sample :
    let batch := fun id => writeUint32 3 ++ ascii "log" ++ writeUint32 1 ++ (writeUint64 id ++
      writeUint32 1 ++ ascii "a" ++ writeUint64 5 ++ writeUint32 LogType.cpu ++ writeUint64 9)
    let payloads := [batch 1, batch 2]
    let handlers : List ClientInfo := [⟨1, 4, ascii "10.0.0.7", 50000⟩]
    let info : ClientInfo := ⟨1, 4, ascii "10.0.0.7", 50000⟩
    let calls := List.replicate 13 ((default : Indeterminate), (0 : UInt32))
    let wire := (sendMessages (fun sent => 95 - sent) payloads []).2
    (recvUntilClosed handlers info (fun _ => 1) calls (wire.take 60) 0 fun _ => File.absent).map
        Prod.snd = some [⟨ascii "10.0.0.7", 50000, ackPayload 1⟩] ∧
    ∃ whole ≤ payloads.length,
      (∀ count ≤ payloads.length,
        count ≤ whole ↔ (stream (payloads.take count)).length ≤ 60) ∧
      recvUntilClosed handlers info (fun _ => 1) calls (wire.take 60) 0 (fun _ => File.absent) =
        some (recvInputFromClient handlers info (fun _ => 1) calls
          (stream (payloads.take whole)) 0 fun _ => File.absent) := by
  intro batch payloads handlers info calls wire
  have fits : ∀ payload ∈ payloads, payload.length < 2 ^ 32 := by decide +kernel
  refine ⟨by decide +kernel, ?_⟩
  exact cut_connection handlers info (fun sent => 95 - sent) (fun _ => 1) fits
    (by decide +kernel) (by decide +kernel) _

end RemoteMonitoring
