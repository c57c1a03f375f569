/-
Module: RemoteMonitoring.Common.Message
Purpose: `send_exact`, `recv_exact`, `send_message` and `recv_message` (common/serializable.cpp):
  messages behind a 32-bit length on a stream socket, which takes and gives any part of a
  buffer at a time.
Trusted boundary: the socket delivers the bytes in the order in which they were sent
Main exports: sendExact, sendMessage, sendMessages, sendSome, frame, recvExact, recvMessage,
  recvMessages, Puts, sendMessages_puts, sendMessages_complete
-/
import RemoteMonitoring.Common.Serializable

namespace RemoteMonitoring

open ByteText

/-! ### Sending -/

/-- The loop of `send_exact`; one round is a `send()` call, which takes some of the bytes that are
left.  How many it takes is up to the socket, which may take none: then the call has failed.
`accepts` may depend on what is on the wire already, so that it chooses for each call on its own.
`fuel` bounds the number of rounds. -/
def sendLoop (accepts : Nat → Nat) : Nat → Bytes → Bytes → Except RuntimeError Unit × Bytes
  | _, [], wire => (.ok (), wire)
  | 0, _ :: _, wire => (.error .sendFailed, wire)
  | fuel + 1, byte :: left, wire =>
      let sent := min (accepts wire.length) (byte :: left).length
      if sent = 0 then (.error .sendFailed, wire)
      else sendLoop accepts fuel ((byte :: left).drop sent) (wire ++ (byte :: left).take sent)

/-- `send_exact`, with what is on the wire before and after. -/
def sendExact (accepts : Nat → Nat) (data wire : Bytes) : Except RuntimeError Unit × Bytes :=
  sendLoop accepts data.length data wire

def sendMessage (accepts : Nat → Nat) (payload wire : Bytes) : Except RuntimeError Unit × Bytes :=
  let size := UInt32.ofNat payload.length
  let netSize := swapEndian32 size
  match sendExact accepts (toMemory32 netSize) wire with
  | (.error e, wire) => (.error e, wire)
  | (.ok (), wire) => sendExact accepts payload wire

/-- One call of `send_message` after another, until one throws. -/
def sendMessages (accepts : Nat → Nat) : List Bytes → Bytes → Except RuntimeError Unit × Bytes
  | [], wire => (.ok (), wire)
  | payload :: payloads, wire =>
      match sendMessage accepts payload wire with
      | (.error e, wire) => (.error e, wire)
      | (.ok (), wire) => sendMessages accepts payloads wire

/-- The buffers that a call of `send_message` hands to `send_exact`: the length in network order,
and the payload. -/
def sendBuffers (payload : Bytes) : List Bytes :=
  let size := UInt32.ofNat payload.length
  let netSize := swapEndian32 size
  [toMemory32 netSize, payload]

/-- One `send()` call of a thread that still has these `send_exact` buffers to send:
it takes `count` bytes of the first that is not done, and at least one. -/
def sendSome (count : Nat) : List Bytes → Option (Bytes × List Bytes)
  | [] => none
  | [] :: later => sendSome count later
  | (byte :: buffer) :: later =>
      if 1 ≤ count ∧ count ≤ (byte :: buffer).length then
        some ((byte :: buffer).take count, (byte :: buffer).drop count :: later)
      else none

/-- What `send_message` puts on the wire altogether. -/
def frame (payload : Bytes) : Bytes := (sendBuffers payload).flatten

/-! ### Receiving -/

/-- The loop of `recv_exact`; one round receives what is available, but at least one
byte and not more than is missing.  `fuel` bounds the number of rounds. -/
def recvLoop (available : Nat → Nat) : Nat → Nat → Bytes → Option (Bytes × Bytes)
  | _, 0, wire => some ([], wire)
  | 0, _ + 1, _ => none
  | fuel + 1, missing + 1, wire =>
      if wire = [] then none
      else
        let received := max 1 (min (available wire.length) (min (missing + 1) wire.length))
        match recvLoop available fuel (missing + 1 - received) (wire.drop received) with
        | none => none
        | some (later, rest) => some (wire.take received ++ later, rest)

/-- `recv_exact` on what is on the wire; `none` when the peer closes before. -/
def recvExact (available : Nat → Nat) (size : Nat) (wire : Bytes) : Option (Bytes × Bytes) :=
  recvLoop available size size wire

def recvMessage (available : Nat → Nat) (wire : Bytes) : Option (Bytes × Bytes) :=
  match recvExact available 4 wire with
  | none => none
  | some (netSize, wire) =>
      let size := swapEndian32 (fromMemory32 netSize)
      recvExact available size.toNat wire

/-- So many calls of `recv_message` in a row. -/
def recvMessages (available : Nat → Nat) : Nat → Bytes → Option (List Bytes × Bytes)
  | 0, wire => some ([], wire)
  | count + 1, wire =>
      match recvMessage available wire with
      | none => none
      | some (message, wire) =>
          match recvMessages available count wire with
          | none => none
          | some (messages, wire) => some (message :: messages, wire)

/-! ### What the loops compute -/

theorem frame_eq (payload : Bytes) :
    frame payload = toMemory32 (swapEndian32 (UInt32.ofNat payload.length)) ++ payload := by
  simp [frame, sendBuffers]

theorem frame_length (payload : Bytes) : (frame payload).length = 4 + payload.length := by
  simp [frame_eq]

/-- A sender that comes to this outcome has put some front of `data` on the wire, and all of it
unless it throws. -/
def Puts (outcome : Except RuntimeError Unit × Bytes) (data wire : Bytes) : Prop :=
  ∃ sent left, data = sent ++ left ∧ outcome.2 = wire ++ sent ∧ (outcome.1 = .ok () ↔ left = [])

theorem Puts.all {outcome : Except RuntimeError Unit × Bytes} {data wire : Bytes}
    (puts : Puts outcome data wire) (done : outcome.1 = .ok ()) : outcome.2 = wire ++ data := by
  obtain ⟨sent, left, rfl, there, whole⟩ := puts
  rw [there, whole.mp done, List.append_nil]

/-- One sender behind another. -/
theorem Puts.followed {data later : Bytes} (first : Except RuntimeError Unit × Bytes) (wire : Bytes)
    (next : Bytes → Except RuntimeError Unit × Bytes) :
    Puts first data wire → (∀ wire, Puts (next wire) later wire) →
    Puts (match first with
      | (.error e, wire) => (.error e, wire)
      | (.ok (), wire) => next wire) (data ++ later) wire := by
  rintro ⟨sent, left, rfl, there, whole⟩ behind
  obtain ⟨outcome, reached⟩ := first
  simp only at there whole
  subst there
  cases outcome with
  | error e =>
      have some : left ≠ [] := fun none => by cases whole.mpr none
      refine ⟨sent, left ++ later, by rw [List.append_assoc], rfl, ?_⟩
      simp [some]
  | ok done =>
      cases whole.mp rfl
      obtain ⟨more, left, rfl, after, rest⟩ := behind (wire ++ sent)
      refine ⟨sent ++ more, left, by simp, ?_, rest⟩
      rw [← List.append_assoc]
      exact after

/-- A call that takes nothing ends the loop, and with it what is on the wire; otherwise what is
left becomes less, and the loop ends when all of it was taken. -/
theorem sendLoop_puts (accepts : Nat → Nat) {fuel : Nat} {data : Bytes}
    (enough : data.length ≤ fuel) (wire : Bytes) :
    Puts (sendLoop accepts fuel data wire) data wire := by
  induction fuel generalizing data wire with
  | zero =>
      cases List.eq_nil_of_length_eq_zero (Nat.le_zero.mp enough)
      exact ⟨[], [], rfl, (List.append_nil wire).symm, by simp [sendLoop]⟩
  | succ fuel ih =>
      cases data with
      | nil => exact ⟨[], [], rfl, (List.append_nil wire).symm, by simp [sendLoop]⟩
      | cons byte data =>
          rw [sendLoop]
          generalize taken : min (accepts wire.length) (byte :: data).length = count
          by_cases fails : count = 0
          · rw [if_pos fails]
            exact ⟨[], byte :: data, rfl, (List.append_nil wire).symm, by simp⟩
          · have less : ((byte :: data).drop count).length ≤ fuel := by
              rw [List.length_drop]
              omega
            obtain ⟨sent, left, split, there, whole⟩ :=
              ih less (wire ++ (byte :: data).take count)
            rw [if_neg fails]
            refine ⟨(byte :: data).take count ++ sent, left, ?_, ?_, whole⟩
            · rw [List.append_assoc, ← split, List.take_append_drop]
            · rw [there, List.append_assoc]

/-- A socket that always takes something is given everything. -/
theorem sendLoop_complete {accepts : Nat → Nat} (moves : ∀ sent, 1 ≤ accepts sent) {fuel : Nat}
    {data : Bytes} (enough : data.length ≤ fuel) (wire : Bytes) :
    (sendLoop accepts fuel data wire).1 = .ok () := by
  induction fuel generalizing data wire with
  | zero =>
      cases List.eq_nil_of_length_eq_zero (Nat.le_zero.mp enough)
      rfl
  | succ fuel ih =>
      cases data with
      | nil => rfl
      | cons byte data =>
          have positive := moves wire.length
          rw [List.length_cons] at enough
          have some : min (accepts wire.length) (byte :: data).length ≠ 0 := by
            rw [List.length_cons]
            omega
          rw [sendLoop, if_neg some]
          apply ih
          rw [List.length_drop, List.length_cons]
          rw [List.length_cons] at some
          omega

theorem sendExact_puts (accepts : Nat → Nat) (data wire : Bytes) :
    Puts (sendExact accepts data wire) data wire :=
  sendLoop_puts accepts (Nat.le_refl data.length) wire

theorem sendMessage_puts (accepts : Nat → Nat) (payload wire : Bytes) :
    Puts (sendMessage accepts payload wire) (frame payload) wire := by
  rw [frame_eq]
  exact Puts.followed _ wire _ (sendExact_puts accepts _ wire) (sendExact_puts accepts payload)

/-- When every call takes something, the length and then the payload are on the wire. -/
theorem sendMessage_complete {accepts : Nat → Nat} (moves : ∀ sent, 1 ≤ accepts sent)
    (payload wire : Bytes) :
    sendMessage accepts payload wire = (.ok (), wire ++ frame payload) := by
  have all : ∀ data wire, sendExact accepts data wire = (.ok (), wire ++ data) := by
    intro data wire
    have done : (sendExact accepts data wire).1 = .ok () :=
      sendLoop_complete moves (Nat.le_refl data.length) wire
    exact Prod.ext done ((sendExact_puts accepts data wire).all done)
  rw [sendMessage, all]
  simp only
  rw [all, frame_eq, List.append_assoc]

/-- The messages go onto the wire one behind another, up to a call that fails. -/
theorem sendMessages_puts (accepts : Nat → Nat) (payloads : List Bytes) (wire : Bytes) :
    Puts (sendMessages accepts payloads wire) (payloads.map frame).flatten wire := by
  induction payloads generalizing wire with
  | nil => exact ⟨[], [], rfl, (List.append_nil wire).symm, by simp [sendMessages]⟩
  | cons payload payloads ih =>
      exact Puts.followed _ wire _ (sendMessage_puts accepts payload wire) ih

theorem sendMessages_complete {accepts : Nat → Nat} (moves : ∀ sent, 1 ≤ accepts sent)
    (payloads : List Bytes) (wire : Bytes) :
    sendMessages accepts payloads wire = (.ok (), wire ++ (payloads.map frame).flatten) := by
  induction payloads generalizing wire with
  | nil => rw [sendMessages, List.map_nil, List.flatten_nil, List.append_nil]
  | cons payload payloads ih =>
      rw [sendMessages, sendMessage_complete moves]
      simp only
      rw [ih, List.map_cons, List.flatten_cons, List.append_assoc]

/-- A call takes the front off what is left to be sent. -/
theorem sendSome_flatten {count : Nat} {buffers buffers' : List Bytes} {bytes : Bytes}
    (sends : sendSome count buffers = some (bytes, buffers')) :
    buffers.flatten = bytes ++ buffers'.flatten := by
  induction buffers with
  | nil => simp [sendSome] at sends
  | cons buffer later ih =>
      cases buffer with
      | nil => exact ih sends
      | cons byte buffer =>
          rw [sendSome] at sends
          split at sends
          · simp only [Option.some.injEq, Prod.mk.injEq] at sends
            obtain ⟨rfl, rfl⟩ := sends
            rw [List.flatten_cons, List.flatten_cons, ← List.append_assoc,
              List.take_append_drop]
          · cases sends

/-- However the bytes come in pieces, the loop collects as many as are missing, or the stream ends
before. -/
theorem recvLoop_eq (available : Nat → Nat) {fuel missing : Nat} (enough : missing ≤ fuel)
    (wire : Bytes) :
    recvLoop available fuel missing wire =
      if missing ≤ wire.length then some (wire.take missing, wire.drop missing) else none := by
  induction fuel generalizing missing wire with
  | zero =>
      cases Nat.le_zero.mp enough
      simp [recvLoop]
  | succ fuel ih =>
      cases missing with
      | zero => simp [recvLoop]
      | succ missing =>
          by_cases empty : wire = []
          · simp [recvLoop, empty]
          · have some : 0 < wire.length := List.length_pos_iff.mpr empty
            rw [recvLoop, if_neg empty]
            generalize bounds : max 1 (min (available wire.length)
              (min (missing + 1) wire.length)) = received
            have positive : 1 ≤ received := by omega
            have less : received ≤ missing + 1 := by omega
            have inside : received ≤ wire.length := by omega
            simp only [ih (show missing + 1 - received ≤ fuel by omega), List.length_drop]
            by_cases fits : missing + 1 ≤ wire.length
            · have rest : missing + 1 - received ≤ wire.length - received := by omega
              simp only [fits, rest, if_true, List.drop_drop]
              rw [← List.take_add, Nat.add_sub_cancel' less]
            · have rest : ¬ missing + 1 - received ≤ wire.length - received := by omega
              simp only [fits, rest, if_false]

/-- However the bytes arrive, exactly `size` of them are taken. -/
theorem recvExact_eq (available : Nat → Nat) (size : Nat) (wire : Bytes) :
    recvExact available size wire =
      if size ≤ wire.length then some (wire.take size, wire.drop size) else none :=
  recvLoop_eq available (Nat.le_refl size) wire

theorem recvExact_append (available : Nat → Nat) {size : Nat} {front : Bytes} (rest : Bytes)
    (exact : front.length = size) :
    recvExact available size (front ++ rest) = some (front, rest) := by
  subst exact
  simp [recvExact_eq]

/-- A frame whose payload fits the length field is received as it was sent. -/
theorem recvMessage_frame (available : Nat → Nat) {payload : Bytes}
    (fits : payload.length < 2 ^ 32) (rest : Bytes) :
    recvMessage available (frame payload ++ rest) = some (payload, rest) := by
  have size : payload.length = (UInt32.ofNat payload.length).toNat := by
    rw [UInt32.toNat_ofNat', Nat.mod_eq_of_lt fits]
  rw [frame_eq, List.append_assoc, recvMessage,
    recvExact_append available (payload ++ rest) (toMemory32_length _)]
  simp only [fromMemory32_toMemory32, swapEndian32_swapEndian32]
  exact recvExact_append available rest size

/-- What is received was framed on the wire, and is never longer than the length
field can say. -/
theorem recvMessage_eq_some {available : Nat → Nat} {wire message rest : Bytes}
    (received : recvMessage available wire = some (message, rest)) :
    message.length < 2 ^ 32 ∧ wire = frame message ++ rest := by
  rw [recvMessage, recvExact_eq] at received
  by_cases header : 4 ≤ wire.length
  · simp only [header, if_true, recvExact_eq] at received
    generalize value : swapEndian32 (fromMemory32 (wire.take 4)) = size at received
    by_cases fits : size.toNat ≤ (wire.drop 4).length
    · simp only [fits, if_true, Option.some.injEq, Prod.mk.injEq] at received
      obtain ⟨rfl, rfl⟩ := received
      have length : ((wire.drop 4).take size.toNat).length = size.toNat := by
        rw [List.length_take, Nat.min_eq_left fits]
      refine ⟨by rw [length]; exact size.toNat_lt, ?_⟩
      have width : (wire.take 4).length = 4 := by
        rw [List.length_take, Nat.min_eq_left header]
      rw [frame_eq, length, UInt32.ofNat_toNat, ← value, swapEndian32_swapEndian32,
        toMemory32_fromMemory32 width, value, List.append_assoc, List.take_append_drop,
        List.take_append_drop]
    · simp only [fits, if_false, reduceCtorEq] at received
  · simp only [header, if_false, reduceCtorEq] at received

/-- A frame that is cut short is not received: no payload is made of its front. -/
theorem recvMessage_cut (available : Nat → Nat) {payload cut : Bytes}
    (fits : payload.length < 2 ^ 32) (front : cut <+: frame payload)
    (short : cut.length < (frame payload).length) : recvMessage available cut = none := by
  cases received : recvMessage available cut with
  | none => rfl
  | some outcome =>
      obtain ⟨message, rest⟩ := outcome
      obtain ⟨_, whole⟩ := recvMessage_eq_some received
      obtain ⟨missing, same⟩ := front
      have reads : recvMessage available (frame payload ++ []) = some (payload, []) :=
        recvMessage_frame available fits []
      have again : recvMessage available (frame message ++ (rest ++ missing)) =
          some (message, rest ++ missing) :=
        recvMessage_frame available (recvMessage_eq_some received).1 _
      rw [← List.append_assoc, ← whole, same, ← List.append_nil (frame payload), reads] at again
      have nothing : rest ++ missing = [] := by simpa using (congrArg (·.map Prod.snd) again).symm
      have none : missing = [] := (List.append_eq_nil_iff.mp nothing).2
      rw [← same, none, List.append_nil] at short
      exact absurd short (Nat.lt_irrefl _)

/-- Frames one behind another are received in order. -/
theorem recvMessages_frames (available : Nat → Nat) {payloads : List Bytes}
    (fits : ∀ payload ∈ payloads, payload.length < 2 ^ 32) (count : Nat) (rest : Bytes) :
    recvMessages available (payloads.length + count) ((payloads.map frame).flatten ++ rest) =
      match recvMessages available count rest with
      | none => none
      | some (messages, rest) => some (payloads ++ messages, rest) := by
  induction payloads with
  | nil =>
      simp only [List.length_nil, Nat.zero_add, List.map_nil, List.flatten_nil, List.nil_append]
      split
      · assumption
      · assumption
  | cons payload payloads ih =>
      rw [List.length_cons, Nat.add_right_comm, List.map_cons, List.flatten_cons,
        List.append_assoc, recvMessages, recvMessage_frame available (fits payload (by simp))]
      simp only [ih fun other member => fits other (List.mem_cons_of_mem _ member)]
      cases recvMessages available count rest with
      | none => rfl
      | some outcome => rfl

/-- Messages that were received were on the wire, one after another. -/
theorem recvMessages_eq_some {available : Nat → Nat} {count : Nat} {wire rest : Bytes}
    {messages : List Bytes}
    (received : recvMessages available count wire = some (messages, rest)) :
    messages.length = count ∧ (∀ message ∈ messages, message.length < 2 ^ 32) ∧
      wire = (messages.map frame).flatten ++ rest := by
  induction count generalizing wire messages with
  | zero =>
      simp only [recvMessages, Option.some.injEq, Prod.mk.injEq] at received
      obtain ⟨rfl, rfl⟩ := received
      simp
  | succ count ih =>
      rw [recvMessages] at received
      cases first : recvMessage available wire with
      | none => simp [first] at received
      | some outcome =>
          obtain ⟨message, middle⟩ := outcome
          simp only [first] at received
          cases others : recvMessages available count middle with
          | none => simp [others] at received
          | some outcome =>
              obtain ⟨later, rest'⟩ := outcome
              simp only [others, Option.some.injEq, Prod.mk.injEq] at received
              obtain ⟨rfl, rfl⟩ := received
              obtain ⟨short, rfl⟩ := recvMessage_eq_some first
              obtain ⟨length, bounded, rfl⟩ := ih others
              refine ⟨by rw [List.length_cons, length], ?_, by simp⟩
              intro other member
              rcases List.mem_cons.mp member with rfl | member
              · exact short
              · exact bounded other member

end RemoteMonitoring
