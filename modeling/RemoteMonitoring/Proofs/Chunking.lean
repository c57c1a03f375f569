/-
Module: RemoteMonitoring.Proofs.Chunking
Purpose: `send_message` on one side of a connection and `recv_message` on the other, for every way
  in which `send()` and `recv()` split the bytes (common/serializable.cpp).
Trusted boundary: the socket delivers the bytes in the order in which they were sent
Main exports: recvMessages_prefix, chunking_sound
-/
import RemoteMonitoring.Common.Message

namespace RemoteMonitoring

open ByteText

/-- Frames cut short: as many messages as arrived whole, and nothing of the next. -/
theorem recvMessages_prefix (available : Nat → Nat) {payloads : List Bytes} {wire unsent : Bytes}
    (fits : ∀ payload ∈ payloads, payload.length < 2 ^ 32)
    (split : (payloads.map frame).flatten = wire ++ unsent) (ends : unsent ≠ []) :
    ∃ done tail next, payloads[done]? = some next ∧
      recvMessages available done wire = some (payloads.take done, tail) ∧
      tail <+: frame next ∧ tail.length < (frame next).length ∧
      recvMessage available tail = none := by
  induction payloads generalizing wire with
  | nil =>
      have both : wire ++ unsent = [] := split.symm
      exact absurd (List.append_eq_nil_iff.mp both).2 ends
  | cons payload payloads ih =>
      have short := fits payload List.mem_cons_self
      rw [List.map_cons, List.flatten_cons] at split
      have front : frame payload <+: wire ++ unsent := ⟨_, split⟩
      have arrived : wire <+: wire ++ unsent := List.prefix_append wire unsent
      by_cases whole : (frame payload).length ≤ wire.length
      · obtain ⟨rest, rfl⟩ := List.prefix_of_prefix_length_le front arrived whole
        rw [List.append_assoc, List.append_cancel_left_eq] at split
        obtain ⟨done, tail, next, there, reads, front, cut, blocked⟩ :=
          ih (fun other member => fits other (List.mem_cons_of_mem _ member)) split
        refine ⟨done + 1, tail, next, there, ?_, front, cut, blocked⟩
        simp only [recvMessages, recvMessage_frame available short, reads, List.take_succ_cons]
      · have less : wire.length < (frame payload).length := Nat.lt_of_not_le whole
        have cut : wire <+: frame payload :=
          List.prefix_of_prefix_length_le arrived front (Nat.le_of_lt less)
        exact ⟨0, wire, payload, rfl, rfl, cut, less, recvMessage_cut available short cut less⟩

/-- Framing under arbitrary chunking.  `accepts` splits the writes and `available` the reads: every
call changes what is on the wire, so a function of that can choose the size of each call on its
own.  Payloads sent one after another to a socket that always takes something are sent to the end;
then they are received in order and nothing more is taken.  When the stream ends before, also
because a `send()` failed, the last call throws. -/
theorem chunking_sound {payloads : List Bytes} (accepts available : Nat → Nat)
    (fits : ∀ payload ∈ payloads, payload.length < 2 ^ 32) :
    ((∀ sent, 1 ≤ accepts sent) → (sendMessages accepts payloads []).1 = .ok ()) ∧
    ((sendMessages accepts payloads []).1 = .ok () → ∀ later,
      recvMessages available payloads.length ((sendMessages accepts payloads []).2 ++ later) =
        some (payloads, later)) ∧
    ∀ arrived < (payloads.map frame).flatten.length, ∃ done tail next,
      payloads[done]? = some next ∧
      recvMessages available done ((sendMessages accepts payloads []).2.take arrived) =
        some (payloads.take done, tail) ∧
      tail <+: frame next ∧ tail.length < (frame next).length ∧
      recvMessage available tail = none := by
  have puts := sendMessages_puts accepts payloads []
  refine ⟨fun moves => congrArg Prod.fst (sendMessages_complete moves payloads []), ?_, ?_⟩
  · intro done later
    have received := recvMessages_frames available fits 0 later
    rw [puts.all done, List.nil_append]
    simpa [recvMessages] using received
  · intro arrived short
    obtain ⟨sent, left, split, there, _⟩ := puts
    rw [there, List.nil_append]
    have cut : (payloads.map frame).flatten = sent.take arrived ++ (sent.drop arrived ++ left) := by
      rw [← List.append_assoc, List.take_append_drop, split]
    apply recvMessages_prefix available fits cut
    intro nothing
    rw [nothing, List.append_nil] at cut
    rw [cut, List.length_take] at short
    omega

/-- Three payloads, one of them empty: a socket that takes up to three bytes a call, and one that
fails within the last message. -/
theorem chunking_sound_sample :
    let payloads := [ascii "ok", [], ascii "end"]
    (recvMessages (fun _ => 1) 3
      ((sendMessages (fun sent => sent % 3 + 1) payloads []).2 ++ [7]) = some (payloads, [7])) ∧
    ∃ done tail next, payloads[done]? = some next ∧
      recvMessages (fun left => left / 2) done
        ((sendMessages (fun sent => 16 - sent) payloads []).2.take 16) =
          some (payloads.take done, tail) ∧
      tail <+: frame next ∧ tail.length < (frame next).length ∧
      recvMessage (fun left => left / 2) tail = none := by
  intro payloads
  have fits : ∀ payload ∈ payloads, payload.length < 2 ^ 32 := by decide
  obtain ⟨completes, receives, _⟩ :=
    @chunking_sound payloads (fun sent => sent % 3 + 1) (fun _ => 1) fits
  constructor
  · exact receives (completes fun sent => Nat.le_add_left 1 (sent % 3)) [7]
  · exact (@chunking_sound payloads (fun sent => 16 - sent) (fun left => left / 2) fits).2.2 16
      (by decide)

end RemoteMonitoring
