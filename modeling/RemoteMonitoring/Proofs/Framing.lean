/-
Module: RemoteMonitoring.Proofs.Framing
Purpose: What the peer receives when several threads send on one socket: the wire carries any
  interleaving of the frames, and when each of them is still a sequence of frames.
Trusted boundary: none
Main exports: delivered_iff, delivered_sendMessages, framing_survives_iff
-/
import RemoteMonitoring.System.Senders
import RemoteMonitoring.Lib.Interleave
import Mathlib.Data.List.Permutation

namespace RemoteMonitoring

open ByteText
open Connection

/-! ### The wire is an interleaving of the frames -/

/-- A thread that is not finished can send its next byte. -/
theorem sendSome_one {buffers : List Bytes} {byte : UInt8} {rest : Bytes}
    (pending : buffers.flatten = byte :: rest) :
    ∃ buffers', sendSome 1 buffers = some ([byte], buffers') ∧ buffers'.flatten = rest := by
  induction buffers with
  | nil => simp at pending
  | cons buffer later ih =>
      cases buffer with
      | nil => exact ih pending
      | cons first buffer =>
          rw [List.flatten_cons, List.cons_append, List.cons.injEq] at pending
          obtain ⟨rfl, rfl⟩ := pending
          exact ⟨buffer :: later, by simp [sendSome], rfl⟩

/-- The bytes that each thread still has to send. -/
def words (s : Connection) : List Bytes := s.threads.map List.flatten

/-- One call takes the front off one word. -/
theorem step_words {s s' : Connection} {index count : Nat}
    (sends : s.step index count = some s') :
    ∃ bytes word rest, (words s).Perm ((bytes ++ word) :: rest) ∧
      (words s').Perm (word :: rest) ∧ s'.wire = s.wire ++ bytes := by
  rw [step] at sends
  cases found : s.threads[index]? with
  | none => simp [found] at sends
  | some buffers =>
      cases taken : sendSome count buffers with
      | none => simp [found, taken] at sends
      | some outcome =>
          obtain ⟨bytes, buffers'⟩ := outcome
          simp only [found, taken, Option.some.injEq] at sends
          obtain rfl := sends
          obtain ⟨inside, same⟩ := List.getElem?_eq_some_iff.mp found
          have before := (List.getElem_cons_eraseIdx_perm inside).symm
          have after := List.set_perm_cons_eraseIdx inside buffers'
          refine ⟨bytes, buffers'.flatten, (s.threads.eraseIdx index).map List.flatten, ?_, ?_,
            rfl⟩
          · rw [← sendSome_flatten taken, ← same]
            exact before.map List.flatten
          · exact after.map List.flatten

/-- Threads that have sent everything have put on the wire some interleaving of what they were to
send. -/
theorem interleaves_of_run {s s' : Connection} (run : Run s s') (finished : s'.Finished) :
    ∃ out, s'.wire = s.wire ++ out ∧ Interleaves (words s) out := by
  induction run with
  | refl s =>
      refine ⟨[], by simp, .nil ?_⟩
      intro word member
      obtain ⟨buffers, inside, rfl⟩ := List.mem_map.mp member
      exact finished buffers inside
  | step index count sends later ih =>
      obtain ⟨bytes, word, rest, before, after, wire⟩ := step_words sends
      obtain ⟨out, reached, interleaves⟩ := ih finished
      refine ⟨bytes ++ out, by rw [reached, wire, List.append_assoc], ?_⟩
      apply Interleaves.of_perm before
      apply Interleaves.prepend
      exact Interleaves.of_perm after.symm interleaves

/-- Single-byte sends realise every interleaving. -/
theorem run_of_interleaves {pending : List Bytes} {out : Bytes}
    (interleaves : Interleaves pending out) {s : Connection} (same : (words s).Perm pending) :
    ∃ s', Run s s' ∧ s'.Finished ∧ s'.wire = s.wire ++ out := by
  induction interleaves generalizing s with
  | nil done =>
      refine ⟨s, .refl s, ?_, by simp⟩
      intro buffers member
      exact done _ (same.mem_iff.mp (List.mem_map_of_mem member))
  | @cons pending rest byte word out split later ih =>
      have whole := same.trans split
      obtain ⟨buffers, member, flat⟩ : ∃ buffers ∈ s.threads, buffers.flatten = byte :: word :=
        List.mem_map.mp (whole.mem_iff.mpr List.mem_cons_self)
      obtain ⟨index, inside, here⟩ := List.getElem_of_mem member
      obtain ⟨buffers', sends, flat'⟩ := sendSome_one flat
      have stepped : s.step index 1 =
          some ⟨s.wire ++ [byte], s.threads.set index buffers'⟩ := by
        rw [step, List.getElem?_eq_getElem inside, here]
        simp only [sends]
      -- the other words are the same before and after
      have before := ((List.getElem_cons_eraseIdx_perm inside).map List.flatten).symm
      have after := (List.set_perm_cons_eraseIdx inside buffers').map List.flatten
      rw [List.map_cons, here, flat] at before
      rw [List.map_cons, flat'] at after
      have others := (before.symm.trans whole).cons_inv
      obtain ⟨s', run, finished, wire⟩ := @ih
        ⟨s.wire ++ [byte], s.threads.set index buffers'⟩ (after.trans (others.cons word))
      refine ⟨s', .step index 1 stepped run, finished, ?_⟩
      rw [wire, List.append_assoc, List.singleton_append]

/-- The peer sees exactly the interleavings of the frames. -/
theorem delivered_iff {payloads : List Bytes} {wire : Bytes} :
    Delivered payloads wire ↔ Interleaves (payloads.map frame) wire := by
  have initial : words (.start payloads) = payloads.map frame := by
    rw [words, start, List.map_map]
    rfl
  constructor
  · rintro ⟨s, run, finished, rfl⟩
    obtain ⟨out, wire, interleaves⟩ := interleaves_of_run run finished
    rw [wire, ← initial]
    exact interleaves
  · intro interleaves
    obtain ⟨s, run, finished, wire⟩ := run_of_interleaves interleaves
      (s := .start payloads) (initial ▸ List.Perm.refl _)
    exact ⟨s, run, finished, wire⟩

/-- The loops of one thread after another, where no call fails, are one of the interleavings. -/
theorem delivered_sendMessages {accepts : Nat → Nat} {payloads : List Bytes}
    (done : (sendMessages accepts payloads []).1 = .ok ()) :
    Delivered payloads (sendMessages accepts payloads []).2 := by
  rw [(sendMessages_puts accepts payloads []).all done, List.nil_append, delivered_iff]
  exact Interleaves.flatten _

/-! ### What the peer receives -/

/-- The next calls of the peer, one for each payload, return the payloads in some
order. -/
def ReceivesAll (payloads : List Bytes) (wire : Bytes) : Prop :=
  ∀ available, ∃ messages rest,
    recvMessages available payloads.length wire = some (messages, rest) ∧
      messages.Perm payloads

/-- All frames consist of copies of one byte. -/
def OneByte (payloads : List Bytes) : Prop :=
  ∃ byte, ∀ payload ∈ payloads, ∀ item ∈ frame payload, item = byte

/-- Frames one after another are received as their payloads. -/
theorem receivesAll_flatten {payloads : List Bytes}
    (fits : ∀ payload ∈ payloads, payload.length < 2 ^ 32) :
    ReceivesAll payloads (payloads.map frame).flatten := by
  intro available
  have received := recvMessages_frames available fits 0 []
  rw [Nat.add_zero, List.append_nil] at received
  simp only [recvMessages, List.append_nil] at received
  exact ⟨payloads, [], received, List.Perm.refl _⟩

/-- No call returns a payload that does not fit the length field. -/
theorem fits_of_receivesAll {payloads : List Bytes} {wire : Bytes}
    (receives : ReceivesAll payloads wire) : ∀ payload ∈ payloads, payload.length < 2 ^ 32 := by
  intro payload member
  obtain ⟨messages, rest, received, same⟩ := receives fun _ => 1
  exact (recvMessages_eq_some received).2.1 payload (same.mem_iff.mpr member)

/-- It does not matter in which order the payloads are listed. -/
theorem receives_of_perm {payloads others : List Bytes} (same : payloads.Perm others)
    (receives : ∀ wire, Delivered payloads wire → ReceivesAll payloads wire) :
    ∀ wire, Delivered others wire → ReceivesAll others wire := by
  intro wire delivered available
  have sent : Delivered payloads wire :=
    delivered_iff.mpr (.of_perm (same.map frame) (delivered_iff.mp delivered))
  obtain ⟨messages, rest, received, whole⟩ := receives wire sent available
  exact ⟨messages, rest, same.length_eq ▸ received, whole.trans same⟩

/-- Two messages can only have been sent one behind the other if their frames are
received whole in every interleaving. -/
theorem onlyOrders_of_receivesAll {one two : Bytes} {others : List Bytes}
    (fits : ∀ payload ∈ others, payload.length < 2 ^ 32)
    (receives : ∀ wire, Delivered (others ++ [one, two]) wire →
      ReceivesAll (others ++ [one, two]) wire) :
    OnlyOrders (frame one) (frame two) := by
  intro out interleaves
  -- everything else is sent first
  have sent : Delivered (others ++ [one, two]) ((others.map frame).flatten ++ out) := by
    rw [delivered_iff, List.map_append]
    exact Interleaves.flatten_append _ interleaves
  obtain ⟨messages, rest, received, same⟩ := receives _ sent fun _ => 1
  have total : (others ++ [one, two]).length = others.length + 2 := by simp
  rw [total, recvMessages_frames (fun _ => 1) fits] at received
  cases last : recvMessages (fun _ => 1) 2 out with
  | none => simp [last] at received
  | some outcome =>
      obtain ⟨pair, rest'⟩ := outcome
      simp only [last, Option.some.injEq, Prod.mk.injEq] at received
      obtain ⟨rfl, rfl⟩ := received
      obtain ⟨_, _, wire⟩ := recvMessages_eq_some last
      have sameFrames := ((List.perm_append_left_iff others).mp same).map frame
      -- both frames are on the wire, so nothing else is
      have nothing : rest' = [] := by
        have lengths := congrArg List.length wire
        rw [interleaves.perm.length_eq, List.length_append, sameFrames.flatten.length_eq]
          at lengths
        apply List.eq_nil_of_length_eq_zero
        simp only [List.map_cons, List.map_nil] at lengths
        omega
      rw [nothing, List.append_nil] at wire
      rcases List.perm_pair.mp ((List.perm_append_left_iff others).mp same) with rfl | rfl
      · left
        simpa using wire
      · right
        simpa using wire

/-- Any two of the payloads have frames of one and the same byte. -/
theorem constant_pair {one two : Bytes} {others : List Bytes}
    (fits : ∀ payload ∈ one :: others, payload.length < 2 ^ 32)
    (receives : ∀ wire, Delivered (one :: others) wire → ReceivesAll (one :: others) wire)
    (member : two ∈ others) :
    ∃ byte, (∀ item ∈ frame one, item = byte) ∧ ∀ item ∈ frame two, item = byte := by
  have moved : (one :: others).Perm (others.erase two ++ [one, two]) := by
    have split : (one :: others).Perm ([one, two] ++ others.erase two) :=
      (List.perm_cons_erase member).cons one
    exact split.trans List.perm_append_comm
  have short : ∀ payload ∈ others.erase two, payload.length < 2 ^ 32 :=
    fun payload inside => fits payload (List.mem_cons_of_mem _ (List.mem_of_mem_erase inside))
  apply constant_of_orders (onlyOrders_of_receivesAll short (receives_of_perm moved receives))
  · rw [frame_length]
    omega
  · rw [frame_length]
    omega

/-- Framing survives concurrent senders.  The peer receives every payload whole, in
whatever way the threads interleave, exactly when the payloads fit the length field
and there is nothing to mix up: at most one message, or one byte throughout. -/
theorem framing_survives_iff (payloads : List Bytes) :
    (∀ wire, Delivered payloads wire → ReceivesAll payloads wire) ↔
      (∀ payload ∈ payloads, payload.length < 2 ^ 32) ∧
        (payloads.length ≤ 1 ∨ OneByte payloads) := by
  constructor
  · intro receives
    have fits : ∀ payload ∈ payloads, payload.length < 2 ^ 32 :=
      fits_of_receivesAll (receives _ (delivered_iff.mpr (Interleaves.flatten _)))
    refine ⟨fits, ?_⟩
    match payloads with
    | [] => exact Or.inl (Nat.zero_le 1)
    | [_] => exact Or.inl (Nat.le_refl 1)
    | one :: two :: others =>
        right
        obtain ⟨byte, first, _⟩ := constant_pair fits receives List.mem_cons_self
        refine ⟨byte, ?_⟩
        intro payload member item inside
        rcases List.mem_cons.mp member with rfl | later
        · exact first item inside
        · -- the byte is the same for every pair, since the first frame is not empty
          obtain ⟨byte', first', second'⟩ := constant_pair fits receives later
          obtain ⟨head, known⟩ : ∃ head, head ∈ frame one :=
            List.exists_mem_of_length_pos (by rw [frame_length]; omega)
          rw [second' item inside, ← first' head known, first head known]
  · rintro ⟨fits, single⟩ wire delivered
    have interleaves := delivered_iff.mp delivered
    have letters := interleaves.perm
    have same : wire = (payloads.map frame).flatten := by
      rcases single with few | ⟨byte, constant⟩
      · match payloads with
        | [] => exact List.perm_nil.mp letters
        | [payload] =>
            rw [interleaves.eq_of_singleton]
            simp
      · have all : ∀ item ∈ (payloads.map frame).flatten, item = byte := by
          intro item member
          obtain ⟨word, inside, here⟩ := List.mem_flatten.mp member
          obtain ⟨payload, known, rfl⟩ := List.mem_map.mp inside
          exact constant payload known item here
        have copies := List.eq_replicate_of_mem all
        rw [copies] at letters ⊢
        exact List.perm_replicate.mp letters
    rw [same]
    exact receivesAll_flatten fits

/-- The text "ack 1" and the text "ack 2", as `write_string` writes them. -/
def sampleAcks : List Bytes :=
  [writeUint32 5 ++ ascii "ack 1", writeUint32 5 ++ ascii "ack 2"]

/-- Both threads send their lengths before either sends its payload.  The first call
of the peer returns a mixture, the second waits for bytes that never come. -/
theorem acks_mixed_up :
    let wire := writeUint32 9 ++ writeUint32 9 ++ (writeUint32 5 ++ ascii "ack 1") ++
      (writeUint32 5 ++ ascii "ack 2")
    Delivered sampleAcks wire ∧
      (recvMessage (fun _ => 1) wire).map Prod.fst =
        some (writeUint32 9 ++ writeUint32 5 ++ ascii "a") ∧
      recvMessages (fun _ => 1) 2 wire = none ∧ ¬ ReceivesAll sampleAcks wire := by
  intro wire
  have blocks : recvMessages (fun _ => 1) 2 wire = none := by decide +kernel
  refine ⟨⟨⟨wire, [[[]], [[]]]⟩, ?_, ?_, rfl⟩, by decide +kernel, blocks, ?_⟩
  · apply Run.step 0 4 rfl
    apply Run.step 1 4 rfl
    apply Run.step 0 9 rfl
    apply Run.step 1 9 rfl
    exact .refl _
  · simp [Finished]
  · intro receives
    obtain ⟨messages, rest, received, _⟩ := receives fun _ => 1
    rw [show sampleAcks.length = 2 from rfl, blocks] at received
    cases received

end RemoteMonitoring
