/-
Module: RemoteMonitoring.Proofs.Delivery
Purpose: The client/server system simulates delivery with cumulative acknowledgements, so that
  the invariant and the progress of the abstract protocol hold of the code.
Trusted boundary: none
Main exports: Refines, refines_step, run_refines
-/
import RemoteMonitoring.System.Delivery
import RemoteMonitoring.Lib.CumulativeAck
import RemoteMonitoring.Proofs.Messages

namespace RemoteMonitoring

open ByteText
open LogEntry (Numbered slice slice_append slice_length slice_numbered take_append_slice)

/-! ### What a message does to the system -/

/-- What the arrival of a batch does to the system. -/
theorem recvBatch_logPayload {s : System} {info : ClientInfo} {batch : List LogEntry}
    {payload : Bytes} (built : logPayload batch = .ok payload) (fits : batch.length < 2 ^ 32)
    (opens : (s.disk (clientLogFile info.clientIp)).writable = true) (junk : Indeterminate)
    (netCount : UInt32) :
    s.recvBatch payload info junk netCount =
      let file := s.disk (clientLogFile info.clientIp)
      let outcome := acceptLoop (lastAckedId junk file) batch
      { s with
        disk := Function.update s.disk (clientLogFile info.clientIp)
          (file.append (outcome.2.flatMap LogEntry.serializeStr))
        toClient := ackPayload outcome.1 :: s.toClient } := by
  rw [System.recvBatch, onNetworkRecv_logPayload built fits opens]
  rfl

/-- What the arrival of an ack does to the system. -/
theorem recvAck_ackPayload (s : System) (id junkId : UInt64) :
    s.recvAck (ackPayload id) junkId =
      let queue := s.queue.ackLog id
      { s with
        queue := queue
        removed := s.removed ++
          s.queue.logEntries.take (s.queue.logEntries.length - queue.logEntries.length) } := by
  rw [System.recvAck, ackSubscriber_ackPayload]

/-! ### The simulation -/

/-- The concrete state `s` is described by the abstract state `a`: the queue is
what was not released, the file is the text of what is stored, and every message
in flight is the encoding of an abstract one. -/
structure Refines (ip : Bytes) (s : System) (a : CumulativeAck.State LogEntry) : Prop where
  issued : s.issued = a.issued
  numbered : Numbered 0 a.issued
  bounded : a.issued.length < 2 ^ 32
  single : ∀ entry ∈ a.issued, newline ∉ entry.processName
  removed : s.removed = a.issued.take a.released
  pending : s.queue.logEntries = a.issued.drop a.released
  ackId : s.queue.ackId.toNat = a.ackId
  newId : s.queue.newId.toNat = a.issued.length + 1
  file : (s.disk (clientLogFile ip)).bytes =
    (a.issued.take a.stored).flatMap LogEntry.serializeStr
  opens : (s.disk (clientLogFile ip)).writable = true
  batches : ∀ payload ∈ s.toServer, ∃ window ∈ a.windows,
    logPayload (slice a.issued window) = .ok payload
  acks : ∀ payload ∈ s.toClient, ∃ id : UInt64, id.toNat ∈ a.acks ∧ payload = ackPayload id

/-- Client and server begin where the abstract run begins. -/
theorem refines_initial {ip : Bytes} (junkAckId : UInt64) (junk : Nat → Indeterminate)
    {disk : Disk} (absent : disk (clientLogFile ip) = File.absent) :
    Refines ip (System.initial junkAckId junk disk) CumulativeAck.State.initial where
  issued := rfl
  numbered := trivial
  bounded := by decide
  single := by simp [CumulativeAck.State.initial]
  removed := rfl
  pending := rfl
  ackId := rfl
  newId := rfl
  file := by
    change (disk (clientLogFile ip)).bytes = _
    rw [absent]
    rfl
  opens := by
    change (disk (clientLogFile ip)).writable = true
    rw [absent]
    rfl
  batches := by simp [System.initial]
  acks := by simp [System.initial]

/-- The last id that the server recovers is the number of entries it stores. -/
theorem Refines.lastAckedId {ip : Bytes} {s : System} {a : CumulativeAck.State LogEntry}
    (refines : Refines ip s a) (inv : CumulativeAck.Inv a) (junk : Indeterminate) :
    (lastAckedId junk (s.disk (clientLogFile ip))).toNat = a.stored := by
  have inside := inv.stored_le
  have content := refines.file
  cases stored : a.stored with
  | zero =>
      rw [stored] at content
      rw [lastAckedId_of_empty content]
      rfl
  | succ count =>
      rw [stored] at content inside
      obtain ⟨entry, member, last, id⟩ := refines.numbered.take_succ inside
      rw [last, List.flatMap_append, List.flatMap_singleton] at content
      rw [lastAckedId_append content (LogEntry.terminated_flatMap _)
        (refines.single entry member), id, Nat.zero_add]

/-! ### One step -/

section Steps

variable {ip : Bytes} {s : System} {a : CumulativeAck.State LogEntry}

/-- The batch that the client offers is the abstract window. -/
theorem Refines.getBatchLog (refines : Refines ip s a) (inv : CumulativeAck.Inv a) :
    s.queue.getBatchLog batchSize = slice a.issued (a.window 100) := by
  have released := Nat.le_trans inv.released_le inv.stored_le
  have bounded := refines.bounded
  have fits : s.queue.logEntries.length < 2 ^ 32 := by
    rw [refines.pending, List.length_drop]
    omega
  have size : batchSize.toNat = 100 := rfl
  rw [LogQueue.getBatchLog_eq_take fits, refines.pending, size, slice,
    CumulativeAck.State.window, List.drop_take]
  rcases Nat.le_total (a.released + 100) a.issued.length with inside | beyond
  · rw [Nat.min_eq_left inside, Nat.add_sub_cancel_left]
  · rw [Nat.min_eq_right beyond, List.take_of_length_le (by simp; omega),
      List.take_of_length_le (by simp)]

/-- A new entry is one more issued one. -/
theorem refines_addLog (refines : Refines ip s a) (inv : CumulativeAck.Inv a)
    {processName : Bytes} (single : newline ∉ processName)
    (room : s.issued.length + 1 < 2 ^ 32) (timestampMs : UInt64) (logType : LogType)
    (value : UInt64) :
    ∃ entry, Refines ip (s.addLog processName timestampMs logType value)
      { a with issued := a.issued ++ [entry] } := by
  have stored := inv.stored_le
  have released := Nat.le_trans inv.released_le stored
  rw [refines.issued] at room
  refine ⟨⟨s.queue.newId, processName, timestampMs, logType, value⟩, ?_⟩
  exact
    { issued := congrArg (· ++ _) refines.issued
      numbered := LogEntry.numbered_append.mpr
        ⟨refines.numbered, by rw [Nat.zero_add]; exact refines.newId, trivial⟩
      bounded := by simpa using room
      single := by
        intro entry member
        rcases List.mem_append.mp member with older | new
        · exact refines.single entry older
        · rw [List.mem_singleton.mp new]
          exact single
      removed := by
        rw [List.take_append_of_le_length released]
        exact refines.removed
      pending := by
        rw [List.drop_append_of_le_length released, ← refines.pending]
        rfl
      ackId := refines.ackId
      newId := by
        change (s.queue.newId + 1).toNat = _
        rw [UInt64.toNat_add, refines.newId, UInt64.toNat_one, List.length_append,
          List.length_singleton]
        omega
      file := by
        rw [List.take_append_of_le_length stored]
        exact refines.file
      opens := refines.opens
      batches := by
        intro payload member
        obtain ⟨window, sent, built⟩ := refines.batches payload member
        refine ⟨window, sent, ?_⟩
        rw [slice_append (inv.windows_le window sent).2.2]
        exact built
      acks := refines.acks }

/-- What is sent is the window of the first hundred entries that are not released. -/
theorem refines_sendBatch (refines : Refines ip s a) (inv : CumulativeAck.Inv a)
    {payload : Bytes} (sends : sendLogs s.queue = .ok (some payload)) :
    Refines ip s.sendBatch { a with windows := a.window 100 :: a.windows } := by
  have built : logPayload (slice a.issued (a.window 100)) = .ok payload := by
    rw [sendLogs, refines.getBatchLog inv] at sends
    cases empty : (slice a.issued (a.window 100)).isEmpty with
    | true => simp [empty, pure, Except.pure] at sends
    | false =>
        cases encoded : logPayload (slice a.issued (a.window 100)) with
        | error e => simp [empty, encoded, bind, Except.bind] at sends
        | ok bytes =>
            simp only [empty, encoded, bind, Except.bind, pure, Except.pure, Except.ok.injEq,
              Option.some.injEq, Bool.false_eq_true, if_false] at sends
            rw [sends]
  have next : s.sendBatch = { s with toServer := payload :: s.toServer } := by
    rw [System.sendBatch, sends]
  rw [next]
  exact
    { refines with
      batches := by
        intro other member
        rcases List.mem_cons.mp member with rfl | older
        · exact ⟨_, List.mem_cons_self, built⟩
        · obtain ⟨window, sent, encoded⟩ := refines.batches other older
          exact ⟨window, List.mem_cons_of_mem _ sent, encoded⟩ }

theorem take_append_take_drop (issued : List LogEntry) {released upTo : Nat}
    (more : released ≤ upTo) :
    issued.take released ++ (issued.drop released).take (upTo - released) =
      issued.take upTo := by
  rw [← List.drop_take]
  have front : issued.take released = (issued.take upTo).take released := by
    rw [List.take_take, Nat.min_eq_left more]
  rw [front, List.take_append_drop]

/-- A window that arrives is received as the abstract server receives it, and answered with the
last id that is stored then. -/
theorem refines_recvBatch (refines : Refines ip s a) (inv : CumulativeAck.Inv a)
    {payload : Bytes} {window : Nat × Nat} (sent : window ∈ a.windows)
    (built : logPayload (slice a.issued window) = .ok payload) {info : ClientInfo}
    (same : info.clientIp = ip) (junk : Indeterminate) (netCount : UInt32) :
    ∃ id : UInt64, id.toNat = CumulativeAck.State.received a.stored window ∧
      (s.recvBatch payload info junk netCount).toClient = ackPayload id :: s.toClient ∧
      (s.recvBatch payload info junk netCount).queue = s.queue ∧
      Refines ip (s.recvBatch payload info junk netCount) (a.receive window) := by
  obtain ⟨reaches, ordered, inside⟩ := inv.windows_le window sent
  have bounded := refines.bounded
  have length := slice_length inside
  subst same
  have recovered := refines.lastAckedId inv junk
  obtain ⟨reached, taken⟩ := acceptLoop_numbered
    (slice_numbered refines.numbered ordered inside) (recovered.symm ▸ reaches)
    (by rw [length]; omega)
  rw [recovered] at reached taken
  rw [recvBatch_logPayload built (by rw [length]; omega) refines.opens junk netCount]
  dsimp only
  generalize acceptLoop (lastAckedId junk (s.disk (clientLogFile info.clientIp)))
    (slice a.issued window) = outcome at reached taken ⊢
  have answer : outcome.1.toNat = CumulativeAck.State.received a.stored window := by
    rw [reached, length, CumulativeAck.received_of_le reaches]
    omega
  refine ⟨outcome.1, answer, rfl, rfl, ?_⟩
  exact
    { refines with
      file := by
        simp only [Function.update_self]
        rw [File.bytes_append refines.opens, refines.file, taken, ← List.flatMap_append,
          take_append_slice a.issued reaches, ← CumulativeAck.received_of_le reaches]
        rfl
      opens := by
        simp only [Function.update_self]
        rw [File.writable_append]
        exact refines.opens
      acks := by
        intro other member
        rcases List.mem_cons.mp member with rfl | older
        · exact ⟨outcome.1, by rw [answer]; exact List.mem_cons_self, rfl⟩
        · obtain ⟨id, sent, encoded⟩ := refines.acks other older
          exact ⟨id, List.mem_cons_of_mem _ sent, encoded⟩ }

/-- An ack of something that is stored releases what the abstract client releases. -/
theorem refines_recvAck (refines : Refines ip s a) (inv : CumulativeAck.Inv a)
    {id : UInt64} (held : id.toNat ≤ a.stored) (junkId : UInt64) :
    Refines ip (s.recvAck (ackPayload id) junkId) (a.acknowledge id.toNat) := by
  have stored := inv.stored_le
  have released := Nat.le_trans inv.released_le stored
  rw [recvAck_ackPayload]
  by_cases same : id = s.queue.ackId
  · have ignored : s.queue.ackLog id = s.queue := by
      rw [same, LogQueue.ackLog_self]
    have stays : a.acknowledge id.toNat = a := by
      rw [CumulativeAck.State.acknowledge, if_pos (by rw [same, refines.ackId])]
    simpa [ignored, stays] using refines
  · have news : id.toNat ≠ a.ackId := by
      rw [← refines.ackId]
      exact fun equal => same (UInt64.toNat_inj.mp equal)
    have left : (s.queue.ackLog id).logEntries =
        a.issued.drop (max a.released id.toNat) := by
      have numbered := refines.numbered.drop released
      rw [LogQueue.ackLog_of_ne same]
      simp only
      rw [refines.pending, LogQueue.popAcked_numbered numbered, List.drop_drop]
      congr 1
      omega
    have popped : s.queue.logEntries.length - (s.queue.ackLog id).logEntries.length =
        max a.released id.toNat - a.released := by
      rw [left, refines.pending, List.length_drop, List.length_drop]
      omega
    rw [CumulativeAck.acknowledge_of_ne news]
    exact
      { refines with
        removed := by
          simp only [popped]
          rw [refines.removed, refines.pending]
          exact take_append_take_drop a.issued (Nat.le_max_left _ _)
        pending := left
        ackId := by rw [LogQueue.ackLog_of_ne same]
        newId := by
          rw [LogQueue.ackLog_of_ne same]
          exact refines.newId }

/-- Every step of the system is a step of the protocol or changes nothing there. -/
theorem refines_step (refines : Refines ip s a) (inv : CumulativeAck.Inv a) {event : Event}
    (allowed : System.Allowed ip s event) :
    ∃ a', (a' = a ∨ CumulativeAck.Step 100 a a') ∧ Refines ip (s.step event) a' := by
  cases event with
  | addLog processName timestampMs logType value =>
      obtain ⟨entry, next⟩ :=
        refines_addLog refines inv allowed.1 allowed.2 timestampMs logType value
      exact ⟨_, Or.inr (.issue a entry), next⟩
  | sendBatch =>
      cases sends : sendLogs s.queue with
      | error e =>
          have idle : s.sendBatch = s := by rw [System.sendBatch, sends]
          exact ⟨a, Or.inl rfl, by rw [System.step, idle]; exact refines⟩
      | ok payload =>
          cases payload with
          | none =>
              have idle : s.sendBatch = s := by rw [System.sendBatch, sends]
              exact ⟨a, Or.inl rfl, by rw [System.step, idle]; exact refines⟩
          | some payload =>
              exact ⟨_, Or.inr (.send a), refines_sendBatch refines inv sends⟩
  | recvBatch index info junk netCount =>
      cases found : s.toServer[index]? with
      | none => exact ⟨a, Or.inl rfl, by simpa [System.step, found] using refines⟩
      | some payload =>
          obtain ⟨window, sent, built⟩ :=
            refines.batches payload (List.mem_of_getElem? found)
          obtain ⟨_, _, _, _, next⟩ :=
            refines_recvBatch refines inv sent built allowed junk netCount
          exact ⟨_, Or.inr (.receive a window sent), by simpa [System.step, found] using next⟩
  | recvAck index junkId =>
      cases found : s.toClient[index]? with
      | none => exact ⟨a, Or.inl rfl, by simpa [System.step, found] using refines⟩
      | some payload =>
          obtain ⟨id, sent, rfl⟩ := refines.acks payload (List.mem_of_getElem? found)
          have next := refines_recvAck refines inv (inv.acks_le _ sent) junkId
          exact ⟨_, Or.inr (.acknowledge a _ sent), by simpa [System.step, found] using next⟩
  | loseBatch index =>
      refine ⟨a, Or.inl rfl, { refines with batches := ?_ }⟩
      exact fun payload member => refines.batches payload (List.mem_of_mem_eraseIdx member)
  | loseAck index =>
      refine ⟨a, Or.inl rfl, { refines with acks := ?_ }⟩
      exact fun payload member => refines.acks payload (List.mem_of_mem_eraseIdx member)

end Steps

/-! ### Runs -/

/-- Every reachable state is described by a reachable state of the protocol. -/
theorem run_refines {ip : Bytes} {junkAckId : UInt64} {junk : Nat → Indeterminate}
    {disk : Disk} (absent : disk (clientLogFile ip) = File.absent) {s : System}
    (run : System.Run ip (System.initial junkAckId junk disk) s) :
    ∃ a, Relation.ReflTransGen (CumulativeAck.Step 100) CumulativeAck.State.initial a ∧
      Refines ip s a := by
  induction run with
  | refl => exact ⟨_, .refl, refines_initial junkAckId junk absent⟩
  | step run event allowed ih =>
      obtain ⟨a, reachable, refines⟩ := ih
      obtain ⟨a', step, next⟩ :=
        refines_step refines (CumulativeAck.reachable_inv reachable) allowed
      rcases step with rfl | step
      · exact ⟨a', reachable, next⟩
      · exact ⟨a', reachable.tail step, next⟩

/-- End-to-end delivery.  In every reachable state the server's file is the text of
the first `stored` issued entries, whose ids are 1, 2, 3 and so on; no ack in
flight is ahead of the file; and what the client dropped is in the file. -/
theorem server_file_eq_issued {ip : Bytes} {disk : Disk}
    (absent : disk (clientLogFile ip) = File.absent) {junkAckId : UInt64}
    {junk : Nat → Indeterminate} {s : System}
    (run : System.Run ip (System.initial junkAckId junk disk) s) :
    Numbered 0 s.issued ∧ s.removed ++ s.queue.logEntries = s.issued ∧
      ∃ stored ≤ s.issued.length,
        (s.disk (clientLogFile ip)).bytes =
            (s.issued.take stored).flatMap LogEntry.serializeStr ∧
          (∀ payload ∈ s.toClient,
            ∃ id : UInt64, payload = ackPayload id ∧ id.toNat ≤ stored) ∧
          ∀ entry ∈ s.removed, entry ∈ s.issued.take stored := by
  obtain ⟨a, reachable, refines⟩ := run_refines absent run
  have inv := CumulativeAck.reachable_inv reachable
  refine ⟨?_, ?_, a.stored, ?_, ?_, ?_, ?_⟩
  · rw [refines.issued]
    exact refines.numbered
  · rw [refines.removed, refines.pending, refines.issued, List.take_append_drop]
  · rw [refines.issued]
    exact inv.stored_le
  · rw [refines.issued]
    exact refines.file
  · intro payload member
    obtain ⟨id, sent, same⟩ := refines.acks payload member
    exact ⟨id, same, inv.acks_le _ sent⟩
  · intro entry member
    rw [refines.removed] at member
    rw [refines.issued]
    exact (List.take_subset_take_left _ inv.released_le) member

/-- A client whose first entry was stored, with its ack still on the way. -/
def storedSample : System :=
  (((System.initial 0 (fun _ => default) fun _ => File.absent).step
    (.addLog (ascii "chrome.exe") 1700000000000 LogType.mem 209715200)).step .sendBatch).step
      (.recvBatch 0 ⟨1, 4, ascii "10.0.0.7", 50000⟩ default 0)

theorem run_storedSample : System.Run (ascii "10.0.0.7")
    (System.initial 0 (fun _ => default) fun _ => File.absent) storedSample :=
  ((System.Run.refl.step (.addLog (ascii "chrome.exe") 1700000000000 LogType.mem 209715200)
    ⟨by decide, by decide⟩).step .sendBatch trivial).step
      (.recvBatch 0 ⟨1, 4, ascii "10.0.0.7", 50000⟩ default 0) rfl

theorem server_file_eq_issued_sample :
    storedSample.toClient = [ackPayload 1] ∧
      ∃ stored ≤ storedSample.issued.length,
        (storedSample.disk (clientLogFile (ascii "10.0.0.7"))).bytes =
            (storedSample.issued.take stored).flatMap LogEntry.serializeStr ∧
          (∀ payload ∈ storedSample.toClient,
            ∃ id : UInt64, payload = ackPayload id ∧ id.toNat ≤ stored) ∧
          ∀ entry ∈ storedSample.removed, entry ∈ storedSample.issued.take stored :=
  ⟨by decide +kernel, (server_file_eq_issued rfl run_storedSample).2.2⟩

/-- One undisturbed round trip with a batch that can be encoded is, on the protocol's
side, a batch that is sent, received and acknowledged. -/
theorem refines_roundTrip (refines : Refines ip s a) (inv : CumulativeAck.Inv a)
    {payload : Bytes} (sends : sendLogs s.queue = .ok (some payload))
    (encoded : logPayload (slice a.issued (a.window 100)) = .ok payload)
    {info : ClientInfo} (same : info.clientIp = ip) (junk : Indeterminate) (netCount : UInt32)
    (junkId : UInt64) :
    (s.roundTrip info junk netCount junkId).queue.logEntries =
      a.issued.drop (max a.released (CumulativeAck.State.received a.stored (a.window 100))) := by
  have sent : s.sendBatch = { s with toServer := payload :: s.toServer } := by
    rw [System.sendBatch, sends]
  have sentRefines := refines_sendBatch refines inv sends
  have offers : CumulativeAck.Step 100 a { a with windows := a.window 100 :: a.windows } :=
    .send a
  have sentInv := CumulativeAck.inv_step offers inv
  -- the server answers the client's current window
  obtain ⟨id, answer, toClient, queue, handledRefines⟩ := refines_recvBatch sentRefines
    sentInv List.mem_cons_self encoded same junk netCount
  have handledInv := CumulativeAck.inv_receive sentInv (inv.window_le 100).2.2
  -- the client follows the answer
  have followed := (refines_recvAck handledRefines handledInv answer.le junkId).pending
  have trip : s.roundTrip info junk netCount junkId =
      (s.sendBatch.recvBatch payload info junk netCount).recvAck (ackPayload id) junkId := by
    have arrives : s.sendBatch.toServer[0]? = some payload := by simp [sent]
    simp [System.roundTrip, System.step, arrives, toClient]
  rw [← trip, CumulativeAck.acknowledge_issued,
    CumulativeAck.acknowledge_released handledInv, answer] at followed
  exact followed

/-- No stuck state.  Whenever something is pending, one undisturbed round trip
takes at least one entry off the front of the queue.  The only way out is a name of
2^32 bytes or more in the batch: then nothing is sent, the client throws. -/
theorem roundTrip_removes {ip : Bytes} {disk : Disk}
    (absent : disk (clientLogFile ip) = File.absent) {junkAckId : UInt64}
    {junk : Nat → Indeterminate} {s : System}
    (run : System.Run ip (System.initial junkAckId junk disk) s)
    (pending : s.queue.logEntries ≠ []) {info : ClientInfo} (same : info.clientIp = ip)
    (lineJunk : Indeterminate) (netCount : UInt32) (junkId : UInt64) :
    (∃ count, 0 < count ∧ count ≤ s.queue.logEntries.length ∧
        (s.roundTrip info lineJunk netCount junkId).queue.logEntries =
          s.queue.logEntries.drop count) ∨
      sendLogs s.queue = .error .stringTooLarge ∧
        ∃ entry ∈ s.queue.getBatchLog batchSize, 2 ^ 32 ≤ entry.processName.length := by
  obtain ⟨a, reachable, refines⟩ := run_refines absent run
  have inv := CumulativeAck.reachable_inv reachable
  have waiting : a.released < a.issued.length := by
    rw [refines.pending] at pending
    exact Nat.lt_of_not_le fun done => pending (List.drop_of_length_le done)
  have batch := refines.getBatchLog inv
  have nonempty : (s.queue.getBatchLog batchSize).isEmpty = false := by
    rw [List.isEmpty_eq_false_iff, batch, ← List.length_pos_iff,
      slice_length (inv.window_le 100).2.2]
    simp only [CumulativeAck.State.window]
    omega
  rcases logPayload_cases (s.queue.getBatchLog batchSize) with ⟨payload, encoded⟩ | ⟨throws, long⟩
  · left
    have sends : sendLogs s.queue = .ok (some payload) := by
      simp [sendLogs, nonempty, encoded, bind, Except.bind, pure, Except.pure]
    rw [batch] at encoded
    have left := refines_roundTrip refines inv sends encoded same lineJunk netCount junkId
    have progress := CumulativeAck.roundTrip_releases (by decide : 0 < 100) inv waiting
    dsimp only at progress
    rw [CumulativeAck.acknowledge_released (CumulativeAck.inv_receive inv
      (inv.window_le 100).2.2)] at progress
    have offered := CumulativeAck.received_le inv.stored_le (inv.window_le 100).2.2
    change a.released < max a.released (CumulativeAck.State.received a.stored (a.window 100))
      at progress
    refine ⟨CumulativeAck.State.received a.stored (a.window 100) - a.released, by omega, ?_, ?_⟩
    · rw [refines.pending, List.length_drop]
      omega
    · rw [left, refines.pending, List.drop_drop]
      congr 1
      omega
  · right
    refine ⟨?_, long⟩
    simp [sendLogs, nonempty, throws, bind, Except.bind]

theorem roundTrip_removes_sample :
    (∃ count, 0 < count ∧ count ≤ storedSample.queue.logEntries.length ∧
        (storedSample.roundTrip ⟨1, 4, ascii "10.0.0.7", 50000⟩ default 0 0).queue.logEntries =
          storedSample.queue.logEntries.drop count) ∨
      sendLogs storedSample.queue = .error .stringTooLarge ∧
        ∃ entry ∈ storedSample.queue.getBatchLog batchSize,
          2 ^ 32 ≤ entry.processName.length :=
  roundTrip_removes rfl run_storedSample (by decide +kernel) rfl default 0 0

end RemoteMonitoring
