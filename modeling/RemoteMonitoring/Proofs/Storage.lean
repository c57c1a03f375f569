/-
Module: RemoteMonitoring.Proofs.Storage
Purpose: What the server's file of one client holds, whatever batches arrive for it: entries
  with the ids 1, 2, 3 and so on, to which a batch adds those that come next.
Trusted boundary: none
Main exports: Stores, Stores.lastAckedId, acceptLoop_taken, Stores.onNetworkRecv
-/
import RemoteMonitoring.Proofs.Messages

namespace RemoteMonitoring

open ByteText
open LogEntry (Numbered)

/-- The file of the client at `ip` is the text of `kept`, whose last id can be read back. -/
structure Stores (disk : Disk) (ip : Bytes) (kept : List LogEntry) : Prop where
  numbered : Numbered 0 kept
  single : ∀ entry ∈ kept, newline ∉ entry.processName
  content : (disk (clientLogFile ip)).bytes = kept.flatMap LogEntry.serializeStr
  opens : (disk (clientLogFile ip)).writable = true

/-- No file stores no entries. -/
theorem stores_absent {disk : Disk} {ip : Bytes}
    (absent : disk (clientLogFile ip) = File.absent) : Stores disk ip [] where
  numbered := trivial
  single := by
    intro entry member
    cases member
  content := by
    rw [absent]
    rfl
  opens := by
    rw [absent]
    rfl

/-- The last id that the server recovers is the number of entries. -/
theorem Stores.lastAckedId {disk : Disk} {ip : Bytes} {kept : List LogEntry}
    (stores : Stores disk ip kept) (junk : Indeterminate) :
    (lastAckedId junk (disk (clientLogFile ip))).toNat = kept.length := by
  have content := stores.content
  rcases List.eq_nil_or_concat kept with rfl | ⟨front, entry, rfl⟩
  · rw [lastAckedId_of_empty content]
    rfl
  · rw [List.concat_eq_append] at content ⊢
    have numbered := stores.numbered
    have single := stores.single entry
    rw [List.concat_eq_append] at numbered single
    rw [List.flatMap_append, List.flatMap_singleton] at content
    rw [lastAckedId_append content (LogEntry.terminated_flatMap _) (single (by simp)),
      (LogEntry.numbered_append.mp numbered).2.1, List.length_append, List.length_singleton,
      Nat.zero_add]

/-- What the loop takes of any batch continues the ids, and its last id is acknowledged. -/
theorem acceptLoop_taken {last : UInt64} {batch : List LogEntry}
    (room : last.toNat + batch.length < 2 ^ 64) :
    Numbered last.toNat (acceptLoop last batch).2 ∧
      (acceptLoop last batch).2.Sublist batch ∧
      (acceptLoop last batch).1.toNat = last.toNat + (acceptLoop last batch).2.length := by
  induction batch generalizing last with
  | nil => exact ⟨trivial, List.Sublist.refl _, rfl⟩
  | cons entry rest ih =>
      rw [List.length_cons] at room
      by_cases follows : entry.id = last + 1
      · have succ : (last + 1).toNat = last.toNat + 1 := by
          rw [UInt64.toNat_add, UInt64.toNat_one, Nat.mod_eq_of_lt (by omega)]
        obtain ⟨numbered, sublist, reached⟩ := @ih (last + 1) (by rw [succ]; omega)
        rw [acceptLoop_next rest follows]
        refine ⟨⟨by rw [follows, succ], ?_⟩, sublist.cons_cons entry, ?_⟩
        · rw [succ] at numbered
          exact numbered
        · rw [reached, succ, List.length_cons]
          omega
      · obtain ⟨numbered, sublist, reached⟩ := @ih last (by omega)
        rw [acceptLoop_skip rest follows]
        exact ⟨numbered, sublist.cons entry, reached⟩

/-- Entries that go on with the numbering are appended as their lines. -/
theorem Stores.append {disk : Disk} {ip : Bytes} {kept taken : List LogEntry}
    (stores : Stores disk ip kept) (numbered : Numbered kept.length taken)
    (single : ∀ entry ∈ taken, newline ∉ entry.processName) :
    Stores (Function.update disk (clientLogFile ip)
        ((disk (clientLogFile ip)).append (taken.flatMap LogEntry.serializeStr))) ip
      (kept ++ taken) where
  numbered := LogEntry.numbered_append.mpr
    ⟨stores.numbered, (Nat.zero_add kept.length).symm ▸ numbered⟩
  single := by
    intro entry member
    cases List.mem_append.mp member with
    | inl older => exact stores.single entry older
    | inr new => exact single entry new
  content := by
    rw [Function.update_self, File.bytes_append stores.opens, stores.content,
      List.flatMap_append]
  opens := by
    rw [Function.update_self, File.writable_append]
    exact stores.opens

/-- A batch adds to the file what comes next, and is answered with the new number of entries.
No other file changes. -/
theorem Stores.onNetworkRecv {disk : Disk} {info : ClientInfo} {kept batch : List LogEntry}
    (stores : Stores disk info.clientIp kept) {payload : Bytes}
    (built : logPayload batch = .ok payload) (fits : batch.length < 2 ^ 32)
    (room : kept.length + batch.length < 2 ^ 64)
    (single : ∀ entry ∈ batch, newline ∉ entry.processName) (junk : Indeterminate)
    (netCount : UInt32) :
    ∃ (taken : List LogEntry) (file : File) (id : UInt64),
      ClientHandler.onNetworkRecv info junk netCount ⟨info.clientIp, info.clientPort, payload⟩
          disk =
        .ok (Function.update disk (clientLogFile info.clientIp) file,
          [⟨info.clientIp, info.clientPort, ackPayload id⟩]) ∧
        Stores (Function.update disk (clientLogFile info.clientIp) file) info.clientIp
          (kept ++ taken) ∧
        taken.Sublist batch ∧ id.toNat = (kept ++ taken).length := by
  have recovered := stores.lastAckedId junk
  obtain ⟨numbered, sublist, reached⟩ :=
    @acceptLoop_taken (RemoteMonitoring.lastAckedId junk (disk (clientLogFile info.clientIp)))
      batch (by rw [recovered]; exact room)
  rw [recovered] at numbered reached
  have next := stores.append numbered fun entry member => single entry (sublist.subset member)
  refine ⟨_, _, _, onNetworkRecv_logPayload built fits stores.opens junk netCount, next, sublist,
    ?_⟩
  rw [reached, List.length_append]

end RemoteMonitoring
