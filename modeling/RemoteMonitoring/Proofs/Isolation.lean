/-
Module: RemoteMonitoring.Proofs.Isolation
Purpose: When the clients of one server are isolated from each other: exactly when no two of
  them share an address and their lines are recovered as they were written.
Trusted boundary: none
Main exports: handle_eq, Held, held_handle, isolated_iff
-/
import RemoteMonitoring.System.Isolation
import RemoteMonitoring.Proofs.Messages

namespace RemoteMonitoring

open ByteText
open LogEntry (Numbered slice slice_length slice_numbered take_append_slice)

/-- Any window cuts out the same entries as one inside the list. -/
theorem exists_window (entries : List LogEntry) (window : Nat × Nat) :
    ∃ inner : Nat × Nat, inner.1 ≤ inner.2 ∧ inner.2 ≤ entries.length ∧
      slice entries window = slice entries inner := by
  have cut : entries.take window.2 = entries.take (min window.2 entries.length) := by
    rcases Nat.le_total window.2 entries.length with inside | beyond
    · rw [Nat.min_eq_left inside]
    · rw [Nat.min_eq_right beyond, List.take_of_length_le beyond, List.take_length]
  by_cases ordered : window.1 ≤ min window.2 entries.length
  · refine ⟨(window.1, min window.2 entries.length), ordered, Nat.min_le_right _ _, ?_⟩
    rw [slice, cut]
    rfl
  · refine ⟨(0, 0), Nat.le_refl 0, Nat.zero_le _, ?_⟩
    have beyond : (entries.take window.2).length ≤ window.1 := by
      rw [List.length_take]
      exact Nat.le_of_not_le ordered
    rw [slice, List.drop_of_length_le beyond]
    rfl

/-- What the loop makes of consecutive entries: it takes none of them, or it takes
those from the last acknowledged id on and ends on an id that was issued. -/
theorem acceptLoop_slice {entries : List LogEntry} (numbered : Numbered 0 entries)
    (fits : entries.length < 2 ^ 32) (window : Nat × Nat) (last : UInt64) :
    acceptLoop last (slice entries window) = (last, []) ∨
      ∃ upTo ≤ entries.length, last.toNat < upTo ∧
        (acceptLoop last (slice entries window)).1.toNat = upTo ∧
        entries.take last.toNat ++ (acceptLoop last (slice entries window)).2 =
          entries.take upTo := by
  obtain ⟨inner, ordered, inside, same⟩ := exists_window entries window
  have cut := slice_numbered numbered ordered inside
  have length := slice_length inside
  rw [same]
  rcases Nat.lt_or_ge last.toNat inner.1 with ahead | reaches
  · exact Or.inl (acceptLoop_ahead cut ahead)
  · obtain ⟨reached, taken⟩ := acceptLoop_numbered cut reaches (by omega)
    rw [length, Nat.add_sub_cancel' ordered] at reached
    rcases Nat.lt_or_ge last.toNat inner.2 with more | done
    · refine Or.inr ⟨inner.2, inside, more, ?_, ?_⟩
      · rw [reached, Nat.max_eq_right (Nat.le_of_lt more)]
      · rw [taken, take_append_slice entries reaches, Nat.max_eq_right (Nat.le_of_lt more)]
    · left
      rw [Nat.max_eq_left done] at reached
      rw [List.drop_of_length_le (by omega)] at taken
      exact Prod.ext (UInt64.toNat_inj.mp reached) taken

/-- What the loop took from consecutive entries ends in the entry with the id that it
reached. -/
theorem exists_last_accepted {entries accepted : List LogEntry} (numbered : Numbered 0 entries)
    {last upTo : Nat} (more : last < upTo) (inside : upTo ≤ entries.length)
    (taken : entries.take last ++ accepted = entries.take upTo) :
    ∃ front entry, accepted = front ++ [entry] ∧ entry ∈ entries ∧ entry.id.toNat = upTo := by
  obtain ⟨count, rfl⟩ : ∃ count, upTo = count + 1 := ⟨upTo - 1, by omega⟩
  obtain ⟨entry, member, whole, id⟩ := numbered.take_succ inside
  have nonempty : accepted ≠ [] := by
    rintro rfl
    have lengths := congrArg List.length taken
    simp only [List.append_nil, List.length_take] at lengths
    omega
  obtain ⟨front, newest, split⟩ := (List.eq_nil_or_concat accepted).resolve_left nonempty
  rw [List.concat_eq_append] at split
  rw [split, whole, ← List.append_assoc] at taken
  obtain ⟨_, same⟩ := List.append_inj' taken rfl
  rw [List.singleton_inj.mp same] at split
  exact ⟨front, entry, split, member, by omega⟩

/-- Entries above the old id that are at or below the new one have been taken. -/
theorem mem_accepted {entries accepted : List LogEntry} (numbered : Numbered 0 entries)
    {last upTo : Nat} (taken : entries.take last ++ accepted = entries.take upTo)
    {entry : LogEntry} (issued : entry ∈ entries) (new : last < entry.id.toNat)
    (early : entry.id.toNat ≤ upTo) : entry ∈ accepted := by
  have member : entry ∈ entries.take upTo := by
    apply numbered.mem_take_iff.mpr
    exact ⟨issued, by omega⟩
  rw [← taken] at member
  rcases List.mem_append.mp member with before | here
  · have under := (numbered.mem_take_iff.mp before).2
    omega
  · exact here

/-- A file of the first entries up to `entry` reads back the id that `entry` does. -/
theorem lastAckedId_take {entries : List LogEntry} (numbered : Numbered 0 entries) {file : File}
    {count : Nat} (content : file.bytes = (entries.take (count + 1)).flatMap LogEntry.serializeStr)
    (inside : count < entries.length) {entry : LogEntry} (issued : entry ∈ entries)
    (id : entry.id.toNat = count + 1) (junk : Indeterminate) :
    lastAckedId junk file = entry.readBack junk := by
  obtain ⟨newest, _, whole, _⟩ := numbered.take_succ inside
  have last : entry = newest := by
    have early : entry ∈ entries.take (count + 1) :=
      numbered.mem_take_iff.mpr ⟨issued, by omega⟩
    rw [whole, List.mem_append, numbered.mem_take_iff, List.mem_singleton] at early
    rcases early with ⟨_, low⟩ | same
    · omega
    · exact same
  rw [whole, List.flatMap_append, List.flatMap_singleton, ← last] at content
  exact lastAckedId_append_entry content (LogEntry.terminated_flatMap _) junk

/-- The file of a client can be opened, and a new line begins behind it. -/
structure Ready (disk : Disk) (client : Client) : Prop where
  opens : (disk (clientLogFile client.info.clientIp)).writable = true
  ends : Terminated (disk (clientLogFile client.info.clientIp)).bytes

/-- A client without a file is ready. -/
theorem ready_of_absent {disk : Disk} {client : Client}
    (absent : disk (clientLogFile client.info.clientIp) = File.absent) : Ready disk client where
  opens := by rw [absent, File.writable_absent]
  ends := by
    rw [absent, File.bytes_absent]
    exact terminated_nil

section Handle

variable {clients : List Client} {s : Server} {client : Client}

/-- Handling a batch runs it through the loop from the id on the last line. -/
theorem handle_eq (distinct : (clients.map fun client => client.info.connection).Nodup)
    (member : client ∈ clients)
    (opens : (s.disk (clientLogFile client.info.clientIp)).writable = true)
    (window : Nat × Nat) (junk : Indeterminate) (netCount : UInt32) :
    s.handle clients client window junk netCount =
      let file := clientLogFile client.info.clientIp
      let outcome := acceptLoop (lastAckedId junk (s.disk file)) (slice client.entries window)
      (⟨Function.update s.disk file
            ((s.disk file).append (outcome.2.flatMap LogEntry.serializeStr)),
          s.stored ++ outcome.2.map (Prod.mk client.info)⟩,
        [⟨client.info.clientIp, client.info.clientPort, ackPayload outcome.1⟩]) := by
  have inside : ∀ entry ∈ slice client.entries window, entry ∈ client.entries :=
    fun entry taken => List.mem_of_mem_take (List.mem_of_mem_drop taken)
  obtain ⟨payload, built⟩ := logPayload_isOk fun entry taken =>
    client.sendable entry (inside entry taken)
  have fits : (slice client.entries window).length < 2 ^ 32 := by
    obtain ⟨inner, _, bounded, same⟩ := exists_window client.entries window
    have room := client.fits
    rw [same, slice_length bounded]
    omega
  have handles := onNetworkRecv_logPayload built fits opens junk netCount
  have handlers : (clients.map Client.info).map ClientInfo.connection =
      clients.map fun client => client.info.connection := by
    rw [List.map_map]
    rfl
  have published := publishRecv_of_mem (handlers ▸ distinct) (List.mem_map_of_mem member) rfl
    handles
  simp only [Server.handle, built, published]

/-- A batch leaves the files of other addresses alone. -/
theorem handle_disk_other
    (distinct : (clients.map fun client => client.info.connection).Nodup)
    (member : client ∈ clients)
    (opens : (s.disk (clientLogFile client.info.clientIp)).writable = true)
    (window : Nat × Nat) (junk : Indeterminate) (netCount : UInt32) {ip : Bytes}
    (other : ip ≠ client.info.clientIp) :
    (s.handle clients client window junk netCount).1.disk (clientLogFile ip) =
      s.disk (clientLogFile ip) := by
  have files : clientLogFile ip ≠ clientLogFile client.info.clientIp :=
    fun same => other (clientLogFile_injective same)
  rw [handle_eq distinct member opens]
  exact Function.update_of_ne files _ _

/-- The text of the accepted entries is appended to the client's own file. -/
theorem handle_bytes_self
    (distinct : (clients.map fun client => client.info.connection).Nodup)
    (member : client ∈ clients)
    (opens : (s.disk (clientLogFile client.info.clientIp)).writable = true)
    (window : Nat × Nat) (junk : Indeterminate) (netCount : UInt32) :
    ((s.handle clients client window junk netCount).1.disk
        (clientLogFile client.info.clientIp)).bytes =
      (s.disk (clientLogFile client.info.clientIp)).bytes ++
        (acceptLoop (lastAckedId junk (s.disk (clientLogFile client.info.clientIp)))
          (slice client.entries window)).2.flatMap LogEntry.serializeStr := by
  rw [handle_eq distinct member opens]
  simp only [Function.update_self]
  exact File.bytes_append opens _

/-- Another client stays ready while the server handles a message of this one. -/
theorem ready_handle (distinct : (clients.map fun client => client.info.connection).Nodup)
    (member : client ∈ clients) (self : Ready s.disk client) {other : Client}
    (ready : Ready s.disk other) (window : Nat × Nat) (junk : Indeterminate)
    (netCount : UInt32) :
    Ready (s.handle clients client window junk netCount).1.disk other := by
  by_cases shared : other.info.clientIp = client.info.clientIp
  · constructor
    · rw [shared, handle_eq distinct member self.opens]
      simp only [Function.update_self, File.writable_append]
      exact self.opens
    · rw [shared, handle_bytes_self distinct member self.opens]
      exact self.ends.append (LogEntry.terminated_flatMap _)
  · have same := handle_disk_other distinct member self.opens window junk netCount shared
    constructor
    · rw [same]
      exact ready.opens
    · rw [same]
      exact ready.ends

end Handle

/-! ### One client on its own -/

/-- The server holds the entries of a client up to some id, and as long as there
are later ones the id that it recovers is not above. -/
def Held (s : Server) (client : Client) (count : Nat) : Prop :=
  (∀ entry ∈ client.entries, entry.id.toNat ≤ count → (client.info, entry) ∈ s.stored) ∧
    (count < client.entries.length →
      ∀ junk, (lastAckedId junk (s.disk (clientLogFile client.info.clientIp))).toNat ≤ count)

/-- A file with the same text gives the same id. -/
theorem lastAckedId_congr {one two : File} (same : one.bytes = two.bytes)
    (junk : Indeterminate) : lastAckedId junk one = lastAckedId junk two := by
  rw [lastAckedId_eq, lastAckedId_eq, same]

section Self

variable {clients : List Client} {s : Server} {client : Client}

/-- A batch extends what is held up to the id that is answered. -/
theorem held_handle (distinct : (clients.map fun client => client.info.connection).Nodup)
    (member : client ∈ clients) (ready : Ready s.disk client)
    (recoverable : client.Recoverable) {count : Nat} (held : Held s client count)
    (window : Nat × Nat) (junk : Indeterminate) (netCount : UInt32) :
    ∃ next, Held (s.handle clients client window junk netCount).1 client next ∧
      (next < client.entries.length →
        (acceptLoop (lastAckedId junk (s.disk (clientLogFile client.info.clientIp)))
          (slice client.entries window)).1.toNat ≤ next) := by
  have text := handle_bytes_self distinct member ready.opens window junk netCount
  have stored : (s.handle clients client window junk netCount).1.stored = _ :=
    congrArg (fun outcome => outcome.1.stored)
      (handle_eq distinct member ready.opens window junk netCount)
  have low : count < client.entries.length →
      (lastAckedId junk (s.disk (clientLogFile client.info.clientIp))).toNat ≤ count :=
    fun short => held.2 short junk
  dsimp only at stored
  generalize lastAckedId junk (s.disk (clientLogFile client.info.clientIp)) = last
    at text stored low ⊢
  generalize (s.handle clients client window junk netCount).1 = s' at text stored ⊢
  have kept : ∀ entry ∈ client.entries, entry.id.toNat ≤ count →
      (client.info, entry) ∈ s'.stored := by
    intro entry issued below
    rw [stored]
    exact List.mem_append_left _ (held.1 entry issued below)
  rcases Nat.lt_or_ge count client.entries.length with short | all
  · have lastLe := low short
    rcases acceptLoop_slice client.numbered client.fits window last with
      none | ⟨upTo, inside, more, reached, taken⟩
    · -- nothing is taken, so the file and the id on it stay
      rw [none] at text ⊢
      rw [List.flatMap_nil, List.append_nil] at text
      refine ⟨count, ⟨kept, ?_⟩, fun _ => lastLe⟩
      intro _ junk'
      rw [lastAckedId_congr text]
      exact held.2 short junk'
    · -- the entries above `last` and up to `upTo` are taken
      obtain ⟨front, newest, split, issued, id⟩ :=
        exists_last_accepted client.numbered more inside taken
      refine ⟨max count upTo, ⟨?_, ?_⟩, fun _ => reached ▸ Nat.le_max_right _ _⟩
      · intro entry issued below
        rcases Nat.lt_or_ge count entry.id.toNat with new | old
        · have accepted := mem_accepted client.numbered taken issued
            (Nat.lt_of_le_of_lt lastLe new) (by omega)
          rw [stored]
          exact List.mem_append_right _ (List.mem_map_of_mem accepted)
        · exact kept entry issued old
      · intro later junk'
        rw [split, List.flatMap_append, List.flatMap_singleton, ← List.append_assoc] at text
        have ends : Terminated ((s.disk (clientLogFile client.info.clientIp)).bytes ++
            front.flatMap LogEntry.serializeStr) :=
          ready.ends.append (LogEntry.terminated_flatMap front)
        rw [lastAckedId_append_entry text ends]
        have followed : newest.id.toNat < client.entries.length := by omega
        have bound := recoverable newest issued followed junk'
        omega
  · refine ⟨count, ⟨kept, ?_⟩, ?_⟩
    · intro short
      omega
    · intro short
      omega

end Self

/-! ### All clients together -/

section All

variable {clients : List Client} {s : Server}
  (distinct : (clients.map fun client => client.info.connection).Nodup)

include distinct

theorem eq_of_connection {one two : Client} (memberOne : one ∈ clients)
    (memberTwo : two ∈ clients) (same : one.info.connection = two.info.connection) :
    one = two :=
  List.inj_on_of_nodup_map distinct memberOne memberTwo same

/-- A batch of another client leaves what is held in place. -/
theorem held_handle_other (separate : SeparateAddresses clients) {client other : Client}
    (member : client ∈ clients) (otherMember : other ∈ clients)
    (ready : Ready s.disk client)
    (differs : other.info.connection ≠ client.info.connection) {count : Nat}
    (held : Held s other count) (window : Nat × Nat) (junk : Indeterminate)
    (netCount : UInt32) :
    ∃ next, Held (s.handle clients client window junk netCount).1 other next := by
  by_cases shared : other.info.clientIp = client.info.clientIp
  · have none := separate other otherMember client member differs shared
    refine ⟨0, ?_, ?_⟩
    · simp [none]
    · simp [none]
  · refine ⟨count, ?_, ?_⟩
    · intro entry issued below
      rw [handle_eq distinct member ready.opens]
      exact List.mem_append_left _ (held.1 entry issued below)
    · rw [handle_disk_other distinct member ready.opens window junk netCount shared]
      exact held.2

/-- Separate addresses and recoverable lines keep every client's entries held. -/
theorem reach_held (separate : SeparateAddresses clients)
    (recoverable : ∀ client ∈ clients, client.Recoverable) {disk : Disk}
    (absent : ∀ client ∈ clients, disk (clientLogFile client.info.clientIp) = File.absent)
    (run : Server.Reach clients ⟨disk, []⟩ s) :
    ∀ client ∈ clients, Ready s.disk client ∧ ∃ count, Held s client count := by
  induction run with
  | refl =>
      intro client member
      have empty : disk (clientLogFile client.info.clientIp) = File.absent := absent client member
      refine ⟨ready_of_absent empty, 0, ?_, ?_⟩
      · intro entry issued low
        exact absurd low (Nat.not_le_of_gt (client.numbered.lt_id issued))
      · intro _ junk
        simp only [empty]
        rw [lastAckedId_of_empty File.bytes_absent]
        exact Nat.le_refl 0
  | handle run client member window junk netCount ih =>
      intro other otherMember
      obtain ⟨ready, count, held⟩ := ih client member
      obtain ⟨otherReady, otherCount, otherHeld⟩ := ih other otherMember
      refine ⟨ready_handle distinct member ready otherReady window junk netCount, ?_⟩
      by_cases same : other.info.connection = client.info.connection
      · cases eq_of_connection distinct otherMember member same
        obtain ⟨next, after, _⟩ := held_handle distinct member ready
          (recoverable _ member) held window junk netCount
        exact ⟨next, after⟩
      · exact held_handle_other distinct separate member otherMember ready same otherHeld window
          junk netCount

/-- The answer to a batch depends on the client's own file only. -/
theorem handle_sends {client : Client} (member : client ∈ clients) {s' : Server}
    (ready : Ready s.disk client) (ready' : Ready s'.disk client)
    (same : (s'.disk (clientLogFile client.info.clientIp)).bytes =
      (s.disk (clientLogFile client.info.clientIp)).bytes)
    (window : Nat × Nat) (junk : Indeterminate) (netCount : UInt32) :
    (s'.handle clients client window junk netCount).2 =
      (s.handle clients client window junk netCount).2 := by
  rw [handle_eq distinct member ready.opens, handle_eq distinct member ready'.opens]
  simp only [lastAckedId_congr same]

/-- Where only clients without entries share an address, a message of the one changes nothing in the
file of the other, nor in what it is answered. -/
theorem undisturbed_of_separate (separate : SeparateAddresses clients) {client other : Client}
    (member : client ∈ clients) (otherMember : other ∈ clients)
    (ready : Ready s.disk client) (otherReady : Ready s.disk other)
    (differs : client.info.connection ≠ other.info.connection) :
    Server.Undisturbed clients s client other := by
  intro window junk netCount
  have same : ((s.handle clients client window junk netCount).1.disk
      (clientLogFile other.info.clientIp)).bytes =
        (s.disk (clientLogFile other.info.clientIp)).bytes := by
    by_cases shared : client.info.clientIp = other.info.clientIp
    · have none := separate client member other otherMember differs shared
      have nothing : slice client.entries window = [] := by
        rw [none, slice, List.take_nil, List.drop_nil]
      rw [← shared, handle_bytes_self distinct member ready.opens, nothing]
      exact List.append_nil _
    · rw [handle_disk_other distinct member ready.opens window junk netCount
        (fun equal => shared equal.symm)]
  refine ⟨same, fun junk' => lastAckedId_congr same junk', ?_⟩
  exact handle_sends distinct otherMember otherReady
    (ready_handle distinct member ready otherReady window junk netCount) same

/-- If nothing is shared that matters, an ack tells a client only of entries that are in the file.
-/
theorem honest_of_held (recoverable : ∀ client ∈ clients, client.Recoverable)
    (inv : ∀ client ∈ clients, Ready s.disk client ∧ ∃ count, Held s client count)
    {told : Client} (toldMember : told ∈ clients) : Server.Honest clients s told := by
  intro client member window junk netCount outcome id sent entry issued low
  obtain ⟨ready, count, held⟩ := inv client member
  obtain ⟨next, after, answered⟩ := held_handle distinct member ready
    (recoverable client member) held window junk netCount
  have answer := congrArg Prod.snd (handle_eq distinct member ready.opens window junk netCount)
  dsimp only at answer
  rw [answer, List.mem_singleton, NetworkSendEvent.mk.injEq] at sent
  obtain ⟨ip, port, payload⟩ := sent
  cases eq_of_connection distinct toldMember member (Prod.ext ip port)
  apply after.1 entry issued
  have below : entry.id.toNat ≤ id.toNat := UInt64.le_iff_toNat_le.mp low
  rcases Nat.lt_or_ge next told.entries.length with short | all
  · have bound := answered short
    rw [← ackPayload_injective payload] at bound
    exact Nat.le_trans below bound
  · have known : entry ∈ told.entries.take told.entries.length := by
      rw [List.take_length]
      exact issued
    have inside := (told.numbered.mem_take_iff.mp known).2
    omega

/-! ### What a violation looks like -/

/-- The first batch that reaches an absent file is stored as it is. -/
theorem handle_first {client : Client} (member : client ∈ clients)
    (absent : s.disk (clientLogFile client.info.clientIp) = File.absent) {count : Nat}
    (inside : count ≤ client.entries.length) (junk : Indeterminate) (netCount : UInt32) :
    let after := (s.handle clients client (0, count) junk netCount).1
    (after.disk (clientLogFile client.info.clientIp)).bytes =
        (client.entries.take count).flatMap LogEntry.serializeStr ∧
      after.stored = s.stored ++ (client.entries.take count).map (Prod.mk client.info) := by
  have opens : (s.disk (clientLogFile client.info.clientIp)).writable = true := by
    rw [absent, File.writable_absent]
  have last : lastAckedId junk (s.disk (clientLogFile client.info.clientIp)) = 0 := by
    rw [absent, lastAckedId_of_empty File.bytes_absent]
  have room := client.fits
  have cut : Numbered 0 (slice client.entries (0, count)) :=
    @slice_numbered _ client.numbered (0, count) (Nat.zero_le count) inside
  have length : (slice client.entries (0, count)).length = count := slice_length inside
  have taken : (acceptLoop 0 (slice client.entries (0, count))).2 = client.entries.take count :=
    (acceptLoop_numbered cut (Nat.zero_le _) (by omega)).2
  constructor
  · rw [handle_bytes_self distinct member opens, last, taken, absent, File.bytes_absent,
      List.nil_append]
  · rw [handle_eq distinct member opens]
    dsimp only
    rw [last, taken]

/-- A client with entries disturbs every other client at its address. -/
theorem separate_of_undisturbed {disk : Disk}
    (absent : ∀ client ∈ clients, disk (clientLogFile client.info.clientIp) = File.absent)
    (undisturbed : ∀ client ∈ clients, ∀ other ∈ clients,
      client.info.connection ≠ other.info.connection →
        Server.Undisturbed clients ⟨disk, []⟩ client other) :
    SeparateAddresses clients := by
  intro one memberOne two memberTwo differs shared
  rcases List.eq_nil_or_concat one.entries with none | ⟨_, _, some⟩
  · exact none
  · exfalso
    have nonempty : 1 ≤ one.entries.length := by simp [some]
    have same := (undisturbed one memberOne two memberTwo differs (0, 1) default 0).1
    have text := (handle_first (s := ⟨disk, []⟩) distinct memberOne (absent one memberOne)
      nonempty default 0).1
    rw [shared] at text
    dsimp only at same
    rw [text, absent two memberTwo, File.bytes_absent] at same
    obtain ⟨first, rest, split⟩ := List.exists_cons_of_length_pos nonempty
    simp [split, LogEntry.serializeStr] at same

/-- When an entry reads back above its own id, the next answer covers an entry that
was never sent. -/
theorem recoverable_of_honest {disk : Disk}
    (absent : ∀ client ∈ clients, disk (clientLogFile client.info.clientIp) = File.absent)
    (honest : ∀ s, Server.Reach clients ⟨disk, []⟩ s →
      ∀ told ∈ clients, Server.Honest clients s told)
    {client : Client} (member : client ∈ clients) : client.Recoverable := by
  intro entry issued followed junk
  apply Nat.le_of_not_lt
  intro above
  have numbered := client.numbered
  have positive := numbered.lt_id issued
  obtain ⟨count, id⟩ : ∃ count, entry.id.toNat = count + 1 := ⟨entry.id.toNat - 1, by omega⟩
  rw [id] at above followed
  have inside := Nat.le_of_lt followed
  -- the server has stored everything up to `entry`
  have run : Server.Reach clients ⟨disk, []⟩ _ :=
    Server.Reach.refl.handle client member (0, count + 1) default 0
  obtain ⟨text, stored⟩ := handle_first (s := ⟨disk, []⟩) distinct member
    (absent client member) inside default 0
  have start := ready_of_absent (absent client member)
  have ready := ready_handle (s := ⟨disk, []⟩) distinct member start start (0, count + 1)
    default 0
  have told := honest _ run client member client member (0, 1) junk 0
  generalize (Server.handle clients ⟨disk, []⟩ client (0, count + 1) default 0).1 = s'
    at text stored ready told
  -- what it recovers from the line of `entry` is too high
  have recovered : lastAckedId junk (s'.disk (clientLogFile client.info.clientIp)) =
      entry.readBack junk :=
    lastAckedId_take numbered text (Nat.lt_of_succ_lt followed) issued id junk
  -- so a resent first entry is answered with it
  have cut : Numbered 0 (slice client.entries (0, 1)) :=
    @slice_numbered _ numbered (0, 1) (Nat.zero_le 1)
      (Nat.le_trans (Nat.le_add_left 1 count) inside)
  have length : (slice client.entries (0, 1)).length = 1 :=
    slice_length (Nat.le_trans (Nat.le_add_left 1 count) inside)
  obtain ⟨reached, taken⟩ := acceptLoop_numbered cut
    (Nat.zero_le (entry.readBack junk).toNat) (by omega)
  have nothing : (acceptLoop (entry.readBack junk) (slice client.entries (0, 1))).2 = [] := by
    rw [taken]
    exact List.drop_of_length_le (by omega)
  have answer := handle_eq distinct member ready.opens (0, 1) junk 0
  dsimp only at told answer
  rw [recovered] at answer
  rw [answer, nothing] at told
  obtain ⟨next, nextMember, _, nextId⟩ := numbered.take_succ followed
  have covered : next.id ≤ (acceptLoop (entry.readBack junk) (slice client.entries (0, 1))).1 := by
    rw [UInt64.le_iff_toNat_le, nextId, reached]
    omega
  have kept := told _ (List.mem_singleton.mpr rfl) next nextMember covered
  rw [List.map_nil, List.append_nil, stored, List.nil_append] at kept
  obtain ⟨early, member, same⟩ := List.mem_map.mp kept
  rw [Prod.mk.injEq] at same
  rw [same.2] at member
  have low := (numbered.mem_take_iff.mp member).2
  omega

end All

/-- Isolation.  Starting from absent files, the clients stay isolated in every order
of their batches exactly when clients at one address have nothing to log and no
line can be mistaken for that of a later entry. -/
theorem isolated_iff {clients : List Client}
    (distinct : (clients.map fun client => client.info.connection).Nodup) {disk : Disk}
    (absent : ∀ client ∈ clients, disk (clientLogFile client.info.clientIp) = File.absent) :
    (∀ s, Server.Reach clients ⟨disk, []⟩ s → Server.Isolated clients s) ↔
      SeparateAddresses clients ∧ ∀ client ∈ clients, client.Recoverable := by
  constructor
  · intro isolated
    constructor
    · exact separate_of_undisturbed distinct absent (isolated _ .refl).1
    · intro client member
      exact recoverable_of_honest distinct absent (fun s run => (isolated s run).2) member
  · rintro ⟨separate, recoverable⟩ s run
    have inv := reach_held distinct separate recoverable absent run
    constructor
    · intro client member other otherMember differs
      exact undisturbed_of_separate distinct separate member otherMember (inv client member).1
        (inv other otherMember).1 differs
    · intro told member
      exact honest_of_held distinct recoverable inv member

/-- Two clients behind one address, each with one entry. -/
def desktop : Client where
  info := ⟨1, 4, ascii "10.0.0.7", 50000⟩
  entries := [⟨1, ascii "chrome.exe", 1700000000000, LogType.mem, 209715200⟩]
  numbered := by decide
  fits := by decide
  sendable := by decide

def laptop : Client where
  info := ⟨2, 5, ascii "10.0.0.7", 50001⟩
  entries := [⟨1, ascii "devenv.exe", 1700000000500, LogType.cpu, 50000⟩]
  numbered := by decide
  fits := by decide
  sendable := by decide

theorem isolated_iff_sample :
    (∀ s, Server.Reach [desktop, laptop] ⟨fun _ => File.absent, []⟩ s →
        Server.Isolated [desktop, laptop] s) ↔
      SeparateAddresses [desktop, laptop] ∧
        ∀ client ∈ [desktop, laptop], client.Recoverable :=
  isolated_iff (by decide) (by simp)

/-- Once the desktop's first entry is stored, the laptop's last acked id is 1 as
well, and the laptop is told to discard its own first entry, which nobody stored. -/
theorem laptop_loses_entry :
    let start : Server := ⟨fun _ => File.absent, []⟩
    let s := (start.handle [desktop, laptop] desktop (0, 1) default 0).1
    let outcome := s.handle [desktop, laptop] laptop (0, 1) default 0
    lastAckedId default (start.disk (clientLogFile laptop.info.clientIp)) = 0 ∧
      lastAckedId default (s.disk (clientLogFile laptop.info.clientIp)) = 1 ∧
      outcome.2 = [⟨laptop.info.clientIp, laptop.info.clientPort, ackPayload 1⟩] ∧
      (∀ entry ∈ laptop.entries, entry.id ≤ 1 ∧ (laptop.info, entry) ∉ outcome.1.stored) ∧
      ¬ Server.Isolated [desktop, laptop] start := by
  refine ⟨by decide +kernel, by decide +kernel, by decide +kernel, by decide +kernel, ?_⟩
  intro isolated
  have same := (isolated.1 desktop (by simp) laptop (by simp) (by decide) (0, 1) default 0).2.1
    default
  revert same
  decide +kernel

end RemoteMonitoring
