/-
Module: RemoteMonitoring.Proofs.Traffic
Purpose: When the traffic is accounted exactly, and when its direction does not depend on the
  order in which the rows of /proc/net/tcp are visited.
Trusted boundary: none
Main exports: classify_eq, processPackets_eq, total_processPackets, accounted_iff, directed_iff
-/
import RemoteMonitoring.Proofs.PortMap
import RemoteMonitoring.System.Traffic

namespace RemoteMonitoring

open ByteText
open PointerScan

/-! ### What is read of a frame -/

namespace Packet

variable (packet : Packet)

theorem getD_take_drop {bytes : Bytes} {count index : Nat} (offset : Nat) (inside : index < count) :
    ((bytes.drop offset).take count).getD index 0 = bytes.getD (offset + index) 0 := by
  simp [List.getD_eq_getElem?_getD, inside]

/-- A byte can be read, if it was captured. -/
theorem readByte_eq (offset : Nat) :
    packet.readByte offset =
      if offset + 1 ≤ packet.bytes.length then .ok (packet.bytes.getD offset 0)
      else .error .outOfBounds := by
  unfold readByte read
  split
  · rw [ok_bind, pure_eq, List.headD_eq_head?_getD, List.head?_eq_getElem?,
      ← List.getD_eq_getElem?_getD, getD_take_drop offset Nat.zero_lt_one, Nat.add_zero]
  · rfl

/-- A port as a number. -/
theorem toNat_portAt (offset : Nat) :
    (packet.portAt offset).toNat = 256 * packet.octet offset + packet.octet (offset + 1) := by
  have high := (packet.bytes.getD offset 0).toNat_lt
  have low := (packet.bytes.getD (offset + 1) 0).toNat_lt
  rw [portAt, UInt16.toNat_ofNat']
  unfold octet
  omega

/-- A port is two bytes in network order, if they were captured. -/
theorem readPort_eq (offset : Nat) :
    packet.readPort offset =
      if offset + 2 ≤ packet.bytes.length then .ok (packet.portAt offset)
      else .error .outOfBounds := by
  unfold readPort read
  split
  · rw [ok_bind, pure_eq, getD_take_drop offset Nat.zero_lt_two,
      getD_take_drop offset Nat.one_lt_two, Nat.add_zero]
    congr 1
    have high := (packet.bytes.getD offset 0).toNat_lt
    have low := (packet.bytes.getD (offset + 1) 0).toNat_lt
    rw [← UInt16.toNat_inj, toNat_portAt, UInt16.toNat_or, UInt16.toNat_shiftLeft]
    unfold octet
    generalize packet.bytes.getD offset 0 = first at *
    generalize packet.bytes.getD (offset + 1) 0 = second at *
    have shifted : first.toUInt16.toNat <<< ((8 : UInt16).toNat % 16) % 2 ^ 16 =
        2 ^ 8 * first.toNat := by
      rw [UInt8.toNat_toUInt16, Nat.shiftLeft_eq]
      show first.toNat * 2 ^ 8 % 2 ^ 16 = 2 ^ 8 * first.toNat
      omega
    rw [shifted, UInt8.toNat_toUInt16, ← Nat.two_pow_add_eq_or_of_lt low]
  · rfl

/-- An address can be read, if its four bytes were captured. -/
theorem readAddress_eq (offset : Nat) :
    packet.readAddress offset =
      if offset + 4 ≤ packet.bytes.length then
        .ok (fromMemory32 ((packet.bytes.drop offset).take 4))
      else .error .outOfBounds := by
  unfold readAddress read
  split
  · rfl
  · rfl

theorem octet_eq_iff (offset : Nat) (byte : UInt8) :
    packet.octet offset = byte.toNat ↔ packet.bytes.getD offset 0 = byte := UInt8.toNat_inj

/-- The offset that is computed is that of the ports. -/
theorem tcpHdr_eq :
    ipHdr + (packet.bytes.getD ipHdr 0 &&& 0x0f).toNat * 4 = packet.ports := by
  have low := Nat.and_two_pow_sub_one_eq_mod (packet.bytes.getD 14 0).toNat 4
  rw [UInt8.toNat_and]
  unfold ipHdr ports headerLength octet
  have mask : (0x0f : UInt8).toNat = 2 ^ 4 - 1 := rfl
  rw [mask, low, Nat.mul_comm]

end Packet

/-- A frame is classified by its headers, or read behind its end. -/
theorem classify_eq (localIp : UInt32) (packet : Packet) :
    classify localIp packet =
      if packet.Legible then
        .ok (if packet.octet 23 = 6 then some (packet.owningPort localIp) else none)
      else .error .outOfBounds := by
  have protocol : packet.octet 23 = 6 ↔ packet.bytes.getD (ipHdr + 9) 0 = ipprotoTcp :=
    packet.octet_eq_iff 23 ipprotoTcp
  unfold classify
  rw [packet.readByte_eq]
  by_cases captured : 24 ≤ packet.bytes.length
  · rw [if_pos (show ipHdr + 9 + 1 ≤ packet.bytes.length from captured), ok_bind]
    by_cases tcp : packet.octet 23 = 6
    · have first : ipHdr + 1 ≤ packet.bytes.length := le_trans (by decide) captured
      have legible : packet.Legible ↔
          30 ≤ packet.bytes.length ∧ packet.ports + 4 ≤ packet.bytes.length := by
        exact ⟨fun both => both.2 tcp, fun inside => ⟨captured, fun _ => inside⟩⟩
      rw [if_neg (not_not_intro (protocol.mp tcp)), if_pos tcp, packet.readByte_eq, if_pos first, ok_bind]
      simp only [packet.tcpHdr_eq, packet.readPort_eq, packet.readAddress_eq, legible]
      by_cases ports : packet.ports + 4 ≤ packet.bytes.length
      · have source : packet.ports + 2 ≤ packet.bytes.length :=
          le_trans (Nat.add_le_add_left (by decide) _) ports
        have destination : packet.ports + 2 + 2 ≤ packet.bytes.length := ports
        rw [if_pos source, ok_bind, if_pos destination, ok_bind]
        by_cases address : 30 ≤ packet.bytes.length
        · have both : 30 ≤ packet.bytes.length ∧ packet.ports + 4 ≤ packet.bytes.length :=
            ⟨address, ports⟩
          rw [if_pos (show ipHdr + 12 + 4 ≤ packet.bytes.length from address), ok_bind,
            if_pos both, Packet.owningPort]
          by_cases fromHost : packet.FromHost localIp
          · rw [if_pos fromHost]
            exact if_pos fromHost
          · rw [if_neg fromHost]
            exact if_neg fromHost
        · rw [if_neg (show ¬ ipHdr + 12 + 4 ≤ packet.bytes.length from address),
            if_neg fun both : _ ∧ _ => address both.1, error_bind]
      · rw [if_neg (show ¬ packet.ports + 2 + 2 ≤ packet.bytes.length from ports),
          if_neg fun both : _ ∧ packet.ports + 4 ≤ _ => ports both.2]
        by_cases source : packet.ports + 2 ≤ packet.bytes.length
        · rw [if_pos source, ok_bind, error_bind]
        · rw [if_neg source, error_bind]
    · have legible : packet.Legible := ⟨captured, fun same => absurd same tcp⟩
      rw [if_pos (mt protocol.mpr tcp), if_neg tcp, if_pos legible, pure_eq]
  · rw [if_neg (show ¬ ipHdr + 9 + 1 ≤ packet.bytes.length from captured),
      if_neg fun legible : packet.Legible => captured legible.1]
    rfl

/-! ### Totals -/

section Totals

variable (localIp : UInt32) (portToPidMap : UnorderedMap UInt16 UInt32)

/-- What one round does with a frame that is not read behind its end. -/
def addPacket (pidNetworkMap : UnorderedMap UInt32 NetworkStat) (packet : Packet) :
    UnorderedMap UInt32 NetworkStat :=
  if packet.octet 23 = 6 then
    match AList.lookup (packet.owningPort localIp).2 portToPidMap with
    | none => pidNetworkMap
    | some pid => pidNetworkMap.assign pid
        ((pidNetworkMap.valueAt pid).count (packet.owningPort localIp).1 packet.len)
  else pidNetworkMap

/-- A packet is added, unless something is read behind its end. -/
theorem processPacket_eq (pidNetworkMap : UnorderedMap UInt32 NetworkStat) (packet : Packet) :
    processPacket localIp portToPidMap pidNetworkMap packet =
      if packet.Legible then .ok (addPacket localIp portToPidMap pidNetworkMap packet)
      else .error .outOfBounds := by
  unfold processPacket addPacket
  rw [classify_eq]
  by_cases legible : packet.Legible
  · rw [if_pos legible, if_pos legible, ok_bind]
    by_cases tcp : packet.octet 23 = 6
    · rw [if_pos tcp, if_pos tcp]
      show (match AList.lookup (packet.owningPort localIp).2 portToPidMap with
        | none => _
        | some pid => _) = _
      cases AList.lookup (packet.owningPort localIp).2 portToPidMap with
      | none => rfl
      | some pid => rfl
    · rw [if_neg tcp, if_neg tcp]
      rfl
  · rw [if_neg legible, if_neg legible, error_bind]

/-- So the loop adds up the packets, unless something is read behind the end of one. -/
theorem processPackets_eq (packets : List Packet) :
    processPackets localIp portToPidMap packets =
      if ∀ packet ∈ packets, packet.Legible then
        .ok (packets.foldl (addPacket localIp portToPidMap) ∅)
      else .error .outOfBounds :=
  Tally.foldlM_checked (processPacket_eq localIp portToPidMap) packets ∅

/-- A packet counts in its own direction. -/
theorem NetworkStat.total_count (networkUsage : NetworkStat) (direction other : Direction)
    (len : UInt32) :
    (networkUsage.count direction len).total other =
      if direction = other then networkUsage.total other + len.toUInt64
      else networkUsage.total other := by
  cases direction with
  | outGoing =>
      cases other with
      | outGoing => rfl
      | inGoing => rfl
  | inGoing =>
      cases other with
      | outGoing => rfl
      | inGoing => rfl

/-- One round adds the length of the frame to the total of its owner, modulo 2 ^ 64. -/
theorem total_addPacket (direction : Direction) (pid : UInt32)
    (pidNetworkMap : UnorderedMap UInt32 NetworkStat) (packet : Packet) :
    (((addPacket localIp portToPidMap pidNetworkMap packet).valueAt pid).total direction).toNat ≡
      ((pidNetworkMap.valueAt pid).total direction).toNat +
        (if packet.octet 23 = 6 ∧ packet.OwnedBy localIp portToPidMap direction pid
          then packet.len.toNat else 0) [MOD 2 ^ 64] := by
  unfold addPacket
  by_cases tcp : packet.octet 23 = 6
  · simp only [tcp, if_true, true_and, Packet.OwnedBy]
    cases owner : AList.lookup (packet.owningPort localIp).2 portToPidMap with
    | none => simpa using Nat.ModEq.refl _
    | some other =>
        simp only [UnorderedMap.valueAt_assign, Option.some.injEq]
        by_cases same : pid = other
        · rw [if_pos same, NetworkStat.total_count, ← same]
          by_cases toward : (packet.owningPort localIp).1 = direction
          · rw [if_pos toward, if_pos ⟨toward, rfl⟩, UInt64.toNat_add, UInt32.toNat_toUInt64]
            exact Nat.mod_modEq _ _
          · rw [if_neg toward, if_neg fun both => toward both.1]
            exact Nat.ModEq.refl _
        · rw [if_neg same, if_neg fun both => same both.2.symm]
          exact Nat.ModEq.refl _
  · rw [if_neg tcp, if_neg fun both => tcp both.1]
    exact Nat.ModEq.refl _

variable (packets : List Packet)

/-- In the end a total is the length of the frames and the strays of the process, in 64 bits. -/
theorem total_foldl (direction : Direction) (pid : UInt32) :
    (((packets.foldl (addPacket localIp portToPidMap) ∅).valueAt pid).total direction).toNat =
      (wireLength (traffic localIp portToPidMap packets direction pid) +
        wireLength (strays localIp portToPidMap packets direction pid)) % 2 ^ 64 := by
  have run := Tally.foldl_split
    (fun usage : UnorderedMap UInt32 NetworkStat => ((usage.valueAt pid).total direction).toNat)
    (fun packet => packet.octet 23 = 6 ∧ packet.OwnedBy localIp portToPidMap direction pid)
    Packet.Tcp4 (fun packet => packet.len.toNat)
    (total_addPacket localIp portToPidMap direction pid) packets ∅
  have frames : traffic localIp portToPidMap packets direction pid = packets.filter fun packet =>
      (packet.octet 23 = 6 ∧ packet.OwnedBy localIp portToPidMap direction pid) ∧
        packet.Tcp4 := by
    apply List.filter_congr
    intro packet _
    have tcp : packet.Tcp4 → packet.octet 23 = 6 := fun proper => proper.2.2.2.2.1
    exact decide_eq_decide.mpr
      ⟨fun both => ⟨⟨tcp both.1, both.2⟩, both.1⟩, fun both => ⟨both.2, both.1.2⟩⟩
  have others : strays localIp portToPidMap packets direction pid = packets.filter fun packet =>
      (packet.octet 23 = 6 ∧ packet.OwnedBy localIp portToPidMap direction pid) ∧
        ¬ packet.Tcp4 := by
    apply List.filter_congr
    intro packet _
    exact decide_eq_decide.mpr and_comm
  have empty : (((∅ : UnorderedMap UInt32 NetworkStat).valueAt pid).total direction).toNat = 0 := by
    cases direction with
    | outGoing => rfl
    | inGoing => rfl
  rw [empty, Nat.zero_add, ← frames, ← others] at run
  exact (Nat.mod_eq_of_lt (UInt64.toNat_lt _)).symm.trans run

/-- The traffic is accounted exactly if no frame is read behind its end, and for each process and
direction the frames fit into 64 bits and the strays do not show.  Later fragments are among the
frames; a frame with a VLAN tag is not, and can only be a stray. -/
theorem accounted_iff :
    Accounted localIp portToPidMap packets ↔
      (∀ packet ∈ packets, packet.Legible) ∧ ∀ pid direction,
        wireLength (traffic localIp portToPidMap packets direction pid) < 2 ^ 64 ∧
          2 ^ 64 ∣ wireLength (strays localIp portToPidMap packets direction pid) := by
  unfold Accounted
  rw [processPackets_eq]
  by_cases legible : ∀ packet ∈ packets, packet.Legible
  · rw [if_pos legible]
    constructor
    · rintro ⟨usage, same, exact⟩
      obtain rfl := Except.ok.inj same
      refine ⟨legible, fun pid direction => ?_⟩
      have total := exact pid direction
      rw [total_foldl] at total
      exact (Tally.wrapped_exact_iff (by decide)).mp total
    · rintro ⟨_, fits⟩
      refine ⟨_, rfl, fun pid direction => ?_⟩
      rw [total_foldl]
      exact (Tally.wrapped_exact_iff (by decide)).mpr (fits pid direction)
  · rw [if_neg legible]
    constructor
    · rintro ⟨usage, same, _⟩
      cases same
    · rintro ⟨all, _⟩
      exact absurd all legible

end Totals

/-- Who has 10.0.0.1?  The hardware address that asks is 02:06:00:00:00:01. -/
def arpRequest : Packet where
  bytes := [255, 255, 255, 255, 255, 255, 2, 6, 0, 0, 0, 1, 8, 6,
    0, 1, 8, 0, 6, 4, 0, 1, 2, 6, 0, 0, 0, 1, 10, 0, 0, 2, 0, 0, 0, 0, 0, 0, 10, 0, 0, 1]
  len := 42

/-- The process with port 2048 is said to have received the request. -/
theorem arp_request_counted :
    ¬ ∀ localIp portToPidMap packets, Accounted localIp portToPidMap packets := by
  intro all
  let ports : UnorderedMap UInt16 UInt32 := UnorderedMap.assign ∅ 2048 7
  obtain ⟨usage, returns, totals⟩ := all 0x0100000A ports [arpRequest]
  have total := totals 7 .inGoing
  have received : processPackets 0x0100000A ports [arpRequest] =
      .ok (UnorderedMap.assign ∅ 7 ⟨some 42, none⟩) := by
    rfl
  obtain rfl := Except.ok.inj (received.symm.trans returns)
  have none : traffic 0x0100000A ports [arpRequest] .inGoing 7 = [] := by
    decide
  rw [none] at total
  exact absurd total (by decide)

/-! ### Directions -/

section Directions

variable (junk : Nat → SocketInode) (tcp : Bytes)

/-- The rows of the map are those that are the last of their inode. -/
theorem mem_parseNetTcp_iff (entry : InodeEntry) :
    entry ∈ (parseNetTcp junk tcp).entries ↔ Stays junk tcp entry.2 ∧ entry.1 = entry.2.inode := by
  obtain ⟨inode, row⟩ := entry
  have sets : ∀ (ret : UnorderedMap UInt32 SocketInode) (row : SocketInode), row.inode = inode →
      AList.lookup inode (ret.assign row.inode row) = some row := by
    intro ret row same
    rw [UnorderedMap.lookup_assign, if_pos same.symm]
  have keeps : ∀ (ret : UnorderedMap UInt32 SocketInode) (row : SocketInode), ¬ row.inode = inode →
      AList.lookup inode (ret.assign row.inode row) = AList.lookup inode ret := by
    intro ret row other
    rw [UnorderedMap.lookup_assign, if_neg (Ne.symm other)]
  rw [← AList.mem_lookup_iff, Option.mem_def, parseNetTcp,
    Tally.foldl_last sets keeps rfl (tcpRows junk tcp) row]
  constructor
  · rintro ⟨front, _, back, split, rfl, silent, rfl⟩
    exact ⟨⟨front, back, split, silent⟩, rfl⟩
  · rintro ⟨⟨front, back, split, silent⟩, same⟩
    have own : inode = row.inode := same
    subst own
    exact ⟨front, row, back, split, rfl, silent, rfl⟩

variable {inodeListAll : UnorderedMap UInt32 SocketInode}

/-- The address is that of some row, in every order. -/
theorem localIp_eq (order : IterationOrder InodeEntry) :
    (localIp order inodeListAll = .error .outOfBounds ∧ inodeListAll.entries = []) ∨
      ∃ entry ∈ inodeListAll.entries, localIp order inodeListAll = .ok entry.2.localIp := by
  unfold localIp
  cases visited : order.visit inodeListAll.entries with
  | nil =>
      have nothing := order.perm inodeListAll.entries
      rw [visited, List.nil_perm] at nothing
      exact Or.inl ⟨rfl, nothing⟩
  | cons entry rest =>
      have member : entry ∈ order.visit inodeListAll.entries := visited ▸ List.mem_cons_self
      exact Or.inr ⟨entry, order.mem_visit.mp member, rfl⟩

/-- For each row there is an order in which the address is that of the row. -/
theorem localIp_beginning {entry : InodeEntry} (member : entry ∈ inodeListAll.entries) :
    localIp (IterationOrder.beginning entry) inodeListAll = .ok entry.2.localIp := by
  rw [localIp, IterationOrder.visit_beginning member]

/-- Two addresses classify a frame in the same way exactly if both or none of them are its
source, or that is never looked at. -/
theorem classify_eq_iff (one two : UInt32) (packet : Packet) (pid : UInt16 → Option UInt32) :
    ((classify one packet).map (Option.map fun found => (found.1, pid found.2)) =
        (classify two packet).map (Option.map fun found => (found.1, pid found.2))) ↔
      (packet.Legible → packet.octet 23 = 6 → (packet.FromHost one ↔ packet.FromHost two)) := by
  simp only [classify_eq]
  by_cases legible : packet.Legible
  · by_cases tcp : packet.octet 23 = 6
    · simp only [legible, tcp, if_true, Packet.owningPort, true_imp_iff]
      by_cases first : packet.FromHost one
      · by_cases second : packet.FromHost two
        · simp [first, second]
        · simp [first, second, Except.map]
      · by_cases second : packet.FromHost two
        · simp [first, second, Except.map]
        · simp [first, second]
    · simp [tcp]
  · simp [legible]

/-- The order matters for the address only. -/
theorem attribution_of_localIp {inverted : InvertedRange} {order : IterationOrder InodeEntry}
    {ip : UInt32} (first : localIp order inodeListAll = .ok ip) (pids : List FdTable)
    (packet : Packet) :
    attribution inverted order inodeListAll pids packet =
      (classify ip packet).map (Option.map fun found =>
        (found.1, AList.lookup found.2 (portToPidMap inverted inodeListAll pids))) := by
  rw [attribution, first, ok_bind]
  cases classify ip packet with
  | error failure => rfl
  | ok classified => rfl

/-- Two addresses attribute a frame alike exactly if it is from both or from neither, as far as
they look at it. -/
theorem attribution_eq_iff {inverted : InvertedRange} {one two : IterationOrder InodeEntry}
    {first second : UInt32}
    (starts : localIp one inodeListAll = .ok first)
    (startsAt : localIp two inodeListAll = .ok second) (pids : List FdTable) (packet : Packet) :
    attribution inverted one inodeListAll pids packet =
        attribution inverted two inodeListAll pids packet ↔
      (packet.Legible → packet.octet 23 = 6 →
        (packet.FromHost first ↔ packet.FromHost second)) := by
  rw [attribution_of_localIp starts, attribution_of_localIp startsAt]
  exact classify_eq_iff first second packet fun port =>
    AList.lookup port (portToPidMap inverted inodeListAll pids)

/-- The order makes no difference exactly if some row is in the map, and the source of every
frame that is looked at is the address of all of its rows or of none. -/
theorem directed_iff (inverted : InvertedRange) (pids : List FdTable) (packets : List Packet) :
    Directed inverted (parseNetTcp junk tcp) pids packets ↔
      (∃ row, Stays junk tcp row) ∧ ∀ row other, Stays junk tcp row → Stays junk tcp other →
        ∀ packet ∈ packets, packet.Legible → packet.octet 23 = 6 →
          (packet.FromHost row.localIp ↔ packet.FromHost other.localIp) := by
  constructor
  · rintro ⟨starts, same⟩
    constructor
    · rcases localIp_eq IterationOrder.stored with ⟨fails, _⟩ | ⟨entry, member, _⟩
      · exact absurd fails (starts _)
      · exact ⟨entry.2, ((mem_parseNetTcp_iff junk tcp entry).mp member).1⟩
    · intro row other stays otherStays packet member
      have first := localIp_beginning
        ((mem_parseNetTcp_iff junk tcp ⟨row.inode, row⟩).mpr ⟨stays, rfl⟩)
      have second := localIp_beginning
        ((mem_parseNetTcp_iff junk tcp ⟨other.inode, other⟩).mpr ⟨otherStays, rfl⟩)
      exact (attribution_eq_iff first second pids packet).mp (same _ _ packet member)
  · rintro ⟨⟨row, stays⟩, agree⟩
    have member := (mem_parseNetTcp_iff junk tcp ⟨row.inode, row⟩).mpr ⟨stays, rfl⟩
    have chooses : ∀ order, ∃ row, Stays junk tcp row ∧
        localIp order (parseNetTcp junk tcp) = .ok row.localIp := by
      intro order
      rcases localIp_eq order with ⟨_, nothing⟩ | ⟨entry, inside, first⟩
      · rw [nothing] at member
        cases member
      · exact ⟨entry.2, ((mem_parseNetTcp_iff junk tcp entry).mp inside).1, first⟩
    constructor
    · intro order fails
      obtain ⟨row, _, first⟩ := chooses order
      rw [first] at fails
      cases fails
    · intro one two packet inside
      obtain ⟨row, stays, first⟩ := chooses one
      obtain ⟨other, otherStays, second⟩ := chooses two
      exact (attribution_eq_iff first second pids packet).mpr
        (agree row other stays otherStays packet inside)

/-- Then the totals do not depend on the order either. -/
theorem pidNetworkUsage_of_directed {inverted : InvertedRange} {pids : List FdTable}
    {packets : List Packet} (directed : Directed inverted inodeListAll pids packets)
    (one two : IterationOrder InodeEntry) :
    pidNetworkUsage inverted one inodeListAll pids packets =
      pidNetworkUsage inverted two inodeListAll pids packets := by
  obtain ⟨starts, same⟩ := directed
  obtain ⟨entry, _, first⟩ := (localIp_eq one).resolve_left fun fails => starts one fails.1
  obtain ⟨other, _, second⟩ := (localIp_eq two).resolve_left fun fails => starts two fails.1
  rw [pidNetworkUsage, pidNetworkUsage, first, second, ok_bind, ok_bind, processPackets_eq,
    processPackets_eq]
  split
  · rename_i legible
    congr 1
    apply List.foldl_ext
    intro usage packet member
    have source := (attribution_eq_iff first second pids packet).mp (same one two packet member)
      (legible packet member)
    unfold addPacket
    by_cases tcp : packet.octet 23 = 6
    · have owning : packet.owningPort entry.2.localIp = packet.owningPort other.2.localIp := by
        unfold Packet.owningPort
        simp only [source tcp]
      rw [owning]
    · rw [if_neg tcp, if_neg tcp]
  · rfl

end Directions

/-- A socket on all addresses, which is the address 0 as its peer is. -/
def wildcardRow : TcpRow := { row80 with
  localIp := row80.remIp
  inode := ⟨ascii "12346", by decide, by decide +kernel, by decide⟩ }

/-- Beside it there is one on 10.0.0.1. -/
def twoAddresses : TcpTable := ⟨ascii "sl", by decide, [wildcardRow, row80], by decide +kernel⟩

/-- From 10.0.0.1, port 80, to 10.0.0.2, port 50000. -/
def response : Packet where
  bytes := [2, 6, 0, 0, 0, 1, 2, 6, 0, 0, 0, 2, 8, 0,
    69, 0, 0, 40, 0, 0, 64, 0, 64, 6, 0, 0, 10, 0, 0, 1, 10, 0, 0, 2,
    0, 80, 195, 80, 0, 0, 0, 0, 0, 0, 0, 0, 80, 16, 0, 0, 0, 0, 0, 0]
  len := 54

/-- The response is sent or received, as the one row or the other comes first. -/
theorem response_undirected :
    ¬ ∃ inverted, ∀ junk tcp pids packets,
      Directed inverted (parseNetTcp junk tcp) pids packets := by
  rintro ⟨inverted, all⟩
  obtain ⟨_, same⟩ := all (fun _ => default) twoAddresses.text [] [response]
  let wildcard : InodeEntry := ⟨12346, wildcardRow.entry⟩
  let host : InodeEntry := ⟨12345678, row80.entry⟩
  have rows : (parseNetTcp (fun _ => default) twoAddresses.text).entries = [host, wildcard] := by
    rw [parseNetTcp, tcpRows_text]
    decide +kernel
  have wildcardThere : wildcard ∈ (parseNetTcp (fun _ => default) twoAddresses.text).entries := by
    rw [rows]
    exact List.mem_cons_of_mem _ List.mem_cons_self
  have hostThere : host ∈ (parseNetTcp (fun _ => default) twoAddresses.text).entries := by
    rw [rows]
    exact List.mem_cons_self
  have first := localIp_beginning wildcardThere
  have second := localIp_beginning hostThere
  have source := (attribution_eq_iff first second [] response).mp
    (same _ _ response (by simp)) (by decide) (by decide)
  exact absurd source (by decide)

end RemoteMonitoring
