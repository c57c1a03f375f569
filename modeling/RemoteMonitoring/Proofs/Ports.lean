/-
Module: RemoteMonitoring.Proofs.Ports
Purpose: When the port of an argument is taken at face value: the range of the check ends one
  too high, and the conversion in front of it wraps around.
Trusted boundary: none
Main exports: ports_faceValue_iff
-/
import RemoteMonitoring.Lib.Tally
import RemoteMonitoring.System.Ports

namespace RemoteMonitoring

open ByteText

/-- What both programs do with the number: 12345 unless it is from `lowest` to 65536. -/
def checkPort (lowest : Int) (port : Int) : Int :=
  if lowest ≤ port ∧ port ≤ 65536 then port else 12345

/-- A number in 32 bits, as far as it can pass the check. -/
theorem bmod_cases (value : Nat) :
    (Int.bmod value (2 ^ 32) = (value % 2 ^ 32 : Nat) ∧ value % 2 ^ 32 < 2 ^ 31) ∨
      (Int.bmod value (2 ^ 32) < 0 ∧ 2 ^ 31 ≤ value % 2 ^ 32) := by
  rw [Int.bmod_def]
  omega

theorem toNat_ofInt {port : Int} (positive : 0 ≤ port) :
    (UInt16.ofInt port).toNat = port.toNat % 65536 := by
  rw [UInt16.ofInt, UInt16.toNat_ofNat']
  omega

/-- A numeral, checked and narrowed. -/
theorem checkPort_numeral_iff {lowest : Nat} (low : 0 < lowest) (high : lowest ≤ 65535)
    (value : Nat) :
    (UInt16.ofInt (checkPort lowest (Int.bmod value (2 ^ 32)))).toNat =
        (if lowest ≤ value ∧ value ≤ 65535 then value else 12345) ↔
      value ≤ 65535 ∨ value % 2 ^ 32 < lowest ∨ 65536 < value % 2 ^ 32 ∨
        value % 2 ^ 32 = 12345 := by
  have default : (UInt16.ofInt 12345).toNat = 12345 := rfl
  unfold checkPort
  rcases bmod_cases value with ⟨same, small⟩ | ⟨negative, large⟩
  · rw [same]
    by_cases passes : lowest ≤ value % 2 ^ 32 ∧ value % 2 ^ 32 ≤ 65536
    · rw [if_pos (by omega), toNat_ofInt (Int.natCast_nonneg _), Int.toNat_natCast]
      split
      · omega
      · omega
    · rw [if_neg (by omega), default]
      split
      · omega
      · omega
  · rw [if_neg (by omega), default]
    split
    · omega
    · omega

/-- Any text, checked and narrowed. -/
theorem checkPort_iff {lowest : Nat} (low : 0 < lowest) (high : lowest ≤ 65535) (text : Bytes) :
    (UInt16.ofInt (checkPort lowest (strToInt text))).toNat = facePort lowest text ↔
      PortTaken lowest text := by
  have default : (UInt16.ofInt 12345).toNat = 12345 := rfl
  unfold facePort PortTaken
  by_cases numeral : Numeral text
  · simp only [strToInt_of_digits numeral.2, numeral, true_and, not_true_eq_false, false_or]
    exact checkPort_numeral_iff low high (numeralValue text)
  · have refused : strToInt text < lowest := by
      by_cases empty : text = []
      · rw [empty]
        exact Int.natCast_pos.mpr low
      · rw [strToInt_of_not_digits fun digits => numeral ⟨empty, digits⟩]
        omega
    simp only [numeral, false_and, if_false, not_false_eq_true, true_or, iff_true]
    rw [checkPort, if_neg (by omega), default]

/-! ### The arguments -/

theorem isPrefixOf_portArg (text : Bytes) :
    (ascii "--server-port=").isPrefixOf (portArg text) = true := by
  rw [List.isPrefixOf_iff_prefix]
  exact List.prefix_append _ _

/-- The two options do not start with each other. -/
theorem not_ip_of_port {arg : Bytes} (option : (ascii "--server-port=").isPrefixOf arg = true) :
    (ascii "--server-ip=").isPrefixOf arg = false := by
  rw [List.isPrefixOf_iff_prefix] at option
  obtain ⟨text, rfl⟩ := option
  rfl

theorem drop_portArg (text : Bytes) :
    (portArg text).drop (ascii "--server-port=").length = text := List.drop_left

/-- A port is taken if its number, in 32 bits, is in the range. -/
theorem clientMain_takeArg (chosen : Bytes × Int) (text : Bytes) :
    ClientMain.takeArg chosen (portArg text) =
      if 1 ≤ strToInt text ∧ strToInt text ≤ 65536 then (chosen.1, strToInt text) else chosen := by
  have named := isPrefixOf_portArg text
  rw [ClientMain.takeArg, not_ip_of_port named, if_neg Bool.false_ne_true, if_pos named,
    drop_portArg]
  by_cases passes : 1 ≤ strToInt text ∧ strToInt text ≤ 65536
  · rw [if_pos passes, if_neg (by omega), if_neg (by omega)]
  · rw [if_neg passes]
    by_cases negative : strToInt text < 0
    · rw [if_pos negative]
    · rw [if_neg negative, if_pos (by omega)]

/-- The server takes a port from 1024 on. -/
theorem serverMain_takeArg (chosenPort : Int) (text : Bytes) :
    ServerMain.takeArg chosenPort (portArg text) =
      if 1024 ≤ strToInt text ∧ strToInt text ≤ 65536 then strToInt text else chosenPort := by
  rw [ServerMain.takeArg, if_pos (isPrefixOf_portArg text), drop_portArg]
  by_cases passes : 1024 ≤ strToInt text ∧ strToInt text ≤ 65536
  · rw [if_pos passes, if_neg (by omega), if_neg (by omega)]
  · rw [if_neg passes]
    by_cases negative : strToInt text < 0
    · rw [if_pos negative]
    · rw [if_neg negative, if_pos (by omega)]

/-- The client narrows what it took to 16 bits. -/
theorem chosenServer_port {text : Bytes} {args : List Bytes} (only : OnlyPort text args) :
    (ClientMain.chosenServer args).2 = UInt16.ofInt (checkPort 1 (strToInt text)) := by
  have takes : ∀ (chosen : Bytes × Int) (arg : Bytes),
      (ascii "--server-port=").isPrefixOf arg = true →
      (ClientMain.takeArg chosen arg).2 = (ClientMain.takeArg ([], chosen.2) arg).2 := by
    intro chosen arg option
    obtain ⟨text, rfl⟩ := List.isPrefixOf_iff_prefix.mp option
    have one := clientMain_takeArg chosen text
    have two := clientMain_takeArg ([], chosen.2) text
    rw [portArg] at one two
    rw [one, two]
    split
    · rfl
    · rfl
  have passes : ∀ (chosen : Bytes × Int) (arg : Bytes),
      (ascii "--server-port=").isPrefixOf arg = false →
      (ClientMain.takeArg chosen arg).2 = chosen.2 := by
    intro chosen arg other
    rw [ClientMain.takeArg, other, if_neg Bool.false_ne_true]
    split
    · rfl
    · rfl
  have loop := @Tally.foldl_filter _ _ _ ClientMain.takeArg
    (fun chosen arg => (ClientMain.takeArg ([], chosen) arg).2) Prod.snd _ takes passes args
    (ClientMain.serverIp, ClientMain.serverPort)
  rw [only, List.foldl_cons, List.foldl_nil, clientMain_takeArg] at loop
  rw [ClientMain.chosenServer]
  simp only [loop]
  congr 1
  rw [checkPort]
  split
  · rfl
  · rfl

/-- And so does the server. -/
theorem boundPort_eq {text : Bytes} {args : List Bytes} (only : OnlyPort text args) :
    ServerMain.boundPort args = UInt16.ofInt (checkPort 1024 (strToInt text)) := by
  have passes : ∀ (chosenPort : Int) (arg : Bytes),
      (ascii "--server-port=").isPrefixOf arg = false →
      ServerMain.takeArg chosenPort arg = chosenPort := by
    intro chosenPort arg other
    rw [ServerMain.takeArg, other, if_neg Bool.false_ne_true]
  have loop := @Tally.foldl_filter _ _ _ ServerMain.takeArg ServerMain.takeArg id _ (fun _ _ _ => rfl)
    passes args ServerMain.port
  rw [only, List.foldl_cons, List.foldl_nil, serverMain_takeArg, id] at loop
  rw [ServerMain.boundPort, loop]
  rfl

/-- Where `--server-port=` stands once among the arguments, the port is taken at face value
exactly for these texts. -/
theorem ports_faceValue_iff (text : Bytes) :
    ((∀ args, OnlyPort text args →
        (ClientMain.chosenServer args).2.toNat = facePort 1 text) ↔ PortTaken 1 text) ∧
      ((∀ args, OnlyPort text args →
        (ServerMain.boundPort args).toNat = facePort 1024 text) ↔ PortTaken 1024 text) := by
  have alone : OnlyPort text [portArg text] := by
    rw [OnlyPort, List.filter_singleton, isPrefixOf_portArg]
    rfl
  constructor
  · rw [← checkPort_iff (by decide) (by decide)]
    constructor
    · intro taken
      have port := taken _ alone
      rwa [chosenServer_port alone] at port
    · intro taken args only
      rw [chosenServer_port only]
      exact taken
  · rw [← checkPort_iff (by decide) (by decide)]
    constructor
    · intro taken
      have port := taken _ alone
      rwa [boundPort_eq alone] at port
    · intro taken args only
      rw [boundPort_eq only]
      exact taken

/-- 65536 passes the checks of both programs and is port 0 for the sockets; 4294967376, which is
80 in 32 bits, is taken for port 80. -/
theorem port_out_of_range :
    (ClientMain.chosenServer [portArg (ascii "65536")]).2 = 0 ∧
      ServerMain.boundPort [portArg (ascii "65536")] = 0 ∧
      facePort 1 (ascii "65536") = 12345 ∧ facePort 1024 (ascii "65536") = 12345 ∧
      (ClientMain.chosenServer [portArg (ascii "4294967376")]).2 = 80 ∧
      facePort 1 (ascii "4294967376") = 12345 := by
  decide +kernel

end RemoteMonitoring
