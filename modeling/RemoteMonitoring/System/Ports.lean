/-
Module: RemoteMonitoring.System.Ports
Purpose: The port that a text stands for, taken at face value, and the texts that the two
  programs take so.
Trusted boundary: none
Main exports: portArg, OnlyPort, facePort, PortTaken
-/
import RemoteMonitoring.Client.Client
import RemoteMonitoring.Server.Server

namespace RemoteMonitoring

open ByteText

def portArg (text : Bytes) : Bytes := ascii "--server-port=" ++ text

/-- Among the arguments, `--server-port=` stands once. -/
def OnlyPort (text : Bytes) (args : List Bytes) : Prop :=
  args.filter (ascii "--server-port=").isPrefixOf = [portArg text]

def Numeral (text : Bytes) : Prop := text ≠ [] ∧ ∀ byte ∈ text, isDigit byte = true

instance (text : Bytes) : Decidable (Numeral text) := inferInstanceAs (Decidable (_ ∧ _))

/-- The value of a numeral from `lowest` to 65535, and the default for every other text. -/
def facePort (lowest : Nat) (text : Bytes) : Nat :=
  if Numeral text ∧ lowest ≤ numeralValue text ∧ numeralValue text ≤ 65535 then numeralValue text
  else 12345

/-- No numeral, or one whose value is no larger than a port, or one whose value in 32 bits is out
of the range (up to 65536) or happens to be the default. -/
def PortTaken (lowest : Nat) (text : Bytes) : Prop :=
  ¬ Numeral text ∨ numeralValue text ≤ 65535 ∨ numeralValue text % 2 ^ 32 < lowest ∨
    65536 < numeralValue text % 2 ^ 32 ∨ numeralValue text % 2 ^ 32 = 12345

end RemoteMonitoring
