/-
Module: RemoteMonitoring.System.Units
Purpose: The four thresholds of a configuration entry as numbers, each with its unit and the
  width of its field.
Trusted boundary: none
Main exports: Threshold, ConfigEntry.amount, ConfigEntry.Fits
-/
import RemoteMonitoring.Common.Config

namespace RemoteMonitoring

inductive Threshold where
  | cpu
  | mem
  | disk
  | network
deriving DecidableEq, Repr

namespace Threshold

def unit : Threshold → Nat
  | .cpu => cpuUnit.toNat
  | .mem => memUnit.toNat
  | .disk => diskUnit.toNat
  | .network => networkUnit.toNat

/-- The CPU threshold has 32 bits, the others have 64. -/
def word : Threshold → Nat
  | .cpu => 2 ^ 32
  | .mem => 2 ^ 64
  | .disk => 2 ^ 64
  | .network => 2 ^ 64

/-- How often the product of a configured value wraps around. -/
def wraps (threshold : Threshold) (value : Nat) : Nat := value * threshold.unit / threshold.word

end Threshold

namespace ConfigEntry

def amount (entry : ConfigEntry) : Threshold → Nat
  | .cpu => entry.cpuUsage.toNat
  | .mem => entry.memUsage.toNat
  | .disk => entry.diskUsage.toNat
  | .network => entry.networkUsage.toNat

/-- The product with the unit has room in the field. -/
def Fits (entry : ConfigEntry) (threshold : Threshold) : Prop :=
  entry.amount threshold * threshold.unit < threshold.word

end ConfigEntry

end RemoteMonitoring
