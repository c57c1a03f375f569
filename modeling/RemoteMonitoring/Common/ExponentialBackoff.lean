/-
Module: RemoteMonitoring.Common.ExponentialBackoff
Purpose: `ExponentialBackoff` (common/exponential_backoff.hpp and .cpp), and how long
  `ServerConnector::reconnect_indefinitely` (client/server_connector.cpp) waits between its
  attempts.
Trusted boundary: the delays do not overflow an `int`
Main exports: ExponentialBackoff, ExponentialBackoff.waits, reconnectWaits
-/
import Mathlib.Algebra.Order.Ring.Int

namespace RemoteMonitoring

structure ExponentialBackoff where
  start : Int
  stop : Int
  multiplier : Int
  currentDelay : Int
deriving DecidableEq, Repr

namespace ExponentialBackoff

/-- The constructor with three arguments. -/
def make (start stop multiplier : Int) : ExponentialBackoff :=
  ⟨start, stop, max multiplier 2, start⟩

def success (backoff : ExponentialBackoff) : ExponentialBackoff :=
  { backoff with currentDelay := backoff.start }

/-- The seconds that `fail` sleeps, and the state afterwards. -/
def fail (backoff : ExponentialBackoff) : Int × ExponentialBackoff :=
  (backoff.currentDelay,
    { backoff with
      currentDelay := min (backoff.currentDelay * backoff.multiplier) backoff.stop })

/-- What is slept for some attempts, by whether they succeed. -/
def waits : List Bool → ExponentialBackoff → List Int
  | [], _ => []
  | true :: later, backoff => waits later backoff.success
  | false :: later, backoff => backoff.fail.1 :: waits later backoff.fail.2

end ExponentialBackoff

/-- The attempts of `reconnect_indefinitely`, over all times that the connection breaks. -/
def reconnectWaits (attempts : List Bool) : List Int :=
  ExponentialBackoff.waits attempts (.make 1 10 2)

end RemoteMonitoring
