import ControlPlane.Store.Tables

/-!
# Circuit breakers

The three-state breaker of `core`, with which a node guards its calls to the bus
and to the store. `Allow`, `Success` and `Failure` are the only operations; each
runs under the breaker's mutex and is one transition here.
-/

namespace ControlPlane

/-- `breakerState`. -/
inductive BreakerState
  | closed
  | open
  | halfOpen
  deriving DecidableEq

/-- `circuitBreaker`, without its name and its mutex. -/
structure Breaker where
  failureThreshold : ℤ
  openDuration : Duration
  halfOpenSuccesses : ℤ
  state : BreakerState
  consecutiveFailures : ℤ
  consecutiveSuccess : ℤ
  openedAt : Time
  deriving DecidableEq

/-- `newCircuitBreaker`. -/
def newCircuitBreaker (threshold : ℤ) (openDuration : Duration) (halfOpenSuccesses : ℤ) :
    Breaker where
  failureThreshold := max 1 threshold
  openDuration := openDuration
  halfOpenSuccesses := max 1 halfOpenSuccesses
  state := .closed
  consecutiveFailures := 0
  consecutiveSuccess := 0
  openedAt := zeroTime

namespace Breaker

/-- `Allow`: whether a call may go ahead, and the breaker afterwards. -/
def allow (b : Breaker) (now : Time) : Bool × Breaker :=
  match b.state with
  | .closed => (true, b)
  | .open =>
      if b.openDuration ≤ now - b.openedAt then
        (true, { b with state := .halfOpen, consecutiveSuccess := 0 })
      else (false, b)
  | .halfOpen => (true, b)

/-- `Success`. -/
def success (b : Breaker) : Breaker :=
  match b.state with
  | .halfOpen =>
      if b.halfOpenSuccesses ≤ b.consecutiveSuccess + 1 then
        { b with state := .closed, consecutiveFailures := 0, consecutiveSuccess := 0 }
      else { b with consecutiveSuccess := b.consecutiveSuccess + 1 }
  | .closed => { b with consecutiveFailures := 0 }
  | .open => b

/-- `Failure`. -/
def failure (b : Breaker) (now : Time) : Breaker :=
  let b' := { b with consecutiveFailures := b.consecutiveFailures + 1, consecutiveSuccess := 0 }
  if b.failureThreshold ≤ b.consecutiveFailures + 1 ∨ b.state = .halfOpen then
    { b' with state := .open, openedAt := now }
  else b'

end Breaker

end ControlPlane
