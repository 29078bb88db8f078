/-
The reconnect loop of a worker (`WsManager::run`).

Every attempt that ends in an error is followed by a sleep and another
attempt. An attempt that ends without one, because it took a shutdown or
found its command channel closed, ends the loop and is not followed by
anything; so a run of the loop is the list of the errors so far.

The delay is doubled after every sleep, up to the configured maximum. A
product that is no `Duration` panics, and the worker's task is gone.
-/
import Wup.Aggregator.WsManager

namespace Wup.Aggregator

-- =============================================================== durations

/-- The longest `Duration`, in nanoseconds. -/
def durationMax : Nat := 2 ^ 64 * 10 ^ 9 - 1

/-- A span of time. -/
structure Duration where
  nanos : Nat
  bounded : nanos ≤ durationMax
deriving DecidableEq

namespace Duration

def fromSecs (secs : Fin (2 ^ 64)) : Duration where
  nanos := secs * 10 ^ 9
  bounded := by
    have hsecs := secs.isLt
    unfold durationMax
    omega

/-- `*`, with `none` for a panic. -/
def mul (d : Duration) (n : Nat) : Option Duration :=
  if h : d.nanos * n ≤ durationMax then some ⟨d.nanos * n, h⟩ else none

def min (d e : Duration) : Duration :=
  if d.nanos ≤ e.nanos then d else e

end Duration

-- =============================================================== the delay

/-- The configured delays before another attempt. -/
structure WsManagerConfig where
  reconnectDelay : Duration
  maxReconnectDelay : Duration

/-- The defaults. -/
def WsManagerConfig.default : WsManagerConfig where
  reconnectDelay := .fromSecs 1
  maxReconnectDelay := .fromSecs 30

/-- How an attempt ends in an error. -/
inductive Disconnect
  /-- It does not connect. -/
  | failed
  /-- It connects, and the connection is lost. -/
  | dropped
deriving DecidableEq

namespace WsManagerConfig

variable (config : WsManagerConfig)

/-- The delays slept after each of the errors, from one delay on. -/
def sleepsFrom (reconnectDelay : Duration) :
    List Disconnect → List Duration
  | [] => []
  | _ :: errors =>
      reconnectDelay :: match reconnectDelay.mul 2 with
        | some doubled =>
            sleepsFrom (doubled.min config.maxReconnectDelay) errors
        | none => []

/-- The delays `run` sleeps after each of the errors. -/
def sleeps (errors : List Disconnect) : List Duration :=
  config.sleepsFrom config.reconnectDelay errors

end WsManagerConfig

/-- The consecutive failed attempts before an error, since the last
connection. -/
def failuresSince (before : List Disconnect) : Disconnect → Nat
  | .failed => (before.reverse.takeWhile (· = .failed)).length
  | .dropped => 0

-- ============================================================ the attempts

namespace WorkerAction

/-- The error a step ends the attempt with, if it does. -/
def disconnect : WorkerAction → Option Disconnect
  | .connectFails => some .failed
  | .writeFails => some .dropped
  | .drop => some .dropped
  | _ => none

/-- The step is an attempt to connect, or its failure. -/
def IsAttempt : WorkerAction → Prop
  | .connect => True
  | .connectFails => True
  | _ => False

end WorkerAction

end Wup.Aggregator
