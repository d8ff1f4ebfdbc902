/-
  Stepwise/Session/Config.lean
  ============================
  **What a session is allowed: delays, timeouts, limits.**

  The defaults are those of a server that is started without options.
-/
import Stepwise.Machine.Step

namespace Stepwise

namespace Session

structure Config where
  /-- Pause between steps until the client asks for another one. -/
  delay : Duration := .ofMillis 150
  maxDelay : Duration := .ofSeconds 10
  /-- How long a read waits for a value. -/
  inputTimeout : Duration := .ofSeconds 60
  /-- How long a run may take, pauses included. -/
  maxRunTime : Duration := .ofSeconds 300
  limits : Machine.Limits := {}
  inputQueue : Nat := 32
  /-- A value of the server's choice is pushed before the first step. -/
  seedInput : Bool := false
deriving DecidableEq, Repr

def Config.clampDelay (c : Config) (d : Duration) : Duration := min d c.maxDelay

end Session

end Stepwise
