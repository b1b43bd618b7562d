/-
  WorkerBridge.Settings

  Settings of the bridge: how to launch the worker, how long to wait, and when to
  restart. Every setting has a default.
-/
import WorkerBridge.Json.Shape

namespace WorkerBridge

open Json (Decoder ShapeError)

/-! ## Records -/

/-- The local channel to the worker. -/
inductive ChannelKind where
  | stdio
  | tcp
deriving DecidableEq, Repr, Inhabited

/-- The word for a channel. -/
def ChannelKind.label : ChannelKind → String
  | .stdio => "stdio"
  | .tcp => "tcp"

/-- How to launch the worker. -/
structure WorkerSettings where
  program : String := "java"
  jar : Option String := none
  jvmArgs : List String := []
  channel : ChannelKind := .stdio
  serverArgs : List String := ["--lsp"]
  extraArgs : List String := []
deriving DecidableEq, Repr

/-- How long to wait, in seconds, and how often to try a start. -/
structure Timeouts where
  startup : UInt64 := 30
  query : UInt64 := 30
  progress : UInt64 := 180
  shutdown : UInt64 := 2
  startAttempts : UInt32 := 3
deriving DecidableEq, Repr

/-- When to restart after a crash: capped exponential delays within a budget. -/
structure RestartPolicy where
  auto : Bool := true
  maxRetries : UInt32 := 5
  initialDelay : UInt64 := 500
  maxDelay : UInt64 := 8000
deriving DecidableEq, Repr

/-- All settings of the bridge. -/
structure Settings where
  worker : WorkerSettings := {}
  timeouts : Timeouts := {}
  restart : RestartPolicy := {}
deriving DecidableEq, Repr

/-! ## Waiting times -/

namespace Timeouts

/-- How long a start waits for the readiness reply, in milliseconds. -/
def startupMs (t : Timeouts) : Nat := t.startup.toNat * 1000

/-- The time limit of a query in milliseconds. Zero seconds mean no limit. -/
def queryMs? (t : Timeouts) : Option Nat :=
  if t.query = 0 then none else some (t.query.toNat * 1000)

/-- How long a command is waited for, in milliseconds. -/
def progressMs (t : Timeouts) : Nat := t.progress.toNat * 1000

/-- How long a stopping worker is waited for, in milliseconds. -/
def shutdownMs (t : Timeouts) : Nat := t.shutdown.toNat * 1000

end Timeouts

/-! ## Saturating words -/

/-- The product, or the largest word if the product does not fit. -/
def satMul (a b : UInt64) : UInt64 :=
  if a.toNat * b.toNat < UInt64.size then a * b else UInt64.ofNat (UInt64.size - 1)

/-- The power, or the largest word if the power does not fit. -/
def satPow (base : UInt64) (n : Nat) : UInt64 :=
  if n = 0 then 1
  else
    let half := satPow base (n / 2)
    if n % 2 = 0 then satMul half half else satMul base (satMul half half)
termination_by n
decreasing_by omega

/-- The delay in milliseconds before the restart of the given number, counted from zero: the first
delay doubled as often, but at most the longest. -/
def RestartPolicy.delay (p : RestartPolicy) (attempt : UInt32) : UInt64 :=
  min (satMul p.initialDelay (satPow 2 attempt.toNat)) p.maxDelay

/-! ## Reading -/

namespace Settings

open Json.Shape

/-- Reads how to launch the worker. -/
def decodeWorker (dialect : Dialect) : Decoder WorkerSettings := fun v => do
  let d : WorkerSettings := {}
  let channel := variant dialect.isEmpty [("stdio", ChannelKind.stdio), ("tcp", ChannelKind.tcp)]
  let kvs ← dialect.entries
    [lastField "program" text, lastField "jar" (option text), lastField "jvm_args" (list text),
      lastField "channel" channel, lastField "server_args" (list text),
      lastField "extra_args" (list text)] v
  let program ← defaulted kvs "program" text d.program
  let jar ← defaulted kvs "jar" (option text) d.jar
  let jvmArgs ← defaulted kvs "jvm_args" (list text) d.jvmArgs
  let channel ← defaulted kvs "channel" channel d.channel
  let serverArgs ← defaulted kvs "server_args" (list text) d.serverArgs
  let extraArgs ← defaulted kvs "extra_args" (list text) d.extraArgs
  return { program, jar, jvmArgs, channel, serverArgs, extraArgs }

/-- Reads how long to wait. -/
def decodeTimeouts (dialect : Dialect) : Decoder Timeouts := fun v => do
  let d : Timeouts := {}
  let kvs ← dialect.entries
    [lastField "startup_secs" unsigned64, lastField "query_secs" unsigned64,
      lastField "progress_secs" unsigned64, lastField "shutdown_secs" unsigned64,
      lastField "start_attempts" unsigned32] v
  let startup ← defaulted kvs "startup_secs" unsigned64 d.startup
  let query ← defaulted kvs "query_secs" unsigned64 d.query
  let progress ← defaulted kvs "progress_secs" unsigned64 d.progress
  let shutdown ← defaulted kvs "shutdown_secs" unsigned64 d.shutdown
  let startAttempts ← defaulted kvs "start_attempts" unsigned32 d.startAttempts
  return { startup, query, progress, shutdown, startAttempts }

/-- Reads when to restart. -/
def decodeRestart (dialect : Dialect) : Decoder RestartPolicy := fun v => do
  let d : RestartPolicy := {}
  let kvs ← dialect.entries
    [lastField "auto" bool, lastField "max_retries" unsigned32,
      lastField "initial_delay_ms" unsigned64, lastField "max_delay_ms" unsigned64] v
  let auto ← defaulted kvs "auto" bool d.auto
  let maxRetries ← defaulted kvs "max_retries" unsigned32 d.maxRetries
  let initialDelay ← defaulted kvs "initial_delay_ms" unsigned64 d.initialDelay
  let maxDelay ← defaulted kvs "max_delay_ms" unsigned64 d.maxDelay
  return { auto, maxRetries, initialDelay, maxDelay }

/-- Reads all settings. -/
def decodeWith (dialect : Dialect) : Decoder Settings := fun v => do
  let worker := decodeWorker dialect
  let timeouts := decodeTimeouts dialect
  let restart := decodeRestart dialect
  let kvs ← dialect.entries
    [lastField "worker" worker, lastField "timeouts" timeouts,
      lastField "restart" restart] v
  let worker ← defaulted kvs "worker" worker {}
  let timeouts ← defaulted kvs "timeouts" timeouts {}
  let restart ← defaulted kvs "restart" restart {}
  return { worker, timeouts, restart }

/-- Reads all settings out of JSON. -/
def decode : Decoder Settings :=
  decodeWith .json

end Settings

end WorkerBridge
