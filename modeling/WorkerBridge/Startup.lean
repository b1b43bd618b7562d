/-
  WorkerBridge.Startup

  Bringing up one worker. Each attempt spawns a fresh worker and waits for its
  answer to the readiness probe; what else the worker writes meanwhile is
  ignored. The number of attempts is bounded.
-/
import WorkerBridge.Engine.Basic

namespace WorkerBridge

/-- What a channel delivers. -/
inductive LinkEvent where
  | frame (incoming : Incoming)
  | closed (reason : CloseReason)

/-- How far an attempt has come. -/
inductive Startup.Phase where
  | spawning
  | probing (worker : WorkerId) (deadline : Nat)
  | done (result : Except StartFault Started)

/-- A start: how many attempts are left after the current one, and how far that one has come. -/
structure Startup where
  wait : Nat
  attemptsLeft : Nat
  phase : Startup.Phase := .spawning

namespace Startup

/-- The start that the settings ask for. At least one attempt is made. -/
def ofTimeouts (t : Timeouts) : Startup :=
  { wait := t.startup.toNat, attemptsLeft := t.startAttempts.toNat - 1 }

/-- The attempt has failed. The last fault is the fault of the start. -/
def fail (s : Startup) (fault : StartFault) : Startup :=
  match s.attemptsLeft with
  | 0 => { s with phase := .done (.error fault) }
  | n + 1 => { s with attemptsLeft := n, phase := .spawning }

/-- The worker of the attempt was spawned, or was not. The probe is sent at once. -/
def onSpawn (s : Startup) (now : Nat) : Except SpawnFault WorkerId → Startup
  | .ok worker => { s with phase := .probing worker (now + s.wait * 1000) }
  | .error fault => s.fail (.spawn fault)

/-- What the answer to the probe amounts to. `none` means to wait on. -/
def verdict? : LinkEvent → Option (Except StartFault (Option Version))
  | .frame (.response id outcome) =>
    if id = JobId.probe then
      match outcome with
      | .ok v => some (.ok (Version.decode v).toOption)
      | .error f => some (.error (.rejected f.message))
    else none
  | .frame (.malformed ..) => none
  | .closed reason => some (.error (.exited reason))

/-- The channel of the probed worker has delivered something. -/
def onEvent (s : Startup) (event : LinkEvent) : Startup :=
  match s.phase with
  | .probing worker _ =>
    match verdict? event with
    | none => s
    | some (.ok version) => { s with phase := .done (.ok { worker, version }) }
    | some (.error fault) => s.fail fault
  | _ => s

/-- The time for the answer is up. -/
def onTimeUp (s : Startup) : Startup :=
  match s.phase with
  | .probing .. => s.fail (.silent s.wait)
  | _ => s

/-- The worker being probed. -/
def worker? (s : Startup) : Option WorkerId :=
  match s.phase with
  | .probing worker _ => some worker
  | _ => none

/-- When the time for the answer is up. -/
def deadline? (s : Startup) : Option Nat :=
  match s.phase with
  | .probing _ deadline => some deadline
  | _ => none

end Startup

end WorkerBridge
