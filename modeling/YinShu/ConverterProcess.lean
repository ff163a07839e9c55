import YinShu.LabelledRun
import YinShu.OfficeFallback

/-!
# Supervising a converter process

A converter runs as a child whose output is read by two tasks. After the timeout
a cleanup command may be tried once, the child is given some time to leave, and
is then killed. The operating system decides when a process ends, what is written
to the pipes and when they are closed; a pipe may stay open after the child has
left. Every handle is dropped with `kill_on_drop`. The counter of cleanups and
the list of kills are history; no step reads them.
-/

set_option autoImplicit false

namespace YinShu.ConverterProcess
open YinShu.LabelledRun YinShu.OfficeConversion

/-- In milliseconds, as every time here. -/
def timeoutCleanupTimeout : ℕ := 5000
def converterExitGrace : ℕ := 5000

structure ExitStatus where
  code : Option ℤ
  deriving DecidableEq, Repr

structure Output where
  status : ExitStatus
  stdout : List UInt8
  stderr : List UInt8
  deriving DecidableEq

inductive Process where
  | absent
  | running
  | exited (status : ExitStatus)
  | reaped (status : ExitStatus)
  deriving DecidableEq, Repr

/-- The process was started and nobody has waited for its end successfully. -/
def Process.unreaped : Process → Bool
  | .running | .exited _ => true
  | .absent | .reaped _ => false

inductive Reader where
  | reading (taken : ℕ)
  | finished (result : Except String (List UInt8))
  | aborted

/-- Everything written to a pipe, whether its last writer is gone, and its reader. -/
structure Pipe where
  written : List UInt8 := []
  closed : Bool := false
  reader : Reader := .reading 0

inductive PipeEvent where
  | write (bytes : List UInt8)
  | close
  | read (count : ℕ)
  | readEnd
  | readFault (error : String)

/-- The writers of a pipe, and the task that reads it to its end. -/
def Pipe.step (p : Pipe) : PipeEvent → Option Pipe
  | .write bytes => if p.closed then none else some { p with written := p.written++bytes }
  | .close => if p.closed then none else some { p with closed := true }
  | .read count =>
    match p.reader with
    | .reading taken =>
      if taken+count ≤ p.written.length then some { p with reader := .reading (taken+count) }
      else none
    | _ => none
  | .readEnd =>
    match p.reader with
    | .reading taken =>
      if p.closed ∧ taken = p.written.length then
        some { p with reader := .finished (.ok (p.written.take taken)) }
      else none
    | _ => none
  | .readFault error =>
    match p.reader with
    | .reading _ => some { p with reader := .finished (.error error) }
    | _ => none

inductive Stream where
  | stdout
  | stderr
  deriving DecidableEq, Repr

inductive Cause where
  | graceOver
  | handleDropped
  deriving DecidableEq, Repr

structure Kill where
  cause : Cause
  time : ℕ
  deriving DecidableEq, Repr

abbrev Reply := Except OfficeConvertError Output

inductive Phase where
  | idle
  | waiting (deadline : ℕ)
  | cleanupStarting
  | cleaning (deadline : ℕ)
  | grace (deadline : ℕ)
  | killing
  | joiningStdout (status : ExitStatus)
  | joiningStderr (status : ExitStatus) (stdout : List UInt8)
  | returned (reply : Reply)
  | dropped

def Phase.active : Phase → Bool
  | .idle | .returned _ | .dropped => false
  | _ => true

structure Supervision where
  phase : Phase := .idle
  child : Process := .absent
  cleanup : Process := .absent
  cleanupKilled : Bool := false
  pipe : Stream → Pipe := fun _ => {}
  now : ℕ := 0
  started : ℕ := 0
  cleanups : ℕ := 0
  kills : List Kill := []

inductive SpawnError where
  | notFound
  | other (error : String)

inductive Label where
  | tick (duration : ℕ)
  | spawn (error : Option SpawnError)
  | childExits (status : ExitStatus)
  | cleanupExits (status : ExitStatus)
  | onPipe (stream : Stream) (event : PipeEvent)
  | waited
  | waitFault (error : String)
  | elapsed
  | cleanupSpawned (error : Bool)
  | cleanupWaited
  | cleanupFault
  | join
  | abandon

def Supervision.setPipe (s : Supervision) (stream : Stream) (pipe : Pipe) : Supervision :=
  { s with pipe := Function.update s.pipe stream pipe }

/-- The handle of the cleanup command goes out of scope. -/
def Supervision.dropCleanup (s : Supervision) : Supervision :=
  { s with cleanupKilled := s.cleanupKilled || s.cleanup.unreaped }

/-- The future is over: both handles go out of scope. -/
def Supervision.finish (s : Supervision) (phase : Phase) : Supervision :=
  { s.dropCleanup with
    phase := phase
    kills := if s.child.unreaped then s.kills++[⟨.handleDropped,s.now⟩] else s.kills }

def Reader.abort : Reader → Reader
  | .reading _ => .aborted
  | reader => reader

def Supervision.abortReaders (s : Supervision) : Supervision :=
  { s with pipe := fun stream => { s.pipe stream with reader := (s.pipe stream).reader.abort } }

def Supervision.giveGrace (s : Supervision) : Supervision :=
  { s with phase := .grace (s.now+converterExitGrace) }

variable (converter : String) (timeout : ℕ) (hasCleanup : Bool)

def timedOut : Reply :=
  .error (.timedOut converter (UInt64.ofNat (max (timeout/1000) 1)))

def spawned (s : Supervision) : Option SpawnError → Supervision
  | none => { s with phase := .waiting (s.now+timeout), child := .running, started := s.now }
  | some .notFound =>
    s.finish (.returned (.error (.converterUnavailable converter "executable not found")))
  | some (.other error) => s.finish (.returned (.error (.io error)))

/-- `child.wait()` is ready in the phase the call is in. -/
def childWaited (s : Supervision) (status : ExitStatus) : Option Supervision :=
  match s.phase with
  | .waiting _ => some { s with child := .reaped status, phase := .joiningStdout status }
  | .grace _ | .killing => some (Supervision.finish
      { s.abortReaders with child := .reaped status } (.returned (timedOut converter timeout)))
  | _ => none

/-- A timer has run out; `timeout` looks at what it waits for first. -/
def timerElapsed (s : Supervision) : Option Supervision :=
  match s.phase with
  | .waiting deadline =>
    if deadline ≤ s.now ∧ s.child = .running then
      some (if hasCleanup then { s with phase := .cleanupStarting } else s.giveGrace)
    else none
  | .cleaning deadline =>
    if deadline ≤ s.now ∧ s.cleanup = .running then some s.dropCleanup.giveGrace else none
  | .grace deadline =>
    if deadline ≤ s.now ∧ s.child = .running then
      some { s with phase := .killing, kills := s.kills++[⟨.graceOver,s.now⟩] }
    else none
  | _ => none

def joined (s : Supervision) : Option Supervision :=
  match s.phase with
  | .joiningStdout status =>
    match (s.pipe .stdout).reader with
    | .finished (.ok stdout) => some { s with phase := .joiningStderr status stdout }
    | .finished (.error error) => some (s.finish (.returned (.error (.io error))))
    | _ => none
  | .joiningStderr status stdout =>
    match (s.pipe .stderr).reader with
    | .finished (.ok stderr) => some (s.finish (.returned (.ok ⟨status,stdout,stderr⟩)))
    | .finished (.error error) => some (s.finish (.returned (.error (.io error))))
    | _ => none
  | _ => none

def step (s : Supervision) : Label → Option Supervision
  | .tick duration => some { s with now := s.now+duration }
  | .spawn error =>
    match s.phase with
    | .idle => some (spawned converter timeout s error)
    | _ => none
  | .childExits status =>
    match s.child with
    | .running => some { s with child := .exited status }
    | _ => none
  | .cleanupExits status =>
    match s.cleanup with
    | .running => some { s with cleanup := .exited status }
    | _ => none
  | .onPipe stream event =>
    match s.child with
    | .absent => none
    | _ => ((s.pipe stream).step event).map (s.setPipe stream)
  | .waited =>
    match s.child with
    | .exited status => childWaited converter timeout s status
    | _ => none
  | .waitFault error =>
    match s.phase with
    | .waiting _ => some (s.finish (.returned (.error (.io error))))
    | .grace _ | .killing => some (s.abortReaders.finish (.returned (timedOut converter timeout)))
    | _ => none
  | .elapsed => timerElapsed hasCleanup s
  | .cleanupSpawned error =>
    match s.phase with
    | .cleanupStarting =>
      some (if error then { s with cleanups := s.cleanups+1 }.giveGrace
        else { s with
          phase := .cleaning (s.now+timeoutCleanupTimeout), cleanup := .running,
          cleanups := s.cleanups+1 })
    | _ => none
  | .cleanupWaited =>
    match s.phase,s.cleanup with
    | .cleaning _,.exited status => some { s with cleanup := .reaped status }.giveGrace
    | _,_ => none
  | .cleanupFault =>
    match s.phase with
    | .cleaning _ => some s.dropCleanup.giveGrace
    | _ => none
  | .join => joined s
  | .abandon => if s.phase.active then some (s.finish .dropped) else none

section Invariant

/-- A kill was sent to a child that nobody has reaped. -/
def Supervision.ChildOver (s : Supervision) : Prop := s.child.unreaped = true → s.kills ≠ []

def Supervision.CleanupOver (s : Supervision) : Prop :=
  s.cleanup.unreaped = true → s.cleanupKilled = true

/-- Neither a cleanup nor a kill has happened. -/
def Supervision.Untouched (s : Supervision) : Prop :=
  s.kills = [] ∧ s.cleanups = 0 ∧ s.cleanup = .absent

/-- The timeout is over and the cleanup command, if there is one, has been tried. -/
def Supervision.CleanedUp (s : Supervision) : Prop :=
  s.started+timeout ≤ s.now ∧ s.cleanups = hasCleanup.toNat ∧ s.CleanupOver

/-- The output that a reply delivers is all that the child has written. -/
def Delivered (s : Supervision) (output : Output) : Prop :=
  s.child = .reaped output.status ∧ s.Untouched ∧
    (s.pipe .stdout).reader = .finished (.ok output.stdout) ∧
    (s.pipe .stderr).reader = .finished (.ok output.stderr)

def Answered (s : Supervision) : Reply → Prop
  | .ok output => Delivered s output
  | .error (.timedOut name seconds) =>
    .error (.timedOut name seconds) = timedOut converter timeout ∧
      s.CleanedUp timeout hasCleanup ∧ s.ChildOver
  | .error _ => s.cleanups = 0 ∧ s.cleanup = .absent ∧ s.ChildOver

def Placed (s : Supervision) : Prop :=
  match s.phase with
  | .idle => s.child = .absent ∧ s.Untouched
  | .waiting deadline => s.child.unreaped = true ∧ s.Untouched ∧ deadline = s.started+timeout
  | .cleanupStarting =>
    s.child.unreaped = true ∧ s.Untouched ∧ hasCleanup = true ∧ s.started+timeout ≤ s.now
  | .cleaning _ =>
    s.child.unreaped = true ∧ s.kills = [] ∧ s.cleanups = 1 ∧ s.cleanup.unreaped = true ∧
      hasCleanup = true ∧ s.started+timeout ≤ s.now
  | .grace deadline =>
    s.child.unreaped = true ∧ s.kills = [] ∧ s.CleanedUp timeout hasCleanup ∧
      s.started+timeout+converterExitGrace ≤ deadline
  | .killing => s.kills ≠ [] ∧ s.child.unreaped = true ∧ s.CleanedUp timeout hasCleanup
  | .joiningStdout status => s.child = .reaped status ∧ s.Untouched
  | .joiningStderr status stdout => s.child = .reaped status ∧ s.Untouched ∧
    (s.pipe .stdout).reader = .finished (.ok stdout)
  | .returned reply => Answered converter timeout hasCleanup s reply
  | .dropped => s.ChildOver ∧ s.CleanupOver ∧ s.cleanups ≤ hasCleanup.toNat ∧
    (0 < s.cleanups → s.started+timeout ≤ s.now)

/-- The agent kills only after the time of grace, and after the cleanup command was tried. -/
def KillsLate (s : Supervision) : Prop :=
  ∀ kill ∈ s.kills, kill.cause = .graceOver →
    s.started+timeout+converterExitGrace ≤ kill.time ∧ kill.time ≤ s.now ∧
      s.cleanups = hasCleanup.toNat

def Pipe.Sound (p : Pipe) : Prop :=
  match p.reader with
  | .reading taken => taken ≤ p.written.length
  | .finished (.ok bytes) => p.closed = true ∧ bytes = p.written
  | _ => True

structure Inv (s : Supervision) : Prop where
  placed : Placed converter timeout hasCleanup s
  late : KillsLate timeout hasCleanup s
  sound : ∀ stream, (s.pipe stream).Sound

end Invariant

end YinShu.ConverterProcess
