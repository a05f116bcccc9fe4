/-
This file models the thread that talks to the IO processor. Any thread may trigger an event,
which sets its bit in the mask of pending events. The IO thread waits for the mask, which
clears it, and handles the events of the mask one after the other. Each event takes one or
two register operations, and an operation takes one or two transactions over the serial
line, each of which may fail. A failed transaction triggers its event again and starts the
loop from its top.

Transactions whose result the loop ignores (the servo outputs at its top, the regular reads
at its end) have no influence on the events and are left out. What is sent and received is
kept in a log, the latest first.
-/

import Mathlib.Tactic

namespace Urus.IoMcu

/-! ### Events and their registers -/

/-- `enum ioevents`. -/
inductive IoEvent
  | init
  | sendPwmOut
  | setDisarmedPwm
  | setFailsafePwm
  | forceSafetyOff
  | forceSafetyOn
  | setOneshotOn
  | setRates
  | getRcin
  | enableSbus
  | setHeaterTarget
  | setDefaultRate
  deriving DecidableEq

/-- The settings that are sent to the IO processor. -/
structure Settings where
  freq : ℕ
  chmask : ℕ
  defaultFreq : ℕ
  sbusRateHz : ℕ
  heaterDutyCycle : ℕ

/-- `FORCE_SAFETY_MAGIC`. -/
def forceSafetyMagic : ℕ := 22027

/-- `write_register` and `modify_register` on a register of the setup page. -/
inductive RegisterOp
  | write (offset : ℕ) (value : Settings → ℕ)
  | modify (offset clearbits setbits : ℕ)

/-- The value that `modify_register` wants in a register of 16 bits. -/
def modified (clearbits setbits value : ℕ) : ℕ :=
  value &&& (0xffff ^^^ clearbits) ||| setbits

/-- The register operations of an event, in the order of `thread_main`. -/
def registerOps : IoEvent → List RegisterOp
  | .init => [.modify 1 0 (1 <<< 0 ||| 1 <<< 1 ||| 1 <<< 6)]
  | .forceSafetyOff => [.write 12 fun _ => forceSafetyMagic]
  | .forceSafetyOn => [.write 14 fun _ => forceSafetyMagic]
  | .setRates => [.write 4 Settings.freq, .write 2 Settings.chmask]
  | .enableSbus => [.write 19 Settings.sbusRateHz, .modify 0 0 1]
  | .setHeaterTarget => [.write 21 Settings.heaterDutyCycle]
  | .setDefaultRate => [.write 3 Settings.defaultFreq]
  | .setOneshotOn => [.modify 0 0 16]
  | .sendPwmOut | .setDisarmedPwm | .setFailsafePwm | .getRcin => []

/-- The events with register operations, in the order in which `thread_main` looks for them. -/
def handledEvents : List IoEvent :=
  [.init, .forceSafetyOff, .forceSafetyOn, .setRates, .enableSbus, .setHeaterTarget,
    .setDefaultRate, .setOneshotOn]

/-! ### The thread -/

/-- What has happened: a trigger, or a transaction that succeeded for an operation of an event. -/
inductive Entry
  | triggered (event : IoEvent)
  | read (event : IoEvent) (op value : ℕ)
  | wrote (event : IoEvent) (op value : ℕ)
  deriving DecidableEq

/-- Where the IO thread is: at the wait; at the operations of the first of the events that are left,
with the number of its operations that are done and the value that a `modify_register` has read;
or in `event_failed`, with the events that were left. -/
inductive Thread
  | waiting
  | handling (events : List IoEvent) (done : ℕ) (value : Option ℕ)
  | failing (event : IoEvent) (left : List IoEvent)
  deriving DecidableEq

/-- The pending events, the settings, the IO thread and the log. -/
structure System where
  pending : IoEvent → Bool
  settings : Settings
  thread : Thread
  log : List Entry

/-- A step: a trigger or a change of the settings by any thread, the return of the wait, a
transaction with the value it gets or without success, the trigger of `event_failed`, and the end
of the loop body. -/
inductive Step
  | triggerEvent (event : IoEvent)
  | configure (settings : Settings)
  | wait
  | transact (answer : Option ℕ)
  | eventFailed
  | finish

/-- `trigger_event`. -/
def System.triggerEvent (system : System) (event : IoEvent) : System :=
  { system with
    pending := Function.update system.pending event true
    log := .triggered event :: system.log }

/-- The thread behind an operation that is done. -/
def nextOp (event : IoEvent) (left : List IoEvent) (done : ℕ) : Thread :=
  if done + 1 < (registerOps event).length then .handling (event :: left) (done + 1) none
  else .handling left 0 none

/-- A transaction of the operation that the thread has come to. -/
def System.transact (system : System) (event : IoEvent) (left : List IoEvent) (done : ℕ)
    (value : Option ℕ) (answer : Option ℕ) : System :=
  match answer with
  | none => { system with thread := .failing event left }
  | some answer =>
    match (registerOps event)[done]?, value with
    | none, _ => { system with thread := nextOp event left done }
    | some (.write _ wanted), _ =>
      { system with
        thread := nextOp event left done
        log := .wrote event done (wanted system.settings) :: system.log }
    | some (.modify _ clearbits setbits), none =>
      { system with
        thread :=
          if modified clearbits setbits answer = answer then nextOp event left done
          else .handling (event :: left) done (some answer)
        log := .read event done answer :: system.log }
    | some (.modify _ clearbits setbits), some value =>
      { system with
        thread := nextOp event left done
        log := .wrote event done (modified clearbits setbits value) :: system.log }

/-- One step. A step that the IO thread has not come to does nothing. -/
def System.step (system : System) : Step → System
  | .triggerEvent event => system.triggerEvent event
  | .configure settings => { system with settings := settings }
  | .wait =>
    match system.thread with
    | .waiting =>
      { system with
        pending := fun _ => false
        thread := .handling (handledEvents.filter system.pending) 0 none }
    | _ => system
  | .transact answer =>
    match system.thread with
    | .handling (event :: left) done value => system.transact event left done value answer
    | _ => system
  | .eventFailed =>
    match system.thread with
    | .failing event _ => { system.triggerEvent event with thread := .waiting }
    | _ => system
  | .finish =>
    match system.thread with
    | .handling [] _ _ => { system with thread := .waiting }
    | _ => system

/-- The top of the loop for the first time: `thread_main` has triggered the first event. -/
def System.start (settings : Settings) : System where
  pending := Function.update (fun _ => false) .init true
  settings := settings
  thread := .waiting
  log := [.triggered .init]

end Urus.IoMcu
