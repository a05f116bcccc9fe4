/-
This file models the events that repeat a servo or a relay. A request asks for so many cycles, and one
signed counter of 16 bits holds both the half cycles that are left and, in its low bit, which half is
next. A negative counter is one that never ends.

A request does what it asks for if and only if twice its cycles fit in the counter, and half of its
delay fits in 16 bits.
-/

import Urus.Lib.Trace

namespace Urus.ServoRelayEvents

/-! ### The code -/

/-- `event_type`. -/
inductive EventType
  | relay
  | servo
  deriving DecidableEq

/-- What is done to an output. -/
inductive Output
  | setOutputPwm (index : UInt8) (pwm : UInt16)
  | toggle (relay : UInt8)
  deriving DecidableEq

/-- An output is changed at a time. -/
structure Change where
  time : UInt32
  output : Output
  deriving DecidableEq

/-- The events, the servos and the relays, and what has been done to them. -/
structure System where
  mask : UInt16
  type : EventType
  startTimeMs : UInt32
  delayMs : UInt16
  repeatCount : Int16
  channel : UInt8
  servoValue : UInt16
  trim : UInt8 → UInt16
  outputPwm : UInt8 → UInt16
  enabled : UInt8 → Bool
  relayOn : UInt8 → Bool
  changes : List Change

/-- The two readings of the clock in `update_events`. -/
structure Call where
  now : UInt32
  later : UInt32

/-- `set_output_pwm` of a channel. -/
def System.setOutputPwm (system : System) (time : UInt32) (index : UInt8) (pwm : UInt16) : System :=
  { system with
    outputPwm := Function.update system.outputPwm index pwm
    changes := system.changes ++ [⟨time, .setOutputPwm index pwm⟩] }

/-- `toggle` of a relay. -/
def System.toggle (system : System) (time : UInt32) (relay : UInt8) : System :=
  if system.enabled relay then
    { system with
      relayOn := Function.update system.relayOn relay (!system.relayOn relay)
      changes := system.changes ++ [⟨time, .toggle relay⟩] }
  else system

/-- The number of servo channels. -/
def numServoChannels : UInt8 := 16

/-- The part of `update_events` that changes the output. -/
def System.act (system : System) (time : UInt32) : System :=
  match system.type with
  | .servo =>
    if system.channel - 1 < numServoChannels then
      if system.repeatCount &&& 1 ≠ 0 then
        system.setOutputPwm time (system.channel - 1) (system.trim (system.channel - 1))
      else system.setOutputPwm time (system.channel - 1) system.servoValue
    else system
  | .relay => system.toggle time system.channel

/-- The counter after a change. -/
def nextRepeat (repeatCount : Int16) : Int16 :=
  if repeatCount > 0 then repeatCount - 1 else repeatCount ^^^ 1

/-- `update_events`. -/
def System.updateEvents (system : System) (call : Call) : System :=
  if system.repeatCount = 0 ∨ call.now - system.startTimeMs < system.delayMs.toUInt32 then system
  else
    let acted := { system with startTimeMs := call.later }.act call.later
    { acted with repeatCount := nextRepeat acted.repeatCount }

/-- A channel is in the mask. A shift by a negative number has no result. -/
def System.allowed (system : System) (channel : UInt8) : Bool :=
  channel != 0 && system.mask.toNat.testBit (channel.toNat - 1)

/-- `do_repeat_servo`. -/
def System.doRepeatServo (system : System) (channel : UInt8) (servoValue : UInt16)
    (repeatCount : Int16) (delayMs : UInt16) (call : Call) : Option System :=
  if system.allowed channel then
    some ({ system with
      channel := channel
      type := .servo
      startTimeMs := 0
      delayMs := delayMs / 2
      repeatCount := repeatCount * 2
      servoValue := servoValue }.updateEvents call)
  else none

/-- `do_repeat_relay`. -/
def System.doRepeatRelay (system : System) (relayNum : UInt8) (repeatCount : Int16)
    (delayMs : UInt32) (call : Call) : Option System :=
  if system.enabled relayNum then
    some ({ system with
      type := .relay
      channel := relayNum
      startTimeMs := 0
      delayMs := (delayMs / 2).toUInt16
      repeatCount := repeatCount * 2 }.updateEvents call)
  else none

/-- The two requests. -/
inductive Request
  | servo (channel : UInt8) (servoValue : UInt16) (repeatCount : Int16) (delayMs : UInt16)
  | relay (relayNum : UInt8) (repeatCount : Int16) (delayMs : UInt32)

/-- A request is made. -/
def Request.make (system : System) (call : Call) : Request → Option System
  | .servo channel servoValue repeatCount delayMs =>
    system.doRepeatServo channel servoValue repeatCount delayMs call
  | .relay relayNum repeatCount delayMs => system.doRepeatRelay relayNum repeatCount delayMs call

/-- A request, and the calls of `update_events` behind it. The log begins with the request. -/
def Request.run (request : Request) (system : System) (first : Call) (calls : List Call) :
    Option System :=
  (request.make { system with changes := [] } first).map fun begun =>
    runCalls System.updateEvents begun calls

/-! ### What a request asks for -/

/-- The clock never goes back. -/
def InOrder : ℕ → List Call → Prop
  | _, [] => True
  | since, call :: rest =>
    since ≤ call.now.toNat ∧ call.now.toNat ≤ call.later.toNat ∧ InOrder call.later.toNat rest

namespace Request

/-- The cycles of a request. -/
def count : Request → Int16
  | servo _ _ repeatCount _ => repeatCount
  | relay _ repeatCount _ => repeatCount

/-- Half of the delay of a request. -/
def half : Request → ℕ
  | servo _ _ _ delayMs => delayMs.toNat / 2
  | relay _ _ delayMs => delayMs.toNat / 2

/-- A request is accepted. -/
def Accepted (system : System) : Request → Prop
  | servo channel _ _ _ => system.allowed channel
  | relay relayNum _ _ => system.enabled relayNum

/-- What the change with this number has to do: a servo goes to its value and back to its trim. -/
def outputAt (trim : UInt8 → UInt16) (number : ℕ) : Request → Output
  | servo channel servoValue _ _ =>
    .setOutputPwm (channel - 1) (if number % 2 = 0 then servoValue else trim (channel - 1))
  | relay relayNum _ _ => .toggle relayNum

/-- Where the output has to be after the last change. Without cycles a servo is left where it is. -/
def Ended (before after : System) : Request → Prop
  | servo channel _ repeatCount _ =>
    after.outputPwm (channel - 1) =
      if repeatCount = 0 then before.outputPwm (channel - 1) else before.trim (channel - 1)
  | relay relayNum _ _ => after.relayOn relayNum = before.relayOn relayNum

/-- A request has been followed so far. -/
structure Followed (request : Request) (before after : System) : Prop where
  most : after.changes.length ≤ 2 * request.count.toInt.toNat
  apart : after.changes.IsChain fun change next =>
    change.time.toNat + request.half ≤ next.time.toNat
  outputs : after.changes.map Change.output =
    (List.range after.changes.length).map fun number => request.outputAt before.trim number
  ended : after.changes.length = 2 * request.count.toInt.toNat → request.Ended before after

end Request

/-! ### The counter -/

section Counter

variable (number : Int16)

theorem toInt_cases : number.toInt =
    if number.toBitVec.toNat < 32768 then (number.toBitVec.toNat : ℤ)
    else number.toBitVec.toNat - 65536 := by
  rw [← Int16.toInt_toBitVec, BitVec.toInt_eq_toNat_cond]
  split <;> split <;> omega

theorem lowBit_iff : number &&& 1 ≠ 0 ↔ number.toInt % 2 = 1 := by
  have low : (number &&& 1).toBitVec.toNat = number.toBitVec.toNat % 2 := by
    rw [Int16.toBitVec_and, BitVec.toNat_and]
    exact Nat.and_one_is_mod _
  have zero : number &&& 1 = 0 ↔ (number &&& 1).toBitVec.toNat = 0 := by
    rw [← Int16.toBitVec_inj, ← BitVec.toNat_inj]
    rfl
  have value := toInt_cases number
  rw [Ne, zero, low]
  split at value <;> omega

/-- The low bit is toggled, and nothing else. -/
theorem toggle_spec : (number ^^^ 1).toInt % 2 ≠ number.toInt % 2 ∧
    (number.toInt < 0 → (number ^^^ 1).toInt < 0) := by
  have toggled : (number ^^^ 1).toBitVec.toNat = number.toBitVec.toNat ^^^ 1 := by
    rw [Int16.toBitVec_xor, BitVec.toNat_xor]
    rfl
  have low : (number.toBitVec.toNat ^^^ 1) % 2 = 1 ↔
      ¬ (number.toBitVec.toNat % 2 = 1 ↔ 1 % 2 = 1) := Nat.xor_mod_two_eq_one
  have high : (number.toBitVec.toNat ^^^ 1) / 2 = number.toBitVec.toNat / 2 := by
    rw [Nat.xor_div_two]
    exact Nat.xor_zero _
  rw [toInt_cases, toInt_cases, toggled]
  split <;> split <;> omega

variable {number}

theorem pred_toInt (positive : 0 < number.toInt) : (number - 1).toInt = number.toInt - 1 := by
  have high := number.toInt_lt
  have one : (1 : Int16).toInt = 1 := rfl
  rw [Int16.toInt_sub, one, Int.bmod]
  omega

theorem nextRepeat_pos (positive : 0 < number.toInt) :
    (nextRepeat number).toInt = number.toInt - 1 := by
  have more : number > 0 := Int16.lt_iff_toInt_lt.mpr positive
  rw [nextRepeat, if_pos more, pred_toInt positive]

theorem nextRepeat_neg (negative : number.toInt < 0) : (nextRepeat number).toInt < 0 := by
  have notMore : ¬ number > 0 := fun more =>
    absurd (Int16.lt_iff_toInt_lt.mp more) (not_lt.mpr negative.le)
  rw [nextRepeat, if_neg notMore]
  exact (toggle_spec number).2 negative

/-- The next half is the other one. -/
theorem nextRepeat_phase (number : Int16) : (nextRepeat number).toInt % 2 ≠ number.toInt % 2 := by
  rw [nextRepeat]
  split
  · rename_i more
    rw [pred_toInt (Int16.lt_iff_toInt_lt.mp more)]
    omega
  · exact (toggle_spec number).1

/-- Twice the cycles fit in the counter, or they come out negative. -/
theorem twice_toInt (nonneg : 0 ≤ number.toInt) :
    (number * 2).toInt = if number.toInt < 16384 then 2 * number.toInt
      else 2 * number.toInt - 65536 := by
  have high := number.toInt_lt
  have two : (2 : Int16).toInt = 2 := rfl
  rw [Int16.toInt_mul, two, Int.bmod]
  split <;> split <;> omega

end Counter

/-! ### One call -/

section Call

variable {request : Request} {before system : System}

/-- The settings are those of a request. -/
def Request.Set (system : System) : Request → Prop
  | .servo channel servoValue _ _ =>
    system.type = .servo ∧ system.channel = channel ∧ system.servoValue = servoValue ∧
      channel - 1 < numServoChannels
  | .relay relayNum _ _ =>
    system.type = .relay ∧ system.channel = relayNum ∧ system.enabled relayNum

/-- The output is where the changes so far have brought it. -/
def Request.Placed (before system : System) : Request → Prop
  | .servo channel servoValue _ _ =>
    system.outputPwm (channel - 1) =
      if system.changes.length = 0 then before.outputPwm (channel - 1)
      else if system.changes.length % 2 = 1 then servoValue else before.trim (channel - 1)
  | .relay relayNum _ _ =>
    system.relayOn relayNum =
      if system.changes.length % 2 = 0 then before.relayOn relayNum else !before.relayOn relayNum

/-- What a request has set, and what no call changes. -/
structure Serves (request : Request) (before system : System) : Prop where
  delay : system.delayMs.toNat = request.half % 65536
  trims : system.trim = before.trim
  set : request.Set system

/-- The number of a change is even if and only if the low bit of the counter is clear. -/
def InPhase (system : System) : Prop :=
  system.repeatCount &&& 1 ≠ 0 ↔ system.changes.length % 2 = 1

/-- One change of the output, the next one of a request. -/
theorem act_spec (serves : Serves request before system) (phase : InPhase system)
    (placed : request.Placed before system) (time : UInt32) :
    Serves request before (system.act time) ∧ request.Placed before (system.act time) ∧
      (system.act time).changes =
        system.changes ++ [⟨time, request.outputAt before.trim system.changes.length⟩] ∧
      (system.act time).startTimeMs = system.startTimeMs ∧
      (system.act time).repeatCount = system.repeatCount := by
  obtain ⟨delay, trims, set⟩ := serves
  cases request with
  | servo channel servoValue repeatCount delayMs =>
    obtain ⟨type, rfl, rfl, inside⟩ := set
    rw [System.act, type]
    simp only [if_pos inside]
    by_cases odd : system.changes.length % 2 = 1
    · rw [if_pos (phase.mpr odd)]
      refine ⟨⟨delay, trims, type, rfl, rfl, inside⟩, ?_, ?_, rfl, rfl⟩
      · simp only [Request.Placed, System.setOutputPwm, Function.update_self, List.length_append,
          List.length_singleton]
        rw [if_neg (by omega), if_neg (by omega), trims]
      · simp only [System.setOutputPwm, Request.outputAt]
        rw [if_neg (by omega), trims]
    · rw [if_neg fun low => odd (phase.mp low)]
      refine ⟨⟨delay, trims, type, rfl, rfl, inside⟩, ?_, ?_, rfl, rfl⟩
      · simp only [Request.Placed, System.setOutputPwm, Function.update_self, List.length_append,
          List.length_singleton]
        rw [if_neg (by omega), if_pos (by omega)]
      · simp only [System.setOutputPwm, Request.outputAt]
        rw [if_pos (by omega)]
  | relay relayNum repeatCount delayMs =>
    obtain ⟨type, rfl, enabled⟩ := set
    have acted : system.act time = system.toggle time system.channel := by rw [System.act, type]
    rw [acted, System.toggle, if_pos enabled]
    refine ⟨⟨delay, trims, type, rfl, enabled⟩, ?_, rfl, rfl, rfl⟩
    simp only [Request.Placed] at placed ⊢
    simp only [Function.update_self, List.length_append, List.length_singleton, placed]
    rcases Nat.mod_two_eq_zero_or_one system.changes.length with even | odd
    · rw [if_pos even, if_neg (by omega)]
    · rw [if_neg (by omega), if_pos (by omega), Bool.not_not]

/-- Everything that holds in a run of a request. -/
structure Going (request : Request) (before system : System) : Prop where
  serves : Serves request before system
  phase : InPhase system
  placed : request.Placed before system
  outputs : system.changes.map Change.output =
    (List.range system.changes.length).map fun number => request.outputAt before.trim number
  apart : system.changes.IsChain fun change next =>
    change.time.toNat + request.half % 65536 ≤ next.time.toNat
  last : ∀ change ∈ system.changes.getLast?, change.time = system.startTimeMs

/-- A call changes the output. -/
def Acts (system : System) (call : Call) : Prop :=
  system.repeatCount ≠ 0 ∧ ¬ call.now - system.startTimeMs < system.delayMs.toUInt32

theorem updateEvents_idle {call : Call} (idle : ¬ Acts system call) :
    system.updateEvents call = system :=
  if_pos (by rwa [Acts, not_and_or, not_not, not_not] at idle)

/-- A call that changes the output comes at least a delay behind the change before. -/
theorem acts_late {call : Call} (acts : Acts system call)
    (order : system.startTimeMs.toNat ≤ call.now.toNat) :
    system.startTimeMs.toNat + system.delayMs.toNat ≤ call.now.toNat := by
  have late := acts.2
  rw [UInt32.lt_iff_toNat_lt, UInt32.toNat_sub_of_le _ _ (UInt32.le_iff_toNat_le.mpr order)] at late
  have wide : system.delayMs.toUInt32.toNat = system.delayMs.toNat := UInt16.toNat_toUInt32 _
  omega

theorem going_act (going : Going request before system) {call : Call} (acts : Acts system call)
    (order : system.startTimeMs.toNat ≤ call.now.toNat)
    (readings : call.now.toNat ≤ call.later.toNat) :
    Going request before (system.updateEvents call) ∧
      (system.updateEvents call).changes = system.changes ++
        [⟨call.later, request.outputAt before.trim system.changes.length⟩] ∧
      (system.updateEvents call).startTimeMs = call.later ∧
      (system.updateEvents call).repeatCount = nextRepeat system.repeatCount := by
  have late := acts_late acts order
  obtain ⟨serves, phase, placed, outputs, apart, last⟩ := going
  obtain ⟨serves', placed', changes, start, counter⟩ :=
    @act_spec request before { system with startTimeMs := call.later }
      ⟨serves.delay, serves.trims, by cases request <;> exact serves.set⟩ phase
      (by cases request <;> exact placed) call.later
  have result : system.updateEvents call =
      { ({ system with startTimeMs := call.later }.act call.later) with
        repeatCount := nextRepeat system.repeatCount } := by
    rw [System.updateEvents, if_neg (not_or.mpr acts)]
    simp only [counter]
  have longer : (system.updateEvents call).changes.length = system.changes.length + 1 := by
    rw [result, changes, List.length_append, List.length_singleton]
  refine ⟨⟨?_, ?_, ?_, ?_, ?_, ?_⟩, ?_, ?_, ?_⟩
  · rw [result]
    exact ⟨serves'.delay, serves'.trims, by cases request <;> exact serves'.set⟩
  · have flipped := nextRepeat_phase system.repeatCount
    rw [InPhase, lowBit_iff] at phase
    rw [InPhase, lowBit_iff, longer, result]
    simp only
    omega
  · rw [result]
    cases request <;> exact placed'
  · rw [longer, List.range_succ, List.map_append, ← outputs, result]
    simp only [changes, List.map_append, List.map_cons, List.map_nil]
  · rw [result]
    simp only [changes]
    refine List.isChain_append.mpr ⟨apart, List.isChain_singleton _, fun change member next head => ?_⟩
    have same : next = ⟨call.later, request.outputAt before.trim system.changes.length⟩ :=
      (Option.some.inj head).symm
    rw [last change member, same, ← serves.delay]
    exact late.trans readings
  · rw [result]
    simp only [changes, start, List.getLast?_append, List.getLast?_singleton, Option.some_or]
    rintro change ⟨⟩
    rfl
  · rw [result]
    exact changes
  · rw [result]
    exact start
  · rw [result]

end Call

/-! ### Runs -/

section Runs

variable {request : Request} {before system : System}

theorem allowed_inside {channel : UInt8} (allowed : before.allowed channel) :
    channel - 1 < numServoChannels := by
  obtain ⟨nonzero, bit⟩ := Bool.and_eq_true_iff.mp allowed
  have positive : 1 ≤ channel.toNat := by
    refine Nat.one_le_iff_ne_zero.mpr fun zero => ?_
    rw [UInt8.toNat_inj.mp (zero.trans UInt8.toNat_zero.symm)] at nonzero
    cases nonzero
  have inside : channel.toNat - 1 < 16 := by
    by_contra outside
    have clear := Nat.testBit_lt_two_pow (x := before.mask.toNat) (i := channel.toNat - 1)
      (before.mask.toNat_lt.trans_le (Nat.pow_le_pow_right (by decide) (not_lt.mp outside)))
    rw [clear] at bit
    cases bit
  have least : (1 : UInt8) ≤ channel := UInt8.le_iff_toNat_le.mpr positive
  rw [UInt8.lt_iff_toNat_lt, UInt8.toNat_sub_of_le _ _ least]
  exact inside

theorem make_spec (accepted : request.Accepted before) (call : Call) :
    ∃ begun, request.make { before with changes := [] } call = some (begun.updateEvents call) ∧
      Going request before begun ∧ begun.changes = [] ∧ begun.startTimeMs = 0 ∧
      begun.repeatCount = request.count * 2 := by
  have even : ¬ (request.count * 2) &&& 1 ≠ 0 := by
    have two : (2 : Int16).toInt = 2 := rfl
    rw [lowBit_iff, Int16.toInt_mul, two, Int.bmod]
    omega
  have phase : (request.count * 2) &&& 1 ≠ 0 ↔ ([] : List Change).length % 2 = 1 :=
    ⟨fun odd => absurd odd even, fun odd => absurd odd (by decide)⟩
  cases request with
  | servo channel servoValue repeatCount delayMs =>
    refine ⟨_, if_pos accepted, ⟨⟨?_, rfl, rfl, rfl, rfl, allowed_inside accepted⟩, phase, rfl, rfl,
      List.isChain_nil, nofun⟩, rfl, rfl, rfl⟩
    have small := delayMs.toNat_lt
    have two : (2 : UInt16).toNat = 2 := rfl
    simp only [UInt16.toNat_div, Request.half, two]
    exact (Nat.mod_eq_of_lt (by omega)).symm
  | relay relayNum repeatCount delayMs =>
    refine ⟨_, if_pos accepted, ⟨⟨?_, rfl, rfl, rfl, accepted⟩, phase, rfl, rfl,
      List.isChain_nil, nofun⟩, rfl, rfl, rfl⟩
    simp only [UInt32.toNat_toUInt16, UInt32.toNat_div, Request.half]
    rfl

/-- The counter holds the half cycles that are left. -/
def Counted (request : Request) (system : System) : Prop :=
  0 ≤ system.repeatCount.toInt ∧
    system.repeatCount.toInt = 2 * request.count.toInt - system.changes.length

/-- A run keeps what holds of a request whose cycles fit in the counter. -/
theorem runCalls_counted {since : ℕ} {calls : List Call} (going : Going request before system)
    (counted : Counted request system) (start : system.startTimeMs.toNat ≤ since)
    (order : InOrder since calls) :
    Going request before (runCalls System.updateEvents system calls) ∧
      Counted request (runCalls System.updateEvents system calls) := by
  induction calls generalizing system since with
  | nil => exact ⟨going, counted⟩
  | cons call rest inductionHypothesis =>
    obtain ⟨later, readings, order⟩ := order
    rw [runCalls_cons]
    by_cases acts : Acts system call
    · obtain ⟨going', longer, start', counter⟩ := going_act going acts (start.trans later) readings
      have nonzero : system.repeatCount.toInt ≠ 0 := fun zero =>
        acts.1 (Int16.toInt_inj.mp (zero.trans rfl))
      have fewer := nextRepeat_pos (lt_of_le_of_ne counted.1 nonzero.symm)
      refine inductionHypothesis going' ⟨?_, ?_⟩ (by rw [start']) order
      · rw [counter, fewer]
        have nonneg := counted.1
        omega
      · rw [counter, fewer, longer, counted.2, List.length_append, List.length_singleton]
        omega
    · rw [updateEvents_idle acts]
      exact inductionHypothesis going counted (start.trans (later.trans readings)) order

/-- What holds in a run is what the request asks for. -/
theorem Going.followed (going : Going request before system) (counted : Counted request system)
    (nonneg : 0 ≤ request.count.toInt) (fits : request.half < 65536 ∨ request.count = 0) :
    request.Followed before system := by
  obtain ⟨left, exact⟩ := counted
  refine ⟨by omega, ?_, going.outputs, fun all => ?_⟩
  · rcases fits with short | none
    · have whole : request.half % 65536 = request.half := Nat.mod_eq_of_lt short
      exact whole ▸ going.apart
    · rw [none, show (0 : Int16).toInt = 0 from rfl] at exact
      rw [List.eq_nil_of_length_eq_zero (by omega : system.changes.length = 0)]
      exact List.isChain_nil
  · have placed := going.placed
    cases request with
    | servo channel servoValue repeatCount delayMs =>
      rw [Request.Placed, if_neg (by omega : ¬ system.changes.length % 2 = 1)] at placed
      refine placed.trans (if_congr ?_ rfl rfl)
      rw [← Int16.toInt_inj, all]
      simp only [Request.count] at nonneg ⊢
      have zero : (0 : Int16).toInt = 0 := rfl
      omega
    | relay relayNum repeatCount delayMs =>
      rw [Request.Placed, if_pos (by omega)] at placed
      exact placed

theorem run_eq {begun : System} {first : Call}
    (made : request.make { before with changes := [] } first = some (begun.updateEvents first))
    (calls : List Call) :
    request.run before first calls =
      some (runCalls System.updateEvents begun (first :: calls)) := by
  rw [Request.run, made]
  rfl

theorem run_followed (accepted : request.Accepted before) (nonneg : 0 ≤ request.count.toInt)
    (few : request.count.toInt < 16384) (fits : request.half < 65536 ∨ request.count = 0)
    {first : Call} {calls : List Call} (order : InOrder 0 (first :: calls)) {after : System}
    (result : request.run before first calls = some after) : request.Followed before after := by
  obtain ⟨begun, made, going, fresh, start, counter⟩ := make_spec accepted first
  have counted : Counted request begun := by
    rw [Counted, counter, fresh, twice_toInt nonneg, if_pos few]
    exact ⟨by omega, by simp⟩
  have kept := runCalls_counted going counted (by rw [start]; rfl) order
  rw [run_eq made, Option.some.injEq] at result
  rw [← result]
  exact kept.1.followed kept.2 nonneg fits

/-! ### Where it goes wrong -/

/-- A call that comes exactly one delay behind the one before. -/
def tick (delay number : ℕ) : Call :=
  ⟨UInt32.ofNat ((number + 1) * delay), UInt32.ofNat ((number + 1) * delay)⟩

theorem tick_toNat {delay number : ℕ} (small : (number + 1) * delay < 4294967296) :
    (tick delay number).now.toNat = (number + 1) * delay ∧
      (tick delay number).later.toNat = (number + 1) * delay :=
  ⟨UInt32.toNat_ofNat_of_lt' small, UInt32.toNat_ofNat_of_lt' small⟩

theorem ticks_inOrder {delay since count number : ℕ} (start : since ≤ (number + 1) * delay)
    (small : (number + count) * delay < 4294967296) :
    InOrder since ((List.range' number count).map (tick delay)) := by
  induction count generalizing since number with
  | zero => trivial
  | succ count inductionHypothesis =>
    have next : number + 1 + count = number + (count + 1) := by omega
    have least : (number + 1) * delay ≤ (number + (count + 1)) * delay :=
      Nat.mul_le_mul_right delay (by omega)
    obtain ⟨now, later⟩ := tick_toNat (least.trans_lt small)
    rw [List.range'_succ, List.map_cons]
    refine ⟨now ▸ start, (now.trans later.symm).le, ?_⟩
    rw [later]
    exact inductionHypothesis (Nat.mul_le_mul_right delay (by omega)) (next ▸ small)

/-- With such calls every one changes the output until the counter is zero. -/
theorem tick_acts (going : Going request before system) {number : ℕ}
    (start : system.startTimeMs.toNat = number * (request.half % 65536))
    (small : (number + 1) * (request.half % 65536) < 4294967296) (more : system.repeatCount ≠ 0) :
    Acts system (tick (request.half % 65536) number) ∧
      system.startTimeMs.toNat ≤ (tick (request.half % 65536) number).now.toNat := by
  obtain ⟨now, -⟩ := tick_toNat small
  have next : (number + 1) * (request.half % 65536) =
      number * (request.half % 65536) + request.half % 65536 := Nat.succ_mul _ _
  have order : system.startTimeMs.toNat ≤ (tick (request.half % 65536) number).now.toNat := by omega
  refine ⟨⟨more, ?_⟩, order⟩
  have wide : system.delayMs.toUInt32.toNat = system.delayMs.toNat := UInt16.toNat_toUInt32 _
  rw [UInt32.lt_iff_toNat_lt, UInt32.toNat_sub_of_le _ _ (UInt32.le_iff_toNat_le.mpr order), wide,
    going.serves.delay]
  omega

/-- A negative counter goes on for ever. -/
theorem runCalls_forever (going : Going request before system)
    (negative : system.repeatCount.toInt < 0) {number count : ℕ}
    (start : system.startTimeMs.toNat = number * (request.half % 65536))
    (small : (number + count) * (request.half % 65536) < 4294967296) :
    (runCalls System.updateEvents system
      ((List.range' number count).map (tick (request.half % 65536)))).changes.length =
        system.changes.length + count := by
  induction count generalizing system number with
  | zero => rfl
  | succ count inductionHypothesis =>
    have next : number + 1 + count = number + (count + 1) := by omega
    have least : (number + 1) * (request.half % 65536) ≤
        (number + (count + 1)) * (request.half % 65536) := Nat.mul_le_mul_right _ (by omega)
    have nonzero : system.repeatCount ≠ 0 := fun zero => by
      rw [zero] at negative
      exact absurd negative (by decide)
    obtain ⟨acts, order⟩ := tick_acts going start (least.trans_lt small) nonzero
    obtain ⟨now, later⟩ := tick_toNat (least.trans_lt small)
    obtain ⟨going', longer, start', counter⟩ := going_act going acts order (now.trans later.symm).le
    rw [List.range'_succ, List.map_cons, runCalls_cons, inductionHypothesis going'
      (by rw [counter]; exact nextRepeat_neg negative) (by rw [start', later]) (next ▸ small), longer,
      List.length_append, List.length_singleton]
    omega

/-- With too many cycles the changes do not end. -/
theorem many_not_followed (accepted : request.Accepted before)
    (many : 16384 ≤ request.count.toInt) :
    ∃ first calls after, InOrder 0 (first :: calls) ∧
      request.run before first calls = some after ∧ ¬ request.Followed before after := by
  have high := request.count.toInt_lt
  have short := Nat.mod_lt request.half (by decide : 0 < 65536)
  obtain ⟨begun, made, going, fresh, start, counter⟩ :=
    make_spec accepted (tick (request.half % 65536) 0)
  have negative : begun.repeatCount.toInt < 0 := by
    rw [counter, twice_toInt (by omega), if_neg (by omega)]
    omega
  have small : (0 + (2 * request.count.toInt.toNat + 1)) * (request.half % 65536) < 4294967296 :=
    (Nat.mul_le_mul (by omega : 0 + (2 * request.count.toInt.toNat + 1) ≤ 65535)
      (by omega : request.half % 65536 ≤ 65535)).trans_lt (by decide)
  have ended := runCalls_forever going negative (by rw [start]; simp) small
  have order := ticks_inOrder (Nat.zero_le _) small
  rw [List.range'_succ, List.map_cons] at ended order
  refine ⟨_, _, _, order, run_eq made _, fun followed => ?_⟩
  have most := followed.most
  rw [ended, fresh, List.length_nil] at most
  omega

/-- With a delay that is too long the changes follow each other too soon. -/
theorem long_not_followed (accepted : request.Accepted before) (someCycles : 0 < request.count.toInt)
    (few : request.count.toInt < 16384) (long : 65536 ≤ request.half) :
    ∃ first calls after, InOrder 0 (first :: calls) ∧
      request.run before first calls = some after ∧ ¬ request.Followed before after := by
  have short := Nat.mod_lt request.half (by decide : 0 < 65536)
  obtain ⟨begun, made, going, fresh, start, counter⟩ :=
    make_spec accepted (tick (request.half % 65536) 0)
  have left : begun.repeatCount.toInt = 2 * request.count.toInt := by
    rw [counter, twice_toInt someCycles.le, if_pos few]
  have notZero {number : Int16} (positive : 0 < number.toInt) : number ≠ 0 := fun zero => by
    rw [zero] at positive
    exact absurd positive (by decide)
  have first := tick_toNat (by omega : (0 + 1) * (request.half % 65536) < 4294967296)
  have second := tick_toNat (by omega : (1 + 1) * (request.half % 65536) < 4294967296)
  have order := @ticks_inOrder (request.half % 65536) 0 2 0 (Nat.zero_le _) (by omega)
  obtain ⟨acts, readings⟩ := @tick_acts _ _ _ going 0 (by rw [start]; simp) (by omega)
    (notZero (by omega))
  obtain ⟨going', longer, start', counter'⟩ := going_act going acts readings
    (first.1.trans first.2.symm).le
  obtain ⟨acts', readings'⟩ := @tick_acts _ _ _ going' 1 (by rw [start', first.2]) (by omega)
    (notZero (by rw [counter', nextRepeat_pos (by omega)]; omega))
  obtain ⟨-, longer', -, -⟩ := going_act going' acts' readings' (second.1.trans second.2.symm).le
  refine ⟨tick _ 0, [tick _ 1], _, order, run_eq made _, fun followed => ?_⟩
  have apart := followed.apart
  rw [runCalls_cons, runCalls_cons, runCalls_nil, longer', longer, fresh, List.nil_append,
    List.singleton_append, List.isChain_pair, first.2, second.2] at apart
  omega

/-- A request is followed in every run if and only if its cycles fit in half of the counter and half
of its delay fits in 16 bits, unless there are no cycles. -/
theorem followed_iff (request : Request) (before : System) (accepted : request.Accepted before)
    (nonneg : 0 ≤ request.count.toInt) :
    (∀ first calls after, InOrder 0 (first :: calls) →
      request.run before first calls = some after → request.Followed before after) ↔
    request.count.toInt < 16384 ∧ (request.half < 65536 ∨ request.count = 0) := by
  constructor
  · intro all
    have few : request.count.toInt < 16384 := by
      by_contra many
      obtain ⟨first, calls, after, order, result, wrong⟩ :=
        many_not_followed accepted (not_lt.mp many)
      exact wrong (all first calls after order result)
    refine ⟨few, or_iff_not_imp_left.mpr fun long => ?_⟩
    by_contra nonzero
    have positive : request.count.toInt ≠ 0 := fun zero =>
      nonzero (Int16.toInt_inj.mp (zero.trans rfl))
    obtain ⟨first, calls, after, order, result, wrong⟩ :=
      long_not_followed accepted (lt_of_le_of_ne nonneg positive.symm) few (not_lt.mp long)
    exact wrong (all first calls after order result)
  · rintro ⟨few, fits⟩ first calls after order result
    exact run_followed accepted nonneg few fits order result

/-- Relays that are all enabled and off, and servos that are all allowed and at their trim. -/
def quiet : System :=
  ⟨65535, .relay, 0, 0, 0, 0, 0, fun _ => 1500, fun _ => 1500, fun _ => true, fun _ => false, []⟩

/-- Three cycles of a servo at two hertz. -/
theorem followed_servo :
    (∀ first calls after, InOrder 0 (first :: calls) →
      (Request.servo 8 1900 3 500).run quiet first calls = some after →
        (Request.servo 8 1900 3 500).Followed quiet after) ↔
    (Request.servo 8 1900 3 500).count.toInt < 16384 ∧
      ((Request.servo 8 1900 3 500).half < 65536 ∨ (Request.servo 8 1900 3 500).count = 0) :=
  followed_iff (.servo 8 1900 3 500) quiet (show quiet.allowed 8 by decide) (by decide)

/-- A relay that is to be on for 65.537 seconds is off again after a millisecond. -/
theorem not_followed_long_delay :
    ¬ ∀ first calls after, InOrder 0 (first :: calls) →
      (Request.relay 0 1 131074).run quiet first calls = some after →
        (Request.relay 0 1 131074).Followed quiet after := by
  intro all
  obtain ⟨after, result, changes⟩ : ∃ after,
      (Request.relay 0 1 131074).run quiet ⟨10000, 10000⟩ [⟨10001, 10001⟩] = some after ∧
        after.changes = [⟨10000, .toggle 0⟩, ⟨10001, .toggle 0⟩] := ⟨_, rfl, rfl⟩
  have order : InOrder 0 [⟨10000, 10000⟩, ⟨10001, 10001⟩] :=
    ⟨by decide, by decide, by decide, by decide, trivial⟩
  have apart := (all _ _ after order result).apart
  rw [changes, List.isChain_pair] at apart
  exact absurd apart (by decide)

end Runs

end Urus.ServoRelayEvents
