/-
This file develops call traces. A program acts on a device through calls, one after
another, and the device may lose power between any two of them. What a statement
about such a program needs is a hold on every intermediate state of the device, not
only on the last one: `Along good fair state calls` says that the device is in a good
state before, between and after the calls, and that each call is fair in the state it
is made in.

The rules are those of a run: a trace splits where it is appended, a prefix of a good
trace ends in a good state, and a good trace stays good under weaker predicates.

A program that keeps a log of its calls goes from one state to another by the calls
that it logged in between: `Performs` says so, with a hold on every state of the device
on the way, and `deviceAtLoss` is the device behind the first few of these calls.

The last part is about the program itself. An event takes the system from one state
to the next, or to none when the program would not come back. A run meets a condition
if each of its events does, in the state in which it happens, and an invariant that
every event keeps under the condition holds at the end of every run that meets it.
-/

import Mathlib.Tactic

namespace Urus

section Trace

variable {Device Call : Type} (apply : Device → Call → Device)

/-- The device after a list of calls. -/
def runCalls (device : Device) (calls : List Call) : Device := calls.foldl apply device

/-- Every state along the calls is good and every call is fair where it is made. -/
def Along (good : Device → Prop) (fair : Device → Call → Prop) : Device → List Call → Prop
  | device, [] => good device
  | device, call :: rest => good device ∧ fair device call ∧ Along good fair (apply device call) rest

variable {apply} {good good' : Device → Prop} {fair fair' : Device → Call → Prop}

@[simp] theorem runCalls_nil (device : Device) : runCalls apply device [] = device := rfl

@[simp] theorem runCalls_cons (device : Device) (call : Call) (rest : List Call) :
    runCalls apply device (call :: rest) = runCalls apply (apply device call) rest := rfl

theorem runCalls_append (device : Device) (first second : List Call) :
    runCalls apply device (first ++ second) = runCalls apply (runCalls apply device first) second :=
  List.foldl_append

variable {calls : List Call} {device : Device}

theorem runCalls_invariant (invariant : Device → Prop) {device : Device} {calls : List Call}
    (kept : ∀ device, ∀ call ∈ calls, invariant device → invariant (apply device call))
    (start : invariant device) : invariant (runCalls apply device calls) := by
  induction calls generalizing device with
  | nil => exact start
  | cons call rest inductionHypothesis =>
    exact inductionHypothesis
      (fun device other member => kept device other (List.mem_cons_of_mem _ member))
      (kept device call List.mem_cons_self start)

theorem Along.stop (along : Along apply good fair device calls) :
    good (runCalls apply device calls) := by
  induction calls generalizing device with
  | nil => exact along
  | cons call rest inductionHypothesis => exact inductionHypothesis along.2.2

theorem Along.append {first second : List Call} (before : Along apply good fair device first)
    (after : Along apply good fair (runCalls apply device first) second) :
    Along apply good fair device (first ++ second) := by
  induction first generalizing device with
  | nil => exact after
  | cons call rest inductionHypothesis =>
    exact ⟨before.1, before.2.1, inductionHypothesis before.2.2 after⟩

/-- Power lost after any number of calls leaves the device in a good state. -/
theorem Along.cut (along : Along apply good fair device calls) (count : Nat) :
    good (runCalls apply device (calls.take count)) := by
  induction calls generalizing device count with
  | nil =>
    rw [List.take_nil]
    exact along
  | cons call rest inductionHypothesis =>
    cases count with
    | zero => exact along.1
    | succ count => exact inductionHypothesis along.2.2 count

theorem Along.invariant {invariant : Device → Prop} (along : Along apply good fair device calls)
    (kept : ∀ device call, invariant device → fair device call → invariant (apply device call))
    (start : invariant device) : invariant (runCalls apply device calls) := by
  induction calls generalizing device with
  | nil => exact start
  | cons call rest inductionHypothesis =>
    exact inductionHypothesis along.2.2 (kept device call start along.2.1)

theorem Along.and_mem {plain : Call → Prop} (along : Along apply good fair device calls)
    (all : ∀ call ∈ calls, plain call) :
    Along apply good (fun device call => fair device call ∧ plain call) device calls := by
  induction calls generalizing device with
  | nil => exact along
  | cons call rest inductionHypothesis =>
    exact ⟨along.1, ⟨along.2.1, all call List.mem_cons_self⟩,
      inductionHypothesis along.2.2 fun other member => all other (List.mem_cons_of_mem _ member)⟩

/-- If under an invariant the fair calls are those behind which the device is good, then a device
that is good behind all the first calls has met only fair calls, and the other way round. -/
theorem along_iff_of_exact (invariant : Device → Prop)
    (kept : ∀ device, ∀ call ∈ calls, invariant device → fair device call → invariant (apply device call))
    (enough : ∀ device, invariant device → good device)
    (needed : ∀ device call, invariant device → good (apply device call) → fair device call)
    (start : invariant device) :
    (∀ count, good (runCalls apply device (calls.take count))) ↔
      Along apply (fun _ => True) fair device calls := by
  induction calls generalizing device with
  | nil => exact ⟨fun _ => trivial, fun _ count => by
      rw [List.take_nil]
      exact enough device start⟩
  | cons call rest inductionHypothesis =>
    have onward : ∀ next, invariant next → _ := fun next holds =>
      @inductionHypothesis next
        (fun device other member => kept device other (List.mem_cons_of_mem _ member)) holds
    constructor
    · intro all
      have allowed : fair device call := needed device call start (all 1)
      have next : invariant (apply device call) :=
        kept device call List.mem_cons_self start allowed
      exact ⟨trivial, allowed, (onward _ next).mp fun count => all (count + 1)⟩
    · rintro ⟨-, allowed, remaining⟩ count
      have next : invariant (apply device call) :=
        kept device call List.mem_cons_self start allowed
      cases count with
      | zero => exact enough device start
      | succ count => exact (onward _ next).mpr remaining count

instance decidableAlong [DecidablePred good] [∀ device call, Decidable (fair device call)] :
    ∀ (calls : List Call) (device : Device), Decidable (Along apply good fair device calls)
  | [], device => inferInstanceAs (Decidable (good device))
  | call :: rest, device =>
    let _ := decidableAlong rest (apply device call)
    inferInstanceAs (Decidable
      (good device ∧ fair device call ∧ Along apply good fair (apply device call) rest))

theorem Along.mono (along : Along apply good fair device calls)
    (weaker : ∀ device, good device → good' device)
    (fairer : ∀ device call, fair device call → fair' device call) :
    Along apply good' fair' device calls := by
  induction calls generalizing device with
  | nil => exact weaker _ along
  | cons call rest inductionHypothesis =>
    exact ⟨weaker _ along.1, fairer _ _ along.2.1, inductionHypothesis along.2.2⟩

end Trace

section Logged

variable {State Device Call : Type} (apply : Device → Call → Device) (device : State → Device)
  (log : State → List Call)

/-- The second state is reached from the first by fair calls, and every state of the device on
the way is good. -/
def Performs (good : Device → Prop) (fair : Device → Call → Prop) (before after : State) : Prop :=
  ∃ calls, log after = log before ++ calls ∧
    device after = runCalls apply (device before) calls ∧
    Along apply good fair (device before) calls

/-- The device behind the first calls that lead from one state to a later one. -/
def deviceAtLoss (before after : State) (count : Nat) : Device :=
  runCalls apply (device before) (((log after).drop (log before).length).take count)

variable {apply} {device} {log} {good good' : Device → Prop} {fair : Device → Call → Prop}
  {before between after : State}

theorem Performs.refl (start : good (device before)) :
    Performs apply device log good fair before before :=
  ⟨[], (List.append_nil _).symm, rfl, start⟩

theorem Performs.stop (steps : Performs apply device log good fair before after) :
    good (device after) := by
  obtain ⟨calls, -, reached, along⟩ := steps
  rw [reached]
  exact along.stop

theorem Performs.trans (first : Performs apply device log good fair before between)
    (second : Performs apply device log good fair between after) :
    Performs apply device log good fair before after := by
  obtain ⟨calls, logged, reached, along⟩ := first
  obtain ⟨calls', logged', reached', along'⟩ := second
  refine ⟨calls ++ calls', ?_, ?_, ?_⟩
  · rw [logged', logged, List.append_assoc]
  · rw [reached', reached, runCalls_append]
  · rw [reached] at along'
    exact along.append along'

theorem Performs.mono (steps : Performs apply device log good fair before after)
    (weaker : ∀ device, good device → good' device) :
    Performs apply device log good' fair before after := by
  obtain ⟨calls, logged, reached, along⟩ := steps
  exact ⟨calls, logged, reached, along.mono weaker fun _ _ fair => fair⟩

theorem Performs.call (call : Call) (logged : log after = log before ++ [call])
    (reached : device after = apply (device before) call) (start : good (device before))
    (allowed : fair (device before) call) (stop : good (device after)) :
    Performs apply device log good fair before after :=
  ⟨[call], logged, reached, start, allowed, reached ▸ stop⟩

/-- Power lost on the way leaves the device in a good state. -/
theorem Performs.atLoss (steps : Performs apply device log good fair before after) (count : Nat) :
    good (deviceAtLoss apply device log before after count) := by
  obtain ⟨calls, logged, -, along⟩ := steps
  rw [deviceAtLoss, logged, List.drop_left]
  exact along.cut count

end Logged

section Run

variable {System Event : Type} (step : System → Event → Option System)

/-- The system after a list of events. -/
def runSteps : System → List Event → Option System
  | system, [] => some system
  | system, event :: rest => (step system event).bind fun next => runSteps next rest

/-- Every event meets the condition in the state in which it happens. -/
def Meets (condition : System → Event → Prop) : System → List Event → Prop
  | _, [] => True
  | system, event :: rest =>
    condition system event ∧ ∀ next, step system event = some next → Meets condition next rest

variable {step} {condition : System → Event → Prop}

/-- A run comes back, and keeps what every step keeps. -/
theorem runSteps_invariant (invariant : System → Prop)
    (kept : ∀ system event, invariant system → condition system event →
      ∃ next, step system event = some next ∧ invariant next)
    (events : List Event) (system : System) (start : invariant system)
    (meets : Meets step condition system events) :
    ∃ final, runSteps step system events = some final ∧ invariant final := by
  induction events generalizing system with
  | nil => exact ⟨system, rfl, start⟩
  | cons event rest inductionHypothesis =>
    obtain ⟨next, reached, holds⟩ := kept system event start meets.1
    obtain ⟨final, result, done⟩ := inductionHypothesis next holds (meets.2 next reached)
    refine ⟨final, ?_, done⟩
    rw [runSteps, reached]
    exact result

variable {events : List Event} {system final : System}

/-- What every step that comes back keeps holds at the end of a run that comes back. -/
theorem runSteps_keeps (invariant : System → Prop)
    (kept : ∀ system event next, invariant system → condition system event → step system event = some next → invariant next)
    (start : invariant system) (meets : Meets step condition system events)
    (reached : runSteps step system events = some final) : invariant final := by
  induction events generalizing system with
  | nil =>
    rw [← Option.some.inj reached]
    exact start
  | cons event rest inductionHypothesis =>
    obtain ⟨next, stepped, remaining⟩ := Option.bind_eq_some_iff.mp reached
    exact inductionHypothesis (kept system event next start meets.1 stepped)
      (meets.2 next stepped) remaining

theorem runSteps_append (system : System) (first second : List Event) :
    runSteps step system (first ++ second) =
      (runSteps step system first).bind fun next => runSteps step next second := by
  induction first generalizing system with
  | nil => rfl
  | cons event rest inductionHypothesis =>
    rw [List.cons_append, runSteps, runSteps, Option.bind_assoc]
    congr 1
    funext next
    exact inductionHypothesis next

theorem Meets.append_right {first second : List Event} {system middle : System}
    (meets : Meets step condition system (first ++ second))
    (reached : runSteps step system first = some middle) :
    Meets step condition middle second := by
  induction first generalizing system with
  | nil =>
    rw [← Option.some.inj reached]
    exact meets
  | cons event rest inductionHypothesis =>
    obtain ⟨next, stepped, remaining⟩ := Option.bind_eq_some_iff.mp reached
    exact inductionHypothesis (meets.2 next stepped) remaining

theorem Meets.append_left {first second : List Event} {system : System}
    (meets : Meets step condition system (first ++ second)) :
    Meets step condition system first := by
  induction first generalizing system with
  | nil => trivial
  | cons event rest inductionHypothesis =>
    exact ⟨meets.1, fun next stepped => inductionHypothesis (meets.2 next stepped)⟩

theorem Meets.and {condition' : System → Event → Prop} {system : System}
    (first : Meets step condition system events) (second : Meets step condition' system events) :
    Meets step (fun system event => condition system event ∧ condition' system event) system
      events := by
  induction events generalizing system with
  | nil => trivial
  | cons event rest inductionHypothesis =>
    exact ⟨⟨first.1, second.1⟩, fun next reached =>
      inductionHypothesis (first.2 next reached) (second.2 next reached)⟩

theorem meets_of_kept (invariant : System → Prop)
    (needed : ∀ system event next, invariant system → step system event = some next → invariant next → condition system event)
    (reached : runSteps step system events = some final)
    (along : ∀ count middle, runSteps step system (events.take count) = some middle → invariant middle)
    : Meets step condition system events := by
  induction events generalizing system with
  | nil => trivial
  | cons event rest inductionHypothesis =>
    obtain ⟨next, stepped, remaining⟩ := Option.bind_eq_some_iff.mp reached
    have onward : ∀ count, runSteps step system ((event :: rest).take (count + 1)) =
        runSteps step next (rest.take count) := by
      intro count
      rw [List.take_succ_cons, runSteps, stepped]
      rfl
    have behind : invariant next := along 1 next (onward 0)
    refine ⟨needed system event next (along 0 system rfl) stepped behind, fun other same => ?_⟩
    cases stepped.symm.trans same
    exact inductionHypothesis remaining fun count middle got =>
      along (count + 1) middle ((onward count).trans got)

theorem rel_bind {related : System → System → Prop} {first second : Option System}
    {onward onward' : System → Option System} (both : Option.Rel related first second)
    (kept : ∀ next next', related next next' → Option.Rel related (onward next) (onward' next')) :
    Option.Rel related (first.bind onward) (second.bind onward') := by
  cases both with
  | none => exact .none
  | some both => exact kept _ _ both

/-- Related results look the same to an observer that cannot tell related values apart. -/
theorem rel_map {First Second Seen : Type} {related : First → Second → Prop}
    {first : Option First} {second : Option Second} (both : Option.Rel related first second)
    {see : First → Seen} {see' : Second → Seen}
    (alike : ∀ value value', related value value' → see value = see' value') :
    first.map see = second.map see' := by
  cases both with
  | none => rfl
  | some kept => exact congrArg some (alike _ _ kept)

/-- Two runs, one with and one without hidden events, stay related: they both come back, in
related states, or neither does. -/
theorem runSteps_hidden (related : System → System → Prop) (hidden : Event → Bool)
    (visible : ∀ event ∈ events, hidden event = false → ∀ first second, related first second → Option.Rel related (step first event) (step second event))
    (silent : ∀ event ∈ events, hidden event = true → ∀ first second, related first second → ∃ next, step first event = some next ∧ related next second)
    {first second : System} (start : related first second) :
    Option.Rel related (runSteps step first events)
      (runSteps step second (events.filter fun event => !hidden event)) := by
  induction events generalizing first second with
  | nil => exact .some start
  | cons event rest inductionHypothesis =>
    have onward := @inductionHypothesis
      (fun other member => visible other (List.mem_cons_of_mem _ member))
      (fun other member => silent other (List.mem_cons_of_mem _ member))
    cases kind : hidden event with
    | true =>
      obtain ⟨next, stepped, kept⟩ := silent event List.mem_cons_self kind first second start
      rw [List.filter_cons_of_neg (by simp [kind]), runSteps, stepped]
      exact onward kept
    | false =>
      rw [List.filter_cons_of_pos (by simp [kind]), runSteps, runSteps]
      exact rel_bind (visible event List.mem_cons_self kind first second start)
        fun _ _ kept => onward kept

/-- A condition on the result of a step is decided on the result. -/
instance decidableForallResult {Result : Type} (result : Option Result) (property : Result → Prop)
    [DecidablePred property] : Decidable (∀ value, result = some value → property value) :=
  match result with
  | none => isTrue fun _ impossible => nomatch impossible
  | some value =>
    decidable_of_iff (property value)
      ⟨fun holds _ same => Option.some.inj same ▸ holds, fun all => all value rfl⟩

instance decidableMeets [∀ system event, Decidable (condition system event)] :
    ∀ (events : List Event) (system : System), Decidable (Meets step condition system events)
  | [], _ => isTrue trivial
  | event :: rest, system =>
    let _ : DecidablePred fun next => Meets step condition next rest := decidableMeets rest
    inferInstanceAs (Decidable (condition system event ∧
      ∀ next, step system event = some next → Meets step condition next rest))

/-- A condition that does not look at the state is met when every event meets it. -/
theorem meets_of_forall {plain : Event → Prop} (events : List Event) (system : System)
    (all : ∀ event ∈ events, plain event) : Meets step (fun _ => plain) system events := by
  induction events generalizing system with
  | nil => trivial
  | cons event rest inductionHypothesis =>
    exact ⟨all event List.mem_cons_self, fun next _ =>
      inductionHypothesis next fun other member => all other (List.mem_cons_of_mem _ member)⟩

end Run

end Urus
