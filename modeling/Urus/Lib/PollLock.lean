/-
This file is a library about locks that are taken by trying. Takers come and go in any order. A taker
whose first try fails gives up, or waits and tries again after each pause until it has the lock or
gives up. When to give up is a policy.

At most one taker holds the lock, whatever the policy. That nobody gives up too early is shown with a
statement about a taker that waits: it holds when the wait begins, every pause keeps it, and it leaves
no way to give up early.
-/

import Urus.Lib.Trace

namespace Urus.PollLock

/-! ### The lock -/

/-- What a taker does after its first try and after each further try, if they fail: it waits on, or
gives up. -/
structure Policy (Timeout : Type) where
  Wait : Type
  start : Timeout → ℕ → Option Wait
  next : Wait → ℕ → Option Wait
  pause : Wait → ℕ

/-- A taker that waits: when it came, when it has tried last, and what it remembers. -/
structure Session {Timeout : Type} (policy : Policy Timeout) where
  timeout : Timeout
  since : ℕ
  last : ℕ
  wait : policy.Wait

/-- A taker comes back, after some time. -/
structure Returned (Timeout : Type) where
  taker : ℕ
  timeout : Timeout
  waited : ℕ
  result : Bool

/-- The lock, who holds it, who waits for it, and who has come back. -/
structure Lock {Timeout : Type} (policy : Policy Timeout) where
  taken : Bool
  holders : List ℕ
  sessions : ℕ → Option (Session policy)
  clock : ℕ
  log : List (Returned Timeout)

/-- Someone tries once, begins to take the lock, tries again, or gives the lock back. -/
inductive Step (Timeout : Type)
  | tryOnce (taker now : ℕ)
  | take (taker : ℕ) (timeout : Timeout) (now : ℕ)
  | poll (taker now : ℕ)
  | give (taker now : ℕ)

section Steps

variable {Timeout : Type} {policy : Policy Timeout}

/-- A lock that is free. -/
def Lock.free : Lock policy := ⟨false, [], fun _ => none, 0, []⟩

/-- The lock is taken. -/
def Lock.acquire (lock : Lock policy) (taker : ℕ) : Lock policy :=
  { lock with taken := true, holders := taker :: lock.holders }

/-- A taker comes back. -/
def Lock.report (lock : Lock policy) (returned : Returned Timeout) : Lock policy :=
  { lock with log := lock.log ++ [returned] }

/-- What a taker is doing. -/
def Lock.setSession (lock : Lock policy) (taker : ℕ) (session : Option (Session policy)) :
    Lock policy :=
  { lock with sessions := Function.update lock.sessions taker session }

def Lock.step (lock : Lock policy) : Step Timeout → Lock policy
  | .tryOnce taker now =>
    if lock.taken then { lock with clock := now } else { lock with clock := now }.acquire taker
  | .take taker timeout now =>
    if lock.taken then
      match policy.start timeout now with
      | none => { lock with clock := now }.report ⟨taker, timeout, 0, false⟩
      | some wait => { lock with clock := now }.setSession taker (some ⟨timeout, now, now, wait⟩)
    else ({ lock with clock := now }.acquire taker).report ⟨taker, timeout, 0, true⟩
  | .poll taker now =>
    match lock.sessions taker with
    | none => lock
    | some session =>
      if lock.taken then
        match policy.next session.wait now with
        | none =>
          ({ lock with clock := now }.setSession taker none).report
            ⟨taker, session.timeout, now - session.since, false⟩
        | some wait =>
          { lock with clock := now }.setSession taker
            (some ⟨session.timeout, session.since, now, wait⟩)
      else
        (({ lock with clock := now }.setSession taker none).acquire taker).report
          ⟨taker, session.timeout, now - session.since, true⟩
  | .give taker now => { lock with taken := false, holders := lock.holders.erase taker, clock := now }

/-- The clock does not go back, a taker does one thing at a time, a pause is not cut short, and only a
holder gives the lock back. What may be asked for is a parameter. -/
def Legal (allowed : Timeout → ℕ → Prop) (lock : Lock policy) : Step Timeout → Prop
  | .tryOnce taker now => lock.clock ≤ now ∧ lock.sessions taker = none
  | .take taker timeout now => lock.clock ≤ now ∧ lock.sessions taker = none ∧ allowed timeout now
  | .poll taker now => lock.clock ≤ now ∧
      ∃ session, lock.sessions taker = some session ∧ session.last + policy.pause session.wait ≤ now
  | .give taker now => lock.clock ≤ now ∧ taker ∈ lock.holders

/-- The lock is free and nobody holds it, or one taker does. -/
def Exclusive (lock : Lock policy) : Prop :=
  (lock.taken = false ∧ lock.holders = []) ∨ (lock.taken = true ∧ ∃ taker, lock.holders = [taker])

/-- A taker that has come back without the lock has waited until its deadline. -/
def Returned.Patient (deadline : Timeout → Option ℕ) (returned : Returned Timeout) : Prop :=
  returned.result = false →
    ∃ time, deadline returned.timeout = some time ∧ time ≤ returned.waited

/-- At most one taker holds the lock, and nobody has given up too early. -/
def Good (deadline : Timeout → Option ℕ) (lock : Lock policy) : Prop :=
  lock.holders.length ≤ 1 ∧ ∀ returned ∈ lock.log, returned.Patient deadline

/-! ### What keeps it good -/

/-- A statement about takers that wait, with which nobody gives up too early. -/
structure Keeps (policy : Policy Timeout) (deadline : Timeout → Option ℕ)
    (allowed : Timeout → ℕ → Prop) (waiting : Timeout → ℕ → ℕ → policy.Wait → Prop) : Prop where
  start : ∀ {timeout now wait}, allowed timeout now → policy.start timeout now = some wait →
    waiting timeout now now wait
  refused : ∀ {timeout now}, allowed timeout now → policy.start timeout now = none →
    deadline timeout = some 0
  next : ∀ {timeout since last now wait wait'}, waiting timeout since last wait →
    last + policy.pause wait ≤ now → policy.next wait now = some wait' → waiting timeout since now wait'
  late : ∀ {timeout since last now wait}, waiting timeout since last wait →
    last + policy.pause wait ≤ now → policy.next wait now = none →
      ∃ time, deadline timeout = some time ∧ time ≤ now - since

/-- What holds in every state. -/
structure Sound (deadline : Timeout → Option ℕ)
    (waiting : Timeout → ℕ → ℕ → policy.Wait → Prop) (lock : Lock policy) : Prop where
  exclusive : Exclusive lock
  sessions : ∀ taker session, lock.sessions taker = some session →
    waiting session.timeout session.since session.last session.wait
  patient : ∀ returned ∈ lock.log, returned.Patient deadline

variable {deadline : Timeout → Option ℕ} {allowed : Timeout → ℕ → Prop}
  {waiting : Timeout → ℕ → ℕ → policy.Wait → Prop} {lock : Lock policy}

theorem Exclusive.acquire (exclusive : Exclusive lock) (free : lock.taken = false) (taker : ℕ) :
    Exclusive (lock.acquire taker) := by
  rcases exclusive with ⟨-, none⟩ | ⟨taken, -⟩
  · exact .inr ⟨rfl, taker, by rw [Lock.acquire, none]⟩
  · exact nomatch free.symm.trans taken

theorem Exclusive.give (exclusive : Exclusive lock) {taker : ℕ} (holds : taker ∈ lock.holders) :
    lock.holders.erase taker = [] := by
  rcases exclusive with ⟨-, none⟩ | ⟨-, holder, one⟩
  · rw [none] at holds
    cases holds
  · rw [one, List.mem_singleton] at holds
    rw [one, holds, List.erase_cons_head]

theorem Sound.report (sound : Sound deadline waiting lock) {returned : Returned Timeout}
    (patient : returned.Patient deadline) : Sound deadline waiting (lock.report returned) :=
  ⟨sound.exclusive, sound.sessions, fun other member =>
    (List.mem_append.mp member).elim (sound.patient other) fun last =>
      List.mem_singleton.mp last ▸ patient⟩

theorem setSession_self (lock : Lock policy) (taker : ℕ) (session : Option (Session policy)) :
    (lock.setSession taker session).sessions taker = session :=
  Function.update_self _ _ _

theorem setSession_other (lock : Lock policy) {taker other : ℕ} (session : Option (Session policy))
    (distinct : other ≠ taker) :
    (lock.setSession taker session).sessions other = lock.sessions other :=
  Function.update_of_ne distinct _ _

theorem Sound.setSession (sound : Sound deadline waiting lock) {taker : ℕ}
    {session : Option (Session policy)}
    (holds : ∀ inside, session = some inside →
      waiting inside.timeout inside.since inside.last inside.wait) :
    Sound deadline waiting (lock.setSession taker session) := by
  refine ⟨sound.exclusive, fun other inside found => ?_, sound.patient⟩
  by_cases same : other = taker
  · rw [same, setSession_self] at found
    exact holds inside found
  · rw [setSession_other _ _ same] at found
    exact sound.sessions other inside found

theorem Sound.clearSession (sound : Sound deadline waiting lock) (taker : ℕ) :
    Sound deadline waiting (lock.setSession taker none) :=
  sound.setSession nofun

theorem Sound.acquire (sound : Sound deadline waiting lock) (free : lock.taken = false) (taker : ℕ) :
    Sound deadline waiting (lock.acquire taker) :=
  ⟨sound.exclusive.acquire free taker, sound.sessions, sound.patient⟩

/-- Who comes back with the lock is patient enough. -/
theorem patient_of_true (taker waited : ℕ) (timeout : Timeout) :
    (⟨taker, timeout, waited, true⟩ : Returned Timeout).Patient deadline := nofun

theorem Sound.step (sound : Sound deadline waiting lock)
    (keeps : Keeps policy deadline allowed waiting) {step : Step Timeout}
    (legal : Legal allowed lock step) : Sound deadline waiting (lock.step step) := by
  have atNow (now : ℕ) : Sound deadline waiting { lock with clock := now } :=
    ⟨sound.exclusive, sound.sessions, sound.patient⟩
  cases step with
  | tryOnce taker now =>
    rw [Lock.step]
    split
    · exact atNow now
    · rename_i free
      exact (atNow now).acquire (Bool.not_eq_true _ ▸ free) taker
  | take taker timeout now =>
    obtain ⟨-, -, asked⟩ := legal
    rw [Lock.step]
    split
    · split
      · rename_i refused
        exact (atNow now).report fun _ => ⟨0, keeps.refused asked refused, le_rfl⟩
      · rename_i wait started
        refine (atNow now).setSession fun inside same => ?_
        rw [← Option.some.inj same]
        exact keeps.start asked started
    · rename_i free
      exact ((atNow now).acquire (Bool.not_eq_true _ ▸ free) taker).report (patient_of_true _ _ _)
  | poll taker now =>
    obtain ⟨-, session, found, paused⟩ := legal
    have holds := sound.sessions taker session found
    rw [Lock.step, found]
    simp only
    split
    · split
      · rename_i gone
        exact ((atNow now).clearSession taker).report fun _ => keeps.late holds paused gone
      · rename_i wait on
        refine (atNow now).setSession fun inside same => ?_
        rw [← Option.some.inj same]
        exact keeps.next holds paused on
    · rename_i free
      exact (((atNow now).clearSession taker).acquire (Bool.not_eq_true _ ▸ free) taker).report
        (patient_of_true _ _ _)
  | give taker now =>
    exact ⟨.inl ⟨rfl, sound.exclusive.give legal.2⟩, sound.sessions, sound.patient⟩

theorem Sound.good (sound : Sound deadline waiting lock) : Good deadline lock := by
  refine ⟨?_, sound.patient⟩
  rcases sound.exclusive with ⟨-, none⟩ | ⟨-, taker, one⟩
  · rw [none]
    exact Nat.zero_le 1
  · rw [one]
    exact le_rfl

/-- In every state of a legal run at most one taker holds the lock, and nobody has given up too
early. -/
theorem good_of_keeps (keeps : Keeps policy deadline allowed waiting) {steps : List (Step Timeout)}
    (legal : Along Lock.step (fun _ => True) (Legal allowed) (Lock.free : Lock policy) steps) :
    Good deadline (runCalls Lock.step (Lock.free : Lock policy) steps) :=
  (legal.invariant (fun _ _ sound fair => Sound.step sound keeps fair)
    (⟨.inl ⟨rfl, rfl⟩, nofun, nofun⟩ : Sound deadline waiting Lock.free)).good

/-! ### A taker that meets a holder -/

/-- One taker holds the lock, and another one waits. -/
def Lock.contended (timeout : Timeout) (since last : ℕ) (wait : policy.Wait) : Lock policy where
  taken := true
  holders := [0]
  sessions := Function.update (fun _ => none) 1 (some ⟨timeout, since, last, wait⟩)
  clock := last
  log := []

variable {timeout : Timeout} {since last now : ℕ} {wait wait' : policy.Wait}

theorem contended_start (asked : allowed timeout now) (started : policy.start timeout now = some wait) :
    Along Lock.step (fun _ => True) (Legal allowed) (Lock.free : Lock policy)
        [.tryOnce 0 now, .take 1 timeout now] ∧
      runCalls Lock.step (Lock.free : Lock policy) [.tryOnce 0 now, .take 1 timeout now] =
        Lock.contended timeout now now wait := by
  refine ⟨⟨trivial, ⟨Nat.zero_le _, rfl⟩, trivial, ⟨le_rfl, rfl, asked⟩, trivial⟩, ?_⟩
  rw [runCalls_cons, runCalls_cons, runCalls_nil]
  have second : (Lock.free.acquire 0 : Lock policy).step (.take 1 timeout now) =
      Lock.contended timeout now now wait := by
    rw [Lock.step, started]
    rfl
  exact second

theorem contended_refused (asked : allowed timeout now) (refused : policy.start timeout now = none) :
    Along Lock.step (fun _ => True) (Legal allowed) (Lock.free : Lock policy)
        [.tryOnce 0 now, .take 1 timeout now] ∧
      (runCalls Lock.step (Lock.free : Lock policy) [.tryOnce 0 now, .take 1 timeout now]).log =
        [⟨1, timeout, 0, false⟩] := by
  refine ⟨⟨trivial, ⟨Nat.zero_le _, rfl⟩, trivial, ⟨le_rfl, rfl, asked⟩, trivial⟩, ?_⟩
  rw [runCalls_cons, runCalls_cons, runCalls_nil]
  have second : ((Lock.free.acquire 0 : Lock policy).step (.take 1 timeout now)).log =
      [⟨1, timeout, 0, false⟩] := by
    rw [Lock.step, refused]
    rfl
  exact second

theorem contended_session : (Lock.contended timeout since last wait).sessions 1 =
    some ⟨timeout, since, last, wait⟩ := rfl

/-- A try that fails, behind a pause. -/
theorem contended_legal (paused : last + policy.pause wait ≤ now) :
    Legal allowed (Lock.contended timeout since last wait) (.poll 1 now) :=
  ⟨(Nat.le_add_right _ _).trans paused, _, contended_session, paused⟩

theorem contended_on (on : policy.next wait now = some wait') :
    (Lock.contended timeout since last wait).step (.poll 1 now) =
      Lock.contended timeout since now wait' := by
  rw [Lock.step, contended_session]
  simp only [on, Lock.setSession, Lock.contended, Function.update_idem, if_true]

theorem contended_gone (gone : policy.next wait now = none) :
    ((Lock.contended timeout since last wait).step (.poll 1 now)).log =
      [⟨1, timeout, now - since, false⟩] := by
  rw [Lock.step, contended_session]
  simp only [gone]
  rfl

end Steps

end Urus.PollLock
