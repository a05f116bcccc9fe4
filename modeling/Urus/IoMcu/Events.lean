/-
This file proves when the IO thread loses no event. Each event that has been triggered must,
whenever the thread is back at its wait, be pending again or have had all its transactions
succeed since its last trigger.

An event that has been triggered is pending, or settled, or part of the pass that the thread
is in. The one way out of a pass that settles nothing is a failed transaction: it triggers
its own event again, but the events that were still to come in this pass are forgotten. So
nothing is lost exactly if, at each return from a failure, these are pending again or
settled.
-/

import Urus.IoMcu.Model
import Urus.Lib.Trace

namespace Urus.IoMcu

/-! ### What is wanted -/

/-- What has happened since an event was triggered last. -/
def sinceTrigger (log : List Entry) (event : IoEvent) : List Entry :=
  log.takeWhile fun entry => entry ≠ .triggered event

/-- The transactions of an operation have succeeded. -/
def OpDone (entries : List Entry) (event : IoEvent) (op : ℕ) : Prop :=
  match (registerOps event)[op]? with
  | none => True
  | some (.write _ _) => ∃ value, .wrote event op value ∈ entries
  | some (.modify _ clearbits setbits) => ∃ value, .read event op value ∈ entries ∧
      (modified clearbits setbits value = value ∨
        .wrote event op (modified clearbits setbits value) ∈ entries)

/-- All transactions of an event have succeeded since it was triggered last. -/
def Settled (log : List Entry) (event : IoEvent) : Prop :=
  ∀ op, op < (registerOps event).length → OpDone (sinceTrigger log event) event op

/-- At the wait, every event that has been triggered is pending again or settled. -/
def Lossless (system : System) : Prop :=
  system.thread = .waiting → ∀ event ∈ handledEvents, .triggered event ∈ system.log →
    system.pending event = true ∨ Settled system.log event

/-- A return from a failure forgets no event: those that were left are pending again or settled. -/
def Forgetless (system : System) : Step → Prop
  | .eventFailed =>
    match system.thread with
    | .failing _ left =>
      ∀ event ∈ left, system.pending event = true ∨ Settled system.log event
    | _ => True
  | _ => True

variable {system : System} {event : IoEvent} {log : List Entry} {entry : Entry} {op done : ℕ}

/-! ### The log -/

theorem sinceTrigger_cons (log : List Entry) (other : entry ≠ .triggered event) :
    sinceTrigger (entry :: log) event = entry :: sinceTrigger log event :=
  List.takeWhile_cons_of_pos (by simp [other])

theorem OpDone.mono {entries more : List Entry} (settled : OpDone entries event op)
    (included : entries ⊆ more) : OpDone more event op := by
  unfold OpDone at settled ⊢
  split
  · trivial
  · rename_i same
    rw [same] at settled
    obtain ⟨value, member⟩ := settled
    exact ⟨value, included member⟩
  · rename_i same
    rw [same] at settled
    obtain ⟨value, member, rest⟩ := settled
    exact ⟨value, included member, rest.imp_right fun wrote => included wrote⟩

theorem OpDone.cons (settled : OpDone (sinceTrigger log event) event op)
    (other : entry ≠ .triggered event) : OpDone (sinceTrigger (entry :: log) event) event op := by
  rw [sinceTrigger_cons log other]
  exact settled.mono (List.subset_cons_self _ _)

theorem Settled.cons (settled : Settled log event) (other : entry ≠ .triggered event) :
    Settled (entry :: log) event :=
  fun op inside => (settled op inside).cons other

theorem registerOps_pos (handled : event ∈ handledEvents) : 0 < (registerOps event).length := by
  revert event
  decide

theorem Settled.of_triggered {other : IoEvent} (settled : Settled (.triggered other :: log) event)
    (apart : event ≠ other) : Settled log event := by
  intro op bound
  have before := settled op bound
  have different : Entry.triggered other ≠ .triggered event :=
    fun same => apart (Entry.triggered.inj same).symm
  have inside : ∀ entry ∈ Entry.triggered other :: sinceTrigger log event,
      entry ≠ .triggered other → entry ∈ sinceTrigger log event :=
    fun entry member apart => (List.mem_cons.mp member).resolve_left apart
  rw [sinceTrigger_cons log different] at before
  unfold OpDone at before ⊢
  split
  · trivial
  · rename_i same
    rw [same] at before
    obtain ⟨value, member⟩ := before
    exact ⟨value, inside _ member fun impossible => nomatch impossible⟩
  · rename_i same
    rw [same] at before
    obtain ⟨value, member, rest⟩ := before
    exact ⟨value, inside _ member fun impossible => (nomatch impossible),
      rest.imp_right fun wrote => inside _ wrote fun impossible => nomatch impossible⟩

/-! ### The invariant -/

/-- The first operations of an event are done since its last trigger, and so is the read of the
next one if it has been made. -/
def Begun (log : List Entry) (event : IoEvent) (done : ℕ) (value : Option ℕ) : Prop :=
  (∀ op, op < done → OpDone (sinceTrigger log event) event op) ∧
    ∀ read, value = some read → .read event done read ∈ sinceTrigger log event

/-- The pass of the IO thread will still handle the event, or trigger it again. -/
def Thread.Covers (log : List Entry) (event : IoEvent) : Thread → Prop
  | .waiting => False
  | .handling [] _ _ => False
  | .handling (current :: left) done value =>
    event ∈ left ∨ (event = current ∧ Begun log event done value)
  | .failing current left => event = current ∨ event ∈ left

/-- The events of the pass that the IO thread is in. -/
def Thread.events : Thread → List IoEvent
  | .waiting => []
  | .handling events _ _ => events
  | .failing current left => current :: left

/-- The operation that the IO thread has come to is one that its event has. -/
def Thread.AtOp : Thread → Prop
  | .handling (current :: _) done _ => done < (registerOps current).length
  | _ => True

/-- What holds in every run that forgets nothing. -/
structure Sound (system : System) : Prop where
  tracked : ∀ event ∈ handledEvents, .triggered event ∈ system.log →
    system.pending event = true ∨ Settled system.log event ∨
      system.thread.Covers system.log event
  logged : ∀ event, system.pending event = true → .triggered event ∈ system.log
  pass : ∀ event ∈ system.thread.events, event ∈ handledEvents ∧ .triggered event ∈ system.log
  nodup : system.thread.events.Nodup
  atOp : system.thread.AtOp

theorem start_sound (settings : Settings) : Sound (System.start settings) where
  tracked := by
    intro event _ triggered
    rw [System.start, List.mem_singleton] at triggered
    cases triggered
    exact Or.inl rfl
  logged := by
    intro event pending
    by_cases first : event = .init
    · rw [first]
      exact List.mem_cons_self
    · rw [System.start] at pending
      dsimp only at pending
      rw [Function.update_of_ne first] at pending
      exact nomatch pending
  pass := fun _ impossible => nomatch impossible
  nodup := List.nodup_nil
  atOp := trivial

theorem Begun.cons {value : Option ℕ} (begun : Begun log event done value)
    (other : entry ≠ .triggered event) : Begun (entry :: log) event done value := by
  refine ⟨fun op before => (begun.1 op before).cons other, fun read same => ?_⟩
  rw [sinceTrigger_cons log other]
  exact List.mem_cons_of_mem _ (begun.2 read same)

/-- What a pass covers it still covers when something else is logged. -/
theorem Thread.Covers.cons {thread : Thread} (covers : thread.Covers log event)
    (other : entry ≠ .triggered event) : thread.Covers (entry :: log) event := by
  cases thread with
  | waiting => exact covers.elim
  | failing current left => exact covers
  | handling events done value =>
    cases events with
    | nil => exact covers.elim
    | cons current left => exact covers.imp_right fun here => ⟨here.1, here.2.cons other⟩

section

variable (sound : Sound system)

include sound

theorem Sound.trigger (event : IoEvent) :
    Sound (system.triggerEvent event) where
  tracked := by
    intro other handled triggered
    by_cases same : other = event
    · rw [same]
      exact Or.inl (Function.update_self _ _ _)
    · have different : Entry.triggered event ≠ .triggered other :=
        fun equal => same (Entry.triggered.inj equal).symm
      have before : Entry.triggered other ∈ system.log :=
        (List.mem_cons.mp triggered).resolve_left different.symm
      rcases sound.tracked other handled before with pending | settled | covers
      · exact Or.inl ((Function.update_of_ne same _ _).trans pending)
      · exact Or.inr (Or.inl (settled.cons different))
      · exact Or.inr (Or.inr (covers.cons different))
  logged := by
    intro other pending
    by_cases same : other = event
    · rw [same]
      exact List.mem_cons_self
    · exact List.mem_cons_of_mem _
        (sound.logged other ((Function.update_of_ne same _ _).symm.trans pending))
  pass := fun other member =>
    ⟨(sound.pass other member).1, List.mem_cons_of_mem _ (sound.pass other member).2⟩
  nodup := sound.nodup
  atOp := sound.atOp

theorem Sound.wait (waiting : system.thread = .waiting) :
    Sound { system with
      pending := fun _ => false
      thread := .handling (handledEvents.filter system.pending) 0 none } := by
  have begun : ∀ event, Begun system.log event 0 none :=
    fun event => ⟨fun op impossible => absurd impossible (Nat.not_lt_zero op),
      fun read impossible => nomatch impossible⟩
  refine ⟨fun event handled triggered => ?_, fun event impossible => (nomatch impossible),
    fun event member => ?_, ?_, ?_⟩
  · rcases sound.tracked event handled triggered with pending | settled | covers
    · have member : event ∈ handledEvents.filter system.pending :=
        List.mem_filter.mpr ⟨handled, pending⟩
      refine Or.inr (Or.inr ?_)
      change Thread.Covers system.log event (.handling (handledEvents.filter system.pending) 0 none)
      cases events : handledEvents.filter system.pending with
      | nil =>
        rw [events] at member
        exact nomatch member
      | cons current left =>
        rw [events] at member
        rcases List.mem_cons.mp member with same | later
        · exact Or.inr ⟨same, begun event⟩
        · exact Or.inl later
    · exact Or.inr (Or.inl settled)
    · rw [waiting] at covers
      exact covers.elim
  · obtain ⟨handled, pending⟩ := List.mem_filter.mp member
    exact ⟨handled, sound.logged event pending⟩
  · exact List.Nodup.filter _ (by decide)
  · change Thread.AtOp (.handling (handledEvents.filter system.pending) 0 none)
    cases events : handledEvents.filter system.pending with
    | nil => trivial
    | cons current left =>
      have member : current ∈ handledEvents.filter system.pending := by
        rw [events]
        exact List.mem_cons_self
      exact registerOps_pos (List.mem_filter.mp member).1

/-- The end of the loop body. -/
theorem Sound.finish {value : Option ℕ}
    (finished : system.thread = .handling [] done value) :
    Sound { system with thread := .waiting } where
  tracked := by
    intro event handled triggered
    rcases sound.tracked event handled triggered with pending | settled | covers
    · exact Or.inl pending
    · exact Or.inr (Or.inl settled)
    · rw [finished] at covers
      exact covers.elim
  logged := sound.logged
  pass := fun _ impossible => nomatch impossible
  nodup := List.nodup_nil
  atOp := trivial

theorem Sound.fail {left : List IoEvent}
    (failing : system.thread = .failing event left)
    (forgetless : ∀ other ∈ left, system.pending other = true ∨ Settled system.log other) :
    Sound { system.triggerEvent event with thread := .waiting } := by
  have triggered := sound.trigger event
  refine ⟨fun other handled logged => ?_, triggered.logged,
    fun _ impossible => (nomatch impossible), List.nodup_nil, trivial⟩
  by_cases same : other = event
  · rw [same]
    exact Or.inl (Function.update_self _ _ _)
  · have different : Entry.triggered event ≠ .triggered other :=
      fun equal => same (Entry.triggered.inj equal).symm
    have kept : system.pending other = true ∨ Settled system.log other →
        (system.triggerEvent event).pending other = true ∨
          Settled (system.triggerEvent event).log other := by
      rintro (pending | settled)
      · exact Or.inl ((Function.update_of_ne same _ _).trans pending)
      · exact Or.inr (settled.cons different)
    have before : Entry.triggered other ∈ system.log :=
      (List.mem_cons.mp logged).resolve_left different.symm
    have safe : system.pending other = true ∨ Settled system.log other := by
      rcases sound.tracked other handled before with pending | settled | covers
      · exact Or.inl pending
      · exact Or.inr settled
      · rw [failing] at covers
        exact forgetless other (covers.resolve_left same)
    rcases kept safe with pending | settled
    · exact Or.inl pending
    · exact Or.inr (Or.inl settled)

/-! ### Transactions -/

/-- An operation of the first event of the pass is done, and logged. -/
theorem Sound.opDone {left : List IoEvent} {value : Option ℕ}
    (handling : system.thread = .handling (event :: left) done value) (entry : Entry)
    (noTrigger : ∀ other, entry ≠ .triggered other)
    (finished : Begun system.log event done value →
      OpDone (sinceTrigger (entry :: system.log) event) event done) :
    Sound { system with thread := nextOp event left done, log := entry :: system.log } := by
  have inPass := sound.pass
  have distinct := sound.nodup
  have atOp := sound.atOp
  rw [handling] at inPass distinct atOp
  have covered : ∀ other ∈ left, (nextOp event left done).Covers (entry :: system.log) other := by
    intro other later
    unfold nextOp
    split
    · exact Or.inl later
    · cases left with
      | nil => exact nomatch later
      | cons current rest =>
        rcases List.mem_cons.mp later with same | after
        · exact Or.inr ⟨same, fun op impossible => absurd impossible (Nat.not_lt_zero op),
            fun read impossible => nomatch impossible⟩
        · exact Or.inl after
  have included : ∀ other ∈ (nextOp event left done).events, other ∈ event :: left := by
    intro other member
    unfold nextOp at member
    split at member
    · exact member
    · exact List.mem_cons_of_mem _ member
  refine ⟨fun other handled triggered => ?_,
    fun other pending => List.mem_cons_of_mem _ (sound.logged other pending),
    fun other member => ?_, ?_, ?_⟩
  · have before : Entry.triggered other ∈ system.log :=
      (List.mem_cons.mp triggered).resolve_left (noTrigger other).symm
    rcases sound.tracked other handled before with pending | settled | covers
    · exact Or.inl pending
    · exact Or.inr (Or.inl (settled.cons (noTrigger other)))
    · rw [handling] at covers
      rcases covers with later | ⟨same, begun⟩
      · exact Or.inr (Or.inr (covered other later))
      · rw [same] at begun ⊢
        have upTo : ∀ op, op < done + 1 →
            OpDone (sinceTrigger (entry :: system.log) event) event op := by
          intro op bound
          by_cases last : op = done
          · rw [last]
            exact finished begun
          · exact (begun.1 op (by omega)).cons (noTrigger event)
        by_cases more : done + 1 < (registerOps event).length
        · refine Or.inr (Or.inr ?_)
          change Thread.Covers _ _ (nextOp event left done)
          rw [nextOp, if_pos more]
          exact Or.inr ⟨rfl, upTo, fun read impossible => nomatch impossible⟩
        · exact Or.inr (Or.inl fun op bound => upTo op (by omega))
  · obtain ⟨handled, triggered⟩ := inPass other (included other member)
    exact ⟨handled, List.mem_cons_of_mem _ triggered⟩
  · change (nextOp event left done).events.Nodup
    unfold nextOp
    split
    · exact distinct
    · exact distinct.of_cons
  · change (nextOp event left done).AtOp
    unfold nextOp
    split
    · assumption
    · cases left with
      | nil => trivial
      | cons current rest =>
        exact registerOps_pos
          (inPass current (List.mem_cons_of_mem _ List.mem_cons_self)).1

/-- A transaction settles nothing by itself, or an operation, or fails. -/
theorem Sound.transact {left : List IoEvent} {value : Option ℕ}
    (handling : system.thread = .handling (event :: left) done value) (answer : Option ℕ) :
    Sound (system.transact event left done value answer) := by
  have inPass := sound.pass
  have distinct := sound.nodup
  have atOp := sound.atOp
  rw [handling] at inPass distinct atOp
  cases answer with
  | none =>
    refine ⟨fun other handled triggered => ?_, sound.logged, inPass, distinct, trivial⟩
    rcases sound.tracked other handled triggered with pending | settled | covers
    · exact Or.inl pending
    · exact Or.inr (Or.inl settled)
    · rw [handling] at covers
      exact Or.inr (Or.inr (covers.elim Or.inr fun here => Or.inl here.1))
  | some answer =>
    cases kind : (registerOps event)[done]? with
    | none => exact absurd (List.getElem?_eq_none_iff.mp kind) (Nat.not_le.mpr atOp)
    | some op =>
      cases op with
      | write offset wanted =>
        have noTrigger : ∀ other, Entry.wrote event done (wanted system.settings) ≠
            .triggered other := fun _ impossible => nomatch impossible
        simp only [System.transact, kind]
        refine sound.opDone handling _ noTrigger fun _ => ?_
        rw [OpDone, kind, sinceTrigger_cons _ (noTrigger event)]
        exact ⟨wanted system.settings, List.mem_cons_self⟩
      | modify offset clearbits setbits =>
        cases value with
        | none =>
          have noTrigger : ∀ other, Entry.read event done answer ≠ .triggered other :=
            fun _ impossible => nomatch impossible
          simp only [System.transact, kind]
          by_cases same : modified clearbits setbits answer = answer
          · rw [if_pos same]
            refine sound.opDone handling _ noTrigger fun _ => ?_
            rw [OpDone, kind, sinceTrigger_cons _ (noTrigger event)]
            exact ⟨answer, List.mem_cons_self, Or.inl same⟩
          · rw [if_neg same]
            refine ⟨fun other handled triggered => ?_,
              fun other pending => List.mem_cons_of_mem _ (sound.logged other pending),
              fun other member => ⟨(inPass other member).1,
                List.mem_cons_of_mem _ (inPass other member).2⟩, distinct, atOp⟩
            have before : Entry.triggered other ∈ system.log :=
              (List.mem_cons.mp triggered).resolve_left (noTrigger other).symm
            rcases sound.tracked other handled before with pending | settled | covers
            · exact Or.inl pending
            · exact Or.inr (Or.inl (settled.cons (noTrigger other)))
            · rw [handling] at covers
              refine Or.inr (Or.inr (covers.imp_right fun here => ⟨here.1, ?_⟩))
              refine ⟨(here.2.cons (noTrigger other)).1, fun read got => ?_⟩
              rw [← Option.some.inj got, sinceTrigger_cons _ (noTrigger other), here.1]
              exact List.mem_cons_self
        | some value =>
          have noTrigger : ∀ other, Entry.wrote event done (modified clearbits setbits value) ≠
              .triggered other := fun _ impossible => nomatch impossible
          simp only [System.transact, kind]
          refine sound.opDone handling _ noTrigger fun begun => ?_
          rw [OpDone, kind, sinceTrigger_cons _ (noTrigger event)]
          exact ⟨value, List.mem_cons_of_mem _ (begun.2 value rfl), Or.inr List.mem_cons_self⟩

/-- Every step that forgets nothing keeps the invariant. -/
theorem Sound.step {step : Step} (forgetless : Forgetless system step) :
    Sound (system.step step) := by
  cases step with
  | triggerEvent event => exact sound.trigger event
  | configure settings =>
    exact ⟨sound.tracked, sound.logged, sound.pass, sound.nodup, sound.atOp⟩
  | wait =>
    rw [System.step]
    split
    · rename_i waiting
      exact sound.wait waiting
    · exact sound
  | transact answer =>
    rw [System.step]
    split
    · rename_i handling
      exact sound.transact handling answer
    · exact sound
  | eventFailed =>
    rw [System.step]
    split
    · rename_i failing
      rw [Forgetless, failing] at forgetless
      exact sound.fail failing forgetless
    · exact sound
  | finish =>
    rw [System.step]
    split
    · rename_i finished
      exact sound.finish finished
    · exact sound

/-- At the wait the pass covers nothing any more. -/
theorem Sound.lossless : Lossless system := by
  intro waiting event handled triggered
  rcases sound.tracked event handled triggered with pending | settled | covers
  · exact Or.inl pending
  · exact Or.inr settled
  · rw [waiting] at covers
    exact covers.elim

/-- A return from a failure behind which nothing is lost has forgotten nothing. -/
theorem Sound.forgetless {step : Step}
    (lossless : Lossless (system.step step)) : Forgetless system step := by
  cases step with
  | triggerEvent event => trivial
  | configure settings => trivial
  | wait => trivial
  | transact answer => trivial
  | finish => trivial
  | eventFailed =>
    rw [Forgetless]
    split
    · rename_i event left failing
      intro other member
      have inPass := sound.pass
      have distinct := sound.nodup
      rw [failing] at inPass distinct
      have apart : other ≠ event := fun same =>
        (List.nodup_cons.mp distinct).1 (same ▸ member)
      obtain ⟨handled, triggered⟩ := inPass other (List.mem_cons_of_mem _ member)
      have next : system.step .eventFailed =
          { system.triggerEvent event with thread := .waiting } := by
        rw [System.step, failing]
      rw [next] at lossless
      rcases lossless rfl other handled (List.mem_cons_of_mem _ triggered) with pending | settled
      · exact Or.inl ((Function.update_of_ne apart _ _).symm.trans pending)
      · exact Or.inr (settled.of_triggered apart)
    · trivial

end

/-- No event is ever lost exactly if no return from a failed transaction forgets an event that was
still to be handled in the same pass. -/
theorem lossless_iff_forgetless (settings : Settings) (steps : List Step) :
    (∀ count, Lossless (runCalls System.step (System.start settings) (steps.take count))) ↔
      Along System.step (fun _ => True) Forgetless (System.start settings) steps :=
  along_iff_of_exact Sound (fun _ _ _ sound forgetless => sound.step forgetless)
    (fun _ sound => sound.lossless) (fun _ _ sound lossless => sound.forgetless lossless)
    (start_sound settings)

/-- The two safety events are triggered during the first pass. In the second pass the transaction of
the first of them fails. -/
def failedSafetyOff : List Step :=
  [.wait, .transact (some 0), .transact (some 0), .triggerEvent .forceSafetyOff,
    .triggerEvent .setRates, .finish, .wait, .transact none, .eventFailed]

/-- The rates are neither pending nor sent. -/
theorem not_lossless_failedSafetyOff :
    ¬ Lossless (runCalls System.step (System.start ⟨400, 15, 50, 0, 0⟩) failedSafetyOff) := by
  intro lossless
  have log : (runCalls System.step (System.start ⟨400, 15, 50, 0, 0⟩) failedSafetyOff).log =
      [.triggered .forceSafetyOff, .triggered .setRates, .triggered .forceSafetyOff,
        .wrote .init 0 67, .read .init 0 0, .triggered .init] := by decide
  rcases lossless (by decide) .setRates (by decide) (by rw [log]; decide) with pending | settled
  · revert pending
    decide
  · rw [log] at settled
    obtain ⟨value, wrote⟩ := settled 0 (by decide)
    exact absurd wrote (by simp [sinceTrigger])

end Urus.IoMcu
