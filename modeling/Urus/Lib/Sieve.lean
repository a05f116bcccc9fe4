/-
This file is about lists in which an item may cover items behind it. The sieve removes
what an earlier item covers. When coverage is transitive, and what an item covers follows
directly behind it, one pass that skips behind every item does the same.
-/

import Mathlib.Data.List.TakeWhile

namespace Urus

/-! ### Runs -/

section Run

variable {Item : Type} {inside : Item → Bool}

/-- The items with the property stand next to each other. -/
def IsRun (inside : Item → Bool) (items : List Item) : Prop :=
  ∃ before run after, items = before ++ run ++ after ∧ (∀ item ∈ before, inside item = false) ∧
    (∀ item ∈ run, inside item = true) ∧ ∀ item ∈ after, inside item = false

variable {items : List Item} {property : Item → Bool} {Other : Type}

theorem isRun_none (outside : ∀ item ∈ items, inside item = false) :
    IsRun inside items :=
  ⟨items, [], [], by rw [List.append_nil, List.append_nil], outside,
    fun _ member => absurd member List.not_mem_nil, fun _ member => absurd member List.not_mem_nil⟩

theorem isRun_all (all : ∀ item ∈ items, inside item = true) :
    IsRun inside items :=
  ⟨[], items, [], by rw [List.append_nil, List.nil_append],
    fun _ member => absurd member List.not_mem_nil, all, fun _ member => absurd member List.not_mem_nil⟩

theorem IsRun.congr (run : IsRun inside items) (same : ∀ item ∈ items, property item = inside item)
    : IsRun property items := by
  obtain ⟨before, middle, after, rfl, front, all, back⟩ := run
  refine ⟨before, middle, after, rfl, fun item member => ?_, fun item member => ?_,
    fun item member => ?_⟩
  · rw [same item (List.mem_append_left _ (List.mem_append_left _ member)), front item member]
  · rw [same item (List.mem_append_left _ (List.mem_append_right _ member)), all item member]
  · rw [same item (List.mem_append_right _ member), back item member]

theorem IsRun.behind {items others : List Item} (run : IsRun inside items)
    (outside : ∀ item ∈ others, inside item = false) : IsRun inside (others ++ items) := by
  obtain ⟨before, middle, after, rfl, front, all, back⟩ := run
  refine ⟨others ++ before, middle, after, by simp only [List.append_assoc], fun item member => ?_,
    all, back⟩
  exact (List.mem_append.mp member).elim (outside item) (front item)

theorem IsRun.before {items others : List Item} (run : IsRun inside items)
    (outside : ∀ item ∈ others, inside item = false) : IsRun inside (items ++ others) := by
  obtain ⟨front, middle, after, rfl, free, all, back⟩ := run
  refine ⟨front, middle, after ++ others, by simp only [List.append_assoc], free, all,
    fun item member => ?_⟩
  exact (List.mem_append.mp member).elim (back item) (outside item)

theorem IsRun.tail {item : Item} {rest : List Item} (run : IsRun inside (item :: rest)) :
    IsRun inside rest := by
  obtain ⟨before, middle, after, shape, front, all, back⟩ := run
  cases before with
  | cons first others =>
    obtain ⟨rfl, rfl⟩ := List.cons.inj shape
    exact ⟨others, middle, after, rfl, fun other member => front other (List.mem_cons_of_mem _ member),
      all, back⟩
  | nil =>
    cases middle with
    | cons first others =>
      obtain ⟨rfl, rfl⟩ := List.cons.inj shape
      exact ⟨[], others, after, rfl, front,
        fun other member => all other (List.mem_cons_of_mem _ member), back⟩
    | nil =>
      refine isRun_none fun other member => back other ?_
      rw [show after = item :: rest from shape.symm]
      exact List.mem_cons_of_mem _ member

theorem IsRun.dropWhile {item : Item} {rest : List Item} (run : IsRun inside (item :: rest))
    (here : inside item = true) : ∀ other ∈ rest.dropWhile inside, inside other = false := by
  obtain ⟨before, middle, after, shape, front, all, back⟩ := run
  cases before with
  | cons first others =>
    obtain ⟨rfl, -⟩ := List.cons.inj shape
    rw [front item List.mem_cons_self] at here
    cases here
  | nil =>
    intro other member
    refine back other ?_
    have behind : other ∈ (item :: rest).dropWhile inside := by
      rw [List.dropWhile_cons_of_pos here]
      exact member
    rw [shape, List.nil_append, List.dropWhile_append_of_pos all] at behind
    exact (List.dropWhile_suffix inside).subset behind

theorem IsRun.flatMap {property : Other → Bool} {block : Item → List Other}
    (run : IsRun inside items)
    (same : ∀ item ∈ items, ∀ other ∈ block item, property other = inside item) :
    IsRun property (items.flatMap block) := by
  obtain ⟨before, middle, after, rfl, front, all, back⟩ := run
  have blocks : ∀ part : List Item, part ⊆ before ++ middle ++ after → ∀ value,
      (∀ item ∈ part, inside item = value) → ∀ other ∈ part.flatMap block, property other = value := by
    intro part contained value constant other member
    obtain ⟨item, here, inBlock⟩ := List.mem_flatMap.mp member
    rw [same item (contained here) other inBlock, constant item here]
  refine ⟨before.flatMap block, middle.flatMap block, after.flatMap block, ?_, ?_, ?_, ?_⟩
  · rw [List.flatMap_append, List.flatMap_append]
  · exact blocks before
      (fun _ member => List.mem_append_left _ (List.mem_append_left _ member)) false front
  · exact blocks middle
      (fun _ member => List.mem_append_left _ (List.mem_append_right _ member)) true all
  · exact blocks after (fun _ member => List.mem_append_right _ member) false back

theorem dropWhile_congr (same : ∀ item ∈ items, property item = inside item) :
    items.dropWhile property = items.dropWhile inside := by
  induction items with
  | nil => rfl
  | cons item rest inductionHypothesis =>
    rw [List.dropWhile_cons, List.dropWhile_cons, same item List.mem_cons_self,
      inductionHypothesis fun other member => same other (List.mem_cons_of_mem _ member)]

/-- Where an item stands that was put in the place of another one. -/
theorem flatMap_split {block : Item → List Other} {before after : List Other} {other : Other}
    (shape : items.flatMap block = before ++ other :: after) :
    ∃ front item back part left, items = front ++ item :: back ∧ block item = part ++ other :: left ∧
      before = front.flatMap block ++ part := by
  induction items generalizing before with
  | nil => exact absurd shape.symm (by simp)
  | cons first rest inductionHypothesis =>
    rw [List.flatMap_cons] at shape
    rcases List.append_eq_append_iff.mp shape with ⟨middle, rfl, behind⟩ | ⟨middle, here, behind⟩
    · obtain ⟨front, item, back, part, left, rfl, inBlock, rfl⟩ := inductionHypothesis behind
      exact ⟨first :: front, item, back, part, left, rfl, inBlock,
        by rw [List.flatMap_cons, List.append_assoc]⟩
    · cases middle with
      | nil =>
        obtain ⟨front, item, back, part, left, rfl, inBlock, empty⟩ :=
          @inductionHypothesis [] behind.symm
        refine ⟨first :: front, item, back, part, left, rfl, inBlock, ?_⟩
        rw [List.flatMap_cons, List.append_assoc, ← empty, here, List.append_nil, List.append_nil]
      | cons top others =>
        obtain ⟨rfl, -⟩ := List.cons.inj behind
        exact ⟨[], first, rest, before, others, rfl, here, rfl⟩

end Run

/-! ### The sieve -/

section Sieve

variable {Item : Type} (covers : Item → Item → Bool)

/-- The items that no earlier item covers. -/
def sieve : List Item → List Item
  | [] => []
  | item :: rest => item :: (sieve rest).filter fun other => !covers item other

/-- What an item covers follows directly behind it. -/
def Runs : List Item → Prop
  | [] => True
  | item :: rest => (∀ other ∈ rest.dropWhile (covers item), covers item other = false) ∧ Runs rest

theorem sieve_sublist (items : List Item) : (sieve covers items).Sublist items := by
  induction items with
  | nil => exact List.Sublist.slnil
  | cons item rest inductionHypothesis =>
    exact (List.filter_sublist.trans inductionHypothesis).cons_cons item

variable {covers}

theorem runs_of_isRun {items : List Item}
    (runs : ∀ item ∈ items, (∀ other, covers item other = false) ∨
      covers item item = true ∧ IsRun (covers item) items) : Runs covers items := by
  induction items with
  | nil => trivial
  | cons item rest inductionHypothesis =>
    refine ⟨?_, inductionHypothesis fun other member => ?_⟩
    · rcases runs item List.mem_cons_self with nothing | ⟨own, run⟩
      · exact fun other _ => nothing other
      · exact run.dropWhile own
    · exact (runs other (List.mem_cons_of_mem _ member)).imp id fun run => ⟨run.1, run.2.tail⟩

theorem Runs.suffix {items others : List Item} (runs : Runs covers items) (suffix : others <:+ items) :
    Runs covers others := by
  obtain ⟨before, rfl⟩ := suffix
  induction before with
  | nil => exact runs
  | cons item rest inductionHypothesis => exact inductionHypothesis runs.2

theorem sieve_covered (trans : ∀ first second third, covers first second = true →
      covers second third = true → covers first third = true) {item : Item} {run tail : List Item}
    (covered : ∀ other ∈ run, covers item other = true)
    (free : ∀ other ∈ tail, covers item other = false) :
    (sieve covers (run ++ tail)).filter (fun other => !covers item other) = sieve covers tail := by
  induction run with
  | nil =>
    refine List.filter_eq_self.mpr fun other member => ?_
    rw [free other ((sieve_sublist covers tail).subset member)]
    rfl
  | cons first rest inductionHypothesis =>
    have inner := inductionHypothesis fun other member => covered other (List.mem_cons_of_mem _ member)
    have own := covered first List.mem_cons_self
    rw [List.cons_append, sieve, List.filter_cons_of_neg (by rw [own]; exact Bool.false_ne_true),
      List.filter_filter]
    calc ((sieve covers (rest ++ tail)).filter fun other => !covers item other && !covers first other)
        = ((sieve covers (rest ++ tail)).filter fun other => !covers item other).filter
            fun other => !covers first other := by
          rw [List.filter_filter]
          exact List.filter_congr fun other _ => Bool.and_comm _ _
      _ = (sieve covers tail).filter fun other => !covers first other := by rw [inner]
      _ = sieve covers tail := by
          refine List.filter_eq_self.mpr fun other member => ?_
          cases reaches : covers first other with
          | false => rfl
          | true =>
            have impossible := trans item first other own reaches
            rw [free other ((sieve_sublist covers tail).subset member)] at impossible
            cases impossible

theorem sieve_cons (trans : ∀ first second third, covers first second = true →
      covers second third = true → covers first third = true) {item : Item} {rest : List Item}
    (runs : Runs covers (item :: rest)) :
    sieve covers (item :: rest) = item :: sieve covers (rest.dropWhile (covers item)) := by
  have covered : ∀ other ∈ rest.takeWhile (covers item), covers item other = true :=
    fun _ member => List.mem_takeWhile_imp member
  have skipped := sieve_covered trans covered runs.1
  rw [List.takeWhile_append_dropWhile] at skipped
  rw [sieve, skipped]

theorem sieve_append_idle {front tail : List Item}
    (idle : ∀ item ∈ front, ∀ other ∈ front ++ tail, covers item other = false) :
    sieve covers (front ++ tail) = front ++ sieve covers tail := by
  induction front with
  | nil => rfl
  | cons item rest inductionHypothesis =>
    have later := inductionHypothesis fun first member other inside =>
      idle first (List.mem_cons_of_mem _ member) other (List.mem_cons_of_mem _ inside)
    rw [List.cons_append, List.cons_append, sieve, ← later, List.filter_eq_self.mpr]
    intro other member
    rw [idle item List.mem_cons_self other
      (List.mem_cons_of_mem _ ((sieve_sublist covers _).subset member))]
    rfl

/-- Where nothing covers, nothing is removed. -/
theorem sieve_idle (items : List Item) : sieve (fun _ _ => false) items = items := by
  have whole := @sieve_append_idle Item (fun _ _ => false) items [] fun _ _ _ _ => rfl
  rwa [List.append_nil, sieve, List.append_nil] at whole

theorem sieve_filter {items : List Item} (front : List Item) {keep : Item → Bool}
    (kept : ∀ before item after, items = before ++ item :: after →
      (keep item = true ↔ ∀ other ∈ front ++ before, covers other item = false)) :
    (sieve covers items).filter (fun item => front.all fun other => !covers other item) =
      items.filter keep := by
  induction items generalizing front with
  | nil => rfl
  | cons item rest inductionHypothesis =>
    have later := inductionHypothesis (front ++ [item]) fun before other after shape => by
      rw [kept (item :: before) other after (by rw [shape]; rfl), List.append_assoc,
        List.singleton_append]
    have here : (front.all fun other => !covers other item) = keep item := by
      rw [Bool.eq_iff_iff, kept [] item rest rfl, List.append_nil, List.all_eq_true]
      simp only [Bool.not_eq_true']
    have both : ((sieve covers rest).filter fun other => !covers item other).filter
        (fun other => front.all fun first => !covers first other) = rest.filter keep := by
      rw [← later, List.filter_filter]
      refine List.filter_congr fun other _ => ?_
      rw [List.all_append, List.all_cons, List.all_nil, Bool.and_true]
    rw [sieve, List.filter_cons, List.filter_cons, here, both]

theorem sieve_eq_filter {items : List Item} {keep : Item → Bool}
    (kept : ∀ before item after, items = before ++ item :: after →
      (keep item = true ↔ ∀ other ∈ before, covers other item = false)) :
    sieve covers items = items.filter keep := by
  have filtered := sieve_filter [] kept
  rw [← filtered]
  exact (List.filter_eq_self.mpr fun _ _ => rfl).symm

end Sieve

end Urus
