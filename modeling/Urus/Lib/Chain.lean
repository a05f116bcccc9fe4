/-
This file develops singly linked lists in a memory where every node holds a pointer to the next
one. A chain goes from a pointer through its nodes to another pointer; a complete list is a chain
that ends at the null pointer. Pointing the last node of a chain elsewhere continues the chain
there, which is how a node is added behind a queue and how a node is taken out of its middle.
-/

import Mathlib.Tactic

namespace Urus

section Chain

variable {Node : Type} {next : Node → Option Node} {first stop : Option Node} {nodes : List Node}

/-- The nodes from a pointer up to another one. -/
def Chain (next : Node → Option Node) (first : Option Node) (nodes : List Node)
    (stop : Option Node) : Prop :=
  match nodes with
  | [] => first = stop
  | node :: rest => first = some node ∧ Chain next (next node) rest stop

theorem Chain.congr {next' : Node → Option Node} (same : ∀ node ∈ nodes, next' node = next node)
    (chain : Chain next first nodes stop) : Chain next' first nodes stop := by
  induction nodes generalizing first with
  | nil => exact chain
  | cons node rest inductionHypothesis =>
    obtain ⟨begins, behind⟩ := chain
    refine ⟨begins, ?_⟩
    rw [same node List.mem_cons_self]
    exact inductionHypothesis (fun other member => same other (List.mem_cons_of_mem _ member))
      behind

theorem chain_append {front back : List Node} :
    Chain next first (front ++ back) stop ↔
      ∃ middle, Chain next first front middle ∧ Chain next middle back stop := by
  induction front generalizing first with
  | nil =>
    constructor
    · exact fun chain => ⟨first, rfl, chain⟩
    · rintro ⟨middle, rfl, chain⟩
      exact chain
  | cons node rest inductionHypothesis =>
    rw [List.cons_append, Chain, inductionHypothesis]
    constructor
    · rintro ⟨begins, middle, front, back⟩
      exact ⟨middle, ⟨begins, front⟩, back⟩
    · rintro ⟨middle, ⟨begins, front⟩, back⟩
      exact ⟨begins, middle, front, back⟩

theorem Chain.unique {other : List Node} (chain : Chain next first nodes none)
    (chain' : Chain next first other none) : nodes = other := by
  induction nodes generalizing first other with
  | nil =>
    obtain rfl : first = none := chain
    cases other with
    | nil => rfl
    | cons node rest => exact nomatch chain'.1
  | cons node rest inductionHypothesis =>
    obtain ⟨rfl, behind⟩ := chain
    cases other with
    | nil => exact nomatch chain'
    | cons node' rest' =>
      obtain ⟨same, behind'⟩ := chain'
      obtain rfl : node = node' := Option.some.inj same
      rw [inductionHypothesis behind behind']

section Update

variable [DecidableEq Node]

theorem Chain.redirect {front : List Node} {last : Node} (fresh : last ∉ front)
    (chain : Chain next first (front ++ [last]) stop) (target : Option Node) :
    Chain (Function.update next last target) first (front ++ [last]) target := by
  obtain ⟨middle, before, begins, -⟩ := chain_append.mp chain
  refine chain_append.mpr ⟨middle, ?_, begins, Function.update_self _ _ _⟩
  exact before.congr fun node member =>
    Function.update_of_ne (ne_of_mem_of_not_mem member fresh) _ _

theorem Chain.push {node : Node} (fresh : node ∉ nodes) (chain : Chain next first nodes stop) :
    Chain (Function.update next node first) (some node) (node :: nodes) stop := by
  refine ⟨rfl, ?_⟩
  rw [Function.update_self]
  exact chain.congr fun other member =>
    Function.update_of_ne (ne_of_mem_of_not_mem member fresh) _ _

theorem Chain.update {node : Node} (fresh : node ∉ nodes) (chain : Chain next first nodes stop)
    (target : Option Node) : Chain (Function.update next node target) first nodes stop :=
  chain.congr fun _ member => Function.update_of_ne (ne_of_mem_of_not_mem member fresh) _ _

end Update

/-! ### Walking along a chain -/

/-- Look for a node from a pointer on, with the node before it. The search takes as many steps as
it is given, and has no result when it would need more. -/
def search (next : Node → Option Node) (wanted : Node → Bool) :
    Nat → Option Node → Option Node → Option (Option (Option Node × Node))
  | _, _, none => some none
  | 0, _, some _ => none
  | steps + 1, previous, some node =>
    if wanted node then some (some (previous, node))
    else search next wanted steps (some node) (next node)

/-- The first node that is wanted is found, and the node before it is the last one of those that
come earlier. -/
theorem search_chain (wanted : Node → Bool) (chain : Chain next first nodes none) {steps : Nat}
    (enough : nodes.length ≤ steps) (previous : Option Node) :
    ((∀ node ∈ nodes, wanted node = false) ∧
        search next wanted steps previous first = some none) ∨
      ∃ early node late, nodes = early ++ node :: late ∧ (∀ other ∈ early, wanted other = false) ∧
        wanted node = true ∧
        search next wanted steps previous first = some (some (early.getLast?.or previous, node)) := by
  induction nodes generalizing first steps previous with
  | nil =>
    obtain rfl : first = none := chain
    refine Or.inl ⟨fun node member => absurd member List.not_mem_nil, ?_⟩
    cases steps <;> rfl
  | cons node rest inductionHypothesis =>
    obtain ⟨rfl, behind⟩ := chain
    obtain _ | steps := steps
    · exact absurd enough (Nat.not_succ_le_zero _)
    · rw [search]
      cases isWanted : wanted node with
      | true =>
        refine Or.inr ⟨[], node, rest, rfl, fun other member => absurd member List.not_mem_nil,
          isWanted, ?_⟩
        rw [if_pos rfl]
        rfl
      | false =>
        rw [if_neg Bool.false_ne_true]
        rcases inductionHypothesis behind (Nat.le_of_succ_le_succ enough) (some node) with
          ⟨nowhere, outcome⟩ | ⟨early, found, late, split, before, isFound, outcome⟩
        · exact Or.inl ⟨List.forall_mem_cons.mpr ⟨isWanted, nowhere⟩, outcome⟩
        · refine Or.inr ⟨node :: early, found, late, by rw [split]; rfl,
            List.forall_mem_cons.mpr ⟨isWanted, before⟩, isFound, ?_⟩
          rw [outcome, List.getLast?_cons]
          cases early.getLast? <;> rfl

/-- The number of nodes from a pointer on, counted in so many steps at most. -/
def countNodes (next : Node → Option Node) : Nat → Option Node → Option Nat
  | _, none => some 0
  | 0, some _ => none
  | steps + 1, some node => (countNodes next steps (next node)).map (· + 1)

theorem countNodes_chain (chain : Chain next first nodes none) {steps : Nat}
    (enough : nodes.length ≤ steps) : countNodes next steps first = some nodes.length := by
  induction nodes generalizing first steps with
  | nil =>
    obtain rfl : first = none := chain
    cases steps <;> rfl
  | cons node rest inductionHypothesis =>
    obtain ⟨rfl, behind⟩ := chain
    obtain _ | steps := steps
    · exact absurd enough (Nat.not_succ_le_zero _)
    · rw [countNodes, inductionHypothesis behind (Nat.le_of_succ_le_succ enough)]
      rfl

/-! ### Queues -/

/-- A queue with a pointer to its oldest node and one to its youngest. -/
def Queued (next : Node → Option Node) (oldest youngest : Option Node) (nodes : List Node) : Prop :=
  Chain next oldest nodes none ∧ youngest = nodes.getLast?

variable {oldest youngest : Option Node}

theorem queued_nil (next : Node → Option Node) : Queued next none none [] := ⟨rfl, rfl⟩

theorem Queued.congr {next' : Node → Option Node} (queue : Queued next oldest youngest nodes)
    (same : ∀ node ∈ nodes, next' node = next node) : Queued next' oldest youngest nodes :=
  ⟨queue.1.congr same, queue.2⟩

theorem Queued.empty (queue : Queued next oldest none nodes) : nodes = [] :=
  List.getLast?_eq_none_iff.mp queue.2.symm

theorem Queued.split_last {last : Node} (queue : Queued next oldest (some last) nodes) :
    ∃ front, nodes = front ++ [last] :=
  List.getLast?_eq_some_iff.mp queue.2.symm

theorem Queued.split_oldest {node : Node} (queue : Queued next (some node) youngest nodes) :
    ∃ late, nodes = node :: late := by
  cases nodes with
  | nil => exact nomatch queue.1
  | cons other late =>
    obtain rfl : node = other := Option.some.inj queue.1.1
    exact ⟨late, rfl⟩

theorem Queued.unlink_oldest {node : Node} {late : List Node}
    (queue : Queued next oldest youngest (node :: late)) (more : late ≠ []) :
    Queued next (next node) youngest late := by
  refine ⟨queue.1.2, queue.2.trans ?_⟩
  obtain ⟨other, rest, rfl⟩ := List.exists_cons_of_ne_nil more
  exact List.getLast?_cons_cons

theorem Queued.oldest_eq_youngest {node : Node} {late : List Node}
    (queue : Queued next oldest youngest (node :: late)) (distinct : (node :: late).Nodup) :
    youngest = oldest ↔ late = [] := by
  rw [queue.2, queue.1.1]
  cases late with
  | nil => simp
  | cons other rest =>
    rw [List.getLast?_cons_cons]
    refine iff_of_false (fun same => ?_) (List.cons_ne_nil _ _)
    exact (List.nodup_cons.mp distinct).1 (List.mem_of_getLast? same)

section Update

variable [DecidableEq Node]

/-- A node becomes the youngest one: the one that was the youngest points to it. -/
theorem Queued.enqueue {last node : Node} (queue : Queued next oldest (some last) nodes)
    (distinct : nodes.Nodup) (fresh : node ∉ nodes) (ends : next node = none) :
    Queued (Function.update next last (some node)) oldest (some node) (nodes ++ [node]) := by
  obtain ⟨front, rfl⟩ := queue.split_last
  have lastFresh : last ∉ front := (List.nodup_append'.mp distinct).2.2 |>.symm (by simp)
  refine ⟨chain_append.mpr ⟨some node, queue.1.redirect lastFresh (some node), rfl, ?_⟩, by simp⟩
  have other : node ≠ last := fun same => fresh (by simp [same])
  rw [Function.update_of_ne other, ends]
  rfl

/-- Another node is taken out: the one before it points behind it. -/
theorem Queued.unlink {front late : List Node} {previous node : Node}
    (queue : Queued next oldest youngest (front ++ previous :: node :: late))
    (distinct : (front ++ previous :: node :: late).Nodup) :
    Queued (Function.update next previous (next node)) oldest
      (if youngest = some node then some previous else youngest) (front ++ previous :: late) := by
  obtain ⟨middle, before, begins, points, behind⟩ := chain_append.mp queue.1
  have apart := List.nodup_append'.mp distinct
  have previousFront : previous ∉ front := fun member => apart.2.2 member List.mem_cons_self
  have previousLate : previous ∉ late := fun member =>
    (List.nodup_cons.mp apart.2.1).1 (List.mem_cons_of_mem _ member)
  have nodeLate : node ∉ late := (List.nodup_cons.mp (List.nodup_cons.mp apart.2.1).2).1
  constructor
  · refine chain_append.mpr ⟨middle, before.update previousFront _, begins, ?_⟩
    rw [Function.update_self]
    exact behind.update previousLate _
  · rw [queue.2, List.getLast?_append_cons, List.getLast?_append_cons, List.getLast?_cons_cons]
    cases late with
    | nil => exact if_pos rfl
    | cons other rest =>
      rw [List.getLast?_cons_cons, List.getLast?_cons_cons]
      exact if_neg fun same => nodeLate (List.mem_of_getLast? same)

end Update

end Chain

end Urus
