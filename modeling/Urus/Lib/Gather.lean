/-
This file develops the gathering of things that arrive in pieces. The gatherer holds pieces
of one thing at a time. A piece of another thing, and a piece that it holds already, makes
it start afresh with that piece. When it holds all pieces of a thing, the thing is complete,
and the gatherer is empty again.

A thing whose pieces arrive once, in any order and with no other pieces in between, is
completed once, by the last of them.
-/

import Mathlib.Tactic

namespace Urus.Gather

section

variable {Thing Piece : Type} [DecidableEq Thing] [DecidableEq Piece]

/-- The pieces that the gatherer holds together with one that arrives. -/
def joined (held : Option (Thing × Finset Piece)) (arrival : Thing × Piece) : Finset Piece :=
  match held with
  | none => {arrival.2}
  | some (thing, pieces) =>
    if thing = arrival.1 ∧ arrival.2 ∉ pieces then insert arrival.2 pieces else {arrival.2}

variable (whole : Thing → Finset Piece)

/-- What the gatherer holds behind an arrival. -/
def gather (held : Option (Thing × Finset Piece)) (arrival : Thing × Piece) :
    Option (Thing × Finset Piece) :=
  if joined held arrival = whole arrival.1 then none else some (arrival.1, joined held arrival)

/-- The arrivals that complete a thing. -/
def completions : Option (Thing × Finset Piece) → List (Thing × Piece) → List (Thing × Piece)
  | _, [] => []
  | held, arrival :: rest =>
    if joined held arrival = whole arrival.1 then
      arrival :: completions (gather whole held arrival) rest
    else completions (gather whole held arrival) rest

variable {whole}

/-- The gatherer holds no piece of the thing. -/
def Holds (held : Option (Thing × Finset Piece)) (thing : Thing) : Prop :=
  ∃ pieces, held = some (thing, pieces)

theorem completions_append (held : Option (Thing × Finset Piece))
    (first second : List (Thing × Piece)) :
    completions whole held (first ++ second) =
      completions whole held first ++ completions whole (first.foldl (gather whole) held) second := by
  induction first generalizing held with
  | nil => rfl
  | cons arrival rest inductionHypothesis =>
    rw [List.cons_append, completions, completions, List.foldl_cons]
    split
    · rw [inductionHypothesis, List.cons_append]
    · exact inductionHypothesis _

theorem completions_subset (held : Option (Thing × Finset Piece))
    (arrivals : List (Thing × Piece)) : completions whole held arrivals ⊆ arrivals := by
  induction arrivals generalizing held with
  | nil => exact fun _ member => member
  | cons arrival rest inductionHypothesis =>
    rw [completions]
    split
    · exact List.cons_subset_cons _ (inductionHypothesis _)
    · exact fun _ member => List.mem_cons_of_mem _ (inductionHypothesis _ member)

variable {arrival : Thing × Piece} {held : Option (Thing × Finset Piece)} {thing : Thing}
  {arrivals : List (Thing × Piece)} {pieces : List Piece}

theorem gather_holds (holds : Holds (gather whole held arrival) thing) : thing = arrival.1 := by
  obtain ⟨pieces, same⟩ := holds
  rw [gather] at same
  split at same
  · exact nomatch same
  · exact (congrArg Prod.fst (Option.some.inj same)).symm

theorem foldl_gather_holds (holds : Holds (arrivals.foldl (gather whole) none) thing) :
    ∃ before piece, arrivals = before ++ [(thing, piece)] := by
  induction arrivals using List.reverseRecOn with
  | nil => exact nomatch holds.choose_spec
  | append_singleton before arrival _ =>
    rw [List.foldl_append, List.foldl_cons, List.foldl_nil] at holds
    refine ⟨before, arrival.2, ?_⟩
    rw [gather_holds holds]

theorem mem_completions_iff :
    arrival ∈ completions whole none arrivals ↔
      ∃ before after, arrivals = before ++ arrival :: after ∧
        joined (before.foldl (gather whole) none) arrival = whole arrival.1 := by
  constructor
  · intro member
    induction arrivals using List.reverseRecOn with
    | nil => exact nomatch member
    | append_singleton before last inductionHypothesis =>
      rw [completions_append, List.mem_append] at member
      rcases member with early | late
      · obtain ⟨first, rest, split, complete⟩ := inductionHypothesis early
        exact ⟨first, rest ++ [last], by rw [split]; simp, complete⟩
      · rw [completions, completions] at late
        split at late
        · rename_i complete
          rw [List.mem_singleton.mp late]
          exact ⟨before, [], rfl, complete⟩
        · exact nomatch late
  · rintro ⟨before, after, rfl, complete⟩
    rw [completions_append, completions, if_pos complete]
    exact List.mem_append_right _ List.mem_cons_self

/-- Behind the first pieces of a thing the gatherer holds exactly these. -/
def Collects (held : Option (Thing × Finset Piece)) (thing : Thing) (pieces : List Piece) : Prop :=
  (pieces = [] ∧ ¬ Holds held thing) ∨ held = some (thing, pieces.toFinset)

theorem Collects.joined (collects : Collects held thing pieces) {piece : Piece}
    (fresh : piece ∉ pieces) : joined held (thing, piece) = (pieces ++ [piece]).toFinset := by
  rcases collects with ⟨rfl, other⟩ | rfl
  · cases held with
    | none => rfl
    | some pair =>
      obtain ⟨thing', pieces'⟩ := pair
      have different : ¬ (thing' = thing ∧ piece ∉ pieces') :=
        fun both => other ⟨pieces', by rw [both.1]⟩
      rw [Gather.joined, if_neg different]
      rfl
  · rw [Gather.joined, if_pos ⟨rfl, fun member => fresh (List.mem_toFinset.mp member)⟩,
      List.toFinset_append, Finset.insert_eq, Finset.union_comm]
    rfl

theorem completions_rest (rest : List Piece) (nonempty : rest ≠ [])
    (collects : Collects held thing pieces) (nodup : (pieces ++ rest).Nodup)
    (all : (pieces ++ rest).toFinset = whole thing) :
    completions whole held (rest.map (Prod.mk thing)) = [(thing, rest.getLast nonempty)] ∧
      (rest.map (Prod.mk thing)).foldl (gather whole) held = none := by
  induction rest generalizing held pieces with
  | nil => exact absurd rfl nonempty
  | cons piece rest inductionHypothesis =>
    have fresh : piece ∉ pieces := fun member =>
      (List.disjoint_of_nodup_append nodup) member List.mem_cons_self
    have now := collects.joined fresh
    rw [List.map_cons, completions, List.foldl_cons]
    cases rest with
    | nil =>
      have complete : joined held (thing, piece) = whole thing := now.trans all
      rw [if_pos complete, gather, if_pos complete]
      exact ⟨rfl, rfl⟩
    | cons other rest =>
      rw [List.append_cons] at nodup all
      have missing : joined held (thing, piece) ≠ whole thing := by
        intro complete
        have member : other ∈ (pieces ++ [piece]).toFinset := by
          rw [← now, complete, ← all]
          simp
        exact (List.disjoint_of_nodup_append nodup) (List.mem_toFinset.mp member)
          List.mem_cons_self
      rw [if_neg missing, gather, if_neg missing, List.getLast_cons (List.cons_ne_nil _ _)]
      exact inductionHypothesis (List.cons_ne_nil _ _) (Or.inr (by rw [now])) nodup all

/-- A thing whose pieces arrive once and with no other pieces in between is completed once, by the
last of them. -/
theorem completions_once {before after : List (Thing × Piece)} (nonempty : pieces ≠ [])
    (nodup : pieces.Nodup) (all : pieces.toFinset = whole thing)
    (notBefore : ∀ arrival ∈ before, arrival.1 ≠ thing)
    (notAfter : ∀ arrival ∈ after, arrival.1 ≠ thing) :
    (completions whole none (before ++ pieces.map (Prod.mk thing) ++ after)).filter
      (fun arrival => arrival.1 = thing) = [(thing, pieces.getLast nonempty)] := by
  have idle : ∀ (held : Option (Thing × Finset Piece)) (arrivals : List (Thing × Piece)),
      (∀ arrival ∈ arrivals, arrival.1 ≠ thing) →
      (completions whole held arrivals).filter (fun arrival => arrival.1 = thing) = [] := by
    intro held arrivals others
    rw [List.filter_eq_nil_iff]
    intro arrival member
    rw [decide_eq_true_eq]
    exact others arrival (completions_subset held arrivals member)
  have start : Collects (before.foldl (gather whole) none) thing [] := by
    refine Or.inl ⟨rfl, fun holds => ?_⟩
    obtain ⟨first, piece, split⟩ := foldl_gather_holds holds
    exact notBefore (thing, piece) (by rw [split]; simp) rfl
  obtain ⟨once, -⟩ := completions_rest pieces nonempty start nodup all
  rw [completions_append, completions_append, List.filter_append, List.filter_append,
    idle _ before notBefore, idle _ after notAfter, once]
  simp

end

end Urus.Gather
