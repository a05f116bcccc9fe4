/-
This file is a library about an array whose entries have distinct keys: removals in which the last
entry moves into the hole, and entries that are written over.
-/

import Mathlib.Data.List.Nodup
import Mathlib.Data.List.Basic
import Mathlib.Tactic

namespace Urus.SwapRemove

variable {Entry : Type*}

/-- The list without the entry at an index: the last entry takes its place. -/
def removeAt (entries : List Entry) (index : ℕ) : List Entry :=
  match entries.getLast? with
  | none => entries
  | some last =>
    (if index ≠ entries.length - 1 then entries.set index last else entries).dropLast

variable {entries : List Entry} {index : ℕ}

theorem removeAt_last (front : List Entry) (last : Entry) :
    removeAt (front ++ [last]) front.length = front := by
  have length : (front ++ [last]).length - 1 = front.length := by
    rw [List.length_append, List.length_singleton, Nat.add_sub_cancel]
  rw [removeAt, List.getLast?_concat]
  dsimp only
  rw [if_neg (fun different => different length.symm), List.dropLast_concat]

theorem removeAt_front {front : List Entry} (last : Entry) (inside : index < front.length) :
    removeAt (front ++ [last]) index = front.set index last := by
  have length : (front ++ [last]).length - 1 = front.length := by
    rw [List.length_append, List.length_singleton, Nat.add_sub_cancel]
  rw [removeAt, List.getLast?_concat]
  dsimp only
  rw [if_pos (by omega), List.set_append_left _ _ inside, List.dropLast_concat]

section

variable (inside : index < entries.length)

include inside

/-- The removal takes out one entry, and keeps all the others. -/
theorem removeAt_perm :
    (removeAt entries index).Perm (entries.eraseIdx index) := by
  induction entries using List.reverseRecOn with
  | nil => exact absurd inside (Nat.not_lt_zero _)
  | append_singleton front last _ =>
    rw [List.length_append, List.length_singleton] at inside
    rcases Nat.lt_or_eq_of_le (Nat.le_of_lt_succ inside) with before | same
    · rw [removeAt_front last before, List.eraseIdx_append_of_lt_length before,
        List.set_eq_take_append_cons_drop, if_pos before, List.eraseIdx_eq_take_drop_succ]
      have moved : (last :: front.drop (index + 1)).Perm (front.drop (index + 1) ++ [last]) :=
        (List.perm_append_singleton _ _).symm
      rw [List.append_assoc]
      exact moved.append_left (front.take index)
    · rw [same, removeAt_last, List.eraseIdx_append_of_length_le (Nat.le_refl _), Nat.sub_self]
      change front.Perm (front ++ [])
      rw [List.append_nil]

theorem length_removeAt :
    (removeAt entries index).length = entries.length - 1 := by
  rw [(removeAt_perm inside).length_eq, List.length_eraseIdx_of_lt inside]

theorem getElem?_removeAt {other : ℕ}
    (below : other < entries.length - 1) :
    (removeAt entries index)[other]? =
      if other = index then entries[entries.length - 1]? else entries[other]? := by
  induction entries using List.reverseRecOn with
  | nil => exact absurd inside (Nat.not_lt_zero _)
  | append_singleton front last _ =>
    rw [List.length_append, List.length_singleton] at inside below ⊢
    rw [Nat.add_sub_cancel] at below ⊢
    rw [List.getElem?_append_right (Nat.le_refl front.length), Nat.sub_self,
      List.getElem?_append_left below]
    rcases Nat.lt_or_eq_of_le (Nat.le_of_lt_succ inside) with before | same
    · rw [removeAt_front last before]
      by_cases here : other = index
      · rw [if_pos here, here, List.getElem?_set_self before]
        rfl
      · rw [if_neg here, List.getElem?_set_ne (Ne.symm here)]
    · rw [same, removeAt_last, if_neg (by omega)]

theorem take_removeAt :
    (removeAt entries index).take index = entries.take index := by
  induction entries using List.reverseRecOn with
  | nil => exact absurd inside (Nat.not_lt_zero _)
  | append_singleton front last _ =>
    rw [List.length_append, List.length_singleton] at inside
    have within : index ≤ front.length := Nat.le_of_lt_succ inside
    rw [List.take_append_of_le_length within]
    rcases Nat.lt_or_eq_of_le within with before | same
    · rw [removeAt_front last before, List.take_set_of_le (Nat.le_refl index)]
    · rw [same, removeAt_last]

end

/-- An entry that fails is removed in front of a place. The failing entries in front of the place and
the others behind it count off against each other: a removal takes one of each away, or none. -/
theorem balance_removeAt {fails : Entry → Bool} {removed : Entry} {place : ℕ}
    (found : entries[index]? = some removed) (failing : fails removed = true)
    (before : index < place) (behind : place + 1 < entries.length) :
    ((removeAt entries index).drop (place + 1)).countP (fun entry => !fails entry) <
        ((removeAt entries index).take place).countP fails ↔
      (entries.drop (place + 1)).countP (fun entry => !fails entry) <
        (entries.take place).countP fails := by
  obtain ⟨_, rfl⟩ := List.getElem?_eq_some_iff.mp found
  induction entries using List.reverseRecOn with
  | nil => exact absurd behind (Nat.not_lt_zero _)
  | append_singleton front last _ =>
    rw [List.length_append, List.length_singleton] at behind
    have inside : index < front.length := by omega
    have past : index < place + 1 := by omega
    have within : index < (front.take place).length := by
      rw [List.length_take]
      omega
    rw [List.getElem_append_left inside] at failing
    have positive : 0 < (front.take place).countP fails := by
      refine List.countP_pos_iff.mpr ⟨front[index], ?_, failing⟩
      rw [← List.getElem_take (h := within)]
      exact List.getElem_mem within
    rw [removeAt_front last inside, List.take_set, List.drop_set_of_lt past,
      List.countP_set within, List.getElem_take, failing, List.take_append_of_le_length (by omega),
      List.drop_append_of_le_length (by omega), List.countP_append, List.countP_singleton]
    cases fails last
    · simp only [Bool.not_false, if_true, Bool.false_eq_true, if_false]
      omega
    · simp only [Bool.not_true, if_true, Bool.false_eq_true, if_false]
      omega

/-! ### Entries with keys -/

variable {Key : Type*} {key : Entry → Key}

theorem nodup_removeAt (inside : index < entries.length) (distinct : (entries.map key).Nodup) :
    ((removeAt entries index).map key).Nodup := by
  rw [((removeAt_perm inside).map key).nodup_iff]
  exact distinct.sublist ((List.eraseIdx_sublist entries index).map key)

theorem position_eq {first second : ℕ} {entry other : Entry} (distinct : (entries.map key).Nodup)
    (found : entries[first]? = some entry) (found' : entries[second]? = some other)
    (same : key entry = key other) : first = second := by
  obtain ⟨inside, rfl⟩ := List.getElem?_eq_some_iff.mp found
  obtain ⟨inside', rfl⟩ := List.getElem?_eq_some_iff.mp found'
  have bound : first < (entries.map key).length := by rwa [List.length_map]
  refine (List.getElem?_inj bound distinct).mp ?_
  rw [List.getElem?_map, List.getElem?_map, found, found', Option.map_some, Option.map_some, same]

theorem entry_eq {entry other : Entry} (distinct : (entries.map key).Nodup)
    (member : entry ∈ entries) (member' : other ∈ entries) (same : key entry = key other) :
    entry = other :=
  List.inj_on_of_nodup_map distinct member member' same

theorem mem_removeAt_iff {removed other : Entry} (distinct : (entries.map key).Nodup)
    (found : entries[index]? = some removed) :
    other ∈ removeAt entries index ↔ other ∈ entries ∧ key other ≠ key removed := by
  obtain ⟨inside, -⟩ := List.getElem?_eq_some_iff.mp found
  rw [(removeAt_perm inside).mem_iff, List.mem_eraseIdx_iff_getElem?]
  constructor
  · rintro ⟨position, different, there⟩
    exact ⟨List.mem_of_getElem? there, fun same =>
      different (position_eq distinct there found same)⟩
  · rintro ⟨member, different⟩
    obtain ⟨position, there⟩ := List.getElem?_of_mem member
    refine ⟨position, fun same => different ?_, there⟩
    rw [same] at there
    rw [Option.some.inj (there.symm.trans found)]

theorem mem_set_iff {replaced new other : Entry} (distinct : (entries.map key).Nodup)
    (found : entries[index]? = some replaced) :
    other ∈ entries.set index new ↔ other = new ∨ other ∈ entries ∧ key other ≠ key replaced := by
  obtain ⟨inside, -⟩ := List.getElem?_eq_some_iff.mp found
  constructor
  · intro member
    obtain ⟨position, there⟩ := List.getElem?_of_mem member
    by_cases here : index = position
    · rw [← here, List.getElem?_set_self inside] at there
      exact Or.inl (Option.some.inj there).symm
    · rw [List.getElem?_set_ne here] at there
      exact Or.inr ⟨List.mem_of_getElem? there, fun same =>
        here (position_eq distinct there found same).symm⟩
  · rintro (rfl | ⟨member, different⟩)
    · exact List.mem_set inside other
    · obtain ⟨position, there⟩ := List.getElem?_of_mem member
      have elsewhere : index ≠ position := by
        rintro rfl
        exact different (congrArg key (Option.some.inj (there.symm.trans found)))
      rw [← List.getElem?_set_ne elsewhere] at there
      exact List.mem_of_getElem? there

theorem map_set_same {replaced new : Entry} (found : entries[index]? = some replaced)
    (same : key new = key replaced) : (entries.set index new).map key = entries.map key := by
  obtain ⟨inside, rfl⟩ := List.getElem?_eq_some_iff.mp found
  rw [List.map_set, same]
  have bound : index < (entries.map key).length := by rwa [List.length_map]
  have kept := List.set_getElem_self bound
  rwa [List.getElem_map] at kept

theorem nodup_set {new : Entry} (distinct : (entries.map key).Nodup)
    (fresh : ∀ other ∈ entries, key other ≠ key new) :
    ((entries.set index new).map key).Nodup := by
  rw [List.map_set]
  refine distinct.set fun member => ?_
  obtain ⟨other, there, same⟩ := List.mem_map.mp member
  exact fresh other there same

theorem nodup_append_singleton {new : Entry} (distinct : (entries.map key).Nodup)
    (fresh : ∀ other ∈ entries, key other ≠ key new) :
    ((entries ++ [new]).map key).Nodup := by
  rw [List.map_append, List.map_singleton, List.nodup_append_comm, List.singleton_append,
    List.nodup_cons]
  refine ⟨fun member => ?_, distinct⟩
  obtain ⟨other, there, same⟩ := List.mem_map.mp member
  exact fresh other there same

end Urus.SwapRemove
