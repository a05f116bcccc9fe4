/-
This file is a library about rows in which some items are marks. What has come since the last mark is
the end of the row without marks. An item that is no mark makes it longer, and a mark empties it. The
items can be stored in places one behind the other.
-/

import Mathlib.Data.List.DropRight

namespace Urus.Since

variable {Item : Type*} (mark : Item → Prop) [DecidablePred mark]

/-- The items behind the last mark, or all if there has been none. -/
def since (items : List Item) : List Item := items.rtakeWhile fun item => !decide (mark item)

variable {mark} {items later : List Item} {item : Item}

theorem since_mark (marked : mark item) : since mark (items ++ [item]) = [] :=
  List.rtakeWhile_concat_neg _ _ _ (by simp [marked])

theorem since_plain (plain : ¬mark item) : since mark (items ++ [item]) = since mark items ++ [item] :=
  List.rtakeWhile_concat_pos _ _ _ (by simp [plain])

theorem not_mark_of_mem_since (member : item ∈ since mark items) : ¬mark item := by
  simpa using List.mem_rtakeWhile_imp member

theorem since_append (plain : ∀ item ∈ later, ¬mark item) :
    since mark (items ++ later) = since mark items ++ later := by
  induction later using List.reverseRecOn with
  | nil => rw [List.append_nil, List.append_nil]
  | append_singleton first last inductionHypothesis =>
    rw [← List.append_assoc, since_plain (plain last (List.mem_append_right _ List.mem_cons_self)),
      inductionHypothesis fun item member => plain item (List.mem_append_left _ member),
      List.append_assoc]

theorem since_behind_mark (marked : mark item) (plain : ∀ item ∈ later, ¬mark item) :
    since mark (items ++ item :: later) = later := by
  rw [List.append_cons, since_append plain, since_mark marked, List.nil_append]

theorem exists_eq_since (some_mark : ∃ item ∈ items, mark item) :
    ∃ earlier last, items = earlier ++ last :: since mark items ∧ mark last := by
  induction items using List.reverseRecOn with
  | nil => exact absurd some_mark (by simp)
  | append_singleton first last inductionHypothesis =>
    by_cases marked : mark last
    · exact ⟨first, last, by rw [since_mark marked], marked⟩
    · obtain ⟨item, member, isMark⟩ := some_mark
      have before : item ∈ first := (List.mem_append.mp member).resolve_right fun same =>
        marked (List.mem_singleton.mp same ▸ isMark)
      obtain ⟨earlier, found, split, foundMark⟩ := inductionHypothesis ⟨item, before, isMark⟩
      refine ⟨earlier, found, ?_, foundMark⟩
      rw [since_plain marked, ← List.cons_append, ← List.append_assoc, ← split]

theorem take_set {places : List Item} {count : ℕ} (room : count < places.length) (item : Item) :
    (places.set count item).take (count + 1) = places.take count ++ [item] := by
  rw [List.take_add_one, List.getElem?_set_self room, List.take_set_of_le (le_refl count),
    Option.toList_some]

end Urus.Since
