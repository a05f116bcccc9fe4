/-
This file proves what the table of the stationary beacons holds: no two entries for one address, in
each entry the position that came last for its address, and, behind each datagram, the entries in
ascending order. No access to the table or to the buffer is out of bounds.
-/

import Urus.Lib.SwapRemove
import Urus.Beacon.Model

namespace Urus.Beacon

/-! ### Tables -/

/-- The entries of the table that are in use. -/
def StationaryBeaconsPositions.stored (table : StationaryBeaconsPositions) :
    List StationaryBeaconPosition :=
  table.beacons.take table.numBeacons

/-- The last report of a beacon. -/
def lastReport (reports : List StationaryBeaconPosition) (address : UInt8) :
    Option StationaryBeaconPosition :=
  reports.reverse.find? fun report => report.address == address

/-- The addresses ascend. -/
def Ascending (beacons : List StationaryBeaconPosition) : Prop :=
  beacons.Pairwise fun first second => first.address.toNat < second.address.toNat

/-- The entries are the last reports of different beacons, and in order unless one of them is
new. -/
structure Sound (reports : List StationaryBeaconPosition) (table : StationaryBeaconsPositions) :
    Prop where
  size : table.beacons.length = maxBeacons
  used : table.numBeacons ≤ maxBeacons
  distinct : (table.stored.map fun beacon => beacon.address).Nodup
  latest : ∀ beacon ∈ table.stored, lastReport reports beacon.address = some beacon
  ordered : table.updated = false → Ascending table.stored

theorem lastReport_own (reports : List StationaryBeaconPosition)
    (beacon : StationaryBeaconPosition) :
    lastReport (reports ++ [beacon]) beacon.address = some beacon := by
  rw [lastReport, List.reverse_append, List.reverse_singleton, List.singleton_append]
  exact List.find?_cons_of_pos (beq_self_eq_true beacon.address)

theorem lastReport_other (reports : List StationaryBeaconPosition)
    {beacon : StationaryBeaconPosition} {address : UInt8} (other : address ≠ beacon.address) :
    lastReport (reports ++ [beacon]) address = lastReport reports address := by
  rw [lastReport, List.reverse_append, List.reverse_singleton, List.singleton_append]
  exact List.find?_cons_of_neg fun same => other (beq_iff_eq.mp same).symm

/-! ### Storing a beacon -/

theorem write_inside {Entry : Type} {entries : List Entry} {index : ℕ} {entry : Entry}
    (inside : index < entries.length) : write entries index entry = some (entries.set index entry) :=
  if_pos inside

/-- The search stays within the table, and finds the entry with the address if there is one. -/
theorem searchLoop_spec {beacons : List StationaryBeaconPosition} (address : UInt8)
    {rounds index : ℕ} (inside : index + rounds ≤ beacons.length) :
    (∃ place beacon, searchLoop beacons address rounds index = some (some place) ∧
      place < index + rounds ∧ beacons[place]? = some beacon ∧ beacon.address = address) ∨
    searchLoop beacons address rounds index = some none ∧
      ∀ beacon ∈ (beacons.take (index + rounds)).drop index, beacon.address ≠ address := by
  induction rounds generalizing index with
  | zero =>
    refine Or.inr ⟨rfl, fun beacon member => ?_⟩
    rw [Nat.add_zero, List.drop_take_self] at member
    exact absurd member List.not_mem_nil
  | succ rounds inductionHypothesis =>
    have here : index < beacons.length := by omega
    rw [searchLoop, List.getElem?_eq_getElem here]
    dsimp only [Option.bind_eq_bind, Option.bind_some]
    by_cases own : beacons[index].address = address
    · rw [if_pos own]
      exact Or.inl ⟨index, beacons[index], rfl, by omega, List.getElem?_eq_getElem here, own⟩
    · rw [if_neg own]
      have shift : index + 1 + rounds = index + (rounds + 1) := by omega
      have insideNext : index + 1 + rounds ≤ beacons.length := by omega
      rcases inductionHypothesis insideNext with
        ⟨place, beacon, found, bound, there, same⟩ | ⟨missing, others⟩
      · exact Or.inl ⟨place, beacon, found, by omega, there, same⟩
      · refine Or.inr ⟨missing, fun beacon member => ?_⟩
        have inRange : index < (beacons.take (index + (rounds + 1))).length := by
          rw [List.length_take]
          omega
        rw [List.drop_eq_getElem_cons inRange, List.getElem_take] at member
        rcases List.mem_cons.mp member with rfl | later
        · exact own
        · rw [shift] at others
          exact others beacon later

variable {reports : List StationaryBeaconPosition} {table : StationaryBeaconsPositions}

theorem Sound.length_stored (sound : Sound reports table) :
    table.stored.length = table.numBeacons := by
  rw [StationaryBeaconsPositions.stored, List.length_take, sound.size, Nat.min_eq_left sound.used]

theorem sound_of_stored {entries : List StationaryBeaconPosition}
    (stored : table.stored = entries) (size : table.beacons.length = maxBeacons)
    (used : table.numBeacons ≤ maxBeacons)
    (distinct : (entries.map fun beacon => beacon.address).Nodup)
    (latest : ∀ beacon ∈ entries, lastReport reports beacon.address = some beacon)
    (ordered : table.updated = false → Ascending entries) : Sound reports table := by
  subst stored
  exact ⟨size, used, distinct, latest, ordered⟩

section

variable (sound : Sound reports table)

include sound

theorem Sound.refresh {place : ℕ}
    {old beacon : StationaryBeaconPosition} (inside : place < table.numBeacons)
    (found : table.beacons[place]? = some old) (same : old.address = beacon.address) :
    Sound (reports ++ [beacon])
      { table with beacons := table.beacons.set place beacon, updated := true } := by
  have there : table.stored[place]? = some old := by
    rw [StationaryBeaconsPositions.stored, List.getElem?_take_of_lt inside]
    exact found
  have stored : (table.beacons.set place beacon).take table.numBeacons =
      table.stored.set place beacon := List.take_set
  refine sound_of_stored stored
    (List.length_set.trans sound.size) sound.used ?_ ?_ fun impossible =>
      absurd impossible.symm Bool.false_ne_true
  · rw [SwapRemove.map_set_same there same.symm]
    exact sound.distinct
  · intro other member
    rw [SwapRemove.mem_set_iff sound.distinct there] at member
    rcases member with rfl | ⟨before, different⟩
    · exact lastReport_own reports other
    · rw [same] at different
      rw [lastReport_other reports different]
      exact sound.latest other before

theorem Sound.extend {beacon : StationaryBeaconPosition}
    (room : table.numBeacons < maxBeacons)
    (fresh : ∀ other ∈ table.stored, other.address ≠ beacon.address) :
    Sound (reports ++ [beacon])
      { numBeacons := table.numBeacons + 1, beacons := table.beacons.set table.numBeacons beacon,
        updated := true } := by
  have inside : table.numBeacons < table.beacons.length := sound.size ▸ room
  have stored : (table.beacons.set table.numBeacons beacon).take (table.numBeacons + 1) =
      table.stored ++ [beacon] := by
    rw [List.take_add_one, List.take_set_of_le (Nat.le_refl _), List.getElem?_set_self inside]
    rfl
  refine sound_of_stored stored (List.length_set.trans sound.size) room
    (SwapRemove.nodup_append_singleton sound.distinct fresh) ?_ fun impossible =>
      absurd impossible.symm Bool.false_ne_true
  intro other member
  rcases List.mem_append.mp member with before | new
  · rw [lastReport_other reports (fresh other before)]
    exact sound.latest other before
  · rw [List.mem_singleton.mp new]
    exact lastReport_own reports beacon

theorem Sound.drop {beacon : StationaryBeaconPosition}
    (fresh : ∀ other ∈ table.stored, other.address ≠ beacon.address) :
    Sound (reports ++ [beacon]) table := by
  refine ⟨sound.size, sound.used, sound.distinct, fun other member => ?_, sound.ordered⟩
  rw [lastReport_other reports (fresh other member)]
  exact sound.latest other member

theorem store_spec (beacon : StationaryBeaconPosition) :
    ∃ next, table.store beacon = some next ∧ Sound (reports ++ [beacon]) next := by
  have within : 0 + table.numBeacons ≤ table.beacons.length := by
    rw [Nat.zero_add, sound.size]
    exact sound.used
  rw [StationaryBeaconsPositions.store, StationaryBeaconsPositions.getOrAllocBeacon]
  rcases searchLoop_spec beacon.address within with
    ⟨place, old, found, bound, there, same⟩ | ⟨missing, fresh⟩
  · rw [Nat.zero_add] at bound
    obtain ⟨inside, -⟩ := List.getElem?_eq_some_iff.mp there
    rw [found]
    dsimp only [Option.bind_eq_bind, Option.bind_some]
    rw [write_inside inside]
    exact ⟨_, rfl, sound.refresh bound there same⟩
  · rw [Nat.zero_add, List.drop_zero] at fresh
    rw [missing]
    dsimp only [Option.bind_eq_bind, Option.bind_some]
    by_cases full : table.numBeacons ≥ maxBeacons
    · rw [if_pos full]
      exact ⟨table, rfl, sound.drop fresh⟩
    · rw [if_neg full]
      dsimp only [Option.bind_some]
      have room : table.numBeacons < maxBeacons := Nat.not_le.mp full
      rw [write_inside (sound.size ▸ room)]
      exact ⟨_, rfl, sound.extend room fresh⟩

/-! ### Ordering the table -/

theorem order_spec :
    ∃ next, table.order = some next ∧ Sound reports next ∧ Ascending next.stored := by
  rw [StationaryBeaconsPositions.order]
  cases changed : table.updated with
  | false => exact ⟨table, rfl, sound, sound.ordered changed⟩
  | true =>
    obtain ⟨sorted, result, perm, ascending⟩ := BubbleSort.sortLoop_spec
      (fun beacon : StationaryBeaconPosition => beacon.address.toNat) table.stored
      (table.beacons.drop table.numBeacons)
    rw [sound.length_stored, StationaryBeaconsPositions.stored, List.take_append_drop] at result
    have length : sorted.length = table.numBeacons := perm.length_eq.trans sound.length_stored
    have stored : (sorted ++ table.beacons.drop table.numBeacons).take table.numBeacons =
        sorted := by
      rw [← length, List.take_left]
    have strictly : Ascending sorted := by
      have distinct : sorted.Pairwise fun first second => first.address ≠ second.address :=
        List.pairwise_map.mp ((perm.map _).nodup_iff.mpr sound.distinct)
      refine (ascending.and distinct).imp fun ⟨small, different⟩ => ?_
      exact lt_of_le_of_ne small fun same => different (UInt8.toNat_inj.mp same)
    rw [if_pos rfl, result]
    have size : (sorted ++ table.beacons.drop table.numBeacons).length = maxBeacons := by
      rw [List.length_append, List.length_drop, length, sound.size]
      exact Nat.add_sub_of_le sound.used
    refine ⟨_, rfl, sound_of_stored stored size sound.used ?_ ?_ fun _ => strictly, ?_⟩
    · exact (perm.map _).nodup_iff.mpr sound.distinct
    · exact fun beacon member => sound.latest beacon (perm.mem_iff.mp member)
    · exact (congrArg Ascending stored).mpr strictly

end

end Urus.Beacon
