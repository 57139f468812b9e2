import ElevatorFleet.Report.Basic
import Mathlib.Algebra.Order.Ring.Nat
import Mathlib.Data.List.Nodup

/-!
What the statistics say about the trips they are made of.

* `Report.sum_countP_start`: the trips that start on the single floors are, taken together, those
  that start below a height.
* `Report.rideBetween?_isSome_iff`: the matrix has a ride between two floors just if somebody made
  the trip.
* `Report.byId_filter` and `Report.byId_eq_of_perm`: equal numbers stay in the order given, and
  with different numbers the order given makes no difference.
* `Report.Accounts` and `Report.Agrees` collect what a report owes its trips, and what two reports
  on the same trips have in common. `Report.accounts_for_every_trip` is the main result.
-/

namespace ElevatorFleet

namespace Report

variable {records others : List TripRecord} {height : Floor}

/-! ### Trips by floor -/

lemma floorStatistics_riders (records : List TripRecord) (floor : Nat) :
    (floorStatistics records floor).riders = records.countP (·.start.val == floor) :=
  List.countP_eq_length_filter.symm

lemma countP_start_lt_add_one (records : List TripRecord) (n : Nat) :
    records.countP (·.start.val < n + 1) =
      records.countP (·.start.val < n) + records.countP (·.start.val == n) := by
  induction records with
  | nil => rfl
  | cons r records ih =>
      simp only [List.countP_cons, ih, beq_iff_eq, decide_eq_true_eq]
      split_ifs <;> omega

/-- The trips that start on the floors below some height are counted once each. -/
lemma sum_countP_start (records : List TripRecord) (n : Nat) :
    ((List.range n).map fun floor => records.countP (·.start.val == floor)).sum =
      records.countP (·.start.val < n) := by
  induction n with
  | zero => simp
  | succ n ih =>
      calc ((List.range (n + 1)).map fun floor => records.countP (·.start.val == floor)).sum
          = ((List.range n).map fun floor => records.countP (·.start.val == floor)).sum +
              records.countP (·.start.val == n) := by simp [List.range_succ]
        _ = records.countP (·.start.val < n) + records.countP (·.start.val == n) := by rw [ih]
        _ = records.countP (·.start.val < n + 1) := (countP_start_lt_add_one records n).symm

/-- The matrix has a ride between two floors just if somebody made the trip. -/
lemma rideBetween?_isSome_iff (records : List TripRecord) (start destination : Nat) :
    (rideBetween? records start destination).isSome = true ↔
      ∃ r ∈ records, r.start.val = start ∧ r.destination.val = destination := by
  have hfilter : (∃ r ∈ records, r.start.val = start ∧ r.destination.val = destination) ↔
      records.filter (fun r => r.start.val == start && r.destination.val == destination) ≠
        [] := by
    simp [List.filter_eq_nil_iff]
  rw [hfilter, rideBetween?]
  cases records.filter fun r => r.start.val == start && r.destination.val == destination <;> simp

/-! ### Trips by number -/

lemma byId_perm (records : List TripRecord) : (byId records).Perm records :=
  List.mergeSort_perm _ _

lemma id_le_trans (a b c : TripRecord) (hab : decide (a.id ≤ b.id) = true)
    (hbc : decide (b.id ≤ c.id) = true) : decide (a.id ≤ c.id) = true :=
  decide_eq_true (Nat.le_trans (of_decide_eq_true hab) (of_decide_eq_true hbc))

lemma id_le_total (a b : TripRecord) : (decide (a.id ≤ b.id) || decide (b.id ≤ a.id)) = true := by
  simpa using Nat.le_total a.id b.id

lemma byId_pairwise (records : List TripRecord) : (byId records).Pairwise (·.id ≤ ·.id) :=
  (List.pairwise_mergeSort id_le_trans id_le_total records).imp of_decide_eq_true

/-- Equal numbers stay in the order given. -/
lemma byId_filter (records : List TripRecord) (id : RiderId) :
    (byId records).filter (·.id == id) = records.filter (·.id == id) := by
  have hid : ∀ r ∈ records.filter (·.id == id), r.id = id := by
    intro r hr
    exact beq_iff_eq.mp (List.mem_filter.mp hr).2
  have hequal : (records.filter (·.id == id)).Pairwise fun a b => decide (a.id ≤ b.id) = true := by
    refine List.pairwise_of_forall_mem_list ?_
    intro a ha b hb
    exact decide_eq_true (Nat.le_of_eq ((hid a ha).trans (hid b hb).symm))
  have hsub : (records.filter (·.id == id)).Sublist ((byId records).filter (·.id == id)) := by
    have hall : (records.filter (·.id == id)).Sublist (byId records) :=
      List.sublist_mergeSort id_le_trans id_le_total hequal List.filter_sublist
    simpa only [List.filter_filter, Bool.and_self] using hall.filter (·.id == id)
  have hlength := ((byId_perm records).filter (·.id == id)).length_eq
  exact (hsub.eq_of_length hlength.symm).symm

/-- With different numbers, the order given makes no difference. -/
lemma byId_eq_of_perm (hperm : others.Perm records) (hids : (records.map (·.id)).Nodup) :
    byId others = byId records := by
  have hsame : (byId others).Perm (byId records) :=
    (byId_perm others).trans (hperm.trans (byId_perm records).symm)
  refine hsame.eq_of_pairwise ?_ (byId_pairwise others) (byId_pairwise records)
  intro a b ha hb hab hba
  have hmem : a ∈ records := (hsame.trans (byId_perm records)).subset ha
  exact List.inj_on_of_nodup_map hids hmem ((byId_perm records).subset hb) (Nat.le_antisymm hab hba)

/-! ### What a report owes its trips -/

/-- Trips between floors of a building. -/
def Within (height : Floor) (records : List TripRecord) : Prop :=
  ∀ r ∈ records, r.start < height ∧ r.destination < height

/-- What the statistics of a floor and its row of the matrix say about the trips that start there:
how many there are, where to, and whether there are any at all. -/
structure AccountsFrom (height : Floor) (records : List TripRecord) (start : Floor)
    (floor : FloorStatistics) (row : List (Option Float)) : Prop where
  riders : floor.riders = records.countP (·.start = start)
  width : row.length = height.val
  ride : ∀ destination < height, ∃ cell, row[destination.val]? = some cell ∧
    (cell.isSome = true ↔ ∃ r ∈ records, r.start = start ∧ r.destination = destination)
  nobody : floor.riders = 0 ↔ ∀ cell ∈ row, cell = none

/-- What a report says about the trips it is made of. There are as many of them as riders delivered,
and as riders counted over all floors; each floor accounts for those that start there; and the table
of people holds them all in the order of their numbers, and otherwise in the order given. The
overall averages are taken over this table. -/
structure Accounts (height : Floor) (records : List TripRecord) (report : Report) : Prop where
  delivered : report.delivered = records.length
  riders : (report.floors.map (·.riders)).sum = report.delivered
  floors : report.floors.length = height.val
  rows : report.rideMatrix.length = height.val
  starts : ∀ start < height, ∃ floor row, report.floors[start.val]? = some floor ∧
    report.rideMatrix[start.val]? = some row ∧ AccountsFrom height records start floor row
  table : report.records.Perm records
  ordered : report.records.Pairwise (·.id ≤ ·.id)
  stable : ∀ id, report.records.filter (·.id == id) = records.filter (·.id == id)
  averageWait : report.averageWait = average (report.records.map (·.wait))
  averageRide : report.averageRide = average (report.records.map (·.ride))

/-- Which cells of the matrix have a ride. -/
def pattern (report : Report) : List (List Bool) := report.rideMatrix.map (·.map (·.isSome))

/-- What two reports have in common. Averages that agree are the same doubles. -/
structure Agrees (report other : Report) : Prop where
  records : report.records = other.records
  delivered : report.delivered = other.delivered
  riders : report.floors.map (·.riders) = other.floors.map (·.riders)
  pattern : report.pattern = other.pattern
  averageWait : report.averageWait = other.averageWait
  averageRide : report.averageRide = other.averageRide

section

variable {strategies : Strategies} {people : Nat}

lemma delivered_make : (make strategies height people records).delivered = records.length :=
  (byId_perm records).length_eq

lemma riders_make : (make strategies height people records).floors.map (·.riders) =
    (List.range height.val).map fun floor => records.countP (·.start.val == floor) := by
  rw [make, List.map_map]
  exact List.map_congr_left fun floor _ => floorStatistics_riders records floor

lemma pattern_make : (make strategies height people records).pattern =
    (List.range height.val).map fun start => (List.range height.val).map fun destination =>
      decide (∃ r ∈ records, r.start.val = start ∧ r.destination.val = destination) := by
  rw [pattern, make, List.map_map]
  refine List.map_congr_left fun start _ => ?_
  rw [Function.comp_apply, List.map_map]
  refine List.map_congr_left fun destination _ => ?_
  rw [Function.comp_apply, Bool.eq_iff_iff, rideBetween?_isSome_iff, decide_eq_true_iff]

/-- The row of a floor is blank just if no trip starts there. -/
lemma forall_rideBetween?_eq_none_iff (hwithin : Within height records) (start : Floor) :
    (∀ cell ∈ (List.range height.val).map (rideBetween? records start.val), cell = none) ↔
      ∀ r ∈ records, r.start ≠ start := by
  rw [List.forall_mem_map]
  constructor
  · intro hnone r hr hstart
    -- the destination of the trip has a cell in the row
    have hride := (rideBetween?_isSome_iff records start.val r.destination.val).mpr
      ⟨r, hr, congrArg Fin.val hstart, rfl⟩
    rw [hnone _ (List.mem_range.mpr (hwithin r hr).2)] at hride
    contradiction
  · intro hnobody destination _
    by_contra hride
    obtain ⟨r, hr, hstart, -⟩ := (rideBetween?_isSome_iff records start.val destination).mp
      (Option.isSome_iff_ne_none.mpr hride)
    exact hnobody r hr (Fin.ext hstart)

lemma accountsFrom (hwithin : Within height records) (start : Floor) :
    AccountsFrom height records start (floorStatistics records start.val)
      ((List.range height.val).map (rideBetween? records start.val)) := by
  have hriders : (floorStatistics records start.val).riders =
      records.countP (·.start = start) := by
    rw [floorStatistics_riders]
    exact List.countP_congr fun r _ => by simp [Fin.ext_iff]
  refine ⟨hriders, by simp, ?_, ?_⟩
  · intro destination hdestination
    refine ⟨rideBetween? records start.val destination.val, ?_, ?_⟩
    · rw [List.getElem?_map, List.getElem?_range hdestination, Option.map_some]
    · simp only [rideBetween?_isSome_iff, Fin.ext_iff]
  · rw [hriders, List.countP_eq_zero, forall_rideBetween?_eq_none_iff hwithin]
    simp only [decide_eq_true_eq, ne_eq]

lemma accounts_make (hwithin : Within height records) :
    (make strategies height people records).Accounts height records where
  delivered := delivered_make
  riders := by
    rw [riders_make, sum_countP_start, delivered_make, List.countP_eq_length]
    exact fun r hr => decide_eq_true (hwithin r hr).1
  floors := by simp [make]
  rows := by simp [make]
  starts := fun start hstart => by
    refine ⟨_, _, ?_, ?_, accountsFrom hwithin start⟩ <;>
      rw [make, List.getElem?_map, List.getElem?_range hstart, Option.map_some]
  table := byId_perm records
  ordered := byId_pairwise records
  stable := byId_filter records
  averageWait := rfl
  averageRide := rfl

lemma agrees_make (hperm : others.Perm records) (hids : (records.map (·.id)).Nodup) :
    (make strategies height people others).Agrees (make strategies height people records) := by
  have htable := byId_eq_of_perm hperm hids
  refine ⟨htable, ?_, ?_, ?_, ?_, ?_⟩
  · rw [delivered_make, delivered_make, hperm.length_eq]
  · simp only [riders_make, hperm.countP_eq]
  · simp only [pattern_make, hperm.mem_iff]
  · simp only [make, htable]
  · simp only [make, htable]

end

/-- **A report accounts for every trip once, whatever the order in which trips are given.**

Given trips between the floors of a building, the riders counted floor by floor are all who have
been delivered, one for every trip; the matrix has a ride for just the pairs of floors between which
somebody went, so that nobody is counted on a floor just if its row is blank; and the table of
people holds the same trips in the order of their numbers, equal numbers in the order given. If all
numbers are different, another order of the trips makes no difference to the table, to what is
counted, to which rides there are, nor to a single bit of the overall averages. -/
theorem accounts_for_every_trip (strategies : Strategies) (height : Floor) (people : Nat)
    (records : List TripRecord) (hwithin : Within height records) :
    (make strategies height people records).Accounts height records ∧
    ∀ others : List TripRecord, others.Perm records → (records.map (·.id)).Nodup →
      (make strategies height people others).Agrees (make strategies height people records) := by
  constructor
  · exact accounts_make hwithin
  · intro others hperm hids
    exact agrees_make hperm hids

/-- Three trips between three floors, none of them from the last. -/
def threeTrips (a b c : Floor) : List TripRecord :=
  [⟨7, b, a, 3.0, 1.0⟩, ⟨2, a, c, 5.0, 1.5⟩, ⟨5, b, c, 4.0, 2.0⟩]

/-- Nobody starts on the top floor, so that its row is blank; and given backwards, the trips make
the same table and the same averages. -/
theorem accounts_for_every_trip_backwards :
    (Within 5 (threeTrips 2 3 4) ∧
      ((make .standard 5 9 (threeTrips 2 3 4)).floors.map (·.riders)).sum = 3 ∧
      ∃ row, (make .standard 5 9 (threeTrips 2 3 4)).rideMatrix[4]? = some row ∧
        ∀ cell ∈ row, cell = none) ∧
    ((threeTrips 2 3 4).reverse.Perm (threeTrips 2 3 4) ∧
      ((threeTrips 2 3 4).map (·.id)).Nodup ∧
      (make .standard 5 9 (threeTrips 2 3 4).reverse).records =
        (make .standard 5 9 (threeTrips 2 3 4)).records ∧
      (make .standard 5 9 (threeTrips 2 3 4).reverse).averageWait =
        (make .standard 5 9 (threeTrips 2 3 4)).averageWait) := by
  have hwithin : Within 5 (threeTrips 2 3 4) := by simp [Within, threeTrips]
  have hids : ((threeTrips 2 3 4).map (·.id)).Nodup := by decide
  obtain ⟨haccounts, hagrees⟩ := accounts_for_every_trip .standard 5 9 (threeTrips 2 3 4) hwithin
  have hbackwards := hagrees _ (List.reverse_perm (threeTrips 2 3 4)) hids
  obtain ⟨floor, row, -, hrow, htop⟩ := haccounts.starts 4 (by decide)
  refine ⟨⟨hwithin, haccounts.riders.trans haccounts.delivered, row, hrow, ?_⟩,
    List.reverse_perm _, hids, hbackwards.records, hbackwards.averageWait⟩
  exact htop.nobody.mp (htop.riders.trans rfl)

end Report

end ElevatorFleet
