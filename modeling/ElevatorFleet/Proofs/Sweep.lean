import ElevatorFleet.Car.Stops
import Mathlib.Tactic

/-!
Sweeps: how the travel directions order the floors of a queue.

* `Direction.reaches_of_precedes` carries "ahead of the car" from one floor to the floors behind it
  in the sweep, and `Direction.reaches_step` carries it over one step of the car.
* `Direction.toward_eq_of_reaches` says that a car which heads for a floor ahead of it keeps its
  direction, and `Direction.step_spec` that a step toward a floor is never cut short.
* `Stops.OrderedFor.insert` is the order of a queue after an insertion.
-/

namespace ElevatorFleet

namespace Direction

variable {d : Direction} {here there a b c : Floor}

/-! ### The order of a sweep -/

lemma Precedes.trans (hab : d.Precedes a b) (hbc : d.Precedes b c) : d.Precedes a c := by
  cases d with
  | down => exact Fin.lt_trans hbc hab
  | stop => exact Fin.lt_trans hab hbc
  | up => exact Fin.lt_trans hab hbc

lemma Precedes.asymm (hab : d.Precedes a b) : ¬ d.Precedes b a := by
  cases d <;> exact Fin.lt_asymm hab

/-- A sweep meets one of two different floors first. -/
lemma precedes_or_of_ne (d : Direction) (hab : a ≠ b) : d.Precedes a b ∨ d.Precedes b a := by
  cases d with
  | down => exact (lt_or_gt_of_ne hab).symm
  | stop => exact lt_or_gt_of_ne hab
  | up => exact lt_or_gt_of_ne hab

/-! ### What lies ahead -/

lemma ne_stop_of_reaches (h : d.reaches here there) : d ≠ .stop := by
  rintro rfl
  simp [reaches] at h

lemma reaches_self (hd : d ≠ .stop) (here : Floor) : d.reaches here here := by
  cases d <;> simp_all [reaches]

/-- What is behind a floor ahead of the car is ahead of the car as well. -/
lemma reaches_of_precedes (h : d.reaches here a) (hab : d.Precedes a b) : d.reaches here b := by
  cases d with
  | down => exact decide_eq_true (le_of_lt (lt_of_lt_of_le hab (of_decide_eq_true h)))
  | stop => exact absurd h (by simp [reaches])
  | up => exact decide_eq_true (le_of_lt (lt_of_le_of_lt (of_decide_eq_true h) hab))

lemma reaches_toward (hne : here ≠ there) : (toward here there).reaches here there := by
  rcases lt_or_gt_of_ne hne with h | h
  · rw [toward, if_pos h]
    exact decide_eq_true h.le
  · rw [toward, if_neg h.asymm, if_pos h]
    exact decide_eq_true (le_of_lt h)

@[simp] lemma toward_self (here : Floor) : toward here here = .stop := by
  simp [toward]

/-- Heading for a floor ahead of it, a car keeps its direction. -/
lemma toward_eq_of_reaches (h : d.reaches here there) (hne : here ≠ there) :
    toward here there = d := by
  cases d with
  | down =>
      have hlt : there < here := lt_of_le_of_ne (of_decide_eq_true h) hne.symm
      rw [toward, if_neg hlt.asymm, if_pos hlt]
  | stop => exact absurd h (by simp [reaches])
  | up =>
      have hlt : here < there := lt_of_le_of_ne (of_decide_eq_true h) hne
      rw [toward, if_pos hlt]

/-! ### One step -/

/-- A step toward a floor ahead leads one floor on, up or down: it is never cut short at the ends
of the byte range. -/
lemma step_spec (h : d.reaches here there) (hne : here ≠ there) :
    (d = .up ∧ (d.step here).val = here.val + 1) ∨
      (d = .down ∧ (d.step here).val + 1 = here.val) := by
  cases d with
  | down =>
      have hlt : there.val < here.val :=
        Fin.lt_def.mp (lt_of_le_of_ne (of_decide_eq_true h) hne.symm)
      refine Or.inr ⟨rfl, ?_⟩
      simp only [step]
      omega
  | stop => exact absurd h (by simp [reaches])
  | up =>
      have hlt : here.val < there.val := Fin.lt_def.mp (lt_of_le_of_ne (of_decide_eq_true h) hne)
      refine Or.inl ⟨rfl, ?_⟩
      have hroom : here.val + 1 < 256 := lt_of_le_of_lt hlt there.isLt
      simp [step, hroom]

/-- The floor a car heads for stays ahead of it when it takes a step. -/
lemma reaches_step (h : d.reaches here there) (hne : here ≠ there) :
    d.reaches (d.step here) there := by
  have hstep := step_spec h hne
  cases d with
  | down =>
      have hlt : there.val < here.val :=
        Fin.lt_def.mp (lt_of_le_of_ne (of_decide_eq_true h) hne.symm)
      refine decide_eq_true (Fin.le_def.mpr ?_)
      simp only [reduceCtorEq, false_and, true_and, false_or] at hstep
      omega
  | stop => exact absurd h (by simp [reaches])
  | up =>
      have hlt : here.val < there.val := Fin.lt_def.mp (lt_of_le_of_ne (of_decide_eq_true h) hne)
      refine decide_eq_true (Fin.le_def.mpr ?_)
      simp only [reduceCtorEq, false_and, true_and, or_false] at hstep
      omega

/-- A car that heads for a floor of the building stays in the building. -/
lemma step_lt {height : Floor} (h : d.reaches here there) (hne : here ≠ there)
    (hhere : here < height) (hthere : there < height) : d.step here < height := by
  have hreach := reaches_step h hne
  have hstep := step_spec h hne
  cases d with
  | down =>
      rw [Fin.lt_def] at *
      simp only [reduceCtorEq, false_and, true_and, false_or] at hstep
      omega
  | stop => exact absurd h (by simp [reaches])
  | up => exact lt_of_le_of_lt (of_decide_eq_true hreach) hthere

end Direction

namespace Stops

variable {q : Stops} {d : Direction} {floor : Floor}

lemma eq_empty_iff : q = .empty ↔ q.floors = [] := by
  cases q
  simp [empty]

@[simp] lemma floors_empty : Stops.empty.floors = [] := rfl

@[simp] lemma isEmpty_iff : q.isEmpty = true ↔ q = .empty := by
  rw [isEmpty, List.isEmpty_iff, eq_empty_iff]

@[simp] lemma contains_iff : q.contains floor = true ↔ floor ∈ q.floors := by
  simp [contains]

lemma ne_empty_of_mem (h : floor ∈ q.floors) : q ≠ .empty := by
  rintro rfl
  simp at h

lemma insert_ne_empty (q : Stops) (floor : Floor) (d : Direction) : q.insert floor d ≠ .empty :=
  ne_empty_of_mem (mem_insert.mpr (Or.inl rfl))

/-- A queue with something in it has a floor that comes next, and others behind it. -/
lemma exists_cons_of_ne_empty (h : q ≠ .empty) : ∃ next rest, q = ⟨next :: rest⟩ := by
  obtain ⟨floors⟩ := q
  cases floors with
  | nil => exact absurd rfl h
  | cons next rest => exact ⟨next, rest, rfl⟩

lemma OrderedFor.nodup (h : q.OrderedFor d) : q.floors.Nodup := by
  refine List.Pairwise.imp (fun {a b} hab heq => ?_) h
  subst heq
  exact hab.asymm hab

lemma orderedFor_empty (d : Direction) : Stops.empty.OrderedFor d := List.Pairwise.nil

/-- An insertion keeps a queue in the order of its sweep. -/
lemma OrderedFor.insert (h : q.OrderedFor d) (floor : Floor) : (q.insert floor d).OrderedFor d := by
  by_cases hmem : floor ∈ q.floors
  · rwa [insert_of_mem hmem]
  · have hnodup : (q.insert floor d).floors.Nodup :=
      (floors_insert hmem d).nodup_iff.mpr (List.nodup_cons.mpr ⟨hmem, h.nodup⟩)
    have hsorted : (q.insert floor d).floors.Pairwise fun a b => !decide (d.Precedes b a) := by
      rw [Stops.insert, if_neg (by simpa using hmem)]
      refine List.pairwise_mergeSort (fun a b c hab hbc => ?_) (fun a b => ?_) _
      · simp only [Bool.not_eq_true', decide_eq_false_iff_not] at hab hbc ⊢
        intro hca
        -- a floor that precedes another precedes or follows every third one
        by_cases hcb : c = b
        · exact hab (hcb ▸ hca)
        · rcases Direction.precedes_or_of_ne d hcb with h' | h'
          · exact hbc h'
          · exact hab (h'.trans hca)
      · by_cases hab : d.Precedes b a
        · simp [hab.asymm]
        · simp [hab]
    refine (hsorted.and hnodup).imp fun {a b} hab => ?_
    rcases Direction.precedes_or_of_ne d hab.2 with h' | h'
    · exact h'
    · simp [h'] at hab

end Stops

end ElevatorFleet
