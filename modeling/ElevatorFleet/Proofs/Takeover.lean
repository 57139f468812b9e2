import ElevatorFleet.Proofs.Selection

/-!
What happens when a car takes over pending calls.

* `Backfill.Takes` is what a take-over does at most: the car grows, the calls that leave the pool
  are for floors the car is going to stop at, and if nothing is taken nothing changes.
* `Backfill.run_takes` says that every take-over is of this kind, by either rule, from any floor
  and with any pool.
* `Backfill.run_of_idle` says that an idle car never leaves a pool empty-handed.
-/

namespace ElevatorFleet

namespace Backfill

variable {c c' : Car} {p p' : Pool}

/-- What a car that takes over calls from a pool does at most. A call leaves the pool only if the
car is going to stop at its floor; if nothing is taken nothing has changed, and if something is the
car has something queued. Only a call for a floor outside the building makes a take-over fail. -/
structure Takes (c : Car) (p : Pool) (taken : Except Fault Nat) (c' : Car) (p' : Pool) : Prop where
  sound : c'.Sound
  grown : c.Grown c'
  sublist : p'.entries.Sublist p.entries
  served : ∀ e ∈ p.entries, e ∈ p'.entries ∨ e.request.floor ∈ c'.state.stops.floors
  nothing : taken = .ok 0 → c' = c ∧ p' = p
  something : ∀ n, taken = .ok (n + 1) → c'.state.stops ≠ .empty
  failed : ∀ fault, taken = .error fault → ∃ e ∈ p.entries, c.settings.height ≤ e.request.floor

/-- Calls for floors of the building do not make a take-over fail. -/
lemma Takes.exists_ok {taken : Except Fault Nat} (h : Takes c p taken c' p')
    (hin : ∀ e ∈ p.entries, e.request.floor < c.settings.height) : ∃ n, taken = .ok n := by
  cases taken with
  | error fault =>
      obtain ⟨e, he, hle⟩ := h.failed fault rfl
      exact absurd (hin e he) (not_lt_of_ge hle)
  | ok n => exact ⟨n, rfl⟩

/-- A chain of single calls is of this kind. -/
lemma takes_of_takesOver {es taken left : List Pending} {fault? : Option Fault}
    (htakes : TakesOver c es taken fault? c' left) (h : c.Sound) :
    Takes c ⟨es⟩ (outcome taken fault?) c' ⟨left⟩ := by
  have haccounts := htakes.accounts h
  have hstop : ∀ e ∈ taken, e.request.floor ∈ c'.state.stops.floors := fun e he =>
    (haccounts.mem_stops _).mpr (Or.inr ⟨e, he, rfl⟩)
  refine ⟨htakes.sound h, haccounts.grown, haccounts.sublist, fun e he => ?_, fun hzero => ?_,
    fun n hsome => ?_, fun fault hfault => ?_⟩
  · exact (List.mem_append.mp (haccounts.perm.subset he)).symm.imp_right (hstop e)
  · cases htakes with
    | done => exact ⟨rfl, rfl⟩
    | fails => simp [outcome] at hzero
    | takes => cases fault? <;> simp [outcome] at hzero
  · cases taken with
    | nil => cases fault? <;> simp [outcome] at hsome
    | cons e taken => exact Stops.ne_empty_of_mem (hstop e List.mem_cons_self)
  · cases fault? with
    | none => simp [outcome] at hfault
    | some fault' =>
        obtain ⟨e, he, -, hle, -⟩ := htakes.exists_of_fault h
        exact ⟨e, haccounts.sublist.subset he, hle⟩

/-- **Every take-over**, by either rule, from any floor and with any pool, is of the kind `Takes`
describes. -/
theorem run_takes (h : c.Sound) (rule : BackfillRule) (floor : Floor) (p : Pool) :
    ∃ taken, Takes c p taken (run rule floor c p).2.1 (run rule floor c p).2.2 ∧
      (run rule floor c p).1 = taken.map fun n => decide (0 < n) := by
  obtain ⟨taken, fault?, c', left, heq, htakes⟩ := run_takesOver h rule floor p
  rw [heq]
  exact ⟨outcome taken fault?, takes_of_takesOver htakes h, rfl⟩

/-- **An idle car never leaves a pool empty-handed**: it takes over at least one call as soon as
there is one, by either rule and seen from any floor. -/
theorem run_of_idle (h : c.Sound) (hidle : c.state.activity = .idle) (hne : p ≠ .empty)
    (hin : ∀ e ∈ p.entries, e.request.floor < c.settings.height) (rule : BackfillRule)
    (floor : Floor) : (run rule floor c p).1 = .ok true := by
  have hsome : p.entries ≠ [] := fun hnil => hne (by rw [Pool.empty, ← hnil])
  cases rule with
  | farthestFirst =>
      obtain ⟨_, _, _, _, _, n, -, -, heq, -⟩ :=
        farthestFirst_of_idle_split h hidle hsome hin floor
      rw [run_of_ne_nil hsome .farthestFirst heq]
      rfl
  | densityBased =>
      by_cases hside : ∃ e ∈ p.entries, onBusierSide floor p e.request = true
      · obtain ⟨before, e, behind, hsplit, hbefore, hon⟩ := exists_first hside
        obtain ⟨_, _, -, heq, -⟩ := densityBased_of_idle_split h hidle hsplit hin hbefore hon
        rw [run_of_ne_nil hsome .densityBased heq]
        rfl
      · obtain ⟨e, behind, hsplit⟩ := List.exists_cons_of_ne_nil hsome
        obtain ⟨_, _, -, heq, -⟩ := densityBased_of_idle_here h hidle hsplit hin fun x hx hon =>
          hside ⟨x, hx, hon⟩
        rw [run_of_ne_nil hsome .densityBased heq]
        rfl

end Backfill

end ElevatorFleet
