import ElevatorFleet.Proofs.Selection
import ElevatorFleet.Proofs.SweepRuns

/-!
What becomes of the pending calls when a car takes some of them over, whatever has been done with it
before.

* `Car.Attainable.pool_accounted`: no call is lost and none is taken twice, by either rule and with
  any calls, those included on which a take-over fails.
* `Car.Attainable.farthest_selection` says which calls go when the farthest one comes first, and
  `Car.Attainable.density_selection` which go by the busier side.
-/

namespace ElevatorFleet

namespace Car

open Backfill

variable {c : Car} {p : Pool}

/-- **No pending call is lost and none is taken twice**, by either rule, seen from any floor and
with any calls, calls outside the building included, on which a take-over fails with whatever it has
taken before. The accounts are in order, and the car stands where it stood with the same riders. The
call that has made the take-over fail is left, as are all calls outside the building. The answer
says whether anything was taken, and an idle car is not left without a destination. -/
theorem Attainable.pool_accounted (h : c.Attainable) (rule : BackfillRule) (floor : Floor)
    (p : Pool) :
    ∃ result c' p' taken, run rule floor c p = (result, c', p') ∧
      Accounts c p.entries taken c' p'.entries ∧
      c'.state.floor = c.state.floor ∧ c'.state.riders = c.state.riders ∧
      (∀ any, result = .ok any → (any = true ↔ taken ≠ [])) ∧
      (∀ fault, result = .error fault → ∃ e ∈ p'.entries,
        c'.offer anyCar e.request = (.error fault, c') ∧ c.settings.height ≤ e.request.floor ∧
        fault = .floorOutOfRange e.request.floor c.settings.height) ∧
      (∀ e ∈ p.entries, c.settings.height ≤ e.request.floor → e ∈ p'.entries) ∧
      (c.state.activity = .idle → p.entries ≠ [] →
        (∀ e ∈ p.entries, e.request.floor < c.settings.height) →
        result = .ok true ∧ c'.state.stops ≠ .empty) := by
  obtain ⟨taken, fault?, c', left, heq, htakes⟩ := run_takesOver h.sound rule floor p
  have haccounts := htakes.accounts h.sound
  have hany : ∀ any, ((outcome taken fault?).map fun n => decide (0 < n)) = .ok any →
      (any = true ↔ taken ≠ []) := fun any hok => by
    cases fault? with
    | some fault => simp [outcome, Except.map] at hok
    | none =>
        obtain rfl := Except.ok.inj hok
        rw [decide_eq_true_eq, List.length_pos_iff]
  refine ⟨_, c', ⟨left⟩, taken, heq, haccounts, haccounts.grown.state.floor_eq,
    haccounts.grown.riders_eq, hany, fun fault hfault => ?_, fun e he hle => ?_,
    fun hidle hne hin => ?_⟩
  · cases fault? with
    | none => simp [outcome, Except.map] at hfault
    | some fault' =>
        obtain rfl := Except.error.inj hfault
        exact htakes.exists_of_fault h.sound
  · exact (List.mem_append.mp (haccounts.perm.subset he)).resolve_left fun htaken =>
      not_lt_of_ge hle (haccounts.inside e htaken)
  · have hsome : p ≠ .empty := fun hempty => hne (by rw [hempty]; rfl)
    have hok := run_of_idle h.sound hidle hsome hin rule floor
    rw [heq] at hok
    obtain ⟨e, he⟩ := List.exists_mem_of_ne_nil _ ((hany true hok).mp rfl)
    exact ⟨hok, Stops.ne_empty_of_mem ((haccounts.mem_stops _).mpr (Or.inr ⟨e, he, rfl⟩))⟩

/-- A car with room for ten that rests on a floor. -/
def restingOn (floor height : Floor) : Car := .fresh 0 ⟨height, 10, ⟨1⟩, ⟨1⟩, ⟨1⟩, floor⟩

lemma attainable_restingOn (ops : List CarOperation) :
    ((restingOn 5 10).performAll ops).Attainable :=
  ⟨0, (restingOn 5 10).settings, restingOn 5 10, ops, rfl, rfl⟩

/-- Three calls for up. -/
def callsUp (first second third : Floor) : Pool :=
  ⟨[⟨⟨first, .up⟩, 3⟩, ⟨⟨second, .up⟩, 4⟩, ⟨⟨third, .up⟩, 8⟩]⟩

/-- The second of three calls above the car is for a floor that the building does not have. The car
goes for the first one; the other two are left. -/
theorem pool_accounted_halfway :
    ∃ (c' : Car) (p' : Pool) (taken : List Pending),
      run .densityBased 5 (restingOn 5 10) (callsUp 7 12 9) =
        (.error (.floorOutOfRange 12 10), c', p') ∧
      p'.entries = [⟨⟨12, .up⟩, 4⟩, ⟨⟨9, .up⟩, 8⟩] ∧ taken = [⟨⟨7, .up⟩, 3⟩] ∧
      (∀ e ∈ taken, e.request.floor ∈ c'.state.stops.floors) ∧
      ∃ e ∈ p'.entries, c'.offer anyCar e.request = (.error (.floorOutOfRange 12 10), c') := by
  obtain ⟨result, c', p', taken, heq, haccounts, -, -, -, hfault, -⟩ :=
    (attainable_restingOn []).pool_accounted .densityBased 5 (callsUp 7 12 9)
  have hresult : result = .error (.floorOutOfRange 12 10) :=
    (congrArg Prod.fst heq).symm.trans (by decide +kernel)
  have hleft : p'.entries = [⟨⟨12, .up⟩, 4⟩, ⟨⟨9, .up⟩, 8⟩] :=
    (congrArg (·.2.2.entries) heq).symm.trans (by decide +kernel)
  obtain ⟨e, he, hoffer, -⟩ := hfault _ hresult
  have hperm := haccounts.perm
  rw [hleft] at hperm
  have htaken : [⟨⟨7, .up⟩, 3⟩].Perm taken := (List.perm_append_right_iff _).mp hperm
  exact ⟨c', p', taken, hresult ▸ heq, hleft, List.perm_singleton.mp htaken.symm,
    fun x hx => (haccounts.mem_stops _).mpr (Or.inr ⟨x, hx, rfl⟩), e, he, hoffer⟩

/-- **Which calls go when the farthest comes first.** An idle car with room takes the call that is
farthest away, the oldest of several, and turns in its direction; of the others it takes just those
that go in this direction from a floor that it has not passed, and leaves the rest in order. A car
under way takes just what it might accept when it was asked, from any floor that the calls are seen
from. Either way nothing is left that it might still accept. -/
theorem Attainable.farthest_selection (h : c.Attainable)
    (hin : ∀ e ∈ p.entries, e.request.floor < c.settings.height) (floor : Floor) :
    (c.state.activity = .idle → c.state.riders.length < c.settings.capacity → p.entries ≠ [] →
      ∃ before e behind c' p', p.IsFarthest floor before e behind ∧
        run .farthestFirst floor c p = (.ok true, c', p') ∧
        Collects e (before ++ behind) (c.state.directionFor e.request)
          (·.isOnWay (c.state.directionFor e.request) c.state.floor) c' p' ∧
        ∀ x ∈ p'.entries, c'.state.canAccept x.request c'.settings.capacity = false) ∧
    (c.state.activity ≠ .idle → ∃ c' p',
      run .farthestFirst floor c p =
        (.ok (p.entries.any fun x => c.state.canAccept x.request c.settings.capacity), c', p') ∧
      p'.entries =
        p.entries.filter (fun x => !c.state.canAccept x.request c.settings.capacity) ∧
      ∀ x ∈ p'.entries, c'.state.canAccept x.request c'.settings.capacity = false) := by
  constructor
  · intro hidle hroom hne
    obtain ⟨before, e, behind, c', c'', n, hfarthest, htakes, heq, hgoes⟩ :=
      farthestFirst_of_idle_split h.sound hidle hne hin floor
    have hpicks : (picks c' fun _ => true) =
        fun x => x.request.isOnWay (c.state.directionFor e.request) c.state.floor := by
      funext x
      rw [picks, Bool.true_and, htakes.canAccept_eq hroom]
    rw [hpicks] at heq hgoes
    refine ⟨before, e, behind, c'', _, hfarthest, ?_,
      collects_of_takes h.sound hidle htakes hgoes, fun x hx => ?_⟩
    · rw [run_of_ne_nil hne .farthestFirst heq]
      rfl
    · have hleft := (List.mem_filter.mp hx).2
      rw [hgoes.course.canAccept_eq, htakes.canAccept_eq hroom]
      simpa using hleft
  · intro hbusy
    have hpicks : (picks c fun _ => true) =
        fun x => c.state.canAccept x.request c.settings.capacity := by
      funext x
      rw [picks, Bool.true_and]
    rcases eq_or_ne p.entries [] with hnil | hne
    · refine ⟨c, p, ?_, by rw [hnil]; rfl, by simp [hnil]⟩
      rw [run.eq_def, if_pos (by simp [Pool.isEmpty, hnil]), hnil]
      rfl
    obtain ⟨c', heq, hcourse⟩ := farthestFirst_of_busy h.sound hbusy hne hin floor
    rw [hpicks] at heq
    refine ⟨c', _, ?_, rfl, fun x hx => ?_⟩
    · rw [run_of_ne_nil hne .farthestFirst heq]
      refine Prod.ext (congrArg Except.ok ?_) rfl
      rw [Bool.eq_iff_iff, decide_eq_true_eq, List.countP_pos_iff, List.any_eq_true]
    · have hleft := (List.mem_filter.mp hx).2
      rw [hcourse.canAccept_eq]
      simpa using hleft

/-- Calls for down from three floors, and for up from the two between them. -/
def callsDown (first second third fourth fifth : Floor) : Pool :=
  ⟨[⟨⟨first, .down⟩, 0⟩, ⟨⟨second, .down⟩, 1⟩, ⟨⟨third, .up⟩, 2⟩, ⟨⟨fourth, .down⟩, 3⟩,
    ⟨⟨fifth, .up⟩, 4⟩]⟩

/-- The call on the ground floor is the farthest one, and the calls for down below the car go with
it. A car on its way up takes only the call above it for up. -/
theorem farthest_selection_all_round :
    (∃ (e : Pending) (c' : Car) (p' : Pool), e.request = ⟨0, .up⟩ ∧
      run .farthestFirst 5 (restingOn 5 10) (callsDown 6 1 0 3 8) = (.ok true, c', p') ∧
      c'.state.direction = .down ∧ c'.state.stops.floors = [3, 1, 0] ∧
      p'.requests = [⟨6, .down⟩, ⟨8, .up⟩]) ∧
    ∃ (c' : Car) (p' : Pool),
      run .farthestFirst 0 ((restingOn 5 10).performAll [.addStop 9]) (callsDown 6 1 0 3 8) =
        (.ok true, c', p') ∧
      p'.requests = [⟨6, .down⟩, ⟨1, .down⟩, ⟨0, .up⟩, ⟨3, .down⟩] := by
  have hrests : (restingOn 5 10).Attainable := attainable_restingOn []
  obtain ⟨hidle, -⟩ := hrests.farthest_selection (p := callsDown 6 1 0 3 8) (by decide) 5
  obtain ⟨before, e, behind, c', p', hfarthest, hrun, hcollects, -⟩ :=
    hidle rfl (by decide) (by decide)
  obtain ⟨-, hbusy⟩ := (attainable_restingOn [.addStop 9]).farthest_selection
    (p := callsDown 6 1 0 3 8) (by decide +kernel) 0
  obtain ⟨d', q', hrun', hleft, -⟩ := hbusy (by decide +kernel)
  have hmost : ∀ y ∈ (callsDown 6 1 0 3 8).entries, (∀ x ∈ (callsDown 6 1 0 3 8).entries,
      Floor.distance x.request.floor 5 ≤ Floor.distance y.request.floor 5) →
      y.request = ⟨0, .up⟩ := by decide
  have he := hmost e hfarthest.mem hfarthest.distance_le
  have hstops : (run .farthestFirst 5 (restingOn 5 10)
      (callsDown 6 1 0 3 8)).2.1.state.stops.floors = [3, 1, 0] := by cbv
  have hpool : (run .farthestFirst 5 (restingOn 5 10) (callsDown 6 1 0 3 8)).2.2.requests =
      [⟨6, .down⟩, ⟨8, .up⟩] := by cbv
  rw [hrun] at hstops hpool
  refine ⟨⟨e, c', p', he, hrun, ?_, hstops, hpool⟩, d', q', hrun'.trans ?_, ?_⟩
  · rw [hcollects.direction_eq, he]
    decide
  · congr 2
  · rw [Pool.requests, hleft]
    decide +kernel

/-- **Which calls go by the busier side.** An idle car with room looks which side of its floor has
more calls, the lower one if there are as many. With a call on that side it takes the oldest one
there, whatever its button, turns that way, and takes of the others on that side just those that go
the same way; all calls off that side are left. With none on that side all calls are for the floor
of the car: it takes the oldest, and with it those for the same button, and stops nowhere else. -/
theorem Attainable.density_selection (h : c.Attainable) (hidle : c.state.activity = .idle)
    (hroom : c.state.riders.length < c.settings.capacity) (hne : p.entries ≠ [])
    (hin : ∀ e ∈ p.entries, e.request.floor < c.settings.height) :
    let here := c.state.floor
    let d := p.busierSide here
    ∃ c' p', run .densityBased here c p = (.ok true, c', p') ∧
      ((∃ x ∈ p.entries, x.request.isBeyond d here = true) → ∃ before e behind,
        p.entries = before ++ e :: behind ∧
        (∀ x ∈ before, x.request.isBeyond d here = false) ∧ e.request.isBeyond d here = true ∧
        Collects e (before ++ behind) d (fun r => r.isBeyond d here && r.direction = d) c' p' ∧
        p'.entries.filter (fun x => !x.request.isBeyond d here) =
          p.entries.filter fun x => !x.request.isBeyond d here) ∧
      ((∀ x ∈ p.entries, x.request.isBeyond d here = false) →
        (∀ x ∈ p.entries, x.request.floor = here) ∧ ∃ e behind, p.entries = e :: behind ∧
          Collects e behind e.request.direction (fun r => r.direction = e.request.direction) c' p' ∧
          c'.state.stops.floors = [here]) := by
  intro here d
  by_cases hside : ∃ x ∈ p.entries, x.request.isBeyond d here = true
  · obtain ⟨before, e, behind, c', p', hsplit, hbefore, hon, hrun, hcollects⟩ :=
      collects_on_side h.sound hidle hroom hin hside
    refine ⟨c', p', hrun, fun _ =>
      ⟨before, e, behind, hsplit, hbefore, hon, hcollects, ?_⟩, fun hnot => ?_⟩
    · rw [hcollects.left, List.filter_filter, hsplit, List.filter_append, List.filter_append,
        List.filter_cons_of_neg (by simp [d, here, hon]), ← List.filter_append,
        ← List.filter_append]
      refine List.filter_congr fun x _ => ?_
      cases x.request.isBeyond d here <;> simp
    · obtain ⟨x, hx, hahead⟩ := hside
      exact absurd (hahead.symm.trans (hnot x hx)) (by decide)
  · have hnot : ∀ x ∈ p.entries, ¬ onBusierSide here p x.request = true := fun x hx hon =>
      hside ⟨x, hx, (onBusierSide_eq here p x.request).symm.trans hon⟩
    have hhere : ∀ x ∈ p.entries, x.request.floor = here := fun x hx =>
      floor_eq_of_forall_not hnot hx
    obtain ⟨e, behind, c', p', hsplit, hrun, hcollects⟩ :=
      collects_here h.sound hidle hroom hne hin hhere hnot
    exact ⟨c', p', hrun, fun hsome => absurd hsome hside, fun _ =>
      ⟨hhere, e, behind, hsplit, hcollects, hcollects.floors_eq (hsplit ▸ hhere)⟩⟩

/-- Two calls for up, and then two for down. -/
def callsBothWays (first second third fourth : Floor) : Pool :=
  ⟨[⟨⟨first, .up⟩, 0⟩, ⟨⟨second, .up⟩, 1⟩, ⟨⟨third, .down⟩, 2⟩, ⟨⟨fourth, .down⟩, 3⟩]⟩

/-- On a tie the lower side is swept, and the oldest call there is taken although it is one for up.
Of the calls for its own floor the car takes those for one button. -/
theorem density_selection_tie :
    (∃ (c' : Car) (p' : Pool),
      run .densityBased 5 (restingOn 5 10) (callsBothWays 9 2 9 1) = (.ok true, c', p') ∧
      c'.state.direction = .down ∧ c'.state.stops.floors = [2, 1] ∧
      p'.requests = [⟨9, .up⟩, ⟨9, .down⟩]) ∧
    ∃ (c' : Car) (p' : Pool),
      run .densityBased 5 (restingOn 5 10) (callsBothWays 5 5 5 5) = (.ok true, c', p') ∧
      c'.state.direction = .up ∧ c'.state.stops.floors = [5] ∧
      p'.requests = [⟨5, .down⟩, ⟨5, .down⟩] := by
  have hrests : (restingOn 5 10).Attainable := attainable_restingOn []
  obtain ⟨c', p', hrun, hside, -⟩ := hrests.density_selection (p := callsBothWays 9 2 9 1) rfl
    (by decide) (by decide) (by decide)
  obtain ⟨d', q', hrun', -, hhere⟩ := hrests.density_selection (p := callsBothWays 5 5 5 5) rfl
    (by decide) (by decide) (by decide)
  obtain ⟨before, e, behind, -, -, -, hcollects, -⟩ := hside (by decide)
  obtain ⟨-, x, others, hsplit, hcollects', hfloors⟩ := hhere (by decide)
  obtain ⟨rfl, rfl⟩ := List.cons.inj hsplit
  have hstops : (run .densityBased 5 (restingOn 5 10)
      (callsBothWays 9 2 9 1)).2.1.state.stops.floors = [2, 1] := by cbv
  have hpool : (run .densityBased 5 (restingOn 5 10) (callsBothWays 9 2 9 1)).2.2.requests =
      [⟨9, .up⟩, ⟨9, .down⟩] := by cbv
  have hout : run .densityBased 5 (restingOn 5 10) (callsBothWays 9 2 9 1) = (.ok true, c', p') :=
    hrun
  rw [hout] at hstops hpool
  refine ⟨⟨c', p', hrun, hcollects.direction_eq, hstops, hpool⟩, d', q', hrun',
    hcollects'.direction_eq, hfloors, ?_⟩
  rw [Pool.requests, hcollects'.left]
  decide

end Car

end ElevatorFleet
