import ElevatorFleet.Proofs.Exchanges

/-!
The parts of an exchange of riders one by one, and who steps out.

* `Exchange.announceAlighted_arrivedAt` says who has arrived on which floor after all have stepped
  out who want to, and `Exchange.board_keeps` what boarding leaves alone.
* `Exchange.run_endsIn_of` puts the parts of an exchange together.
* `Exchange.run_arrivedAt`: in an exchange those riders arrive, on the floor of the car, who want to
  go there, and nobody else arrives anywhere.
-/

namespace ElevatorFleet

namespace Exchange

variable {height floor : Floor} {capacity places now : Nat} {s : CarState} {b : Building}
  {riders : List RiderId}

/-! ### Who arrives -/

/-- Whoever steps out has arrived on the floor, and everybody else is where they have been. -/
lemma announceAlighted_arrivedAt (hfloor : floor.val < b.arrived.length) (riders : List RiderId)
    (now : Nat) :
    (announceAlighted floor riders).EndsIn (Building.keeper now) b fun _ b' =>
      ∀ f x, x ∈ b'.arrivedAt f ↔ x ∈ b.arrivedAt f ∨ (f = floor ∧ x ∈ riders) := by
  induction riders generalizing b with
  | nil => simp [announceAlighted]
  | cons y riders ih =>
      have hlength : floor.val < (b.toFloor floor y now).arrived.length := by
        simpa [Building.toFloor] using hfloor
      rw [announceAlighted, Dialogue.endsIn_ask]
      refine (ih hlength).mono fun _ b' hb' f x => ?_
      have hfirst : x ∈ (b.toFloor floor y now).arrivedAt f ↔
          x ∈ b.arrivedAt f ∨ (f = floor ∧ x = y) := Building.mem_arrivedAt_toFloor hfloor
      rw [hb', hfirst, List.mem_cons]
      tauto

/-- What is kept whenever somebody steps out is kept while all step out. -/
lemma announceAlighted_keeps {P : Building → Prop}
    (hP : ∀ b floor x, P b → P (b.toFloor floor x now)) (floor : Floor) (riders : List RiderId)
    (hb : P b) :
    (announceAlighted floor riders).EndsIn (Building.keeper now) b fun _ b' => P b' := by
  induction riders generalizing b with
  | nil => exact hb
  | cons x riders ih =>
      rw [announceAlighted, Dialogue.endsIn_ask]
      exact ih (hP _ _ _ hb)

/-- What is kept whenever somebody boards is kept while all board, however boarding ends. -/
lemma board_keeps {P : Building → Prop} (hP : ∀ b floor x, P b → P (b.toCar floor x now))
    (height : Floor) (places : Nat) (s : CarState) (hb : P b) :
    (board height places s).EndsIn (Building.keeper now) b fun _ b' => P b' := by
  induction places generalizing s b with
  | zero =>
      rw [board.eq_def, Dialogue.endsIn_ask]
      split
      · exact hb
      rw [Dialogue.endsIn_ask]
      split
      · exact hb
      rw [Dialogue.endsIn_ask]
      split <;> exact hb
  | succ places ih =>
      rw [board.eq_def, Dialogue.endsIn_ask]
      split
      · exact hb
      rw [Dialogue.endsIn_ask]
      split
      · exact hb
      rw [Dialogue.endsIn_ask]
      split
      · exact hb
      dsimp only
      split
      · exact hb
      rw [Dialogue.endsIn_ask, Dialogue.endsIn_bind]
      exact ih _ (hP _ _ _ hb)

/-! ### The parts of an exchange -/

/-- Those aboard who want to go to the floor of the car. -/
def stepsOut (s : CarState) (b : Building) : List RiderId :=
  s.riders.filter fun x => b.destination? x = some s.floor

/-- What boarding, and then the calls for those who go the other way, have to come to for an
exchange to come to `R`. -/
def AfterBoarding (R : Attempt CarState Exchange → Building → Prop) (now : Nat)
    (alighted : List RiderId) (out : Attempt CarState (List RiderId × List Request))
    (b : Building) : Prop :=
  match out with
  | (.error fault, s) => R (.error fault, s) b
  | (.ok (boarded, recalls), s) =>
      (recallOthers s).EndsIn (Building.keeper now) b fun calls b' =>
        R (.ok ⟨alighted, boarded, recalls ++ calls⟩, s) b'

lemma afterBoarding_error {R : Attempt CarState Exchange → Building → Prop}
    {alighted : List RiderId} {fault : Fault} :
    AfterBoarding R now alighted (.error fault, s) b ↔ R (.error fault, s) b := Iff.rfl

lemma afterBoarding_ok {R : Attempt CarState Exchange → Building → Prop}
    {alighted boarded : List RiderId} {recalls : List Request} :
    AfterBoarding R now alighted (.ok (boarded, recalls), s) b ↔
      (recallOthers s).EndsIn (Building.keeper now) b fun calls b' =>
        R (.ok ⟨alighted, boarded, recalls ++ calls⟩, s) b' := Iff.rfl

/-- The calls for those who go the other way leave the riders alone. -/
lemma afterBoarding_of_forall {R : Attempt CarState Exchange → Building → Prop}
    (h : ∀ result, R result b) (alighted : List RiderId)
    (out : Attempt CarState (List RiderId × List Request)) :
    AfterBoarding R now alighted out b := by
  rcases out with ⟨fault | ⟨boarded, recalls⟩, s⟩
  · exact afterBoarding_error.mpr (h _)
  · refine afterBoarding_ok.mpr ((recallOthers_endsIn s b now).mono ?_)
    rintro calls b' ⟨rfl, -⟩
    exact h _

/-- An exchange with people who are all known comes to what its parts come to, one after the
other. -/
lemma run_endsIn_of {R : Attempt CarState Exchange → Building → Prop}
    (hknown : ∀ x ∈ s.riders, ∃ p, b.people[x]? = some p)
    (h : (announceAlighted s.floor (stepsOut s b)).EndsIn (Building.keeper now) b fun _ b₁ =>
      let staying := s.riders.filter (!(stepsOut s b).contains ·)
      (board height (capacity - staying.length) { s with riders := staying }).EndsIn
        (Building.keeper now) b₁ (AfterBoarding R now (stepsOut s b))) :
    (run height capacity s).EndsIn (Building.keeper now) b R := by
  rw [run_eq, Dialogue.endsIn_bind]
  refine (bound_endsIn hknown s.floor now).mono ?_
  rintro _ b₀ ⟨rfl, hb₀⟩
  rw [hb₀]
  change (afterBound height capacity s (stepsOut s b)).EndsIn _ _ _
  rw [afterBound, Dialogue.endsIn_bind]
  refine h.mono fun _ b₁ hb₁ => ?_
  rw [Dialogue.endsIn_bind]
  refine hb₁.mono ?_
  rintro ⟨fault | ⟨boarded, recalls⟩, s'⟩ b₂ hb₂
  · exact hb₂
  · dsimp only
    rw [Dialogue.endsIn_bind]
    exact (afterBoarding_ok.mp hb₂).mono fun calls b₃ hb₃ => hb₃

/-- What is kept whenever somebody steps out, and whenever somebody boards, is kept in an
exchange. -/
lemma run_keeps {P : Building → Prop} (hknown : ∀ x ∈ s.riders, ∃ p, b.people[x]? = some p)
    (hfloor : ∀ b floor x, P b → P (b.toFloor floor x now))
    (hcar : ∀ b floor x, P b → P (b.toCar floor x now)) (height : Floor) (capacity : Nat)
    (hb : P b) :
    (run height capacity s).EndsIn (Building.keeper now) b fun _ b' => P b' := by
  refine run_endsIn_of hknown ?_
  refine (announceAlighted_keeps hfloor s.floor _ hb).mono fun _ b₁ hb₁ => ?_
  refine (board_keeps hcar height _ _ hb₁).mono fun out b₂ hb₂ => ?_
  exact afterBoarding_of_forall (fun _ => hb₂) _ out

/-- **Who arrives**: in an exchange exactly those riders step out, on the floor of the car, who want
to go there. -/
theorem run_arrivedAt (hknown : ∀ x ∈ s.riders, ∃ p, b.people[x]? = some p)
    (hfloor : s.floor.val < b.arrived.length) (height : Floor) (capacity now : Nat) :
    (run height capacity s).EndsIn (Building.keeper now) b fun _ b' =>
      ∀ f x, x ∈ b'.arrivedAt f ↔
        x ∈ b.arrivedAt f ∨ (f = s.floor ∧ x ∈ s.riders ∧ b.destination? x = some s.floor) := by
  refine run_endsIn_of hknown ?_
  refine (announceAlighted_arrivedAt hfloor _ now).mono fun _ b₁ hb₁ => ?_
  -- nobody arrives while others board
  refine (board_keeps (P := fun b' => b'.arrived = b₁.arrived) (fun _ _ _ hb => hb)
    height _ _ rfl).mono ?_
  intro out b₂ hb₂
  refine afterBoarding_of_forall (fun _ f x => ?_) _ out
  rw [Building.arrivedAt, hb₂]
  exact (hb₁ f x).trans (by simp [stepsOut])

end Exchange

end ElevatorFleet
