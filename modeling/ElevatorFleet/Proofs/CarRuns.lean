import ElevatorFleet.Proofs.Boarding
import ElevatorFleet.Proofs.Takeover

/-!
Everything that can be done with a car, and what always holds of it.

* `CarOperation` lists the operations and `CarOperation.perform` carries one out, whatever its
  answer; `Car.performAll` carries out any number of them.
* `CarOperation.sound_perform` says that every operation keeps a car sound and its settings as they
  are, `Car.Sound.performAll` the same for a whole run.
* `Car.rules_after_run`: a car that starts fresh keeps all its rules in any run, never leaves the
  range of a byte and never has a step cut short.
-/

namespace ElevatorFleet

/-- What can be done with a car. Calls, pools and keepers of riders are arbitrary. -/
inductive CarOperation : Type 1 where
  | offer (eligible : CarState → Bool) (request : Request)
  | addStop (floor : Floor)
  | returnToDefault
  | move
  | openDoors
  | closeDoors
  | takeToken
  | stop
  | reset
  | takeOver (rule : BackfillRule) (floor : Floor) (pool : Pool)
  | exchange (σ : Type) (keeper : Keeper σ) (riders : σ)

namespace CarOperation

/-- The car that an operation leaves behind, whether it has succeeded or not. -/
def perform (c : Car) : CarOperation → Car
  | offer eligible request => (c.offer eligible request).2
  | addStop floor => (c.addStop floor).2
  | returnToDefault => c.returnToDefault.2
  | move => c.move.2
  | openDoors => c.openDoors.2
  | closeDoors => c.closeDoors
  | takeToken => c.takeToken.2
  | stop => c.stop
  | reset => c.reset
  | takeOver rule floor pool => (Backfill.run rule floor c pool).2.1
  | exchange _ keeper riders =>
      { c with
        state := ((Exchange.run c.settings.height c.settings.capacity c.state).hold
          keeper riders).result.2 }

/-- Every operation keeps a car sound. -/
lemma sound_perform {c : Car} (h : c.Sound) (op : CarOperation) : (op.perform c).Sound := by
  cases op with
  | offer eligible request => exact h.offer eligible request
  | addStop floor => exact h.addStop floor
  | returnToDefault => exact h.returnToDefault
  | move => exact h.move
  | openDoors => exact h.openDoors
  | closeDoors => exact h.closeDoors
  | takeToken => exact h.takeToken
  | stop => exact h.stop
  | reset => exact h.reset
  | takeOver rule floor pool =>
      obtain ⟨taken, htakes, -⟩ := Backfill.run_takes h rule floor pool
      exact htakes.sound
  | exchange σ keeper riders =>
      exact h.withState ((Exchange.run_always h.lawful).hold keeper riders).lawful

/-- No operation touches the settings of a car. -/
lemma settings_perform {c : Car} (h : c.Sound) (op : CarOperation) :
    (op.perform c).settings = c.settings := by
  cases op with
  | offer eligible request => exact (h.grown_offer eligible request).settings_eq
  | addStop floor =>
      simp only [perform, Car.addStop]
      split
      · rfl
      · rename_i added s _
        cases added <;> rfl
  | returnToDefault => exact h.grown_returnToDefault.settings_eq
  | move => exact Car.settings_move
  | openDoors => exact Car.settings_openDoors
  | closeDoors => exact Car.settings_closeDoors
  | takeToken => rfl
  | stop => rfl
  | reset => rfl
  | takeOver rule floor pool =>
      obtain ⟨taken, htakes, -⟩ := Backfill.run_takes h rule floor pool
      exact htakes.grown.settings_eq
  | exchange σ keeper riders => rfl

/-- No operation touches the number of a car. -/
lemma id_perform {c : Car} (h : c.Sound) (op : CarOperation) : (op.perform c).id = c.id := by
  cases op with
  | offer eligible request => exact (h.grown_offer eligible request).id_eq
  | addStop floor =>
      simp only [perform, Car.addStop]
      split
      · rfl
      · rename_i added s _
        cases added <;> rfl
  | returnToDefault => exact h.grown_returnToDefault.id_eq
  | move =>
      cases h.move_cases with
      | refused _ heq | arrives _ _ heq | passes _ _ _ _ heq => simp [perform, heq]
  | openDoors =>
      simp only [perform, Car.openDoors]
      split_ifs <;> rfl
  | closeDoors =>
      simp only [perform, Car.closeDoors]
      split_ifs <;> rfl
  | takeToken => rfl
  | stop => rfl
  | reset => rfl
  | takeOver rule floor pool =>
      obtain ⟨taken, htakes, -⟩ := Backfill.run_takes h rule floor pool
      exact htakes.grown.id_eq
  | exchange σ keeper riders => rfl

end CarOperation

namespace Car

variable {c c' : Car} {settings : CarSettings} {id : Nat} {floor : Floor}

/-- The car after some operations, one after the other. -/
def performAll (c : Car) : List CarOperation → Car
  | [] => c
  | op :: ops => (op.perform c).performAll ops

lemma Sound.performAll (h : c.Sound) (ops : List CarOperation) :
    (c.performAll ops).Sound ∧ (c.performAll ops).settings = c.settings := by
  induction ops generalizing c with
  | nil => exact ⟨h, rfl⟩
  | cons op ops ih =>
      obtain ⟨hsound, hsettings⟩ := ih (op.sound_perform h)
      exact ⟨hsound, hsettings.trans (op.settings_perform h)⟩

/-- A step that passes a floor leads exactly one floor on. -/
lemma Sound.passed_spec (h : c.Sound) (hmove : c.move = (.ok (.passed floor), c')) :
    (c'.state.direction = .up ∧ floor.val = c.state.floor.val + 1) ∨
      (c'.state.direction = .down ∧ floor.val + 1 = c.state.floor.val) := by
  obtain ⟨next, rest, hq, hne, rfl, rfl⟩ := h.of_passed hmove
  exact Direction.step_spec (h.lawful.ahead next (by simp [hq])) hne

/-- **What always holds of a car**: after any operations on a fresh car, in any order and with any
outcome, position, direction, queue, activity and riders keep the rules of `CarState.Lawful`, and a
car with something queued travels up or down. So its floor and the floors it heads for stay below
the last byte, and no step is cut short at the ends of the byte range. -/
theorem rules_after_run (h : make id settings = .ok c) (ops : List CarOperation) :
    (c.performAll ops).state.Lawful settings.height settings.capacity ∧
    ((c.performAll ops).state.stops ≠ .empty →
      (c.performAll ops).state.direction = .up ∨ (c.performAll ops).state.direction = .down) ∧
    (c.performAll ops).state.floor.val + 1 < 256 ∧
    (∀ f ∈ (c.performAll ops).state.stops.floors, f.val + 1 < 256) ∧
    (∀ floor c', (c.performAll ops).move = (.ok (.passed floor), c') →
      (c'.state.direction = .up ∧ floor.val = (c.performAll ops).state.floor.val + 1) ∨
      (c'.state.direction = .down ∧ floor.val + 1 = (c.performAll ops).state.floor.val)) := by
  obtain ⟨hfresh, rfl⟩ := sound_of_make h
  obtain ⟨hsound, hsettings⟩ := hfresh.performAll ops
  set after := (fresh id settings).performAll ops
  have hlawful : after.state.Lawful settings.height settings.capacity := by
    have := hsound.lawful
    rwa [hsettings] at this
  have hbyte : ∀ f : Floor, f < settings.height → f.val + 1 < 256 := fun f hf =>
    lt_of_le_of_lt (Nat.succ_le_of_lt (Fin.lt_def.mp hf)) settings.height.isLt
  refine ⟨hlawful, fun hne => ?_, hbyte _ hlawful.floor_lt,
    fun f hf => hbyte f (hlawful.stops_lt f hf), fun floor c' hmove => hsound.passed_spec hmove⟩
  have hstop := hlawful.direction_ne_stop hne
  cases hdir : after.state.direction with
  | up => exact Or.inl rfl
  | down => exact Or.inr rfl
  | stop => exact absurd hdir hstop

/-- A trip up: the car takes a call, refuses a floor behind it, and stops on its way. -/
def upwardTrip : List CarOperation :=
  [.offer (fun _ => true) ⟨2, .up⟩, .move, .addStop 3, .addStop 0, .move, .move, .openDoors,
    .exchange Unit .nobody (), .closeDoors]

theorem rules_after_upwardTrip :
    ∃ settings c, make 0 settings = .ok c ∧
      (c.performAll upwardTrip).state.Lawful settings.height settings.capacity ∧
      ((c.performAll upwardTrip).state.stops ≠ .empty →
        (c.performAll upwardTrip).state.direction = .up ∨
          (c.performAll upwardTrip).state.direction = .down) ∧
      (c.performAll upwardTrip).state.floor.val + 1 < 256 := by
  have hmake : make 0 ⟨4, 1, ⟨1⟩, ⟨1⟩, ⟨1⟩, 0⟩ = .ok (fresh 0 ⟨4, 1, ⟨1⟩, ⟨1⟩, ⟨1⟩, 0⟩) := rfl
  obtain ⟨hlawful, hdirection, hfloor, -⟩ := rules_after_run hmake upwardTrip
  exact ⟨_, _, hmake, hlawful, hdirection, hfloor⟩

end Car

end ElevatorFleet
