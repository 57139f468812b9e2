import ElevatorFleet.Proofs.PendingCalls
import ElevatorFleet.Proofs.Plans

/-!
What fails, for which cause, and that nothing comes of it.

* `FailsFor` says of an attempt that it fails for just the faults of a kind, and that whenever it
  fails the state is as it was.
* `Car.RejectsStop` and `Fleet.RejectsButton` are the causes for which a floor is not queued and a
  button is not heard.
* `Car.FailsCleanly` and `Fleet.FailsCleanly` say for each operation when it fails, and that a
  failed operation, like one that is declined, leaves no trace.
* `Fleet.failures_clean`: this holds of every car and of every fleet, whatever has become of them.
-/

namespace ElevatorFleet

/-- An attempt fails for just the faults of a kind, and whenever it fails the state is as it was. -/
structure FailsFor {σ α : Type} (before : σ) (attempt : Attempt σ α) (cause : Fault → Prop) :
    Prop where
  error_iff : ∀ fault, attempt.1 = .error fault ↔ cause fault
  unchanged : ∀ fault, attempt.1 = .error fault → attempt.2 = before

section

variable {σ α : Type} {before : σ} {attempt : Attempt σ α} {cause : Fault → Prop}

lemma FailsFor.of_error {fault : Fault} (heq : attempt = (.error fault, before))
    (hcause : ∀ other, cause other ↔ other = fault) : FailsFor before attempt cause := by
  subst heq
  refine ⟨fun other => ?_, fun _ _ => rfl⟩
  rw [hcause other, Except.error.injEq, eq_comm]

lemma FailsFor.of_ok {a : α} (hok : attempt.1 = .ok a) (hnone : ∀ fault, ¬ cause fault) :
    FailsFor before attempt cause := by
  have hfine : ∀ fault, attempt.1 ≠ .error fault := fun fault => by simp [hok]
  exact ⟨fun fault => iff_of_false (hfine fault) (hnone fault),
    fun fault hfault => absurd hfault (hfine fault)⟩

end

/-! ### Cars -/

namespace Car

variable {c : Car} {floor : Floor}

/-- The causes for which a floor is not queued: the building has no such floor, or it lies behind a
car with other floors queued. -/
inductive RejectsStop (c : Car) (floor : Floor) : Fault → Prop where
  | outside (hle : c.settings.height ≤ floor) :
      RejectsStop c floor (.floorOutOfRange floor c.settings.height)
  | behind (hlt : floor < c.settings.height) (hne : c.state.stops ≠ .empty)
      (hnew : floor ∉ c.state.stops.floors)
      (hbehind : ¬ c.state.direction.reaches c.state.floor floor = true) :
      RejectsStop c floor (.destinationBehind floor c.state.floor c.state.direction)

/-- When the operations of a car fail, and that nothing comes of a failed or a declined one. An
offer is taken just if the car is eligible, may accept the call, and the building has the floor; a
car can always be sent home, or has no way to go. -/
structure FailsCleanly (c : Car) : Prop where
  addStop : ∀ floor, FailsFor c (c.addStop floor) (c.RejectsStop floor)
  offer : ∀ eligible r, FailsFor c (c.offer eligible r) fun fault =>
    (eligible c.state = true ∧ c.state.canAccept r c.settings.capacity = true) ∧
      c.settings.height ≤ r.floor ∧ fault = .floorOutOfRange r.floor c.settings.height
  offer_taken : ∀ eligible r, (c.offer eligible r).1 = .ok true ↔
    (eligible c.state = true ∧ c.state.canAccept r c.settings.capacity = true) ∧
      r.floor < c.settings.height
  offer_queued : ∀ eligible r, (c.offer eligible r).1 = .ok true →
    r.floor ∈ (c.offer eligible r).2.state.stops.floors
  offer_declined : ∀ eligible r, (c.offer eligible r).1 = .ok false → (c.offer eligible r).2 = c
  returnToDefault : FailsFor c c.returnToDefault fun _ => False
  returnToDefault_declined : c.returnToDefault.1 = .ok false → c.returnToDefault.2 = c
  move : FailsFor c c.move fun fault => c.state.stops = .empty ∧ fault = .noDestinations c.id
  openDoors : FailsFor c c.openDoors fun fault =>
    c.state.activity = .moving ∧ fault = .doorsWhileMoving c.id

lemma Sound.addStop_fails (h : c.Sound) (floor : Floor) :
    FailsFor c (c.addStop floor) (c.RejectsStop floor) := by
  cases h.lawful.addStop_cases floor with
  | outside hle heq =>
      refine .of_error (by rw [Car.addStop, heq]) fun other => ⟨fun hcause => ?_, ?_⟩
      · cases hcause with
        | outside => rfl
        | behind hlt => exact absurd hle (not_le_of_gt hlt)
      · rintro rfl
        exact .outside hle
  | behind hlt hne hbehind heq =>
      have hnew : floor ∉ c.state.stops.floors := fun hmem => hbehind (h.lawful.ahead floor hmem)
      refine .of_error (by rw [Car.addStop, heq]) fun other => ⟨fun hcause => ?_, ?_⟩
      · cases hcause with
        | outside hle => exact absurd hle (not_le_of_gt hlt)
        | behind => rfl
      · rintro rfl
        exact .behind hlt hne hnew hbehind
  | present hlt hmem heq =>
      refine .of_ok (a := false) (by rw [Car.addStop, heq]) fun fault hcause => ?_
      cases hcause with
      | outside hle => exact not_le_of_gt hlt hle
      | behind _ _ hnew => exact hnew hmem
  | queued hlt hnew hahead heq =>
      refine .of_ok (a := true) (by rw [Car.addStop, heq]) fun fault hcause => ?_
      cases hcause with
      | outside hle => exact not_le_of_gt hlt hle
      | behind _ hne _ hbehind => exact hbehind (hahead.resolve_left hne)

lemma Sound.offer_fails (h : c.Sound) (eligible : CarState → Bool) (r : Request) :
    FailsFor c (c.offer eligible r) fun fault =>
      (eligible c.state = true ∧ c.state.canAccept r c.settings.capacity = true) ∧
        c.settings.height ≤ r.floor ∧ fault = .floorOutOfRange r.floor c.settings.height := by
  cases h.offer_cases eligible r with
  | declined hno heq =>
      refine .of_ok (a := false) (by rw [heq]) fun fault hcause => ?_
      rw [Bool.and_eq_true_iff.mpr hcause.1] at hno
      exact absurd hno (by decide)
  | outside hok hle heq =>
      exact .of_error heq fun other =>
        (and_iff_right (Bool.and_eq_true_iff.mp hok)).trans (and_iff_right hle)
  | present _ hlt _ heq | taken _ hlt _ _ heq =>
      exact .of_ok (a := true) (by rw [heq]) fun fault hcause => not_le_of_gt hlt hcause.2.1

/-- An offer is taken just if the car is eligible, may accept the call, and the building has the
floor. -/
lemma Sound.offer_eq_true_iff (h : c.Sound) (eligible : CarState → Bool) (r : Request) :
    (c.offer eligible r).1 = .ok true ↔
      (eligible c.state = true ∧ c.state.canAccept r c.settings.capacity = true) ∧
        r.floor < c.settings.height := by
  constructor
  · intro htaken
    cases h.offer_cases eligible r with
    | declined _ heq | outside _ _ heq => simp [heq] at htaken
    | present hok hlt | taken hok hlt => exact ⟨Bool.and_eq_true_iff.mp hok, hlt⟩
  · rintro ⟨⟨heligible, hok⟩, hlt⟩
    obtain ⟨c', heq, -⟩ := h.offer_of_canAccept heligible hok hlt
    rw [heq]

lemma Sound.returnToDefault_fails (h : c.Sound) :
    FailsFor c c.returnToDefault fun _ => False := by
  cases h.returnToDefault_cases with
  | stays _ heq => exact .of_ok (a := false) (by rw [heq]) fun _ => not_false
  | leaves _ _ _ _ _ _ heq => exact .of_ok (a := true) (by rw [heq]) fun _ => not_false

/-- A car that has not been sent home is as it was. -/
lemma Sound.returnToDefault_declined (h : c.Sound) (hno : c.returnToDefault.1 = .ok false) :
    c.returnToDefault.2 = c := by
  cases h.returnToDefault_cases with
  | stays _ heq => rw [heq]
  | leaves _ _ _ _ _ _ heq => simp [heq] at hno

lemma Sound.move_fails (h : c.Sound) :
    FailsFor c c.move fun fault => c.state.stops = .empty ∧ fault = .noDestinations c.id := by
  cases h.move_cases with
  | refused hempty heq => exact .of_error heq fun other => and_iff_right hempty
  | arrives rest hq heq =>
      exact .of_ok (by rw [heq]) fun fault hcause => by simp [hcause.1] at hq
  | passes next rest hq _ heq =>
      exact .of_ok (by rw [heq]) fun fault hcause => by simp [hcause.1] at hq

lemma openDoors_fails (c : Car) :
    FailsFor c c.openDoors fun fault =>
      c.state.activity = .moving ∧ fault = .doorsWhileMoving c.id := by
  by_cases hmoving : c.state.activity = .moving
  · exact .of_error (by rw [Car.openDoors, if_pos hmoving]) fun other => and_iff_right hmoving
  · exact .of_ok (by rw [Car.openDoors, if_neg hmoving]) fun fault hcause => hmoving hcause.1

lemma Sound.failsCleanly (h : c.Sound) : c.FailsCleanly where
  addStop := h.addStop_fails
  offer := h.offer_fails
  offer_taken := h.offer_eq_true_iff
  offer_queued _ _ := h.mem_stops_of_offer
  offer_declined eligible r hno := h.offer_eq_of_ne_true eligible r (by simp [hno])
  returnToDefault := h.returnToDefault_fails
  returnToDefault_declined := h.returnToDefault_declined
  move := h.move_fails
  openDoors := c.openDoors_fails

end Car

/-! ### Fleets -/

namespace Fleet

variable {f : Fleet}

/-- The causes for which a button is not heard: the building has no such floor, or there is no
button for up on the top floor, or none for down on the ground floor. -/
inductive RejectsButton (f : Fleet) (floor : Floor) : (goingUp : Bool) → Fault → Prop where
  | outside (goingUp : Bool) (hle : f.settings.height ≤ floor) :
      RejectsButton f floor goingUp (.floorOutOfRange floor f.settings.height)
  | top (htop : floor.val + 1 = f.settings.height.val) :
      RejectsButton f floor true (.invalidSetting .call (.noButton .up floor))
  | ground (hlt : floor < f.settings.height) (hground : floor.val = 0) :
      RejectsButton f floor false (.invalidSetting .call (.noButton .down floor))

/-- When the operations of a fleet fail, and that nothing comes of a failed one: cars and pending
calls are as they were. The same goes for all cars of the fleet, and an operation that leaves its
car as it was leaves the fleet as it was. -/
structure FailsCleanly (f : Fleet) : Prop where
  dispatch : ∀ r, FailsFor f (f.dispatch r) fun fault =>
    f.settings.height ≤ r.floor ∧ fault = .floorOutOfRange r.floor f.settings.height
  press : ∀ floor goingUp, FailsFor f (f.press floor goingUp) (f.RejectsButton floor goingUp)
  backfill : ∀ id floor, FailsFor f (f.backfill id floor) fun fault =>
    f.cars.length ≤ id ∧ fault = .unknownElevator id
  cars : ∀ c ∈ f.cars, c.FailsCleanly
  onCar : ∀ (α : Type) (id : Nat) (c : Car) (operation : Car → Attempt Car α),
    f.cars[id]? = some c → (operation c).2 = c → (f.onCar id operation).2 = f

lemma Sound.dispatch_fails (h : f.Sound) (r : Request) :
    FailsFor f (f.dispatch r) fun fault =>
      f.settings.height ≤ r.floor ∧ fault = .floorOutOfRange r.floor f.settings.height := by
  rcases h.dispatch_spec r with ⟨hle, heq⟩ | ⟨hlt, a, f', heq, -⟩
  · exact .of_error heq fun other => and_iff_right hle
  · exact .of_ok (by rw [heq]) fun fault hcause => not_le_of_gt hlt hcause.1

lemma lacksButton_ofUp {floor : Floor} {goingUp : Bool} :
    f.lacksButton floor (.ofUp goingUp) = true ↔
      (goingUp = true ∧ floor.val + 1 = f.settings.height.val) ∨
        (goingUp = false ∧ floor.val = 0) := by
  cases goingUp <;> simp [lacksButton, Call.ofUp]

/-- A button that is not there is not heard. -/
lemma press_of_lacksButton {floor : Floor} {goingUp : Bool} (hlt : floor < f.settings.height)
    (hlacks : f.lacksButton floor (.ofUp goingUp) = true) :
    f.press floor goingUp =
      (.error (.invalidSetting .call (.noButton (.ofUp goingUp) floor)), f) := by
  rw [press, Request.checked, if_neg (not_le_of_gt hlt)]
  dsimp only
  rw [if_pos hlacks]

lemma Sound.press_fails (h : f.Sound) (floor : Floor) (goingUp : Bool) :
    FailsFor f (f.press floor goingUp) (f.RejectsButton floor goingUp) := by
  by_cases hle : f.settings.height ≤ floor
  · refine .of_error (by rw [Fleet.press, Request.checked, if_pos hle]) fun other =>
      ⟨fun hcause => ?_, ?_⟩
    · cases hcause with
      | outside => rfl
      | top htop => exact absurd (Fin.le_def.mp hle) (by omega)
      | ground hlt => exact absurd hle (not_le_of_gt hlt)
    · rintro rfl
      exact .outside goingUp hle
  have hlt : floor < f.settings.height := lt_of_not_ge hle
  by_cases hlacks : f.lacksButton floor (.ofUp goingUp) = true
  · refine .of_error (press_of_lacksButton hlt hlacks) fun other => ⟨fun hcause => ?_, ?_⟩
    · cases hcause with
      | outside _ hle' => exact absurd hle' hle
      | top | ground => rfl
    · rintro rfl
      rcases lacksButton_ofUp.mp hlacks with ⟨rfl, htop⟩ | ⟨rfl, hground⟩
      · exact .top htop
      · exact .ground hlt hground
  · obtain ⟨a, f', heq, -⟩ := h.dispatch_of_lt (r := ⟨floor, .ofUp goingUp⟩) hlt
    refine .of_ok (a := a) ?_ fun fault hcause => ?_
    · rw [press_eq_dispatch hlt (Bool.eq_false_iff.mpr hlacks), heq]
    · cases hcause with
      | outside _ hle' => exact hle hle'
      | top htop => exact hlacks (lacksButton_ofUp.mpr (Or.inl ⟨rfl, htop⟩))
      | ground _ hground => exact hlacks (lacksButton_ofUp.mpr (Or.inr ⟨rfl, hground⟩))

lemma Sound.backfill_fails (h : f.Sound) (id : Nat) (floor : Floor) :
    FailsFor f (f.backfill id floor) fun fault =>
      f.cars.length ≤ id ∧ fault = .unknownElevator id := by
  by_cases hid : f.cars.length ≤ id
  · refine .of_error ?_ fun other => and_iff_right hid
    rw [Fleet.backfill, List.getElem?_eq_none hid]
  · obtain ⟨c, hc⟩ : ∃ c, f.cars[id]? = some c :=
      ⟨_, List.getElem?_eq_getElem (Nat.lt_of_not_le hid)⟩
    obtain ⟨any, f', heq, -⟩ := h.backfill_spec hc floor
    exact .of_ok (by rw [heq]) fun fault hcause => hid hcause.1

lemma Sound.failsCleanly (h : f.Sound) : f.FailsCleanly where
  dispatch := h.dispatch_fails
  press := h.press_fails
  backfill := h.backfill_fails
  cars c hc := (h.cars c hc).failsCleanly
  onCar α id c operation hc hsame := by
    rw [onCar_eq hc, hsame]
    exact setCar_self hc

/-! ### Every car and every fleet -/

/-- **Failures are exact, and nothing comes of them**, whatever has been done with a car and
whatever has become of a fleet. Every operation fails for just the causes listed with it, and a
failed operation leaves everything as it was: position, direction, activity, queue and riders of
every car, its running flag and its wake token, and the pending calls. So does an offer that is
declined, and a way home that is not taken. -/
theorem failures_clean :
    (∀ c : Car, c.Attainable → c.FailsCleanly) ∧
      ∀ settings strategies (f : Fleet), Reachable settings strategies f → f.FailsCleanly :=
  ⟨fun _ h => h.sound.failsCleanly, fun _ _ _ h => h.sound.1.failsCleanly⟩

/-- A car on its way from floor 5 up to floor 9 refuses floor 3, and in a fleet of two cars at rest
in a building of ten floors nobody hears a button for up on the top floor. Both are as they were. -/
theorem failures_clean_behind_and_above :
    (∃ c : Car, c.state.floor = 5 ∧ c.state.stops.floors = [9] ∧
      c.addStop 3 = (.error (.destinationBehind 3 5 .up), c) ∧
      (c.offer (fun _ => true) ⟨3, .up⟩).2 = c) ∧
    ∃ f : Fleet, f.cars.length = 2 ∧
      f.press 9 true = (.error (.invalidSetting .call (.noButton .up 9)), f) ∧
      f.backfill 2 0 = (.error (.unknownElevator 2), f) := by
  obtain ⟨hcars, hfleets⟩ := failures_clean
  have hcar := hcars _ (Car.attainable_restingOn [.addStop 9])
  have hreach : Reachable ⟨10, 4, ⟨1⟩, ⟨1⟩, ⟨1⟩, [0, 0]⟩ .standard
      (resting ⟨10, 4, ⟨1⟩, ⟨1⟩, ⟨1⟩, [0, 0]⟩ .standard) := .made _ rfl
  have hfleet := hfleets _ _ _ hreach
  have hstate : ((Car.restingOn 5 10).performAll [.addStop 9]).state =
      ⟨5, .up, .moving, ⟨[9]⟩, []⟩ := by decide +kernel
  have hbehind : ((Car.restingOn 5 10).performAll [.addStop 9]).RejectsStop 3
      (.destinationBehind 3 ((Car.restingOn 5 10).performAll [.addStop 9]).state.floor
        ((Car.restingOn 5 10).performAll [.addStop 9]).state.direction) :=
    .behind (by decide +kernel) (by rw [hstate]; decide) (by rw [hstate]; decide)
      (by rw [hstate]; decide)
  rw [hstate] at hbehind
  have hstop := ((hcar.addStop 3).error_iff (.destinationBehind 3 5 .up)).mpr hbehind
  have hdeclined : (((Car.restingOn 5 10).performAll [.addStop 9]).offer (fun _ => true)
      ⟨3, .up⟩).1 = .ok false := by decide +kernel
  have hpress := ((hfleet.press 9 true).error_iff _).mpr (.top rfl)
  have hbackfill := ((hfleet.backfill 2 0).error_iff (.unknownElevator 2)).mpr ⟨le_rfl, rfl⟩
  exact ⟨⟨_, by rw [hstate], by rw [hstate], Prod.ext hstop ((hcar.addStop 3).unchanged _ hstop),
    hcar.offer_declined _ _ hdeclined⟩, _, rfl,
    Prod.ext hpress ((hfleet.press 9 true).unchanged _ hpress),
    Prod.ext hbackfill ((hfleet.backfill 2 0).unchanged _ hbackfill)⟩

end Fleet

end ElevatorFleet
