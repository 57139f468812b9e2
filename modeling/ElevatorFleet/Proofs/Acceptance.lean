import ElevatorFleet.Proofs.CarRules

/-!
What a car does with a hall call that it may take.

* `CarState.canAccept_of_busy` spells out the test of a car that is not idle: a free place, the
  direction of the call, and the floor of the call ahead of the car or under it.
* `CarState.directionFor` is the direction of a car that has taken a call, and
  `CarState.OnCourse.direction_taking` says that it is.
* `Car.Takes` is everything a call that is taken does to a car, and `Car.Sound.offer_of_canAccept`
  says that a car takes every call of the building that it may accept.
* `Car.HoldsCourse` is a car whose test for hall calls stays as it is, and `Car.Takes.holdsCourse`
  says that a car under way holds its course when it takes a call.
-/

namespace ElevatorFleet

lemma Call.direction_ne_stop (call : Call) : call.direction ≠ .stop := by
  cases call <;> simp [Call.direction]

namespace CarState

variable {s : CarState} {height : Floor} {capacity : Nat} {r : Request}

/-! ### The test for a hall call -/

lemma canAccept_of_idle (hidle : s.activity = .idle) : s.canAccept r capacity = true := by
  simp [canAccept, hidle]

lemma canAccept_of_busy (hbusy : s.activity ≠ .idle) :
    s.canAccept r capacity = true ↔ s.riders.length < capacity ∧ s.direction = r.direction ∧
      s.direction.reaches s.floor r.floor = true := by
  rw [canAccept, if_neg (by simp [hbusy])]
  by_cases hfull : capacity ≤ s.riders.length
  · simp [isFull, hfull, not_lt_of_ge hfull]
  · simp [isFull, hfull, lt_of_not_ge hfull]

/-! ### The direction of a car that has taken a call -/

/-- The direction of a car that has taken a call. A car under way keeps the one it has; an idle car
turns toward the floor of the call, or in the direction of the call if it stands there. -/
def directionFor (s : CarState) (r : Request) : Direction :=
  if s.activity = .idle then
    if r.floor = s.floor then r.direction else .toward s.floor r.floor
  else s.direction

lemma directionFor_of_busy (hbusy : s.activity ≠ .idle) : s.directionFor r = s.direction :=
  if_neg hbusy

/-- Turning toward the floor of a call that lies ahead changes nothing. -/
lemma turnedToward_of_reaches (h : s.direction.reaches s.floor r.floor = true) :
    s.turnedToward r.floor height = s.direction := by
  have hne := Direction.ne_stop_of_reaches h
  by_cases hhere : s.floor = r.floor
  · simp [turnedToward, hhere, hne]
  · rw [turnedToward, Direction.toward_eq_of_reaches h hhere]
    split
    · exact absurd ‹_› hne
    · rfl

lemma OnCourse.direction_taking (h : s.OnCourse height) (hok : s.canAccept r capacity = true) :
    (s.taking r height).direction = s.directionFor r := by
  rw [taking, direction_enqueue]
  by_cases hidle : s.activity = .idle
  · have hempty : s.stops = .empty := h.idle hidle
    rw [courseFor, stops_facing, if_pos (Stops.isEmpty_iff.mpr hempty), directionFor, if_pos hidle]
    split_ifs with hhere
    · have hface : (s.facing r).direction = r.direction := by
        rw [CarState.facing, if_pos (by simp [hidle, hhere])]
      rw [← hface]
      refine turnedToward_of_reaches ?_
      rw [hface, floor_facing, hhere]
      exact Direction.reaches_self r.call.direction_ne_stop _
    · rw [facing_of_floor_ne hhere, turnedToward]
      split
      · exact absurd ‹_› (Direction.ne_stop_of_reaches (Direction.reaches_toward (Ne.symm hhere)))
      · rfl
  · rw [facing_of_not_idle hidle, directionFor_of_busy hidle, courseFor]
    split_ifs
    · exact turnedToward_of_reaches ((canAccept_of_busy hidle).mp hok).2.2
    · rfl

lemma activity_taking :
    (s.taking r height).activity = if s.activity = .idle then .moving else s.activity := by
  simp [taking, enqueue]

lemma floor_taking : (s.taking r height).floor = s.floor := floor_facing

end CarState

/-! ### Taking a call -/

namespace Car

variable {c c' c'' : Car} {r : Request} {eligible : CarState → Bool}

/-- `c'` is `c` after it has taken the call `r`: it stands where it stood with the same riders, its
direction is the one for the call, it is no longer idle, and it is going to stop where it was and at
the floor of the call. -/
structure Takes (c : Car) (r : Request) (c' : Car) : Prop where
  sound : c'.Sound
  settings_eq : c'.settings = c.settings
  floor_eq : c'.state.floor = c.state.floor
  riders_eq : c'.state.riders = c.state.riders
  direction_eq : c'.state.direction = c.state.directionFor r
  activity_eq : c'.state.activity =
    if c.state.activity = .idle then .moving else c.state.activity
  mem_stops : ∀ f, f ∈ c'.state.stops.floors ↔ f = r.floor ∨ f ∈ c.state.stops.floors
  unless_new : r.floor ∈ c.state.stops.floors → c' = c
  when_new : r.floor ∉ c.state.stops.floors → c' = { c with state := c'.state, token := true }

/-- A car takes every call of the building that it may accept. -/
lemma Sound.offer_of_canAccept (h : c.Sound) (heligible : eligible c.state = true)
    (hok : c.state.canAccept r c.settings.capacity = true)
    (hlt : r.floor < c.settings.height) :
    ∃ c', c.offer eligible r = (.ok true, c') ∧ c.Takes r c' := by
  have hboth : (eligible c.state && c.state.canAccept r c.settings.capacity) = true := by
    rw [heligible, hok]
    rfl
  cases h.offer_cases eligible r with
  | declined hno => exact absurd (hboth.symm.trans hno) (by decide)
  | outside _ hle => exact absurd hlt (not_lt_of_ge hle)
  | present _ _ hmem heq =>
      -- an idle car has nothing queued, so this one is under way
      have hbusy : c.state.activity ≠ .idle := fun hidle =>
        Stops.ne_empty_of_mem hmem (h.lawful.idle hidle)
      refine ⟨c, heq, h, rfl, rfl, rfl, (CarState.directionFor_of_busy hbusy).symm,
        (if_neg hbusy).symm, fun f => ⟨Or.inr, ?_⟩, fun _ => rfl, fun hnew => absurd hmem hnew⟩
      rintro (rfl | hf)
      · exact hmem
      · exact hf
  | taken _ _ hnew hahead heq =>
      exact ⟨_, heq, (h.withState (h.lawful.lawful_taking h.lawful.room hlt hahead)).wake, rfl,
        CarState.floor_taking, CarState.riders_taking, h.lawful.direction_taking hok,
        CarState.activity_taking, fun f => CarState.mem_stops_taking,
        fun hmem => absurd hmem hnew, fun _ => rfl⟩

/-- A call that a car has taken is a call of the building. -/
lemma Sound.takes_of_offer (h : c.Sound) (hoffer : c.offer eligible r = (.ok true, c')) :
    c.Takes r c' ∧ r.floor < c.settings.height := by
  cases h.offer_cases eligible r with
  | declined _ heq | outside _ _ heq => simp [heq] at hoffer
  | present hok hlt | taken hok hlt =>
      obtain ⟨heligible, haccept⟩ := Bool.and_eq_true_iff.mp hok
      obtain ⟨c'', heq, htakes⟩ := h.offer_of_canAccept heligible haccept hlt
      obtain rfl : c'' = c' := (Prod.mk.inj (heq.symm.trans hoffer)).2
      exact ⟨htakes, hlt⟩

/-- A car declines every call that it may not accept, and every call it is not eligible for. -/
lemma offer_of_not
    (hno : ¬ (eligible c.state = true ∧ c.state.canAccept r c.settings.capacity = true)) :
    c.offer eligible r = (.ok false, c) := by
  rw [offer, if_pos ?_]
  rw [← Bool.not_and, Bool.not_eq_true', ← Bool.not_eq_true, Bool.and_eq_true]
  exact hno

lemma Takes.not_idle (h : c.Takes r c') : c'.state.activity ≠ .idle := by
  rw [h.activity_eq]
  split_ifs with hidle
  · decide
  · exact hidle

/-! ### Holding the course -/

/-- `c'` is `c` with other floors queued: everything that the test for hall calls looks at is as it
was. -/
structure HoldsCourse (c c' : Car) : Prop where
  settings_eq : c'.settings = c.settings
  floor_eq : c'.state.floor = c.state.floor
  riders_eq : c'.state.riders = c.state.riders
  direction_eq : c'.state.direction = c.state.direction
  activity_eq : c'.state.activity = c.state.activity

lemma HoldsCourse.refl (c : Car) : c.HoldsCourse c := ⟨rfl, rfl, rfl, rfl, rfl⟩

lemma HoldsCourse.trans (h : c.HoldsCourse c') (h' : c'.HoldsCourse c'') : c.HoldsCourse c'' :=
  ⟨h'.settings_eq.trans h.settings_eq, h'.floor_eq.trans h.floor_eq,
    h'.riders_eq.trans h.riders_eq, h'.direction_eq.trans h.direction_eq,
    h'.activity_eq.trans h.activity_eq⟩

/-- A car that holds its course may accept what it might accept before. -/
lemma HoldsCourse.canAccept_eq (h : c.HoldsCourse c') (r : Request) :
    c'.state.canAccept r c'.settings.capacity = c.state.canAccept r c.settings.capacity := by
  have hidle : c'.state.isIdle = c.state.isIdle := by
    rw [CarState.isIdle, CarState.isIdle, h.activity_eq]
  have hfull : c'.state.isFull c'.settings.capacity = c.state.isFull c.settings.capacity := by
    rw [CarState.isFull, CarState.isFull, h.settings_eq, h.riders_eq]
  rw [CarState.canAccept, CarState.canAccept, hidle, hfull, h.direction_eq, h.floor_eq]

/-- A car under way holds its course when it takes a call. -/
lemma Takes.holdsCourse (h : c.Takes r c') (hbusy : c.state.activity ≠ .idle) :
    c.HoldsCourse c' :=
  ⟨h.settings_eq, h.floor_eq, h.riders_eq,
    h.direction_eq.trans (CarState.directionFor_of_busy hbusy), h.activity_eq.trans (if_neg hbusy)⟩

end Car

end ElevatorFleet
