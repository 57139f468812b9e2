import ElevatorFleet.Car.State
import ElevatorFleet.Proofs.Sweep

/-!
What holds of the state of a car at all times.

* `CarState.OnCourse` relates position, direction and queue: everything queued is a floor of the
  building, lies ahead of the car and is queued in the order of its sweep.
* `CarState.Lawful` adds what the activity of a car says about its queue, and that no more riders
  are aboard than there are places.
* `CarState.AddStopCase` lists what can become of a floor that is to be queued, and
  `CarState.AcceptCase` the same for a hall call: queued anew, queued before, or refused with the
  car left as it was.
* `CarState.Grown` is what queueing floors does to a car at most.
-/

namespace ElevatorFleet

namespace CarState

variable {s s' s'' : CarState} {height floor : Floor} {capacity : Nat} {d : Direction} {r : Request}

/-! ### Position, direction and queue -/

/-- Position, direction and queue of a car agree: the queue holds floors of the building that lie
ahead of the car, in the order in which its sweep meets them, and nothing while the car is idle. -/
structure OnCourse (height : Floor) (s : CarState) : Prop where
  floor_lt : s.floor < height
  stops_lt : ∀ f ∈ s.stops.floors, f < height
  ordered : s.stops.OrderedFor s.direction
  ahead : ∀ f ∈ s.stops.floors, s.direction.reaches s.floor f
  idle : s.activity = .idle → s.stops = .empty

/-- What holds of a car at all times. An idle car has nothing queued and has settled on its
direction, a moving car has something queued, and there is a place for everybody aboard. -/
structure Lawful (height : Floor) (capacity : Nat) (s : CarState) : Prop extends
    OnCourse height s where
  settled : s.activity = .idle → s.direction = .atEdge s.floor height
  moving : s.activity = .moving → s.stops ≠ .empty
  room : s.riders.length ≤ capacity

@[simp] lemma isIdle_iff : s.isIdle = true ↔ s.activity = .idle := by
  simp [isIdle]

lemma isIdle_eq_false_iff : s.isIdle = false ↔ s.activity ≠ .idle := by
  simp [isIdle]

/-- A car with something queued has a direction. -/
lemma OnCourse.direction_ne_stop (h : s.OnCourse height) (hne : s.stops ≠ .empty) :
    s.direction ≠ .stop := by
  obtain ⟨next, rest, hq⟩ := Stops.exists_cons_of_ne_empty hne
  exact Direction.ne_stop_of_reaches (h.ahead next (by simp [hq]))

lemma OnCourse.not_isIdle (h : s.OnCourse height) (hne : s.stops ≠ .empty) : s.isIdle = false :=
  isIdle_eq_false_iff.mpr fun hidle => hne (h.idle hidle)

/-- A resting car keeps all the rules. -/
lemma lawful_resting (h : floor < height) : (resting floor height).Lawful height capacity where
  floor_lt := h
  stops_lt := by simp [resting]
  ordered := Stops.orderedFor_empty _
  ahead := by simp [resting]
  idle _ := rfl
  settled _ := rfl
  moving := by simp [resting]
  room := by simp [resting]

/-! ### Queueing a floor -/

/-- The direction in which a car takes up a floor: with nothing queued it turns toward it, otherwise
it keeps the direction it has. -/
def courseFor (s : CarState) (floor height : Floor) : Direction :=
  if s.stops.isEmpty then s.turnedToward floor height else s.direction

lemma courseFor_of_ne_empty (hne : s.stops ≠ .empty) : s.courseFor floor height = s.direction :=
  if_neg (mt Stops.isEmpty_iff.mp hne)

lemma reaches_turnedToward (s : CarState) (floor height : Floor) :
    (s.turnedToward floor height).reaches s.floor floor := by
  by_cases hfloor : s.floor = floor
  · subst hfloor
    refine Direction.reaches_self ?_ _
    by_cases hstop : s.direction = .stop
    · simp only [turnedToward, Direction.toward_self, hstop, if_true]
      split <;> simp
    · simp [turnedToward, hstop]
  · have hreach := Direction.reaches_toward hfloor
    have hne := Direction.ne_stop_of_reaches hreach
    have hturn : s.turnedToward floor height = .toward s.floor floor := by
      rw [turnedToward]
      split
      · exact absurd ‹_› hne
      · rfl
    rwa [hturn]

lemma reaches_courseFor (h : s.stops = .empty ∨ s.direction.reaches s.floor floor) :
    (s.courseFor floor height).reaches s.floor floor := by
  by_cases hempty : s.stops = .empty
  · rw [courseFor, if_pos (Stops.isEmpty_iff.mpr hempty)]
    exact reaches_turnedToward s floor height
  · rw [courseFor_of_ne_empty hempty]
    exact h.resolve_left hempty

lemma addStop_of_le (h : height ≤ floor) :
    s.addStop floor height = (.error (.floorOutOfRange floor height), s) := by
  rw [addStop, if_pos h]

lemma addStop_of_mem (h : floor < height) (hmem : floor ∈ s.stops.floors) :
    s.addStop floor height = (.ok false, s) := by
  rw [addStop, if_neg (not_le_of_gt h), if_pos (Stops.contains_iff.mpr hmem)]

/-- A new floor ahead of the car, or any new floor for a car with nothing queued, is queued. -/
lemma OnCourse.addStop_of_ahead (h : s.OnCourse height) (hlt : floor < height)
    (hnew : floor ∉ s.stops.floors)
    (hahead : s.stops = .empty ∨ s.direction.reaches s.floor floor) :
    s.addStop floor height = (.ok true, s.enqueue floor (s.courseFor floor height)) := by
  rw [addStop, if_neg (not_le_of_gt hlt), if_neg (mt Stops.contains_iff.mp hnew)]
  by_cases hempty : s.stops = .empty
  · rw [if_pos (by simp [hempty, Stops.isEmpty, Stops.empty]), courseFor,
      if_pos (Stops.isEmpty_iff.mpr hempty)]
  · have hstop := h.direction_ne_stop hempty
    have hidle := h.not_isIdle hempty
    have hne : s.stops.isEmpty = false := Bool.eq_false_iff.mpr (mt Stops.isEmpty_iff.mp hempty)
    rw [if_neg (by simp [hidle, hne, hstop]), if_pos (hahead.resolve_left hempty),
      courseFor_of_ne_empty hempty]

/-- A floor behind a car with something queued is refused. -/
lemma OnCourse.addStop_of_behind (h : s.OnCourse height) (hlt : floor < height)
    (hne : s.stops ≠ .empty) (hbehind : ¬ s.direction.reaches s.floor floor) :
    s.addStop floor height = (.error (.destinationBehind floor s.floor s.direction), s) := by
  have hnew : floor ∉ s.stops.floors := fun hmem => hbehind (h.ahead floor hmem)
  have hstop := h.direction_ne_stop hne
  have hidle := h.not_isIdle hne
  have hempty : s.stops.isEmpty = false := Bool.eq_false_iff.mpr (mt Stops.isEmpty_iff.mp hne)
  rw [addStop, if_neg (not_le_of_gt hlt), if_neg (mt Stops.contains_iff.mp hnew),
    if_neg (by simp [hidle, hempty, hstop]), if_neg hbehind]

/-- What can become of a floor that is to be queued: it lies outside the building, it is queued
already, it is queued now, or it lies behind the car. Only in the third case the car changes. -/
inductive AddStopCase (height : Floor) (s : CarState) (floor : Floor) : Prop where
  | outside (hle : height ≤ floor)
      (heq : s.addStop floor height = (.error (.floorOutOfRange floor height), s))
  | present (hlt : floor < height) (hmem : floor ∈ s.stops.floors)
      (heq : s.addStop floor height = (.ok false, s))
  | queued (hlt : floor < height) (hnew : floor ∉ s.stops.floors)
      (hahead : s.stops = .empty ∨ s.direction.reaches s.floor floor)
      (heq : s.addStop floor height = (.ok true, s.enqueue floor (s.courseFor floor height)))
  | behind (hlt : floor < height) (hne : s.stops ≠ .empty)
      (hbehind : ¬ s.direction.reaches s.floor floor)
      (heq : s.addStop floor height = (.error (.destinationBehind floor s.floor s.direction), s))

lemma OnCourse.addStop_cases (h : s.OnCourse height) (floor : Floor) :
    AddStopCase height s floor := by
  by_cases hle : height ≤ floor
  · exact .outside hle (addStop_of_le hle)
  have hlt : floor < height := lt_of_not_ge hle
  by_cases hmem : floor ∈ s.stops.floors
  · exact .present hlt hmem (addStop_of_mem hlt hmem)
  by_cases hahead : s.stops = .empty ∨ s.direction.reaches s.floor floor
  · exact .queued hlt hmem hahead (h.addStop_of_ahead hlt hmem hahead)
  · obtain ⟨hne, hbehind⟩ := not_or.mp hahead
    exact .behind hlt hne hbehind (h.addStop_of_behind hlt hne hbehind)

/-! ### The rules after a floor has been queued -/

@[simp] lemma mem_stops_enqueue {f : Floor} :
    f ∈ (s.enqueue floor d).stops.floors ↔ f = floor ∨ f ∈ s.stops.floors := by
  simp [enqueue]

@[simp] lemma floor_enqueue : (s.enqueue floor d).floor = s.floor := rfl

@[simp] lemma direction_enqueue : (s.enqueue floor d).direction = d := rfl

@[simp] lemma riders_enqueue : (s.enqueue floor d).riders = s.riders := rfl

lemma activity_enqueue_ne_idle : (s.enqueue floor d).activity ≠ .idle := by
  by_cases hidle : s.activity = .idle <;> simp [enqueue, hidle]

lemma OnCourse.enqueue (h : s.OnCourse height) (hlt : floor < height)
    (hahead : s.stops = .empty ∨ s.direction.reaches s.floor floor) :
    (s.enqueue floor (s.courseFor floor height)).OnCourse height where
  floor_lt := h.floor_lt
  stops_lt f hf := by
    rcases mem_stops_enqueue.mp hf with rfl | hf
    · exact hlt
    · exact h.stops_lt f hf
  ordered := by
    refine Stops.OrderedFor.insert ?_ floor
    by_cases hempty : s.stops = .empty
    · rw [hempty]
      exact Stops.orderedFor_empty _
    · rw [courseFor_of_ne_empty hempty]
      exact h.ordered
  ahead f hf := by
    rcases mem_stops_enqueue.mp hf with rfl | hf
    · exact reaches_courseFor hahead
    · rw [direction_enqueue, courseFor_of_ne_empty (Stops.ne_empty_of_mem hf)]
      exact h.ahead f hf
  idle hidle := absurd hidle activity_enqueue_ne_idle

/-- A car on course that queues a floor keeps all the rules, whatever its direction was before. -/
lemma OnCourse.lawful_enqueue (h : s.OnCourse height) (hroom : s.riders.length ≤ capacity)
    (hlt : floor < height) (hahead : s.stops = .empty ∨ s.direction.reaches s.floor floor) :
    (s.enqueue floor (s.courseFor floor height)).Lawful height capacity where
  toOnCourse := h.enqueue hlt hahead
  settled hidle := absurd hidle activity_enqueue_ne_idle
  moving _ := Stops.insert_ne_empty _ _ _
  room := hroom

/-- Riders come and go without touching the rules, as long as they fit in. -/
lemma Lawful.withRiders (h : s.Lawful height capacity) {riders : List RiderId}
    (hroom : riders.length ≤ capacity) : { s with riders }.Lawful height capacity :=
  { h with room := hroom }

lemma Lawful.addStop (h : s.Lawful height capacity) (floor : Floor) :
    (s.addStop floor height).2.Lawful height capacity := by
  cases h.addStop_cases floor with
  | outside _ heq | present _ _ heq | behind _ _ _ heq =>
      rw [heq]
      exact h
  | queued hlt _ hahead heq =>
      rw [heq]
      exact h.toOnCourse.lawful_enqueue h.room hlt hahead

/-! ### Taking a hall call -/

lemma OnCourse.facing (h : s.OnCourse height) (r : Request) : (s.facing r).OnCourse height := by
  rw [CarState.facing]
  split
  · rename_i hface
    have hempty : s.stops = .empty := h.idle (by simp_all)
    exact ⟨h.floor_lt, h.stops_lt, by simp [hempty, Stops.orderedFor_empty],
      by simp [hempty], h.idle⟩
  · exact h

@[simp] lemma stops_facing : (s.facing r).stops = s.stops := by
  rw [facing]; split <;> rfl

@[simp] lemma floor_facing : (s.facing r).floor = s.floor := by
  rw [facing]; split <;> rfl

@[simp] lemma riders_facing : (s.facing r).riders = s.riders := by
  rw [facing]; split <;> rfl

@[simp] lemma activity_facing : (s.facing r).activity = s.activity := by
  rw [facing]; split <;> rfl

lemma facing_of_not_idle (h : s.activity ≠ .idle) : s.facing r = s := by
  rw [facing, if_neg (by simp [h])]

lemma facing_of_floor_ne (h : r.floor ≠ s.floor) : s.facing r = s := by
  rw [facing, if_neg (by simp [h])]

/-- A car after it has taken a hall call for a floor that was not queued before. -/
def taking (s : CarState) (r : Request) (height : Floor) : CarState :=
  (s.facing r).enqueue r.floor ((s.facing r).courseFor r.floor height)

/-- What can become of a hall call that a car is to take: its floor lies outside the building, is
queued already, is queued now, or lies behind the car. Only in the third case the car changes. -/
inductive AcceptCase (height : Floor) (s : CarState) (r : Request) : Prop where
  | outside (hle : height ≤ r.floor)
      (heq : s.accept r height = (.error (.floorOutOfRange r.floor height), s))
  | present (hlt : r.floor < height) (hmem : r.floor ∈ s.stops.floors)
      (heq : s.accept r height = (.ok false, s))
  | queued (hlt : r.floor < height) (hnew : r.floor ∉ s.stops.floors)
      (hahead : s.stops = .empty ∨ s.direction.reaches s.floor r.floor)
      (heq : s.accept r height = (.ok true, s.taking r height))
  | behind (hlt : r.floor < height) (hne : s.stops ≠ .empty)
      (hbehind : ¬ s.direction.reaches s.floor r.floor)
      (heq : s.accept r height = (.error (.destinationBehind r.floor s.floor s.direction), s))

lemma OnCourse.accept_cases (h : s.OnCourse height) (r : Request) : AcceptCase height s r := by
  -- a car that is not idle keeps facing the way it does
  have hsame : s.stops ≠ .empty → s.facing r = s := fun hne =>
    facing_of_not_idle fun hidle => hne (h.idle hidle)
  cases (h.facing r).addStop_cases r.floor with
  | outside hle heq =>
      have hne : r.floor ≠ s.floor := fun hfloor =>
        absurd h.floor_lt (not_lt_of_ge (hfloor ▸ hle))
      rw [facing_of_floor_ne hne] at heq
      exact .outside hle (by rw [accept, facing_of_floor_ne hne, heq])
  | present hlt hmem heq =>
      rw [stops_facing] at hmem
      have hface := hsame (Stops.ne_empty_of_mem hmem)
      rw [hface] at heq
      exact .present hlt hmem (by rw [accept, hface, heq])
  | queued hlt hnew hahead heq =>
      rw [stops_facing] at hnew hahead
      refine .queued hlt hnew ?_ heq
      by_cases hempty : s.stops = .empty
      · exact Or.inl hempty
      · rw [hsame hempty] at hahead
        exact hahead
  | behind hlt hne hbehind heq =>
      rw [stops_facing] at hne
      rw [hsame hne] at hbehind heq
      exact .behind hlt hne hbehind (by rw [accept, hsame hne, heq])

/-! ### What queueing floors does to a car -/

/-- `s'` is `s` after floors have been queued: the car stands where it stood, still heads for
everything it headed for, and an idle car may have set off. Of the riders nothing is said. -/
structure Grown (s s' : CarState) : Prop where
  floor_eq : s'.floor = s.floor
  subset : ∀ f ∈ s.stops.floors, f ∈ s'.stops.floors
  activity : s'.activity = s.activity ∨ (s.activity = .idle ∧ s'.activity = .moving)
  direction : s.stops ≠ .empty → s'.direction = s.direction

lemma Grown.refl (s : CarState) : Grown s s :=
  ⟨rfl, fun _ h => h, Or.inl rfl, fun _ => rfl⟩

lemma Grown.trans (h : Grown s s') (h' : Grown s' s'') : Grown s s'' where
  floor_eq := h'.floor_eq.trans h.floor_eq
  subset f hf := h'.subset f (h.subset f hf)
  activity := by
    cases h.activity with
    | inl heq =>
        rw [← heq]
        exact h'.activity
    | inr hleft =>
        cases h'.activity with
        | inl heq => exact Or.inr ⟨hleft.1, heq.trans hleft.2⟩
        | inr hidle => exact absurd (hleft.2.symm.trans hidle.1) (by decide)
  direction hne := by
    obtain ⟨next, rest, hq⟩ := Stops.exists_cons_of_ne_empty hne
    have hne' : s'.stops ≠ .empty := Stops.ne_empty_of_mem (h.subset next (by simp [hq]))
    exact (h'.direction hne').trans (h.direction hne)

lemma Grown.withRiders (h : Grown s s') (before after : List RiderId) :
    Grown { s with riders := before } { s' with riders := after } :=
  ⟨h.floor_eq, h.subset, h.activity, h.direction⟩

lemma Grown.activity_eq (h : Grown s s') (hne : s.activity ≠ .idle) :
    s'.activity = s.activity :=
  h.activity.resolve_right fun hidle => hne hidle.1

lemma Grown.activity_ne_doorOpen (h : Grown s s') (hshut : s.activity ≠ .doorOpen) :
    s'.activity ≠ .doorOpen := by
  cases h.activity with
  | inl hsame => rwa [hsame]
  | inr hleft => simp [hleft.2]

lemma grown_enqueue (s : CarState) (floor height : Floor) :
    Grown s (s.enqueue floor (s.courseFor floor height)) where
  floor_eq := rfl
  subset _ hf := mem_stops_enqueue.mpr (Or.inr hf)
  activity := by
    by_cases hidle : s.activity = .idle
    · exact Or.inr ⟨hidle, by simp [enqueue, hidle]⟩
    · exact Or.inl (by simp [enqueue, hidle])
  direction hne := courseFor_of_ne_empty hne

lemma OnCourse.grown_facing (h : s.OnCourse height) (r : Request) : Grown s (s.facing r) where
  floor_eq := floor_facing
  subset _ hf := by rwa [stops_facing]
  activity := Or.inl activity_facing
  direction hne := by
    rw [facing_of_not_idle fun hidle => hne (h.idle hidle)]

/-- Queueing a floor never touches the riders. -/
@[simp] lemma riders_addStop : (s.addStop floor height).2.riders = s.riders := by
  rw [addStop]
  split_ifs <;> rfl

lemma OnCourse.grown_addStop (h : s.OnCourse height) (floor : Floor) :
    Grown s (s.addStop floor height).2 := by
  cases h.addStop_cases floor with
  | outside _ heq | present _ _ heq | behind _ _ _ heq =>
      rw [heq]
      exact Grown.refl s
  | queued _ _ _ heq =>
      rw [heq]
      exact grown_enqueue s floor height

/-! ### A car that has taken a hall call -/

lemma OnCourse.lawful_taking (h : s.OnCourse height) (hroom : s.riders.length ≤ capacity)
    (hlt : r.floor < height) (hahead : s.stops = .empty ∨ s.direction.reaches s.floor r.floor) :
    (s.taking r height).Lawful height capacity := by
  refine (h.facing r).lawful_enqueue (by rwa [riders_facing]) hlt ?_
  rw [stops_facing]
  by_cases hempty : s.stops = .empty
  · exact Or.inl hempty
  · rw [facing_of_not_idle fun hidle => hempty (h.idle hidle)]
    exact hahead

lemma OnCourse.grown_taking (h : s.OnCourse height) (r : Request) : s.Grown (s.taking r height) :=
  (h.grown_facing r).trans (grown_enqueue _ _ _)

@[simp] lemma riders_taking : (s.taking r height).riders = s.riders := riders_facing

@[simp] lemma mem_stops_taking {f : Floor} :
    f ∈ (s.taking r height).stops.floors ↔ f = r.floor ∨ f ∈ s.stops.floors := by
  rw [taking, mem_stops_enqueue, stops_facing]

end CarState

end ElevatorFleet
