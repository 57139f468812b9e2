import ElevatorFleet.Proofs.CarRuns

/-!
The sweeps of a car over whole runs: it never turns round with something queued, and never passes a
floor at which it is to stop.

* `CarOperation.step?` is the movement step that an operation takes, and `Car.stepsOf` lists those
  of a run.
* `OperationCase` lists what an operation can do to floor, direction and queue: it leaves the car
  where it stands with all it had queued, or it is a step that arrives or passes.
* `Car.Sound.keeps_direction`: as long as something is queued the car keeps its direction, and goes
  one floor that way for each floor it passes.
* `Car.Sound.approaches`: a queued floor stays queued until the car arrives there, and each floor
  passed brings the car one floor nearer.
* `Car.Sound.stepsOf_moves` and `Car.Sound.arrivals_moves`: with nothing added the car passes the
  floors in between, one after the other, and arrives at the queued floors in their order.
* `Car.Attainable.scan_discipline` puts these together.
-/

namespace ElevatorFleet

/-! ### Steps toward a floor -/

/-- Whether a step passes a floor. -/
def Step.isPass : Step → Bool
  | .passed _ => true
  | .arrived _ => false

/-- The floor at which a step arrives. -/
def Step.arrival? : Step → Option Floor
  | .passed _ => none
  | .arrived floor => some floor

namespace Direction

variable {d : Direction} {here there next : Floor}

/-- A step toward a floor ahead brings the car one floor nearer. -/
lemma distance_step (h : d.reaches here there) (hne : here ≠ there) :
    Floor.distance (d.step here) there + 1 = Floor.distance here there := by
  have hahead := reaches_step h hne
  have hval : here.val ≠ there.val := fun heq => hne (Fin.ext heq)
  rcases step_spec h hne with ⟨rfl, hstep⟩ | ⟨rfl, hstep⟩ <;>
    simp only [reaches, decide_eq_true_eq, Fin.le_def] at h hahead <;>
    simp only [Floor.distance] <;>
    omega

/-- A car that has not reached the next floor of its sweep has not reached those behind it. -/
lemma ne_of_precedes (h : d.reaches here next) (hnext : d.Precedes next there) :
    here ≠ there := by
  rintro rfl
  cases d with
  | down => exact absurd (of_decide_eq_true h) (not_le_of_gt hnext)
  | stop => exact ne_stop_of_reaches h rfl
  | up => exact absurd (of_decide_eq_true h) (not_le_of_gt hnext)

end Direction

/-! ### One operation -/

/-- `s'` is `s` after something other than a movement: the car stands where it stood, with all it
had queued, and keeps its direction if that was anything. -/
structure CarState.HeadsOn (s s' : CarState) : Prop where
  floor_eq : s'.floor = s.floor
  subset : ∀ f ∈ s.stops.floors, f ∈ s'.stops.floors
  direction : s.stops ≠ .empty → s'.direction = s.direction

lemma CarState.HeadsOn.refl (s : CarState) : s.HeadsOn s := ⟨rfl, fun _ hf => hf, fun _ => rfl⟩

lemma CarState.Grown.headsOn {s s' : CarState} (h : s.Grown s') : s.HeadsOn s' :=
  ⟨h.floor_eq, h.subset, h.direction⟩

namespace CarOperation

variable {c : Car} {op : CarOperation}

/-- The movement step that an operation takes, if it takes one. -/
def step? (c : Car) : CarOperation → Option Step
  | move => c.move.1.toOption
  | _ => none

lemma step?_move {step : Step} {c' : Car} (h : c.move = (.ok step, c')) :
    step? c .move = some step := by
  rw [step?, h]
  rfl

lemma perform_move {result : Except Fault Step} {c' : Car} (h : c.move = (result, c')) :
    CarOperation.move.perform c = c' := by
  rw [perform, h]

/-- What an operation can do to floor, direction and queue. -/
inductive OperationCase (c : Car) (op : CarOperation) : Prop where
  | stands (hstep : op.step? c = none) (hon : c.state.HeadsOn (op.perform c).state)
  | arrives (rest : List Floor) (hmove : op = .move)
      (hstep : op.step? c = some (.arrived c.state.floor))
      (hq : c.state.stops.floors = c.state.floor :: rest)
      (hstate : (op.perform c).state = { c.state with stops := ⟨rest⟩, activity := .doorOpen })
  | passes (next : Floor) (rest : List Floor) (hmove : op = .move)
      (hstep : op.step? c = some (.passed (c.state.direction.step c.state.floor)))
      (hq : c.state.stops.floors = next :: rest) (hne : c.state.floor ≠ next)
      (hstate : (op.perform c).state = { c.state with
        floor := c.state.direction.step c.state.floor
        activity := .moving })

lemma move_operation_cases (h : c.Sound) : OperationCase c .move := by
  cases h.move_cases with
  | refused _ heq =>
      refine .stands (by simp [step?, heq, Except.toOption]) ?_
      simp only [perform, heq]
      exact .refl _
  | arrives rest hq heq =>
      exact .arrives rest rfl (step?_move heq) hq (by rw [perform_move heq])
  | passes next rest hq hne heq =>
      exact .passes next rest rfl (step?_move heq) hq hne (by rw [perform_move heq])

/-- Opening the doors leaves floor, direction and queue alone. -/
lemma headsOn_openDoors (c : Car) : c.state.HeadsOn c.openDoors.2.state := by
  rw [Car.openDoors]
  split_ifs
  · exact .refl _
  · exact ⟨rfl, fun _ hf => hf, fun _ => rfl⟩

/-- Closing the doors changes the direction of a car with nothing queued at most. -/
lemma headsOn_closeDoors (c : Car) : c.state.HeadsOn c.closeDoors.state := by
  refine ⟨?_, fun f hf => by simpa using hf, fun hne => ?_⟩
  · rw [Car.closeDoors]
    split_ifs with hopen hempty
    · rfl
    · simp [CarState.settle, hempty]
    · rfl
  · rw [Car.closeDoors]
    split_ifs with hopen hempty
    · rfl
    · exact absurd (Stops.isEmpty_iff.mp hempty) hne
    · rfl

/-- **What an operation can do**, a reset apart: with any calls, pool or keeper and whatever comes
of it, it takes a movement step or leaves the car where it stands, still heading for all it had
queued. -/
theorem operation_cases (h : c.Sound) (hreset : op ≠ .reset) : OperationCase c op := by
  cases op with
  | move => exact move_operation_cases h
  | offer eligible request => exact .stands rfl (h.grown_offer eligible request).state.headsOn
  | addStop floor =>
      have hgrown := h.lawful.grown_addStop floor
      refine .stands rfl ?_
      simp only [perform, Car.addStop]
      rcases hadd : c.state.addStop floor c.settings.height with ⟨fault | added, s⟩ <;>
        rw [hadd] at hgrown
      · exact hgrown.headsOn
      · cases added <;> exact hgrown.headsOn
  | returnToDefault => exact .stands rfl h.grown_returnToDefault.state.headsOn
  | openDoors => exact .stands rfl (headsOn_openDoors c)
  | closeDoors => exact .stands rfl (headsOn_closeDoors c)
  | takeToken => exact .stands rfl (.refl _)
  | stop => exact .stands rfl (.refl _)
  | reset => exact absurd rfl hreset
  | takeOver rule floor pool =>
      obtain ⟨taken, htakes, -⟩ := Backfill.run_takes h rule floor pool
      exact .stands rfl htakes.grown.state.headsOn
  | exchange σ keeper riders =>
      exact .stands rfl ((Exchange.run_always h.lawful).hold keeper riders).grown.headsOn

end CarOperation

namespace Car

variable {c : Car} {f next : Floor} {op : CarOperation} {ops : List CarOperation}

lemma Sound.of_move (h : c.Sound) {result : Except Fault Step} {c' : Car}
    (hmove : c.move = (result, c')) : c'.Sound := by
  have hafter := h.move
  rwa [hmove] at hafter

/-- A car under way to the next floor of its queue stands on none of those that are queued. -/
lemma Sound.floor_ne_of_mem (h : c.Sound) {rest : List Floor}
    (hq : c.state.stops.floors = next :: rest) (hne : c.state.floor ≠ next)
    (hf : f ∈ c.state.stops.floors) : c.state.floor ≠ f := by
  have hreach := h.lawful.ahead next (by simp [hq])
  have hordered := h.lawful.ordered
  rw [Stops.OrderedFor, hq] at hordered
  rw [hq] at hf
  cases List.mem_cons.mp hf with
  | inl hhead => rwa [hhead]
  | inr htail => exact Direction.ne_of_precedes hreach (List.rel_of_pairwise_cons hordered htail)

/-- The next movement step arrives at a queued floor exactly if the car stands there. -/
lemma Sound.arrives_iff (h : c.Sound) (hf : f ∈ c.state.stops.floors) :
    c.move.1 = .ok (.arrived f) ↔ c.state.floor = f := by
  cases h.move_cases with
  | refused hempty => simp [hempty] at hf
  | arrives rest hq heq => simp [heq]
  | passes next rest hq hne heq => simpa [heq] using h.floor_ne_of_mem hq hne hf

/-- A floor leaves the queue only when the car arrives there. -/
lemma Sound.left_queue (h : c.Sound) (hreset : op ≠ .reset) (hf : f ∈ c.state.stops.floors)
    (hleft : f ∉ (op.perform c).state.stops.floors) :
    op = .move ∧ c.move.1 = .ok (.arrived f) := by
  cases op.operation_cases h hreset with
  | stands _ hon => exact absurd (hon.subset f hf) hleft
  | arrives rest hmove _ hq hstate =>
      refine ⟨hmove, (h.arrives_iff hf).mpr ?_⟩
      rw [hq] at hf
      cases List.mem_cons.mp hf with
      | inl hhere => exact hhere.symm
      | inr hrest => exact absurd (by simpa [hstate] using hrest) hleft
  | passes _ _ _ _ _ _ hstate => exact absurd (by simpa [hstate] using hf) hleft

/-- A car goes to another floor only when it passes that floor. -/
lemma Sound.left_floor (h : c.Sound) (hreset : op ≠ .reset)
    (hleft : (op.perform c).state.floor ≠ c.state.floor) :
    op = .move ∧ c.move.1 = .ok (.passed (op.perform c).state.floor) := by
  cases op.operation_cases h hreset with
  | stands _ hon => exact absurd hon.floor_eq hleft
  | arrives _ _ _ _ hstate => exact absurd (by rw [hstate]) hleft
  | passes _ _ hmove hstep _ _ hstate =>
      refine ⟨hmove, ?_⟩
      rw [hmove, CarOperation.step?] at hstep
      cases hresult : c.move.1 with
      | error fault => simp [hresult, Except.toOption] at hstep
      | ok step =>
          obtain rfl : step = _ := by simpa [hresult, Except.toOption] using hstep
          rw [hstate]

/-! ### Runs -/

/-- The movement steps a car takes in some operations, in order. -/
def stepsOf (c : Car) : List CarOperation → List Step
  | [] => []
  | op :: ops => (op.step? c).toList ++ (op.perform c).stepsOf ops

/-- How many floors a car passes in some operations. -/
def passCount (c : Car) (ops : List CarOperation) : Nat := (c.stepsOf ops).countP (·.isPass)

@[simp] lemma performAll_cons :
    c.performAll (op :: ops) = (op.perform c).performAll ops := rfl

lemma stepsOf_cons_none (h : op.step? c = none) :
    c.stepsOf (op :: ops) = (op.perform c).stepsOf ops := by
  simp [stepsOf, h]

lemma stepsOf_cons_some {step : Step} (h : op.step? c = some step) :
    c.stepsOf (op :: ops) = step :: (op.perform c).stepsOf ops := by
  simp [stepsOf, h]

lemma passCount_cons_none (h : op.step? c = none) :
    c.passCount (op :: ops) = (op.perform c).passCount ops := by
  rw [passCount, passCount, stepsOf_cons_none h]

lemma passCount_cons_arrived (h : op.step? c = some (.arrived f)) :
    c.passCount (op :: ops) = (op.perform c).passCount ops := by
  rw [passCount, passCount, stepsOf_cons_some h]
  rfl

lemma passCount_cons_passed (h : op.step? c = some (.passed f)) :
    c.passCount (op :: ops) = (op.perform c).passCount ops + 1 := by
  rw [passCount, passCount, stepsOf_cons_some h]
  exact List.countP_cons_of_pos rfl

/-- **No turning round**: as long as something is queued a car keeps its direction, and its floor
changes by one in that direction for each floor it passes, and not otherwise. -/
theorem Sound.keeps_direction (h : c.Sound) (hreset : CarOperation.reset ∉ ops)
    (hbusy : ∀ part, part <+: ops → (c.performAll part).state.stops ≠ .empty) :
    (c.performAll ops).state.direction = c.state.direction ∧
      ((c.state.direction = .up ∧
          (c.performAll ops).state.floor.val = c.state.floor.val + c.passCount ops) ∨
        (c.state.direction = .down ∧
          (c.performAll ops).state.floor.val + c.passCount ops = c.state.floor.val)) := by
  induction ops generalizing c with
  | nil =>
      have hstop := h.lawful.direction_ne_stop (hbusy [] (List.prefix_refl []))
      refine ⟨rfl, ?_⟩
      cases hdirection : c.state.direction with
      | up => exact Or.inl ⟨rfl, rfl⟩
      | down => exact Or.inr ⟨rfl, rfl⟩
      | stop => exact absurd hdirection hstop
  | cons op ops ih =>
      obtain ⟨hfirst, hrest⟩ := not_or.mp (mt List.mem_cons.mpr hreset)
      have hnow : c.state.stops ≠ .empty := hbusy [] List.nil_prefix
      obtain ⟨hkept, hway⟩ := ih (op.sound_perform h) hrest fun part hpart =>
        hbusy (op :: part) (List.cons_prefix_cons.mpr ⟨rfl, hpart⟩)
      rw [performAll_cons]
      cases op.operation_cases h (Ne.symm hfirst) with
      | stands hstep hon =>
          rw [passCount_cons_none hstep]
          rw [hon.direction hnow, hon.floor_eq] at hway
          exact ⟨hkept.trans (hon.direction hnow), hway⟩
      | arrives rest _ hstep _ hstate =>
          rw [passCount_cons_arrived hstep]
          rw [hstate] at hkept hway
          exact ⟨hkept, hway⟩
      | passes next rest _ hstep hq hne hstate =>
          have hone := Direction.step_spec (h.lawful.ahead next (by simp [hq])) hne
          rw [passCount_cons_passed hstep]
          rw [hstate] at hkept hway
          refine ⟨hkept, ?_⟩
          dsimp only at hway
          -- one floor now, and the others afterwards
          rcases hone with ⟨hup, hone⟩ | ⟨hdown, hone⟩
          · have hfloor := (hway.resolve_right (by simp [hup])).2
            exact Or.inl ⟨hup, by omega⟩
          · have hfloor := (hway.resolve_left (by simp [hdown])).2
            exact Or.inr ⟨hdown, by omega⟩

/-- **No stop is passed**: until the car has arrived there a queued floor stays queued, and the
floors passed so far and those still to go make up the way there. -/
theorem Sound.approaches (h : c.Sound) (hreset : CarOperation.reset ∉ ops)
    (hf : f ∈ c.state.stops.floors) (hnot : Step.arrived f ∉ c.stepsOf ops) :
    f ∈ (c.performAll ops).state.stops.floors ∧
      c.passCount ops + Floor.distance (c.performAll ops).state.floor f =
        Floor.distance c.state.floor f := by
  induction ops generalizing c with
  | nil => exact ⟨hf, Nat.zero_add _⟩
  | cons op ops ih =>
      obtain ⟨hfirst, hrest⟩ := not_or.mp (mt List.mem_cons.mpr hreset)
      have hsound := op.sound_perform h
      rw [performAll_cons]
      cases op.operation_cases h (Ne.symm hfirst) with
      | stands hstep hon =>
          rw [stepsOf_cons_none hstep] at hnot
          rw [passCount_cons_none hstep, ← hon.floor_eq]
          exact ih hsound hrest (hon.subset f hf) hnot
      | arrives rest _ hstep hq hstate =>
          rw [stepsOf_cons_some hstep] at hnot
          obtain ⟨hhere, hlater⟩ := not_or.mp (mt List.mem_cons.mpr hnot)
          have hne : f ≠ c.state.floor := fun heq => hhere (heq ▸ rfl)
          rw [hq] at hf
          have hqueued := (List.mem_cons.mp hf).resolve_left hne
          obtain ⟨hstill, hway⟩ := ih hsound hrest (by simpa [hstate] using hqueued) hlater
          rw [passCount_cons_arrived hstep]
          rw [hstate] at hway
          exact ⟨hstill, hway⟩
      | passes next rest _ hstep hq hne hstate =>
          rw [stepsOf_cons_some hstep] at hnot
          have hlater := (not_or.mp (mt List.mem_cons.mpr hnot)).2
          obtain ⟨hstill, hway⟩ := ih hsound hrest (by simpa [hstate] using hf) hlater
          have hnearer := Direction.distance_step (h.lawful.ahead f hf)
            (h.floor_ne_of_mem hq hne hf)
          rw [passCount_cons_passed hstep]
          rw [hstate] at hway
          refine ⟨hstill, ?_⟩
          dsimp only at hway
          omega

/-! ### Moving with nothing added -/

/-- With nothing added the car passes the floors on its way one after the other, and arrives. -/
lemma Sound.stepsOf_moves (h : c.Sound) (hhead : c.state.stops.head? = some next) :
    c.stepsOf (List.replicate (Floor.distance c.state.floor next + 1) .move) =
      (List.range (Floor.distance c.state.floor next)).map
        (fun i => .passed (c.state.direction.step^[i + 1] c.state.floor)) ++ [.arrived next] := by
  have hnext : next ∈ c.state.stops.floors := List.mem_of_head? hhead
  induction hn : Floor.distance c.state.floor next generalizing c with
  | zero =>
      have hhere : c.state.floor = next := by
        simp only [Floor.distance] at hn
        exact Fin.ext (by omega)
      have harrives := (h.arrives_iff hnext).mpr hhere
      have hstep : CarOperation.step? c .move = some (.arrived next) := by
        rw [CarOperation.step?, harrives]
        rfl
      rw [List.replicate_one, stepsOf_cons_some hstep]
      rfl
  | succ n ih =>
      have hne : c.state.floor ≠ next := fun heq => by simp [heq, Floor.distance] at hn
      have hnearer := Direction.distance_step (h.lawful.ahead next hnext) hne
      cases h.move_cases with
      | refused hempty => simp [hempty] at hnext
      | arrives rest hq =>
          have heq : c.state.floor = next := by simpa [Stops.head?, hq] using hhead
          exact absurd heq hne
      | passes _ _ _ _ heq =>
          have hafter := ih (h.of_move heq) hhead hnext (by dsimp only; omega)
          rw [List.replicate_succ, stepsOf_cons_some (CarOperation.step?_move heq),
            CarOperation.perform_move heq, hafter, List.range_succ_eq_map, List.map_cons,
            List.map_map]
          rfl

/-- With nothing added the car arrives at the queued floors in their order. -/
lemma Sound.arrivals_moves (h : c.Sound) (n : Nat) :
    (c.stepsOf (List.replicate n .move)).filterMap (·.arrival?) ++
      (c.performAll (List.replicate n .move)).state.stops.floors = c.state.stops.floors := by
  induction n generalizing c with
  | zero => rfl
  | succ n ih =>
      rw [List.replicate_succ, performAll_cons]
      cases h.move_cases with
      | refused hempty heq =>
          have hnone : CarOperation.step? c .move = none := by
            simp [CarOperation.step?, heq, Except.toOption]
          rw [stepsOf_cons_none hnone, CarOperation.perform_move heq]
          exact ih h
      | arrives rest hq heq =>
          have hafter := ih (h.of_move heq)
          rw [stepsOf_cons_some (CarOperation.step?_move heq), CarOperation.perform_move heq, hq]
          exact congrArg (c.state.floor :: ·) hafter
      | passes next rest hq hne heq =>
          have hafter := ih (h.of_move heq)
          rw [stepsOf_cons_some (CarOperation.step?_move heq), CarOperation.perform_move heq]
          exact hafter

/-! ### Every car and every run -/

lemma performAll_append (c : Car) (ops ops' : List CarOperation) :
    c.performAll (ops ++ ops') = (c.performAll ops).performAll ops' := by
  induction ops generalizing c with
  | nil => rfl
  | cons op ops ih => exact ih (op.perform c)

/-- A car that has come about from a fresh one in some operations, whatever their outcome. -/
def Attainable (c : Car) : Prop :=
  ∃ id settings first ops, make id settings = .ok first ∧ c = first.performAll ops

lemma Attainable.sound (h : c.Attainable) : c.Sound := by
  obtain ⟨id, settings, first, ops, hmake, rfl⟩ := h
  exact ((sound_of_make hmake).1.performAll ops).1

/-- **The discipline of a sweep**, in any further run of any car, with any calls, pools and keepers.
As long as something is queued the car keeps its direction and goes one floor that way for each
floor it passes; it goes nowhere otherwise. A floor leaves the queue only when the car arrives
there, and the car arrives at a queued floor on the first move after it has passed as many floors as
it is away, neither earlier nor later. With nothing added it passes just the floors in between, and
then arrives, at all of its stops in the order of the queue. -/
theorem Attainable.scan_discipline (h : c.Attainable) (ops : List CarOperation)
    (hreset : CarOperation.reset ∉ ops) :
    ((∀ part, part <+: ops → (c.performAll part).state.stops ≠ .empty) →
      (c.performAll ops).state.direction = c.state.direction ∧
        ((c.state.direction = .up ∧
            (c.performAll ops).state.floor.val = c.state.floor.val + c.passCount ops) ∨
          (c.state.direction = .down ∧
            (c.performAll ops).state.floor.val + c.passCount ops = c.state.floor.val))) ∧
    (∀ part op rest, ops = part ++ op :: rest →
      ((c.performAll (part ++ [op])).state.floor ≠ (c.performAll part).state.floor →
        op = .move ∧ (c.performAll part).move.1 =
          .ok (.passed (c.performAll (part ++ [op])).state.floor)) ∧
      ∀ f ∈ (c.performAll part).state.stops.floors,
        f ∉ (c.performAll (part ++ [op])).state.stops.floors →
          op = .move ∧ (c.performAll part).move.1 = .ok (.arrived f)) ∧
    (∀ f ∈ c.state.stops.floors, Step.arrived f ∉ c.stepsOf ops →
      f ∈ (c.performAll ops).state.stops.floors ∧
        c.passCount ops ≤ Floor.distance c.state.floor f ∧
        ((c.performAll ops).move.1 = .ok (.arrived f) ↔
          c.passCount ops = Floor.distance c.state.floor f)) ∧
    (∀ next, c.state.stops.head? = some next →
      c.stepsOf (List.replicate (Floor.distance c.state.floor next + 1) .move) =
        (List.range (Floor.distance c.state.floor next)).map
          (fun i => .passed (c.state.direction.step^[i + 1] c.state.floor)) ++ [.arrived next]) ∧
    (∀ n, (c.stepsOf (List.replicate n .move)).filterMap (·.arrival?) ++
      (c.performAll (List.replicate n .move)).state.stops.floors = c.state.stops.floors) := by
  have hsound := h.sound
  refine ⟨hsound.keeps_direction hreset, fun part op rest hops => ?_, fun f hf hnot => ?_,
    fun next => hsound.stepsOf_moves, hsound.arrivals_moves⟩
  · have hop : op ≠ .reset := fun heq => hreset (by simp [hops, heq])
    have hpart := (hsound.performAll part).1
    rw [performAll_append]
    exact ⟨hpart.left_floor hop, fun f hf => hpart.left_queue hop hf⟩
  · obtain ⟨hqueued, hway⟩ := hsound.approaches hreset hf hnot
    have hthere : Floor.distance (c.performAll ops).state.floor f = 0 ↔
        (c.performAll ops).state.floor = f := by
      simp only [Floor.distance, Fin.ext_iff]
      omega
    refine ⟨hqueued, by omega, ?_⟩
    rw [(hsound.performAll ops).1.arrives_iff hqueued, ← hthere]
    omega

/-- A trip up during which a call comes in for a floor, another floor is queued, and doors are tried
in vain. -/
def interruptedTrip (called queued : Floor) : List CarOperation :=
  [.move, .offer (fun _ => true) ⟨called, .up⟩, .move, .addStop queued, .openDoors,
    .exchange Unit .nobody (), .closeDoors, .move, .takeToken, .move]

/-- A car on the ground floor that heads for floor 4 passes four floors, whatever else is done with
it, and then arrives. -/
theorem scan_discipline_interrupted :
    ∃ c : Car, c.Attainable ∧ c.state.floor = 0 ∧ c.state.stops.floors = [4] ∧
      4 ∈ (c.performAll (interruptedTrip 4 0)).state.stops.floors ∧
      c.passCount (interruptedTrip 4 0) = 4 ∧
      (c.performAll (interruptedTrip 4 0)).move.1 = .ok (.arrived 4) := by
  have h : ((fresh 0 ⟨6, 2, ⟨1⟩, ⟨1⟩, ⟨1⟩, 0⟩).performAll [.addStop 4]).Attainable :=
    ⟨0, ⟨6, 2, ⟨1⟩, ⟨1⟩, ⟨1⟩, 0⟩, _, _, rfl, rfl⟩
  have hreset : CarOperation.reset ∉ interruptedTrip 4 0 := by simp [interruptedTrip]
  obtain ⟨-, -, hreached, -⟩ := h.scan_discipline (interruptedTrip 4 0) hreset
  obtain ⟨hqueued, -, harrives⟩ := hreached 4 (by decide +kernel) (by decide +kernel)
  exact ⟨_, h, by decide +kernel, by decide +kernel, hqueued, by decide +kernel,
    harrives.mpr (by decide +kernel)⟩

end Car

end ElevatorFleet
