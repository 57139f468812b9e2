import ElevatorFleet.Proofs.CarRuns
import ElevatorFleet.Proofs.Dispatching
import ElevatorFleet.Proofs.Ledger
import ElevatorFleet.Scenario
import ElevatorFleet.Traffic.Tables

/-!
What a configuration that has been accepted guarantees.

* `Plan.Valid` is what has been checked of a plan, and `Scenario.plan_eq_ok` says that a scenario
  gives no other plans.
* `Fleet.Reachable` is whatever can become of a fleet, and `Fleet.Reachable.sound` says that the
  fleet stays in order under its settings.
* `Tables.Draws` is a trip that is drawn from percentage tables, after however many rolls.
* `Scenario.plan_holds`: the fleet of an accepted scenario can be built, with every car at home; and
  whatever trip is drawn, the rider is let in and the button is there.
-/

namespace ElevatorFleet

lemma exists_of_bind_eq_ok {α β : Type} {x : Except Fault α} {f : α → Except Fault β} {b : β}
    (h : (x >>= f) = .ok b) : ∃ a, x = .ok a ∧ f a = .ok b := by
  cases x with
  | error fault => simp [Bind.bind, Except.bind] at h
  | ok a => exact ⟨a, rfl, h⟩

/-! ### What has been checked -/

/-- What has been checked of a plan: the settings of the fleet, those of the traffic in a building
of the same height, and that there is something to run. -/
structure Plan.Valid (plan : Plan) : Prop where
  fleet : plan.fleet.check = .ok ()
  traffic : plan.traffic.check plan.fleet.height = .ok ()
  runs : plan.runs ≠ []

namespace Scenario

variable {s : Scenario} {plan : Plan}

/-- The default floor of a car: the ground floor, the one floor given for all of them, or its
own. -/
def home (s : Scenario) (id : Nat) : Floor :=
  match s.defaultFloors with
  | [] => .ground
  | [floor] => floor
  | floors => floors.getD id .ground

lemma restingFloors_eq_ok {floors : List Floor} (h : s.restingFloors = .ok floors) :
    floors = (List.range s.elevators).map s.home := by
  rw [restingFloors] at h
  split at h
  · rename_i hnone
    obtain rfl := Except.ok.inj h
    exact List.ext_getElem (by simp) fun i _ _ => by simp [home, hnone]
  · rename_i floor hone
    obtain rfl := Except.ok.inj h
    exact List.ext_getElem (by simp) fun i _ _ => by simp [home, hone]
  · rename_i hnone hone
    split at h
    · rename_i hlength
      obtain rfl := Except.ok.inj h
      refine List.ext_getElem (by simp [hlength]) fun i hi _ => ?_
      rw [List.getElem_map, List.getElem_range, home]
      split
      · rename_i hempty
        exact absurd hempty hnone
      · rename_i floor heq
        exact absurd heq (hone floor)
      · rw [List.getD_eq_getElem?_getD, List.getElem?_eq_getElem hi, Option.getD_some]
    · exact absurd h (by simp)

lemma fleet_eq_ok {settings : FleetSettings} (h : s.fleet = .ok settings) :
    settings.check = .ok () ∧ settings.height = s.height ∧
      settings.defaultFloors = (List.range s.elevators).map s.home := by
  obtain ⟨floors, hfloors, h⟩ := exists_of_bind_eq_ok h
  obtain ⟨perFloor, -, h⟩ := exists_of_bind_eq_ok h
  obtain ⟨door, -, h⟩ := exists_of_bind_eq_ok h
  obtain ⟨idle, -, h⟩ := exists_of_bind_eq_ok h
  obtain ⟨⟨⟩, hcheck, h⟩ := exists_of_bind_eq_ok h
  obtain rfl := Except.ok.inj h
  exact ⟨hcheck, rfl, restingFloors_eq_ok hfloors⟩

lemma traffic_eq_ok {settings : TrafficSettings} (h : s.traffic = .ok settings) :
    settings.check s.height = .ok () := by
  obtain ⟨duration, -, h⟩ := exists_of_bind_eq_ok h
  obtain ⟨interval, -, h⟩ := exists_of_bind_eq_ok h
  obtain ⟨⟨⟩, hcheck, h⟩ := exists_of_bind_eq_ok h
  obtain rfl := Except.ok.inj h
  exact hcheck

/-- The plan of a scenario has been checked, and gives every car its default floor. -/
lemma plan_eq_ok (h : s.plan = .ok plan) :
    plan.Valid ∧ plan.fleet.defaultFloors = (List.range s.elevators).map s.home := by
  obtain ⟨⟨⟩, -, h⟩ := exists_of_bind_eq_ok h
  obtain ⟨fleet, hfleet, h⟩ := exists_of_bind_eq_ok h
  obtain ⟨traffic, htraffic, h⟩ := exists_of_bind_eq_ok h
  obtain ⟨drain, -, h⟩ := exists_of_bind_eq_ok h
  obtain rfl := Except.ok.inj h
  obtain ⟨hcheck, hheight, hfloors⟩ := fleet_eq_ok hfleet
  refine ⟨⟨hcheck, hheight ▸ traffic_eq_ok htraffic, ?_⟩, hfloors⟩
  dsimp only
  split_ifs with hempty
  · exact List.cons_ne_nil _ _
  · simpa using hempty

end Scenario

/-! ### Whatever becomes of a fleet -/

namespace Fleet

variable {settings : FleetSettings} {strategies : Strategies} {f : Fleet}

/-- Whatever can become of a fleet with some settings and strategies: calls come in and are handed
out, anything is done with one car or with all of them, and time passes. -/
inductive Reachable (settings : FleetSettings) (strategies : Strategies) : Fleet → Prop where
  | made (f : Fleet) (h : make settings strategies = .ok f) : Reachable settings strategies f
  | press (f : Fleet) (floor : Floor) (goingUp : Bool) (h : Reachable settings strategies f) :
      Reachable settings strategies (f.press floor goingUp).2
  | dispatch (f : Fleet) (r : Request) (h : Reachable settings strategies f) :
      Reachable settings strategies (f.dispatch r).2
  | backfill (f : Fleet) (id : Nat) (floor : Floor) (h : Reachable settings strategies f) :
      Reachable settings strategies (f.backfill id floor).2
  | onCar (f : Fleet) (id : Nat) (op : CarOperation) (h : Reachable settings strategies f) :
      Reachable settings strategies (f.onCar id fun c => (.ok (), op.perform c)).2
  | stopAll (f : Fleet) (h : Reachable settings strategies f) :
      Reachable settings strategies f.stopAll
  | reset (f : Fleet) (h : Reachable settings strategies f) : Reachable settings strategies f.reset
  | tick (f : Fleet) (clock : Nat) (h : Reachable settings strategies f) :
      Reachable settings strategies { f with clock }

/-- All cars are put back to rest, and no call is pending any more. -/
lemma Sound.reset (h : f.Sound) : f.reset.Sound where
  cars x hx := by
    obtain ⟨c, hc, rfl⟩ := List.mem_map.mp hx
    exact (h.cars c hc).reset
  height x hx := by
    obtain ⟨c, hc, rfl⟩ := List.mem_map.mp hx
    exact h.height c hc
  pool _ he := absurd he List.not_mem_nil

lemma Sound.onCar (h : f.Sound) (id : Nat) (op : CarOperation) :
    (f.onCar id fun c => (.ok (), op.perform c)).2.Sound ∧
      (f.onCar id fun c => (.ok (), op.perform c)).2.settings = f.settings := by
  cases hc : f.cars[id]? with
  | none => simpa [Fleet.onCar, hc] using h
  | some c =>
      rw [onCar_eq hc]
      exact ⟨h.setCar hc (op.sound_perform (h.car hc)) (op.settings_perform (h.car hc)), rfl⟩

/-- **Every fleet stays in order** under the settings it has been built with. -/
theorem Reachable.sound (h : Reachable settings strategies f) :
    f.Sound ∧ f.settings = settings := by
  induction h with
  | made f hmake =>
      obtain ⟨hsound, rfl⟩ := sound_of_make hmake
      exact ⟨hsound, rfl⟩
  | press f floor goingUp _ ih =>
      obtain ⟨hsound, hgrown⟩ := ih.1.press floor goingUp
      exact ⟨hsound, hgrown.settings_eq.trans ih.2⟩
  | dispatch f r _ ih =>
      obtain ⟨hsound, hgrown⟩ := ih.1.dispatch r
      exact ⟨hsound, hgrown.settings_eq.trans ih.2⟩
  | backfill f id floor _ ih =>
      obtain ⟨hsound, hgrown⟩ := ih.1.backfill id floor
      exact ⟨hsound, hgrown.settings_eq.trans ih.2⟩
  | onCar f id op _ ih =>
      obtain ⟨hsound, hsettings⟩ := ih.1.onCar id op
      exact ⟨hsound, hsettings.trans ih.2⟩
  | stopAll f _ ih => exact ⟨ih.1.stopAll, ih.2⟩
  | reset f _ ih => exact ⟨ih.1.reset, ih.2⟩
  | tick f clock _ ih => exact ⟨ih.1.withClock clock, ih.2⟩

/-- The button for another floor of the building is there, and whoever presses it is heard. -/
lemma Sound.press_toward (h : f.Sound) {start destination : Floor}
    (hstart : start < f.settings.height) (hdestination : destination < f.settings.height)
    (hne : start ≠ destination) :
    ∃ a, (f.press start (start < destination)).1 = .ok a := by
  have hbutton : f.lacksButton start (.ofUp (start < destination)) = false := by
    rcases lt_or_gt_of_ne hne with hup | hdown
    · -- there is a floor above the start
      have hbelow : start.val < destination.val := hup
      have hin : destination.val < f.settings.height.val := hdestination
      rw [decide_eq_true hup]
      exact decide_eq_false (by omega)
    · have habove : destination.val < start.val := hdown
      rw [decide_eq_false hdown.not_gt]
      exact decide_eq_false (by omega)
  obtain ⟨a, f', heq, -⟩ := h.dispatch_of_lt (r := ⟨start, .ofUp (start < destination)⟩) hstart
  exact ⟨a, by rw [press_eq_dispatch hstart hbutton, heq]⟩

end Fleet

/-! ### Whatever trip is drawn -/

namespace Tables

variable {τ : Type} {rolls : Rolls τ} {table : List Nat} {height : Floor}

/-- A trip that is drawn from percentage tables, after however many rolls. -/
def Draws (t : Tables) (rolls : Rolls τ) (s : τ) (trip : Floor × Floor) : Prop :=
  trip.1 = pick t.starts (rolls.next s).1 ∧
    ∃ fuel s', redraw? rolls t.destinations trip.1 fuel (rolls.next s).2 = some (trip.2, s')

/-- Every trip that the traffic draws is drawn in this sense. -/
lemma draws_of_trip? {t : Tables} {s s' : τ} {trip : Floor × Floor}
    (h : t.trip? rolls s = some (trip, s')) : t.Draws rolls s trip := by
  obtain ⟨⟨destination, s''⟩, hredraw, heq⟩ := Option.map_eq_some_iff.mp h
  obtain ⟨rfl, rfl⟩ := Prod.mk.inj heq
  exact ⟨rfl, patience, s'', hredraw⟩

lemma length_totals (total : Nat) (weights : List Nat) :
    (totals total weights).length = weights.length := by
  induction weights generalizing total with
  | nil => rfl
  | cons weight weights ih => exact congrArg (· + 1) (ih (total + weight))

/-- Whatever the roll, one of the floors is picked. -/
lemma pickIndex_lt (hne : table ≠ []) (roll : Nat) : pickIndex table roll < table.length := by
  have hpos : 0 < table.length := List.length_pos_iff.mpr hne
  rw [pickIndex]
  cases hfind : table.findIdx? (roll < ·) with
  | none => exact Nat.sub_lt hpos Nat.one_pos
  | some i => exact (List.findIdx?_eq_some_iff_getElem.mp hfind).1

/-- A table with an entry for every floor of a building picks no floor outside it. -/
lemma pick_lt {weights : List Nat} (hlength : weights.length = height.val) (hpos : 0 < height.val)
    (roll : Nat) : pick (cumulative weights) roll < height := by
  have hsame : (cumulative weights).length = height.val := (length_totals 0 weights).trans hlength
  have hne : cumulative weights ≠ [] := List.length_pos_iff.mp (hsame ▸ hpos)
  have hlt := pickIndex_lt hne roll
  rw [hsame] at hlt
  exact Fin.lt_def.mpr ((Nat.mod_le _ _).trans_lt hlt)

/-- A destination is drawn from its table, and it is not the start floor. -/
lemma redraw?_eq_some {start destination : Floor} {fuel : Nat} {s s' : τ}
    (h : redraw? rolls table start fuel s = some (destination, s')) :
    destination ≠ start ∧ ∃ roll, destination = pick table roll := by
  induction fuel generalizing s with
  | zero => simp [redraw?] at h
  | succ fuel ih =>
      rw [redraw?] at h
      dsimp only at h
      split_ifs at h with hsame
      · exact ih h
      · obtain ⟨rfl, -⟩ := Prod.mk.inj (Option.some.inj h)
        exact ⟨hsame, _, rfl⟩

end Tables

namespace TrafficSettings

variable {t : TrafficSettings} {height : Floor}

lemma length_of_checkTable {setting : Setting} {table : List Nat}
    (h : checkTable setting table height = .ok ()) : table.length = height.val := by
  rw [checkTable] at h
  split_ifs at h with hlength
  exact not_not.mp hlength

/-- Tables that have been accepted have an entry for every floor. -/
lemma length_of_check (h : t.check height = .ok ()) :
    t.startPercentages.length = height.val ∧ t.destinationPercentages.length = height.val := by
  rw [check] at h
  split at h
  · simp at h
  · rename_i hstarts
    split at h
    · simp at h
    · rename_i hdestinations
      exact ⟨length_of_checkTable hstarts, length_of_checkTable hdestinations⟩

end TrafficSettings

namespace Plan

variable {plan : Plan} {τ : Type} {rolls : Rolls τ} {s : τ} {trip : Floor × Floor}

/-- The tables from which the trips of a plan are drawn. -/
def tables (plan : Plan) : Tables :=
  .ofPercentages plan.traffic.startPercentages plan.traffic.destinationPercentages

/-- A fleet that has been checked can be built, with every car idle and empty on its default
floor. -/
lemma Valid.make (h : plan.Valid) (strategies : Strategies) :
    Fleet.make plan.fleet strategies = .ok (.resting plan.fleet strategies) := by
  rw [Fleet.make, h.fleet]

/-- A building has two floors at least. -/
lemma Valid.two_le_height (h : plan.Valid) : 2 ≤ plan.fleet.height.val := by
  have hcheck := h.fleet
  rw [FleetSettings.check] at hcheck
  split_ifs at hcheck with hempty
  obtain ⟨floor, hfloor⟩ := List.exists_mem_of_ne_nil _ (by simpa using hempty)
  exact (CarSettings.check_eq_ok_iff.mp (Fleet.checkCars_eq_ok hcheck floor hfloor)).1

/-- Whatever trip is drawn leads from one floor of the building to another. -/
lemma Valid.trip_spec (h : plan.Valid) (hdraws : plan.tables.Draws rolls s trip) :
    trip.1 < plan.fleet.height ∧ trip.2 < plan.fleet.height ∧ trip.1 ≠ trip.2 := by
  obtain ⟨hstart, fuel, s', hredraw⟩ := hdraws
  obtain ⟨hne, roll, hdestination⟩ := Tables.redraw?_eq_some hredraw
  obtain ⟨hstarts, hdestinations⟩ := TrafficSettings.length_of_check h.traffic
  have hpos : 0 < plan.fleet.height.val := Nat.lt_of_lt_of_le Nat.two_pos h.two_le_height
  exact ⟨hstart ▸ Tables.pick_lt hstarts hpos _, hdestination ▸ Tables.pick_lt hdestinations hpos _,
    hne.symm⟩

end Plan

/-- Whoever comes in on one floor of the building to go to another is let in. -/
lemma Building.enter_of_lt {b : Building} {start destination : Floor} (hstart : start < b.height)
    (hdestination : destination < b.height) (hne : start ≠ destination) (now : Nat) :
    (b.enter start destination now).1 = .ok b.people.length := by
  have hmake : Person.make b.people.length start destination b.height now =
      .ok ⟨b.people.length, start, destination, now, none, none⟩ := by
    rw [Person.make, if_neg (not_le_of_gt hstart), if_neg (not_le_of_gt hdestination), if_neg hne]
  rw [enter]
  simp only [hmake]

/-- **An accepted scenario cannot fail later.** Its fleet has as many cars as it asks for, and it
can be built under any strategies, every car idle and empty on the default floor the scenario gives
it; there is something to run; and whatever trip is drawn, whatever the rolls and however many of
them, a building of that height lets the rider in, whoever is in it, and the fleet, whatever has
become of it, answers the button the rider presses. -/
theorem Scenario.plan_holds {s : Scenario} {plan : Plan} (h : s.plan = .ok plan) :
    plan.fleet.size = s.elevators ∧
      plan.fleet.defaultFloors = (List.range s.elevators).map s.home ∧ plan.runs ≠ [] ∧
      (∀ strategies, ∃ f, Fleet.make plan.fleet strategies = .ok f ∧ f.cars.length = s.elevators ∧
        ∀ id c, f.cars[id]? = some c → c.settings.defaultFloor = s.home id ∧
          c.state.floor = s.home id ∧ c.state.activity = .idle ∧ c.state.stops = .empty ∧
          c.state.riders = []) ∧
      ∀ (τ : Type) (rolls : Rolls τ) (t : τ) (start destination : Floor),
        plan.tables.Draws rolls t (start, destination) →
        (∀ b : Building, b.height = plan.fleet.height → ∀ now,
          (b.enter start destination now).1 = .ok b.people.length) ∧
        ∀ strategies f, Fleet.Reachable plan.fleet strategies f →
          ∃ a, (f.press start (start < destination)).1 = .ok a := by
  obtain ⟨hvalid, hfloors⟩ := plan_eq_ok h
  have hsize : plan.fleet.size = s.elevators := by simp [FleetSettings.size, hfloors]
  refine ⟨hsize, hfloors, hvalid.runs, fun strategies => ?built,
    fun τ rolls t start destination hdraws => ?trip⟩
  case built =>
    refine ⟨_, hvalid.make strategies, ?_, fun id c hc => ?_⟩
    · rw [Fleet.resting, List.length_mapIdx]
      exact hsize
    · obtain ⟨floor, hfloor, rfl⟩ : ∃ floor, plan.fleet.defaultFloors[id]? = some floor ∧
          .fresh id (plan.fleet.carAt floor) = c := by
        simpa [Fleet.resting] using hc
      obtain rfl : s.home id = floor := by
        rw [hfloors] at hfloor
        simpa using (List.getElem?_eq_some_iff.mp hfloor).2
      exact ⟨rfl, rfl, rfl, rfl, rfl⟩
  case trip =>
    obtain ⟨hstart, hdestination, hne⟩ := hvalid.trip_spec hdraws
    refine ⟨fun b hb now => ?_, fun strategies f hf => ?_⟩
    · rw [← hb] at hstart hdestination
      exact Building.enter_of_lt hstart hdestination hne now
    · obtain ⟨hsound, hsettings⟩ := hf.sound
      rw [← hsettings] at hstart hdestination
      exact hsound.press_toward hstart hdestination hne

/-- Two cars, both at home on floor 1 of four. Everybody comes in on the ground floor; of the rolls
20, 20 and 70 the first picks it as the start, the second picks it again and is thrown away, and the
third picks the top floor. -/
theorem Scenario.plan_holds_small :
    ∃ plan, Scenario.plan ⟨5.0, 10.0, 6.0, 30.0, 4, 2, 3, 1000, 2500, 10000, [1], [100, 0, 0, 0],
        [50, 0, 0, 50], []⟩ = .ok plan ∧ plan.fleet.defaultFloors = [1, 1] ∧
      plan.tables.Draws ⟨fun n : Nat => (if n = 2 then 70 else 20, n + 1)⟩ 0 (0, 3) ∧
      (Building.enter (.vacant plan.fleet.height) 0 3 0).1 = .ok 0 ∧
      ∃ f a, Fleet.make plan.fleet .standard = .ok f ∧ f.cars.length = 2 ∧
        (f.press 0 true).1 = .ok a := by
  have hread : (Scenario.plan ⟨5.0, 10.0, 6.0, 30.0, 4, 2, 3, 1000, 2500, 10000, [1],
      [100, 0, 0, 0], [50, 0, 0, 50], []⟩).toOption.map (·.tables) =
      some (.ofPercentages [100, 0, 0, 0] [50, 0, 0, 50]) := by
    decide +kernel
  obtain ⟨plan, hsome, htables⟩ := Option.map_eq_some_iff.mp hread
  have hplan : Scenario.plan ⟨5.0, 10.0, 6.0, 30.0, 4, 2, 3, 1000, 2500, 10000, [1], [100, 0, 0, 0],
      [50, 0, 0, 50], []⟩ = .ok plan := by
    revert hsome
    cases Scenario.plan _ with
    | error fault => simp [Except.toOption]
    | ok plan' => exact fun hsome => congrArg Except.ok (Option.some.inj hsome)
  have hdraws : plan.tables.Draws ⟨fun n : Nat => (if n = 2 then 70 else 20, n + 1)⟩ 0 (0, 3) := by
    rw [htables]
    exact ⟨by decide, 2, 3, by decide⟩
  obtain ⟨-, hfloors, -, hmake, htrips⟩ := plan_holds hplan
  obtain ⟨f, hf, hcars, -⟩ := hmake .standard
  obtain ⟨henter, hpress⟩ := htrips _ _ _ _ _ hdraws
  obtain ⟨a, ha⟩ := hpress _ f (.made f hf)
  exact ⟨plan, hplan, hfloors, hdraws, henter _ rfl 0, f, a, hf, hcars, ha⟩

end ElevatorFleet
