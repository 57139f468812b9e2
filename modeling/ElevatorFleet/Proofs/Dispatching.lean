import ElevatorFleet.Fleet
import ElevatorFleet.Proofs.Takeover

/-!
What becomes of the calls of a fleet.

* `Fleet.Sound` says that all cars are sound, stand in one building, and that all pending calls are
  for floors of it; `Fleet.sound_of_make` that a fresh fleet is.
* `Fleet.Grown` is what calls, take-overs and orders to stop do to a fleet at most. No call gets
  lost, and none is added to the pool while a car is idle.
* `Fleet.Sound.dispatch_spec` says that a call for a floor of the building is always taken by some
  car or put into the pool, and `Fleet.Sound.backfill_spec` that a take-over never fails, and never
  leaves an idle car without a call as long as one is pending.
-/

namespace ElevatorFleet

/-! ### Asking the cars one after the other -/

namespace Dispatch

variable {cs cs' : List Car} {taken : Option Nat} {r : Request}

/-- What asking some cars to take a call does to them at most: whoever takes it is going to stop
at its floor, and if nobody does nothing has changed. -/
structure Asked (r : Request) (cs : List Car) (taken : Option Nat) (cs' : List Car) : Prop where
  sound : ∀ c ∈ cs', c.Sound
  grown : List.Forall₂ Car.Grown cs cs'
  served : taken ≠ none → ∃ c ∈ cs', r.floor ∈ c.state.stops.floors
  nobody : taken = none → cs' = cs

lemma Asked.refl (h : ∀ c ∈ cs, c.Sound) : Asked r cs none cs :=
  ⟨h, List.forall₂_same.mpr fun c _ => .refl c, by simp, fun _ => rfl⟩

/-- A car that declines stays as it is, in front of those that are asked after it. -/
lemma Asked.decline {c : Car} (hc : c.Sound) (h : Asked r cs taken cs') :
    Asked r (c :: cs) (taken.map (· + 1)) (c :: cs') where
  sound := List.forall_mem_cons.mpr ⟨hc, h.sound⟩
  grown := .cons (.refl c) h.grown
  served htaken := by
    obtain ⟨x, hx, hfloor⟩ := h.served (by simpa using htaken)
    exact ⟨x, List.mem_cons_of_mem c hx, hfloor⟩
  nobody htaken := by rw [h.nobody (by simpa using htaken)]

/-- Asking the cars of one class never fails for a floor of the building, and ends without a taker
only if all of them have something to do. -/
lemma firstTaker_spec (eligible : CarState → Bool) (h : ∀ c ∈ cs, c.Sound)
    (hin : ∀ c ∈ cs, r.floor < c.settings.height) :
    ∃ taken, (firstTaker eligible r cs).1 = .ok taken ∧
      Asked r cs taken (firstTaker eligible r cs).2 ∧
      (taken = none → ∀ c ∈ cs, eligible c.state = true → c.state.activity ≠ .idle) := by
  induction cs with
  | nil => exact ⟨none, rfl, .refl h, by simp⟩
  | cons c cs ih =>
      obtain ⟨hc, hcs⟩ := List.forall_mem_cons.mp h
      obtain ⟨hinc, hincs⟩ := List.forall_mem_cons.mp hin
      have hsound := hc.offer eligible r
      have hgrown := hc.grown_offer eligible r
      have hsame := hc.offer_eq_of_ne_true eligible r
      have hidle := fun hidle heligible => hc.offer_of_idle eligible r hidle heligible hinc
      rw [firstTaker]
      rcases hoffer : c.offer eligible r with ⟨fault | took, c'⟩
      · exact absurd (hc.le_floor_of_offer_error (by rw [hoffer])) (not_le_of_gt hinc)
      rw [hoffer] at hsound hgrown hsame hidle
      cases took with
      | true =>
          have hstop := hc.mem_stops_of_offer (by rw [hoffer])
          rw [hoffer] at hstop
          refine ⟨some 0, rfl, ⟨List.forall_mem_cons.mpr ⟨hsound, hcs⟩, ?_, ?_, by simp⟩, by simp⟩
          · exact .cons hgrown (List.forall₂_same.mpr fun x _ => .refl x)
          · exact fun _ => ⟨c', List.mem_cons_self, hstop⟩
      | false =>
          obtain rfl : c' = c := hsame (by simp)
          obtain ⟨taken, hok, hasked, hnone⟩ := ih hcs hincs
          refine ⟨taken.map (· + 1), by simp [hok, Except.map], hasked.decline hc, fun htaken => ?_⟩
          have hothers := hnone (by simpa using htaken)
          refine List.forall_mem_cons.mpr ⟨fun heligible hactivity => ?_, hothers⟩
          exact absurd (hidle hactivity heligible) (by simp)

/-- Asking one class after the other never fails for a floor of the building either, and ends
without a taker only if all cars of all classes have something to do. -/
lemma taker_spec (classes : List (CarState → Bool)) (h : ∀ c ∈ cs, c.Sound)
    (hin : ∀ c ∈ cs, r.floor < c.settings.height) :
    ∃ taken, (taker r classes cs).1 = .ok taken ∧ Asked r cs taken (taker r classes cs).2 ∧
      (taken = none → ∀ eligible ∈ classes, ∀ c ∈ cs, eligible c.state = true →
        c.state.activity ≠ .idle) := by
  induction classes with
  | nil => exact ⟨none, rfl, .refl h, by simp⟩
  | cons eligible classes ih =>
      obtain ⟨taken, hok, hasked, hnone⟩ := firstTaker_spec eligible h hin
      rw [taker]
      rcases hout : firstTaker eligible r cs with ⟨result, cs'⟩
      rw [hout] at hok hasked
      obtain rfl : result = .ok taken := hok
      cases taken with
      | some id => exact ⟨some id, rfl, hasked, by simp⟩
      | none =>
          obtain rfl : cs' = cs := hasked.nobody rfl
          obtain ⟨taken, hok', hasked', hnone'⟩ := ih
          exact ⟨taken, hok', hasked', fun htaken =>
            List.forall_mem_cons.mpr ⟨hnone rfl, hnone' htaken⟩⟩

/-- Either rule asks the idle cars, first or last. -/
lemma isIdle_mem_classes (rule : DispatchRule) : CarState.isIdle ∈ rule.classes := by
  cases rule <;> simp [DispatchRule.classes]

end Dispatch

namespace Fleet

variable {f f' : Fleet} {r : Request} {id : Nat} {c c' : Car} {floor : Floor}

/-! ### Fleets in order -/

/-- All cars are sound and stand in one building, and all pending calls are for floors of it. -/
structure Sound (f : Fleet) : Prop where
  cars : ∀ c ∈ f.cars, c.Sound
  height : ∀ c ∈ f.cars, c.settings.height = f.settings.height
  pool : ∀ e ∈ f.pool.entries, e.request.floor < f.settings.height

lemma Sound.car (h : f.Sound) (hc : f.cars[id]? = some c) : c.Sound :=
  h.cars c (List.mem_of_getElem? hc)

lemma Sound.pool_lt (h : f.Sound) (hc : f.cars[id]? = some c) :
    ∀ e ∈ f.pool.entries, e.request.floor < c.settings.height := by
  rw [h.height c (List.mem_of_getElem? hc)]
  exact h.pool

/-- The default floors of settings that pass all belong to cars that can run. -/
lemma checkCars_eq_ok {settings : FleetSettings} {floors : List Floor}
    (h : settings.checkCars floors = .ok ()) :
    ∀ floor ∈ floors, (settings.carAt floor).check = .ok () := by
  induction floors with
  | nil => simp
  | cons floor floors ih =>
      rw [FleetSettings.checkCars] at h
      split at h
      · simp at h
      · rename_i hcheck
        exact List.forall_mem_cons.mpr ⟨hcheck, ih h⟩

/-- A fleet that has just been built is in order. -/
lemma sound_of_make {settings : FleetSettings} {strategies : Strategies}
    (h : make settings strategies = .ok f) : f.Sound ∧ f = resting settings strategies := by
  rw [make] at h
  split at h
  · simp at h
  · rename_i hcheck
    obtain rfl : resting settings strategies = f := by simpa using h
    rw [FleetSettings.check] at hcheck
    split at hcheck
    · simp at hcheck
    have hcars := checkCars_eq_ok hcheck
    refine ⟨⟨fun c hc => ?_, fun c hc => ?_, by simp [resting, Pool.empty]⟩, rfl⟩
    all_goals
      obtain ⟨id, hid, rfl⟩ := List.mem_mapIdx.mp hc
    · have hok := hcars _ (List.getElem_mem hid)
      exact ⟨hok, CarState.lawful_resting (CarSettings.check_eq_ok_iff.mp hok).2.2.1⟩
    · rfl

/-! ### What can be done to a fleet from outside -/

/-- A call is in hand: it is pending, or some car is going to stop at its floor. -/
def Answers (f : Fleet) (r : Request) : Prop :=
  r ∈ f.pool.requests ∨ ∃ c ∈ f.cars, r.floor ∈ c.state.stops.floors

/-- `f'` is `f` after calls have been handed out and cars have been told to stop. Pending calls stay
in hand, and new ones are pending only if no car is idle. -/
structure Grown (f f' : Fleet) : Prop where
  settings_eq : f'.settings = f.settings
  strategies_eq : f'.strategies = f.strategies
  cars : List.Forall₂ Car.Grown f.cars f'.cars
  kept : ∀ r ∈ f.pool.requests, f'.Answers r
  added : f'.pool.entries ⊆ f.pool.entries ∨ ∀ c ∈ f'.cars, c.state.activity ≠ .idle

lemma Grown.refl (f : Fleet) : f.Grown f :=
  ⟨rfl, rfl, List.forall₂_same.mpr fun c _ => .refl c, fun _ hr => Or.inl hr,
    Or.inl (List.Subset.refl _)⟩

/-- The car that a car has grown into. -/
lemma Grown.exists_after (h : f.Grown f') (hc : f.cars[id]? = some c) :
    ∃ c', f'.cars[id]? = some c' ∧ c.Grown c' := by
  obtain ⟨hlength, hcars⟩ := List.forall₂_iff_get.mp h.cars
  obtain ⟨hid, rfl⟩ := List.getElem?_eq_some_iff.mp hc
  exact ⟨_, List.getElem?_eq_getElem (hlength ▸ hid), hcars id hid (hlength ▸ hid)⟩

/-- The car that a car has grown from. -/
lemma Grown.exists_before (h : f.Grown f') (hc' : f'.cars[id]? = some c') :
    ∃ c, f.cars[id]? = some c ∧ c.Grown c' := by
  obtain ⟨hlength, hcars⟩ := List.forall₂_iff_get.mp h.cars
  obtain ⟨hid, rfl⟩ := List.getElem?_eq_some_iff.mp hc'
  exact ⟨_, List.getElem?_eq_getElem (hlength ▸ hid), hcars id (hlength ▸ hid) hid⟩

/-- What is in hand stays in hand. -/
lemma Grown.answers (h : f.Grown f') (hr : f.Answers r) : f'.Answers r := by
  cases hr with
  | inl hpool => exact h.kept r hpool
  | inr hqueued =>
      obtain ⟨c, hc, hfloor⟩ := hqueued
      obtain ⟨id, hid⟩ := List.mem_iff_getElem?.mp hc
      obtain ⟨c', hid', hgrown⟩ := h.exists_after hid
      exact Or.inr ⟨c', List.mem_of_getElem? hid', hgrown.state.subset _ hfloor⟩

/-- Cars that have grown still stand in the same building. -/
lemma Grown.height_eq (h : f.Grown f')
    (hheight : ∀ c ∈ f.cars, c.settings.height = f.settings.height) :
    ∀ c ∈ f'.cars, c.settings.height = f'.settings.height := fun c' hc' => by
  obtain ⟨id, hid⟩ := List.mem_iff_getElem?.mp hc'
  obtain ⟨c, hid, hgrown⟩ := h.exists_before hid
  rw [hgrown.settings_eq, h.settings_eq]
  exact hheight c (List.mem_of_getElem? hid)

/-! ### One car of a fleet -/

lemma onCar_eq {α : Type} {operation : Car → Attempt Car α} (hc : f.cars[id]? = some c) :
    f.onCar id operation = ((operation c).1, f.setCar id (operation c).2) := by
  rw [onCar, hc]

lemma cars_setCar_self (hc : f.cars[id]? = some c) : (f.setCar id c').cars[id]? = some c' := by
  obtain ⟨hid, -⟩ := List.getElem?_eq_some_iff.mp hc
  simp only [setCar, List.getElem?_set_self hid]

lemma cars_setCar_ne {i : Nat} (hne : i ≠ id) : (f.setCar id c').cars[i]? = f.cars[i]? := by
  simp only [setCar, List.getElem?_set_ne hne.symm]

lemma Sound.setCar (h : f.Sound) (hc : f.cars[id]? = some c) (hc' : c'.Sound)
    (hsettings : c'.settings = c.settings) : (f.setCar id c').Sound where
  cars x hx := by
    rcases List.mem_or_eq_of_mem_set hx with hx | rfl
    · exact h.cars x hx
    · exact hc'
  height x hx := by
    rcases List.mem_or_eq_of_mem_set hx with hx | rfl
    · exact h.height x hx
    · rw [hsettings]
      exact h.height c (List.mem_of_getElem? hc)
  pool := h.pool

lemma forall₂_set (hc : f.cars[id]? = some c) (hgrown : c.Grown c') :
    List.Forall₂ Car.Grown f.cars (f.cars.set id c') := by
  refine List.forall₂_iff_get.mpr ⟨by simp, fun i hi hi' => ?_⟩
  obtain ⟨hid, rfl⟩ := List.getElem?_eq_some_iff.mp hc
  simp only [List.get_eq_getElem, List.getElem_set]
  split_ifs with heq
  · subst heq
    exact hgrown
  · exact .refl _

/-- A fleet grows with any of its cars. -/
lemma grown_setCar (hc : f.cars[id]? = some c) (hgrown : c.Grown c') :
    f.Grown (f.setCar id c') :=
  ⟨rfl, rfl, forall₂_set hc hgrown, fun _ hr => Or.inl hr, Or.inl (List.Subset.refl _)⟩

lemma setCar_self (hc : f.cars[id]? = some c) : f.setCar id c = f := by
  obtain ⟨hid, rfl⟩ := List.getElem?_eq_some_iff.mp hc
  simp [setCar]

/-! ### Orders to stop, and the clock -/

lemma Sound.stop (h : f.Sound) (id : Nat) : (f.stop id).2.Sound := by
  cases hc : f.cars[id]? with
  | none => simpa [Fleet.stop, onCar, hc] using h
  | some c =>
      rw [Fleet.stop, onCar_eq hc]
      exact h.setCar hc (h.car hc).stop rfl

lemma grown_stop (f : Fleet) (id : Nat) : f.Grown (f.stop id).2 := by
  cases hc : f.cars[id]? with
  | none => simpa [Fleet.stop, onCar, hc] using Grown.refl f
  | some c =>
      rw [Fleet.stop, onCar_eq hc]
      exact grown_setCar hc (Car.grown_stop c)

lemma Sound.stopAll (h : f.Sound) : f.stopAll.Sound where
  cars x hx := by
    obtain ⟨c, hc, rfl⟩ := List.mem_map.mp hx
    exact (h.cars c hc).stop
  height x hx := by
    obtain ⟨c, hc, rfl⟩ := List.mem_map.mp hx
    exact h.height c hc
  pool := h.pool

lemma grown_stopAll (f : Fleet) : f.Grown f.stopAll where
  settings_eq := rfl
  strategies_eq := rfl
  cars := List.forall₂_map_right_iff.mpr (List.forall₂_same.mpr fun c _ => Car.grown_stop c)
  kept _ hr := Or.inl hr
  added := Or.inl (List.Subset.refl _)

lemma Sound.withClock (h : f.Sound) (clock : Nat) : { f with clock }.Sound :=
  ⟨h.cars, h.height, h.pool⟩

lemma grown_withClock (f : Fleet) (clock : Nat) : f.Grown { f with clock } :=
  ⟨rfl, rfl, List.forall₂_same.mpr fun c _ => .refl c, fun _ hr => Or.inl hr,
    Or.inl (List.Subset.refl _)⟩

/-! ### Calls -/

/-- A call for a floor of the building is put into the pool while no car is idle. -/
lemma Sound.insert_spec (h : f.Sound) (hlt : r.floor < f.settings.height)
    (hbusy : ∀ c ∈ f.cars, c.state.activity ≠ .idle) :
    { f with pool := f.pool.insert r f.clock }.Sound ∧
      f.Grown { f with pool := f.pool.insert r f.clock } ∧
      { f with pool := f.pool.insert r f.clock }.Answers r := by
  have hinsert : (f.pool.insert r f.clock).requests = f.pool.requests ++ [r] := by
    simp [Pool.requests, Pool.insert]
  refine ⟨⟨h.cars, h.height, fun e he => ?_⟩, ⟨rfl, rfl, List.forall₂_same.mpr fun c _ => .refl c,
    fun r' hr' => Or.inl ?_, Or.inr hbusy⟩, Or.inl ?_⟩
  · rcases List.mem_append.mp he with he | he
    · exact h.pool e he
    · obtain rfl := List.mem_singleton.mp he
      exact hlt
  · rw [hinsert]
    exact List.mem_append_left _ hr'
  · rw [hinsert]
    exact List.mem_append_right _ List.mem_cons_self

/-- Handing out a call for a floor of the building: whoever heads for its floor already, or takes it
now, is going to stop there, and otherwise it is pending while no car is idle. -/
lemma Sound.run_spec (h : f.Sound) (hlt : r.floor < f.settings.height) :
    ∃ a cars pool,
      Dispatch.run f.strategies.dispatch f.cars f.pool r f.clock = (.ok a, cars, pool) ∧
      { f with cars, pool }.Sound ∧ f.Grown { f with cars, pool } ∧
      { f with cars, pool }.Answers r := by
  rw [Dispatch.run]
  cases hserving : f.cars.findIdx? (·.isServing r) with
  | some id =>
      obtain ⟨hid, hserves, -⟩ := List.findIdx?_eq_some_iff_getElem.mp hserving
      refine ⟨_, _, _, rfl, h, .refl f, Or.inr ⟨_, List.getElem_mem hid, ?_⟩⟩
      simp only [Car.isServing, CarState.isServing, Bool.and_eq_true] at hserves
      exact Stops.contains_iff.mp hserves.1
  | none =>
      have hin : ∀ c ∈ f.cars, r.floor < c.settings.height := fun c hc => by
        rw [h.height c hc]
        exact hlt
      obtain ⟨taken, hok, hasked, hnone⟩ :=
        Dispatch.taker_spec f.strategies.dispatch.classes h.cars hin
      rcases hout : Dispatch.taker r f.strategies.dispatch.classes f.cars with ⟨result, cars⟩
      rw [hout] at hok hasked
      obtain rfl : result = .ok taken := hok
      cases taken with
      | some id =>
          have hgrown : f.Grown { f with cars } :=
            ⟨rfl, rfl, hasked.grown, fun _ hr => Or.inl hr, Or.inl (List.Subset.refl _)⟩
          exact ⟨_, _, _, rfl, ⟨hasked.sound, hgrown.height_eq h.height, h.pool⟩, hgrown,
            Or.inr (hasked.served (by simp))⟩
      | none =>
          obtain rfl : cars = f.cars := hasked.nobody rfl
          have hbusy : ∀ c ∈ f.cars, c.state.activity ≠ .idle := fun c hc hidle =>
            hnone rfl _ (Dispatch.isIdle_mem_classes _) c hc (by simpa using hidle) hidle
          exact ⟨.pending, f.cars, _, rfl, h.insert_spec hlt hbusy⟩

/-- **No call is lost when it comes in**: a call for a floor of the building is taken by some car,
or it is put into the pool while no car is idle. Any other call fails and changes nothing. -/
theorem Sound.dispatch_spec (h : f.Sound) (r : Request) :
    (f.settings.height ≤ r.floor ∧
      f.dispatch r = (.error (.floorOutOfRange r.floor f.settings.height), f)) ∨
    (r.floor < f.settings.height ∧ ∃ a f', f.dispatch r = (.ok a, f') ∧ f'.Sound ∧ f.Grown f' ∧
      f'.Answers r) := by
  rcases le_or_gt f.settings.height r.floor with hle | hlt
  · exact Or.inl ⟨hle, by rw [dispatch, Request.checked, if_pos hle]⟩
  · obtain ⟨a, cars, pool, heq, hsound, hgrown, hanswers⟩ := h.run_spec hlt
    refine Or.inr ⟨hlt, a, _, ?_, hsound, hgrown, hanswers⟩
    rw [dispatch, Request.checked, if_neg (not_le_of_gt hlt)]
    dsimp only
    rw [heq]

lemma Sound.dispatch_of_lt (h : f.Sound) (hlt : r.floor < f.settings.height) :
    ∃ a f', f.dispatch r = (.ok a, f') ∧ f'.Sound ∧ f.Grown f' ∧ f'.Answers r := by
  cases h.dispatch_spec r with
  | inl hout => exact absurd hlt (not_lt_of_ge hout.1)
  | inr hin => exact hin.2

lemma Sound.dispatch (h : f.Sound) (r : Request) :
    (f.dispatch r).2.Sound ∧ f.Grown (f.dispatch r).2 := by
  rcases h.dispatch_spec r with ⟨-, heq⟩ | ⟨-, a, f', heq, hsound, hgrown, -⟩ <;> rw [heq]
  · exact ⟨h, .refl f⟩
  · exact ⟨hsound, hgrown⟩

/-- A button that is refused changes nothing, and any other raises its call. -/
lemma press_cases (f : Fleet) (floor : Floor) (goingUp : Bool) :
    (∃ fault, f.press floor goingUp = (.error fault, f)) ∨
      f.press floor goingUp = f.dispatch ⟨floor, .ofUp goingUp⟩ := by
  rw [press, Request.checked]
  split_ifs with hrange
  · exact Or.inl ⟨_, rfl⟩
  · dsimp only
    split_ifs
    · exact Or.inl ⟨_, rfl⟩
    · exact Or.inr rfl

/-- A button that is there raises its call. -/
lemma press_eq_dispatch {goingUp : Bool} (hfloor : floor < f.settings.height)
    (hbutton : f.lacksButton floor (.ofUp goingUp) = false) :
    f.press floor goingUp = f.dispatch ⟨floor, .ofUp goingUp⟩ := by
  rw [press, Request.checked, if_neg (not_le_of_gt hfloor)]
  dsimp only
  rw [if_neg (by simp [hbutton])]

lemma Sound.press (h : f.Sound) (floor : Floor) (goingUp : Bool) :
    (f.press floor goingUp).2.Sound ∧ f.Grown (f.press floor goingUp).2 := by
  rcases f.press_cases floor goingUp with ⟨fault, heq⟩ | heq <;> rw [heq]
  · exact ⟨h, .refl f⟩
  · exact h.dispatch _

/-! ### Take-overs -/

/-- **A take-over of pending calls** never fails. If it says that it took something the car has
something queued; if it says that it took nothing, nothing has changed, and then the car was not
idle or no call was pending. -/
theorem Sound.backfill_spec (h : f.Sound) (hc : f.cars[id]? = some c) (floor : Floor) :
    ∃ any f', f.backfill id floor = (.ok any, f') ∧ f'.Sound ∧ f.Grown f' ∧
      (any = true → ∃ c', f'.cars[id]? = some c' ∧ c'.state.stops ≠ .empty) ∧
      (any = false → f' = f ∧ (c.state.activity = .idle → f.pool = .empty)) := by
  have hsound := h.car hc
  obtain ⟨taken, htakes, hresult⟩ := Backfill.run_takes hsound f.strategies.backfill floor f.pool
  have hidle := fun hactivity hne => Backfill.run_of_idle hsound hactivity hne (h.pool_lt hc)
    f.strategies.backfill floor
  obtain ⟨n, rfl⟩ := htakes.exists_ok (h.pool_lt hc)
  rcases hout : Backfill.run f.strategies.backfill floor c f.pool with ⟨result, c', pool⟩
  rw [hout] at htakes hresult hidle
  obtain rfl : result = .ok (decide (0 < n)) := hresult
  have hid : id < f.cars.length := (List.getElem?_eq_some_iff.mp hc).1
  have heq : f.backfill id floor = (.ok (decide (0 < n)), { f.setCar id c' with pool }) := by
    rw [backfill, hc]
    dsimp only
    rw [hout]
  refine ⟨_, _, heq, ?_, ?_, ?_, ?_⟩
  · have hset := h.setCar hc htakes.sound htakes.grown.settings_eq
    exact ⟨hset.cars, hset.height, fun e he => h.pool e (htakes.sublist.subset he)⟩
  · refine ⟨rfl, rfl, forall₂_set hc htakes.grown, fun r hr => ?_, Or.inl htakes.sublist.subset⟩
    obtain ⟨e, he, rfl⟩ := List.mem_map.mp hr
    rcases htakes.served e he with hleft | hstop
    · exact Or.inl (List.mem_map_of_mem hleft)
    · exact Or.inr ⟨c', List.mem_set hid _, hstop⟩
  · intro hany
    obtain ⟨m, rfl⟩ : ∃ m, n = m + 1 := Nat.exists_eq_add_one.mpr (by simpa using hany)
    exact ⟨c', cars_setCar_self hc, htakes.something m rfl⟩
  · intro hany
    obtain rfl : n = 0 := by simpa using hany
    obtain ⟨rfl, rfl⟩ := htakes.nothing rfl
    refine ⟨by rw [setCar_self hc], fun hactivity => ?_⟩
    by_contra hne
    simpa using hidle hactivity hne

lemma Sound.backfill (h : f.Sound) (id : Nat) (floor : Floor) :
    (f.backfill id floor).2.Sound ∧ f.Grown (f.backfill id floor).2 := by
  cases hc : f.cars[id]? with
  | none => simpa [Fleet.backfill, hc] using And.intro h (Grown.refl f)
  | some c =>
      obtain ⟨any, f', heq, hsound, hgrown, -⟩ := h.backfill_spec hc floor
      rw [heq]
      exact ⟨hsound, hgrown⟩

end Fleet

end ElevatorFleet
