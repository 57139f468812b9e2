import ElevatorFleet.Proofs.Turns

/-!
Everything that can happen to a fleet at work, in any order.

* `World.Next` is one atomic step: a turn of any worker, a call, an order to stop, riders coming and
  going, or the clock. The keepers of the riders, and how riders come, are parameters.
* `World.Reached` says that a fleet at work has come about from a fresh one in such steps.
* `World.Orderly` is what always holds: the fleet is in order, and every worker finds what it counts
  on. `World.Orderly.next` keeps it through a step, and `World.Reached.orderly` through a run.
* `World.Reached.nothing_left_behind`: a worker that waits with an empty wake slot has nothing to
  do, and no car goes home while a call is pending.
-/

namespace ElevatorFleet

namespace World

variable {σ : Type} {keepers : Keeper σ → Prop} {arrives : σ → σ → Prop} {w w' : World σ} {id : Nat}
  {p : Phase}

/-- One atomic step of a fleet at work. Exchanges are held with one of the keepers, `arrives` says
how riders come, and `expired` whether a car counts as idle for long enough. -/
inductive Next (keepers : Keeper σ → Prop) (arrives : σ → σ → Prop) (w : World σ) :
    World σ → Prop where
  | start : Next keepers arrives w w.start
  | turn (k : Keeper σ) (hk : keepers k) (expired : Bool) (id : Nat) :
      Next keepers arrives w (w.step k expired id)
  | press (floor : Floor) (goingUp : Bool) : Next keepers arrives w (w.press floor goingUp).2
  | dispatch (r : Request) : Next keepers arrives w (w.dispatch r).2
  | stop (id : Nat) : Next keepers arrives w { w with fleet := (w.fleet.stop id).2 }
  | shutdown : Next keepers arrives w { w with fleet := w.fleet.stopAll }
  | arrive (riders : σ) (h : arrives w.riders riders) : Next keepers arrives w { w with riders }
  | tick (clock : Nat) : Next keepers arrives w { w with fleet := { w.fleet with clock } }

/-- What can come about from a fresh fleet whose workers have not been started. -/
inductive Reached (keepers : Keeper σ → Prop) (arrives : σ → σ → Prop) : World σ → Prop where
  | fresh (settings : FleetSettings) (strategies : Strategies) (f : Fleet) (riders : σ)
      (h : Fleet.make settings strategies = .ok f) : Reached keepers arrives (.unstarted f riders)
  | next (w w' : World σ) (h : Reached keepers arrives w) (hnext : Next keepers arrives w w') :
      Reached keepers arrives w'

/-- The phase of a worker. One that has not been started yet is about to. -/
def phase (w : World σ) (id : Nat) : Phase := w.workers[id]?.getD .starting

lemma phase_eq (h : w.workers[id]? = some p) : w.phase id = p := by
  rw [phase, h]
  rfl

/-- A worker that has been given another phase is in it. -/
lemma phase_set_self {f : Fleet} {riders : σ} {p' : Phase} {log : List Event}
    (hp : w.workers[id]? = some p) :
    (World.mk f riders (w.workers.set id p') log).phase id = p' := by
  obtain ⟨hid, -⟩ := List.getElem?_eq_some_iff.mp hp
  rw [phase, List.getElem?_set_self hid]
  rfl

/-- The other workers stay in theirs. -/
lemma phase_set_ne {f : Fleet} {riders : σ} {p' : Phase} {log : List Event} {i : Nat}
    (hne : i ≠ id) :
    (World.mk f riders (w.workers.set id p') log).phase i = w.phase i := by
  rw [phase, List.getElem?_set_ne hne.symm]
  rfl

/-- The fleet is in order, and every worker finds what it counts on. -/
structure Orderly (w : World σ) : Prop where
  sound : w.fleet.Sound
  fits : ∀ (id : Nat) (c : Car), w.fleet.cars[id]? = some c →
    (w.phase id).Fits w.fleet.settings.height w.fleet.pool c

/-- A fresh fleet is in order, with all doors shut. -/
lemma orderly_unstarted {settings : FleetSettings} {strategies : Strategies} {f : Fleet}
    (h : Fleet.make settings strategies = .ok f) (riders : σ) : (unstarted f riders).Orderly := by
  obtain ⟨hsound, rfl⟩ := Fleet.sound_of_make h
  refine ⟨hsound, fun id c hc => Phase.fits_starting ?_⟩
  obtain ⟨i, hi, rfl⟩ := List.mem_mapIdx.mp (List.mem_of_getElem? hc)
  simp [Car.fresh, Car.restingState, CarState.resting]

/-- Workers that are started have been about to start. -/
lemma phase_start : w.start.phase id = w.phase id := by
  rw [start]
  split_ifs with hstarted
  · rfl
  · have hnone : w.workers = [] := by simpa [isStarted] using hstarted
    simp only [phase, hnone, List.getElem?_map, List.getElem?_nil]
    cases w.fleet.cars[id]? <;> rfl

lemma fleet_start : w.start.fleet = w.fleet := by
  rw [start]
  split_ifs <;> rfl

lemma riders_start : w.start.riders = w.riders := by
  rw [start]
  split_ifs <;> rfl

lemma Orderly.start (h : w.Orderly) : w.start.Orderly := by
  refine ⟨fleet_start.symm ▸ h.sound, fun id c hc => ?_⟩
  rw [fleet_start] at hc
  rw [phase_start, fleet_start]
  exact h.fits id c hc

/-- Nothing done to the fleet from outside brings a worker into disorder. -/
lemma Orderly.grown (h : w.Orderly) {f : Fleet} (hsound : f.Sound) (hgrown : w.fleet.Grown f) :
    { w with fleet := f }.Orderly where
  sound := hsound
  fits id c' hc' := by
    obtain ⟨c, hc, hcar⟩ := hgrown.exists_before hc'
    rw [show f.settings = w.fleet.settings from hgrown.settings_eq]
    exact (h.fits id c hc).grown hcar (hsound.car hc')
      (hgrown.added.imp_right fun hbusy => hbusy c' (List.mem_of_getElem? hc'))

/-- What a step can be: there is nobody to take it, or a worker takes a turn with its car. -/
inductive StepCase (w : World σ) (k : Keeper σ) (expired : Bool) (id : Nat) : Prop where
  | nobody (heq : w.step k expired id = w)
  | turn (c : Car) (p p' : Phase) (f' : Fleet) (riders' : σ) (log : List Event)
      (hp : w.workers[id]? = some p) (hc : w.fleet.cars[id]? = some c)
      (hfits : p.Fits w.fleet.settings.height w.fleet.pool c)
      (hturn : Turn k id c w.fleet w.riders p p' f' riders')
      (heq : w.step k expired id = ⟨f', riders', w.workers.set id p', log⟩)

lemma Orderly.step_cases (h : w.Orderly) (k : Keeper σ) (expired : Bool) (id : Nat) :
    StepCase w k expired id := by
  cases hp : w.workers[id]? with
  | none => exact .nobody (by simp [step, hp])
  | some p =>
      cases hc : w.fleet.cars[id]? with
      | none => exact .nobody (by simp [step, hp, hc])
      | some c =>
          have hfits := h.fits id c hc
          rw [phase_eq hp] at hfits
          obtain ⟨p', f', riders', log, hturn, heq⟩ := step_eq_turn h.sound hp hc hfits k expired
          exact .turn c p p' f' riders' log hp hc hfits hturn heq

/-- A turn of one worker leaves all workers with what they count on. -/
lemma Orderly.turn (h : w.Orderly) (k : Keeper σ) (expired : Bool) (id : Nat) :
    (w.step k expired id).Orderly := by
  cases h.step_cases k expired id with
  | nobody heq => exact heq.symm ▸ h
  | turn c p p' f' riders' log hp hc hfits hturn heq =>
      have hsound' := hturn.sound h.sound hc
      rw [heq]
      refine ⟨hsound', fun i x' hx' => ?_⟩
      by_cases hi : i = id
      · subst hi
        rw [phase_set_self hp]
        exact hturn.fits h.sound hc hfits hx'
      · obtain ⟨x, hx, hgrown, hadded⟩ := hturn.others h.sound hc hi hx'
        rw [phase_set_ne hi]
        rw [show f'.settings = w.fleet.settings from hturn.settings_eq h.sound hc]
        exact (h.fits i x hx).grown hgrown (hsound'.car hx') hadded

/-- **Every step** keeps a fleet at work in order, whoever takes it. -/
theorem Orderly.next (h : w.Orderly) (hnext : Next keepers arrives w w') : w'.Orderly := by
  cases hnext with
  | start => exact h.start
  | turn k hk expired id => exact h.turn k expired id
  | press floor goingUp =>
      obtain ⟨hsound, hgrown⟩ := h.sound.press floor goingUp
      exact h.grown hsound hgrown
  | dispatch r =>
      obtain ⟨hsound, hgrown⟩ := h.sound.dispatch r
      exact h.grown hsound hgrown
  | stop id => exact h.grown (h.sound.stop id) (w.fleet.grown_stop id)
  | shutdown => exact h.grown h.sound.stopAll w.fleet.grown_stopAll
  | arrive riders => exact ⟨h.sound, h.fits⟩
  | tick clock => exact h.grown (h.sound.withClock clock) (w.fleet.grown_withClock clock)

/-- Whatever can come about is in order. -/
theorem Reached.orderly (h : Reached keepers arrives w) : w.Orderly := by
  induction h with
  | fresh settings strategies f riders hmake => exact orderly_unstarted hmake riders
  | next w w' _ hnext ih => exact ih.next hnext

/-- Turns of several workers in the order of a schedule, which says whose turn it is and whether the
car counts as idle for long enough. -/
def turns (k : Keeper σ) (w : World σ) (schedule : List (Nat × Bool)) : World σ :=
  schedule.foldl (fun w (id, expired) => w.step k expired id) w

lemma Reached.turns (h : Reached keepers arrives w) {k : Keeper σ} (hk : keepers k)
    (schedule : List (Nat × Bool)) : Reached keepers arrives (w.turns k schedule) := by
  induction schedule generalizing w with
  | nil => exact h
  | cons turn schedule ih => exact ih (.next _ _ h (.turn k hk turn.2 turn.1))

/-! ### Waiting for work, and going home -/

/-- **No wake-up is lost and no call is left behind**: a worker that waits with an empty wake slot
has an idle car with nothing queued, nobody has told it to stop, and no call is pending; and when a
worker sends its car home, no call is pending either. -/
theorem Reached.nothing_left_behind (h : Reached keepers arrives w) (id : Nat) (c : Car)
    (hc : w.fleet.cars[id]? = some c) :
    (w.workers[id]? = some .waiting → c.token = false →
      c.state.activity = .idle ∧ c.state.stops = .empty ∧ c.running = true ∧
        w.fleet.pool = .empty) ∧
    (w.workers[id]? = some .returning → (w.returnToDefault id c).1 = .ok true →
      w.fleet.pool = .empty ∧ (w.returnToDefault id c).2.fleet.pool = .empty) := by
  have horderly := h.orderly
  have hcar := horderly.sound.car hc
  have hfits := horderly.fits id c hc
  refine ⟨fun hp htoken => ?_, fun hp hhome => ?_⟩ <;> rw [phase_eq hp] at hfits
  · exact hfits.of_waiting hcar htoken
  · rw [returnToDefault, Fleet.onCar_eq hc] at hhome ⊢
    cases hcar.returnToDefault_cases with
    | stays _ heq =>
        rw [heq] at hhome
        simp at hhome
    | leaves hidle _ _ _ _ _ heq =>
        rw [heq]
        exact ⟨hfits.drained rfl hidle, hfits.drained rfl hidle⟩

/-- Two cars in a building of four floors. The first has answered a call on floor 1 and is about to
go home, and the second has gone straight to waiting. -/
theorem nothing_left_behind_homeward :
    ∃ (w : World Unit) (c₀ c₁ : Car), Reached (fun _ => True) (fun _ _ => False) w ∧
      w.fleet.cars[0]? = some c₀ ∧ w.fleet.cars[1]? = some c₁ ∧
      (w.workers[0]? = some .returning ∧ (w.returnToDefault 0 c₀).1 = .ok true ∧
        w.fleet.pool = .empty ∧ (w.returnToDefault 0 c₀).2.fleet.pool = .empty) ∧
      (w.workers[1]? = some .waiting ∧ c₁.token = false ∧ c₁.state.activity = .idle ∧
        c₁.state.stops = .empty ∧ c₁.running = true ∧ w.fleet.pool = .empty) := by
  have hfresh : Reached (fun _ => True) (fun _ _ => False) _ :=
    .fresh ⟨4, 2, ⟨1⟩, ⟨1⟩, ⟨1⟩, [0, 0]⟩ ⟨.firstCapableThenIdle, .farthestFirst⟩ _ () rfl
  have hcalled := (hfresh.next _ _ .start).next _ _ (.dispatch ⟨1, .up⟩)
  have h := hcalled.turns (k := .nobody) trivial
    (List.replicate 12 (0, false) ++ [(0, true)] ++ List.replicate 4 (1, false))
  refine ⟨_, ⟨0, ⟨4, 2, ⟨1⟩, ⟨1⟩, ⟨1⟩, 0⟩, ⟨1, .stop, .idle, .empty, []⟩, true, true⟩,
    .fresh 1 ⟨4, 2, ⟨1⟩, ⟨1⟩, ⟨1⟩, 0⟩, h, ?first, ?second, ⟨?returning, ?home, ?left⟩,
    ⟨?waiting, rfl, ?idle⟩⟩
  case left =>
    exact (h.nothing_left_behind 0 _ (by decide +kernel)).2 (by decide +kernel) (by decide +kernel)
  case idle => exact (h.nothing_left_behind 1 _ (by decide +kernel)).1 (by decide +kernel) rfl
  all_goals decide +kernel

end World

end ElevatorFleet
