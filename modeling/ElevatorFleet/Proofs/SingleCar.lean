import ElevatorFleet.Proofs.Outlook

/-!
One turn of a fleet with a single car.

* `World.Works` says that a worker is about to do something that counts.
* `World.Alone` is what holds of a single car that is at work while everybody who waits has pressed
  their button.
* `World.EffortCase` is what a turn of its worker comes to, and `World.Alone.effort_cases` says that
  every turn comes to that: either there is less to do afterwards, or nothing that counts has been
  done and nothing has changed.
-/

namespace ElevatorFleet

/-- There is nothing to do for the car: it is idle, nothing is queued and no call is pending. -/
def Car.IsAtRest (c : Car) (pool : Pool) : Prop :=
  c.state.activity = .idle ∧ c.state.stops = .empty ∧ pool = .empty

/-- How many turns it takes a worker at most until it does something that counts, if there is
something to do. -/
def Phase.turnsToAct (c : Car) : Phase → Nat
  | .looking => 1
  | .starting => 2
  | .rechecking | .returning | .waiting => 3
  | .idling => 4
  | .backfilling => if c.state.stops = .empty then 0 else 5
  | .moving | .opening | .exchanging _ | .recalling _ _ | .halted _ | .finished => 0

namespace World

variable {w w' : World Building} {c c' : Car} {p p' : Phase} {f' : Fleet} {b' : Building}
  {now : Nat} {expired : Bool} {pressed : List RiderId} {id : Nat}

/-! ### A fleet with one car -/

/-- What the worker of the car `c` is about to do in a phase counts: it moves the car, takes a step
of a door cycle, takes over pending calls, or sends the car home from elsewhere. -/
def Works (w : World Building) (id : Nat) (c : Car) : Phase → Prop
  | .moving | .opening | .exchanging _ | .recalling _ _ => True
  | .backfilling => (w.backfill id c).1 = .ok true
  | .returning => (w.returnToDefault id c).1 = .ok true
  | .starting | .looking | .rechecking | .idling | .waiting | .halted _ | .finished => False

/-- A car is at work, with everybody who waits attended to. -/
structure Alone (w : World Building) (pressed : List RiderId) (c : Car) (p : Phase) : Prop where
  attends : w.Attends pressed
  away : w.TurnsAway
  called : ∀ floor, ∀ x ∈ w.riders.lineAt floor, x ∈ pressed
  cars : w.fleet.cars = [c]
  worker : w.workers[0]? = some p
  running : c.running = true
  going : p.isOver = false

lemma Alone.car (h : w.Alone pressed c p) : w.fleet.cars[0]? = some c := by simp [h.cars]

lemma Alone.sound (h : w.Alone pressed c p) : c.Sound := h.attends.agrees.sound.car h.car

lemma Alone.fits (h : w.Alone pressed c p) : p.Fits w.fleet.settings.height w.fleet.pool c := by
  have hfits := h.attends.orderly.fits 0 c h.car
  rwa [phase_eq h.worker] at hfits

/-- With nothing queued, and no exchange to come, nobody is aboard. -/
lemma Alone.riders_eq_nil (h : w.Alone pressed c p) (hempty : c.state.stops = .empty)
    (hshut : p.awaitsExchange = false) : c.state.riders = [] := by
  refine List.eq_nil_iff_forall_not_mem.mpr fun x hx => ?_
  obtain ⟨d, -, hthere⟩ := h.attends.carries 0 c h.car x hx
  rw [phase_eq h.worker, hshut, hempty] at hthere
  simp [Stops.empty] at hthere

/-- Once the car is idle and no call is pending, everybody has arrived. -/
lemma Alone.stagesLeft_eq_zero (h : w.Alone pressed c p) (hidle : c.state.activity = .idle)
    (hpool : w.fleet.pool = .empty) : w.riders.stagesLeft = 0 := by
  have hagrees := h.attends.agrees
  have hempty : c.state.stops = .empty := h.sound.lawful.idle hidle
  have hshut : p.awaitsExchange = false := by
    by_contra hawaits
    have hopen := h.fits.opened (Phase.isAtDoors_of_awaitsExchange (by simpa using hawaits))
    simp [hidle] at hopen
  have hidles : ∀ x ∈ w.fleet.cars, x.state.activity = .idle := by simp [h.cars, hidle]
  rw [Building.stagesLeft_eq_zero_iff, Building.allArrived, List.all_eq_true]
  intro q hq
  obtain ⟨x, hx⟩ := List.mem_iff_getElem?.mp hq
  obtain ⟨place, hplace⟩ := hagrees.exists_place (List.getElem?_eq_some_iff.mp hx).1
  obtain ⟨q', hq', hsuits⟩ := hagrees.suits hplace
  obtain rfl : q = q' := Option.some.inj (hx.symm.trans hq')
  cases place with
  | line floor =>
      -- whoever still waits has pressed, and would be covered
      have hstart : q.start = floor := hsuits.1
      have hcovered := h.attends.covered x (h.called floor x hplace) q hx (hstart ▸ hplace)
      exact absurd hcovered (h.attends.not_covered hidles hpool)
  | car id =>
      obtain ⟨y, hy, hxy⟩ := Fleet.mem_listAt_car.mp hplace
      obtain rfl : y = c := by simpa [h.cars] using List.mem_of_getElem? hy
      simp [h.riders_eq_nil hempty hshut] at hxy
  | hall floor => exact hsuits.2.2

/-! ### One turn -/

/-- Nobody joins a line in a turn. -/
lemma Turn.lines (h : Turn (Building.keeper now) id c w.fleet w.riders p p' f' b')
    (hagrees : w.fleet.Agrees w.riders) (hc : w.fleet.cars[id]? = some c) (floor : Floor) :
    b'.lineAt floor ⊆ w.riders.lineAt floor := by
  have hlines : (Exchange.run c.settings.height c.settings.capacity c.state).EndsIn
      (Building.keeper now) w.riders fun _ b => b.lineAt floor ⊆ w.riders.lineAt floor :=
    Exchange.run_keeps (P := fun b => b.lineAt floor ⊆ w.riders.lineAt floor)
      (hagrees.known hc) (fun _ _ _ hb => hb)
      (fun b here x hb y hy => hb (Building.mem_lineAt_toCar.mp hy).1) _ _ (List.Subset.refl _)
  cases h with
  | exchange | exchangeFailed => exact hlines
  | _ => exact List.Subset.refl _

/-- What a turn of the worker of a single car comes to: there is less to do afterwards, or nothing
that counts has been done and nothing has changed but for a token. Then either there is nothing to
do, or the worker is nearer to finding out what there is. -/
inductive EffortCase (w : World Building) (c : Car) (p : Phase) (f' : Fleet) (b' : Building)
    (c' : Car) (p' : Phase) : Prop where
  | less (hless : c'.outlook p' f'.pool b' < c.outlook p w.fleet.pool w.riders)
  | idles (hidles : ¬ w.Works 0 c p) (hstate : c'.state = c.state) (hpool : f'.pool = w.fleet.pool)
      (hle : c'.outlook p' f'.pool b' ≤ c.outlook p w.fleet.pool w.riders)
      (hnearer : c.IsAtRest w.fleet.pool ∨ p'.turnsToAct c' < p.turnsToAct c)

/-- A turn away from the doors that does nothing that counts. -/
lemma EffortCase.of_quiet (hidles : ¬ w.Works 0 c p) (hp : p.isAtDoors = false)
    (hp' : p'.isAtDoors = false) (hstate : c'.state = c.state)
    (hsettings : c'.settings = c.settings) (hpool : f'.pool = w.fleet.pool)
    (hseek : p' = .backfilling → c.state.stops = .empty ∧ c.state.riders = [])
    (hnearer : c.IsAtRest w.fleet.pool ∨ p'.turnsToAct c' < p.turnsToAct c) :
    EffortCase w c p f' w.riders c' p' := by
  refine .idles hidles hstate hpool ?_ hnearer
  have hsame := Car.outlook_congr (congrArg CarState.floor hstate) (congrArg CarState.stops hstate)
    (congrArg CarState.riders hstate) hsettings p' w.fleet.pool w.riders
  rw [hpool, hsame]
  exact Car.outlook_quiet hp hp' hseek

/-- After an exchange of a single car there is less to do: somebody has got further, or a step of
the door cycle is done. -/
lemma Alone.outlook_exchange {floor : Floor} (h : w.Alone pressed c (.exchanging floor))
    (now : Nat) :
    (Exchange.run c.settings.height c.settings.capacity c.state).EndsIn (Building.keeper now)
      w.riders fun out b' => ∀ x, out.1 = .ok x →
        Car.outlook { c with state := out.2 } (.recalling floor x.recalls) w.fleet.pool b' <
          c.outlook (.exchanging floor) w.fleet.pool w.riders := by
  have hagrees := h.attends.agrees
  obtain ⟨others, hsplit, -⟩ := Fleet.exists_others h.car
  have hledger := hagrees.ledger.perm hsplit
  have hheight : w.riders.height = c.settings.height :=
    hagrees.height.trans (hagrees.sound.height c (List.mem_of_getElem? h.car)).symm
  have hcapacity := h.sound.capacity_pos
  have hstages := Exchange.run_stagesLeft h.sound.lawful.toOnCourse hledger hheight
    c.settings.capacity now
  have hrecalls := Exchange.run_recalls (hagrees.known h.car) c.settings.height
    c.settings.capacity now
  have haway := h.attends.turnsAway_exchange h.car now
  refine ((hstages.and hrecalls).and haway).mono ?_
  rintro ⟨result, s'⟩ b' ⟨⟨hfewer | ⟨rfl, hsame, hle⟩, hraised⟩, hturned⟩ x hx
  · exact Car.outlook_lt_iff.mpr (Or.inl (Car.tripsLeft_lt_of_stagesLeft hfewer))
  obtain rfl : s' = c.state := hsame
  obtain ⟨htwo, hone⟩ := hle x hx
  refine Car.outlook_exchange htwo (fun hriders => hone ?_) (fun hempty => ?_) (fun hdone => ?_)
  · have hnobody : c.state.riders = [] := hriders
    rw [hnobody]
    exact hcapacity
  · -- a call is raised again only by a car that has somewhere to go
    refine List.eq_nil_iff_forall_not_mem.mpr fun r hr => ?_
    exact (hturned x hx r hr).1 hempty
  · -- once everybody has arrived nobody is aboard, and nobody is in line
    refine List.eq_nil_iff_forall_not_mem.mpr fun r hr => ?_
    obtain ⟨hriders, -⟩ := List.append_eq_nil_iff.mp (hledger.aboard_of_stagesLeft hdone)
    cases hraised x hx r hr with
    | inl hfull =>
        have hnobody : c.state.riders.length = 0 := by rw [hriders, List.length_nil]
        dsimp only at hfull
        omega
    | inr hwaiting => exact hwaiting.2 (hledger.lineAt_of_stagesLeft hdone _)

/-- The only car of a fleet is the one that is set. -/
lemma Alone.cars_setCar (h : w.Alone pressed c p) (c' : Car) :
    (w.fleet.setCar 0 c').cars = [c'] := by
  rw [Fleet.setCar, h.cars]
  rfl

/-- A call that the only car turns away changes nothing about the car. -/
lemma Alone.dispatch_of_turnsAway {r : Request} (h : w.Alone pressed c p) (haway : c.TurnsAway r) :
    (w.fleet.dispatch r).2.cars = [c] ∧
      (w.fleet.dispatch r).2.pool.size ≤ w.fleet.pool.size + 1 := by
  have hdeclined : ∀ x ∈ w.fleet.cars, x.state.canAccept r x.settings.capacity = false := by
    rw [h.cars]
    exact List.forall_mem_singleton.mpr (h.sound.canAccept_of_turnsAway haway)
  obtain ⟨hcars, hpool⟩ := Fleet.dispatch_of_declined hdeclined
  exact ⟨hcars.trans h.cars, hpool⟩

/-- A take-over that takes pending calls leaves less to do. -/
lemma Alone.outlook_takeOver (h : w.Alone pressed c .backfilling)
    (htake : w.fleet.backfill 0 c.state.floor = (.ok true, f')) :
    ∃ c', f'.cars = [c'] ∧ c'.running = c.running ∧
      c'.outlook .rechecking f'.pool w.riders < c.outlook .backfilling w.fleet.pool w.riders := by
  have hsound := h.attends.agrees.sound
  obtain ⟨c', hcars, hloads⟩ := hsound.backfill_loads h.car c.state.floor
  obtain ⟨any, f'', heq, -, hgrown, hsome, -⟩ := hsound.backfill_spec h.car c.state.floor
  obtain ⟨hany, rfl⟩ := Prod.mk.inj (heq.symm.trans htake)
  rw [heq] at hcars hloads
  have hcars' : f''.cars = [c'] := by
    rw [hcars, h.cars]
    rfl
  have hc' : f''.cars[0]? = some c' := by simp [hcars']
  obtain ⟨y, hy, hne⟩ := hsome (Except.ok.inj hany)
  obtain rfl : y = c' := Option.some.inj (hy.symm.trans hc')
  obtain ⟨x, hx, hcar⟩ := hgrown.exists_before hc'
  obtain rfl : x = c := Option.some.inj (hx.symm.trans h.car)
  refine ⟨y, hcars', hloads.running, Car.outlook_takeOver hloads hcar hne fun hnone => ?_⟩
  -- with no call pending none is taken
  have hempty : w.fleet.pool.isEmpty = true := by
    rw [Pool.isEmpty, List.isEmpty_iff_length_eq_zero]
    exact hnone
  rw [Fleet.backfill, h.car] at htake
  simp [Backfill.run, hempty] at htake

/-- With nothing queued and the doors shut the car is idle. -/
lemma Alone.idle_of_empty (h : w.Alone pressed c p) (hp : p.isAtDoors = false)
    (hempty : c.state.stops = .empty) : c.state.activity = .idle := by
  cases hactivity : c.state.activity with
  | idle => rfl
  | moving => exact absurd hempty (h.sound.lawful.moving hactivity)
  | doorOpen => exact absurd hactivity (h.fits.shut hp h.going)

/-- A worker that finds no pending call has nothing to do, or is on its way to look at the queue. -/
lemma Alone.nearer_of_findNone (h : w.Alone pressed c .backfilling)
    (hnone : w.fleet.backfill 0 c.state.floor = (.ok false, w.fleet)) :
    c.IsAtRest w.fleet.pool ∨ Phase.idling.turnsToAct c < Phase.backfilling.turnsToAct c := by
  by_cases hempty : c.state.stops = .empty
  · have hidle := h.idle_of_empty rfl hempty
    obtain ⟨any, f'', heq, -, -, -, hdrained⟩ :=
      h.attends.agrees.sound.backfill_spec h.car c.state.floor
    obtain ⟨hany, -⟩ := Prod.mk.inj (heq.symm.trans hnone)
    exact Or.inl ⟨hidle, hempty, (hdrained (Except.ok.inj hany)).2 hidle⟩
  · exact Or.inr (by simp [Phase.turnsToAct, hempty])

/-- A car that is sent home has less to do afterwards, and any other has not changed. -/
lemma Alone.effort_goHome {any : Bool} (h : w.Alone pressed c .returning)
    (hhome : c.returnToDefault = (.ok any, c')) :
    c'.running = true ∧
      EffortCase w c .returning (w.fleet.setCar 0 c') w.riders c' .starting := by
  cases any with
  | true =>
      obtain ⟨hidle, -, -, -, hkept, -⟩ := h.sound.of_goHome hhome
      have hpool := h.fits.drained rfl hidle
      have hdone := h.stagesLeft_eq_zero hidle hpool
      exact ⟨hkept.trans h.running, .less (h.sound.outlook_goHome hhome hdone hpool)⟩
  | false =>
      obtain rfl : c' = c := h.sound.of_stays hhome
      have hidles : ¬ w.Works 0 c' .returning := by
        simp [Works, returnToDefault, Fleet.onCar_eq h.car, hhome]
      exact ⟨h.running, .of_quiet hidles rfl rfl rfl rfl rfl (by simp)
        (Or.inr (by simp [Phase.turnsToAct]))⟩

/-- **Every turn** of the worker of a single car leaves less to do, or does nothing that counts. -/
theorem Alone.effort_cases (h : w.Alone pressed c p)
    (hturn : Turn (Building.keeper now) 0 c w.fleet w.riders p p' f' b') :
    ∃ c', f'.cars = [c'] ∧ c'.running = true ∧ EffortCase w c p f' b' c' p' := by
  have hsound := h.sound
  have hrunning := h.running
  cases hturn with
  | pass floor c' hmove =>
      obtain ⟨_, _, -, -, -, hc'⟩ := hsound.of_passed hmove
      exact ⟨c', h.cars_setCar c', by rw [hc', hrunning], .less (hsound.outlook_pass hmove)⟩
  | arrive floor c' hmove =>
      obtain ⟨_, -, hc'⟩ := hsound.of_arrived hmove
      exact ⟨c', h.cars_setCar c', by rw [hc', hrunning], .less (hsound.outlook_arrive hmove)⟩
  | openDoors c' hopen =>
      have hkept : c.openDoors.2.running = c.running := Car.running_openDoors
      rw [hopen] at hkept
      exact ⟨c', h.cars_setCar c', hkept.trans hrunning, .less (Car.outlook_openDoors hopen)⟩
  | exchange floor x hx =>
      exact ⟨_, h.cars_setCar _, hrunning, .less (h.outlook_exchange now x hx)⟩
  | exchangeFailed floor fault hfault =>
      exact absurd hfault (h.attends.agrees.exchange_ne_error h.car now fault)
  | raiseAgain floor r rs a f' heq =>
      have haway := h.away 0 c floor _ h.car (phase_eq h.worker) r List.mem_cons_self
      obtain ⟨hcars, hpool⟩ := h.dispatch_of_turnsAway haway
      rw [heq] at hcars hpool
      exact ⟨c, hcars, hrunning, .less (Car.outlook_raiseAgain hpool)⟩
  | closeDoors floor =>
      exact ⟨_, h.cars_setCar _, Car.running_closeDoors.trans hrunning,
        .less Car.outlook_closeDoors⟩
  | takeOver f' htake =>
      obtain ⟨c', hcars, hkept, hless⟩ := h.outlook_takeOver htake
      exact ⟨c', hcars, hkept.trans hrunning, .less hless⟩
  | goHome c' any hhome => exact ⟨c', h.cars_setCar c', h.effort_goHome hhome⟩
  | finish hstopped => exact absurd (hrunning.symm.trans hstopped) (by decide)
  | seek hempty =>
      exact ⟨c, h.cars, hrunning, .of_quiet not_false rfl rfl rfl rfl rfl
        (fun _ => ⟨hempty, h.riders_eq_nil hempty rfl⟩)
        (Or.inr (by simp [Phase.turnsToAct, hempty]))⟩
  | findNone heq =>
      exact ⟨c, h.cars, hrunning, .of_quiet (by simp [Works, backfill, heq]) rfl rfl rfl rfl rfl
        (by simp) (h.nearer_of_findNone heq)⟩
  | begin | depart | recheck | expire | park =>
      exact ⟨c, h.cars, hrunning, .of_quiet not_false rfl rfl rfl rfl rfl (by simp)
        (Or.inr (by simp [Phase.turnsToAct]))⟩
  | wakeUp =>
      exact ⟨_, h.cars_setCar _, hrunning, .of_quiet not_false rfl rfl rfl rfl rfl (by simp)
        (Or.inr (by simp [Phase.turnsToAct]))⟩
  | sleepOn htoken =>
      obtain ⟨hidle, hempty, -, hpool⟩ := h.fits.of_waiting hsound htoken
      exact ⟨_, h.cars_setCar _, hrunning, .of_quiet not_false rfl rfl rfl rfl rfl (by simp)
        (Or.inl ⟨hidle, hempty, hpool⟩)⟩
  | rest _ hover => exact absurd (h.going.symm.trans hover) (by decide)

end World

end ElevatorFleet
