import ElevatorFleet.Proofs.Backlog
import ElevatorFleet.Proofs.Reliability
import ElevatorFleet.Proofs.SweepRuns
import ElevatorFleet.Proofs.Trips

/-!
How much a single car still has to do.

* `Car.TurnsAway` says that a car does not take a call, and `World.Called.turnsAway` that no car
  takes a call that its own worker is going to raise again.
* `Car.outlook` measures what a single car still has to do, in this order: the stages of all trips
  and the way home, the errands there are for an empty car, its stops, and the steps to the next of
  them.
-/

namespace ElevatorFleet

/-! ### Calls that are raised again -/

/-- A car turns a call away that has somewhere to go, and is full or goes the other way. -/
def Car.TurnsAway (c : Car) (r : Request) : Prop :=
  c.state.stops ≠ .empty ∧
    (c.settings.capacity ≤ c.state.riders.length ∨ c.state.direction ≠ r.direction)

lemma Car.Sound.canAccept_of_turnsAway {c : Car} {r : Request} (h : c.Sound)
    (haway : c.TurnsAway r) : c.state.canAccept r c.settings.capacity = false := by
  obtain ⟨hne, hfull | hdirection⟩ := haway
  · simp [CarState.canAccept, h.lawful.not_isIdle hne, CarState.isFull, hfull]
  · simp [CarState.canAccept, h.lawful.not_isIdle hne, hdirection]

/-- Nothing done from outside makes a car take a call that it turns away. -/
lemma Car.Grown.turnsAway {c c' : Car} {r : Request} (h : c.Grown c') (haway : c.TurnsAway r) :
    c'.TurnsAway r := by
  obtain ⟨next, rest, hq⟩ := Stops.exists_cons_of_ne_empty haway.1
  refine ⟨Stops.ne_empty_of_mem (h.state.subset next (by simp [hq])), ?_⟩
  rw [h.settings_eq, h.riders_eq, h.state.direction haway.1]
  exact haway.2

namespace World

variable {w w' : World Building} {id : Nat} {c c' : Car} {p p' : Phase} {f' : Fleet}
  {b' : Building} {now : Nat} {pressed : List RiderId}

/-- A car turns away whatever its worker is going to raise again. -/
def TurnsAway (w : World Building) : Prop :=
  ∀ (id : Nat) (c : Car) (floor : Floor) (rs : List Request), w.fleet.cars[id]? = some c →
    w.phase id = .recalling floor rs → ∀ r ∈ rs, c.TurnsAway r

/-- Somebody left behind by a car that is not full goes the other way, and then the car has
somewhere to go. -/
lemma Attends.turnsAway_exchange (h : w.Attends pressed) (hc : w.fleet.cars[id]? = some c)
    (now : Nat) :
    (Exchange.run c.settings.height c.settings.capacity c.state).EndsIn (Building.keeper now)
      w.riders fun out _ => ∀ x, out.1 = .ok x → ∀ r ∈ x.recalls,
        Car.TurnsAway { c with state := out.2 } r := by
  have hcar := h.agrees.sound.car hc
  have hcapacity := hcar.capacity_pos
  have hrecalls := Exchange.run_recalls (h.agrees.known hc) c.settings.height
    c.settings.capacity now
  refine (((h.agrees.exchange hc now).and hrecalls).and_always
    (Exchange.run_always hcar.lawful)).mono ?_
  rintro ⟨result, s'⟩ b' ⟨⟨⟨-, others, y, hy, hserved⟩, hraised⟩, hkeeps⟩ x hx r hr
  obtain rfl := Except.ok.inj (hy.symm.trans hx)
  have haboard := h.carries.aboard hc
  cases hraised y hy r hr with
  | inl hfull =>
      obtain ⟨z, hz⟩ := List.exists_mem_of_length_pos (lt_of_lt_of_le hcapacity hfull)
      obtain ⟨d, hd, -⟩ := hserved.carried hkeeps.grown haboard hz
      exact ⟨Stops.ne_empty_of_mem hd, Or.inl hfull⟩
  | inr hothers =>
      obtain ⟨hdirection, hline⟩ := hothers
      obtain ⟨z, hz⟩ := List.exists_mem_of_ne_nil _ hline
      rw [show s'.floor = c.state.floor from hkeeps.grown.floor_eq] at hz
      exact ⟨hserved.stops_ne_empty hkeeps.grown haboard hcapacity hz, Or.inr hdirection⟩

/-- After a turn a car turns away whatever its worker is going to raise again. -/
lemma Attends.turnsAway_own (h : w.Attends pressed)
    (hturn : Turn (Building.keeper now) id c w.fleet w.riders p p' f' b')
    (hc : w.fleet.cars[id]? = some c) (hc' : f'.cars[id]? = some c')
    (haway : ∀ floor rs, p = .recalling floor rs → ∀ r ∈ rs, c.TurnsAway r) :
    ∀ floor rs, p' = .recalling floor rs → ∀ r ∈ rs, c'.TurnsAway r := by
  intro floor rs hrecalling r hr
  cases hturn with
  | exchange here x hx =>
      obtain ⟨-, rfl⟩ := Phase.recalling.inj hrecalling
      rw [Fleet.cars_setCar_self hc] at hc'
      obtain rfl := Option.some.inj hc'
      exact h.turnsAway_exchange hc now x hx r hr
  | raiseAgain here r' rs' a f' heq =>
      obtain ⟨-, rfl⟩ := Phase.recalling.inj hrecalling
      have hdispatch := h.agrees.sound.dispatch r'
      rw [heq] at hdispatch
      obtain ⟨y, hy, hgrown⟩ := hdispatch.2.exists_before hc'
      obtain rfl := Option.some.inj (hy.symm.trans hc)
      exact hgrown.turnsAway (haway here _ rfl r (List.mem_cons_of_mem r' hr))
  | rest _ hover =>
      subst hrecalling
      simp [Phase.isOver] at hover
  | _ => simp at hrecalling

lemma NextCase.turnsAway (hnext : NextCase w w') (h : w.Attends pressed) (haway : w.TurnsAway) :
    w'.TurnsAway := by
  intro i c' floor rs hc' hrecalling r hr
  cases hnext with
  | outside hgrown _ hphase =>
      obtain ⟨c, hc, hcar⟩ := hgrown.exists_before hc'
      exact hcar.turnsAway (haway i c floor rs hc (hphase i ▸ hrecalling) r hr)
  | turn now expired id c p p' hp hc hturn hphase hothers =>
      by_cases hi : i = id
      · subst hi
        have hbefore : ∀ floor rs, p = .recalling floor rs → ∀ r ∈ rs, c.TurnsAway r :=
          fun floor rs hp' => haway i c floor rs hc ((phase_eq hp).trans hp')
        exact h.turnsAway_own hturn hc hc' hbefore floor rs (hphase ▸ hrecalling) r hr
      · obtain ⟨x, hx, hgrown, -⟩ := hturn.others h.agrees.sound hc hi hc'
        exact hgrown.turnsAway (haway i x floor rs hx (hothers i hi ▸ hrecalling) r hr)

/-- **No car takes a call that its own worker raises again**, whatever comes about. -/
theorem Called.turnsAway (h : Called w pressed) : w.TurnsAway := by
  induction h with
  | fresh settings strategies f hmake =>
      intro id c floor rs _ hrecalling
      simp [phase, unstarted] at hrecalling
  | next w w' pressed hbefore hnext ih =>
      exact (hbefore.attends.next_cases hnext).turnsAway hbefore.attends ih
  | press w pressed x p hbefore _ ih =>
      have hnext := hbefore.attends.next_cases (.press p.start p.goingUp)
      exact hnext.turnsAway hbefore.attends ih

end World

/-! ### What is still to do -/

namespace Phase

/-- The steps of a door cycle that are still to take; an exchange may raise two calls again. -/
def doorSteps : Phase → Nat
  | .opening => 5
  | .exchanging _ => 4
  | .recalling _ rs => rs.length + 1
  | _ => 0

/-- The calls that are still to be raised again. -/
def recallCount : Phase → Nat
  | .recalling _ rs => rs.length
  | _ => 0

end Phase

/-- Away from the doors nothing of a door cycle is left. -/
lemma Phase.of_not_isAtDoors {p : Phase} (h : p.isAtDoors = false) :
    p.doorSteps = 0 ∧ p.recallCount = 0 ∧ p.awaitsExchange = false := by
  cases p <;> first | exact ⟨rfl, rfl, rfl⟩ | simp [isAtDoors] at h

namespace Car

variable {c c' : Car} {p p' : Phase} {pool pool' : Pool} {b b' : Building}

/-- The floor on which the car is going to stand once it has made all its stops. -/
def lastFloor (c : Car) : Floor := c.state.stops.last?.getD c.state.floor

/-- Everybody has arrived, no call is left, and all that the car still does is to go home. -/
def IsSettling (c : Car) (p : Phase) (pool : Pool) (b : Building) : Prop :=
  b.stagesLeft = 0 ∧ pool.size + p.recallCount = 0 ∧ c.lastFloor = c.settings.defaultFloor

instance : Decidable (c.IsSettling p pool b) := by
  unfold IsSettling
  infer_instance

/-- The stages of all trips, each of them counted twice, and the way home. -/
def tripsLeft (c : Car) (p : Phase) (pool : Pool) (b : Building) : Nat :=
  2 * b.stagesLeft + if c.IsSettling p pool b then 0 else 1

/-- The errands of an empty car: its stops, and the calls that are pending or still to be raised
again. An exchange that is still to come may raise one again if there are stops left; without any
the car is going to ask for pending calls. -/
def errandsEmpty (c : Car) (p : Phase) (pool : Pool) : Nat :=
  2 * (c.state.stops.size + pool.size + p.recallCount +
      if p.awaitsExchange = true ∧ c.state.stops ≠ .empty then 1 else 0) +
    if c.state.stops = .empty ∨ p = .backfilling then 1 else 0

/-- The errands of a car. While somebody is aboard there are none, but for asking for pending calls
when the car is about to. -/
def errands (c : Car) (p : Phase) (pool : Pool) : Nat :=
  if c.state.riders = [] then c.errandsEmpty p pool else if p = .backfilling then 1 else 0

/-- What a car still has to do, the most important first. -/
def outlook (c : Car) (p : Phase) (pool : Pool) (b : Building) : ℕ ×ₗ ℕ ×ₗ ℕ ×ₗ ℕ :=
  toLex (c.tripsLeft p pool b, toLex (c.errands p pool,
    toLex (c.state.stops.size, p.doorSteps + c.distance)))

lemma outlook_lt_iff : c'.outlook p' pool' b' < c.outlook p pool b ↔
    c'.tripsLeft p' pool' b' < c.tripsLeft p pool b ∨
      (c'.tripsLeft p' pool' b' = c.tripsLeft p pool b ∧
        (c'.errands p' pool' < c.errands p pool ∨ (c'.errands p' pool' = c.errands p pool ∧
          (c'.state.stops.size < c.state.stops.size ∨ (c'.state.stops.size = c.state.stops.size ∧
            p'.doorSteps + c'.distance < p.doorSteps + c.distance))))) := by
  simp only [outlook, Prod.Lex.toLex_lt_toLex]

/-- With less to do in no respect, there is less to do if there is in one. -/
lemma outlook_lt (htrips : c'.tripsLeft p' pool' b' ≤ c.tripsLeft p pool b)
    (herrands : c'.errands p' pool' ≤ c.errands p pool)
    (hstops : c'.state.stops.size ≤ c.state.stops.size)
    (hless : c'.errands p' pool' < c.errands p pool ∨
      c'.state.stops.size < c.state.stops.size ∨
        p'.doorSteps + c'.distance < p.doorSteps + c.distance) :
    c'.outlook p' pool' b' < c.outlook p pool b := by
  rw [outlook_lt_iff]
  omega

/-- The trips do not get longer as long as nobody moves, no call is raised anew once everybody has
arrived, and the last stop stays the same. -/
lemma tripsLeft_le (hstages : b'.stagesLeft = b.stagesLeft)
    (hcalls : b.stagesLeft = 0 → pool.size + p.recallCount = 0 →
      pool'.size + p'.recallCount = 0)
    (hlast : c'.lastFloor = c.lastFloor) (hsettings : c'.settings = c.settings) :
    c'.tripsLeft p' pool' b' ≤ c.tripsLeft p pool b := by
  have hsettling : c.IsSettling p pool b → c'.IsSettling p' pool' b' := by
    rintro ⟨hdone, hnone, hhome⟩
    exact ⟨hstages.trans hdone, hcalls hdone hnone, by rw [hlast, hsettings, hhome]⟩
  rw [tripsLeft, tripsLeft, hstages]
  by_cases hbefore : c.IsSettling p pool b
  · simp [hbefore, hsettling hbefore]
  · simp only [hbefore, if_false]
    split_ifs <;> omega

lemma tripsLeft_lt_of_stagesLeft (h : b'.stagesLeft < b.stagesLeft) :
    c'.tripsLeft p' pool' b' < c.tripsLeft p pool b := by
  rw [tripsLeft, tripsLeft]
  split_ifs <;> omega

/-- A car that keeps its riders and is not about to ask for pending calls has no more errands if it
has no more of them empty. -/
lemma errands_le (hriders : c'.state.riders = c.state.riders) (hasks : p' ≠ .backfilling)
    (hempty : c.state.riders = [] → c'.errandsEmpty p' pool' ≤ c.errandsEmpty p pool) :
    c'.errands p' pool' ≤ c.errands p pool := by
  rw [errands, errands, hriders]
  by_cases hnobody : c.state.riders = []
  · rw [if_pos hnobody, if_pos hnobody]
    exact hempty hnobody
  · rw [if_neg hnobody, if_neg hasks]
    exact Nat.zero_le _

/-- With more to do in no respect, there is not more to do. -/
lemma outlook_le (htrips : c'.tripsLeft p' pool' b' ≤ c.tripsLeft p pool b)
    (herrands : c'.errands p' pool' ≤ c.errands p pool)
    (hstops : c'.state.stops.size ≤ c.state.stops.size)
    (hsteps : p'.doorSteps + c'.distance ≤ p.doorSteps + c.distance) :
    c'.outlook p' pool' b' ≤ c.outlook p pool b := by
  simp only [outlook, Prod.Lex.toLex_le_toLex]
  omega

/-! ### What is still to do after a turn -/

variable {floor : Floor} {r : Request} {rs recalls : List Request}

/-- A car that passes a floor is nearer to its next stop. -/
lemma Sound.outlook_pass (h : c.Sound) (hmove : c.move = (.ok (.passed floor), c')) :
    c'.outlook .starting pool b < c.outlook .moving pool b := by
  obtain ⟨next, rest, hq, hne, rfl, rfl⟩ := h.of_passed hmove
  have hreach := h.lawful.ahead next (by simp [hq])
  have hnearer := Direction.distance_step hreach hne
  refine outlook_lt (tripsLeft_le rfl (fun _ hcalls => hcalls) ?_ rfl) ?_ le_rfl
    (Or.inr (Or.inr ?_))
  · simp only [lastFloor, Stops.last?, hq, List.getLast?_cons, Option.getD_some]
  · refine errands_le rfl (by simp) fun _ => le_of_eq ?_
    simp [errandsEmpty, Phase.recallCount, Phase.awaitsExchange]
  · simp only [distance, Stops.head?, hq, List.head?_cons, Phase.doorSteps]
    omega

/-- A car that arrives has a stop less. -/
lemma Sound.outlook_arrive (h : c.Sound) (hmove : c.move = (.ok (.arrived floor), c')) :
    c'.outlook .opening pool b < c.outlook .moving pool b := by
  obtain ⟨rest, hq, rfl⟩ := h.of_arrived hmove
  have hne : c.state.stops ≠ .empty := by
    intro hempty
    simp [hempty, Stops.empty] at hq
  have hsize : c.state.stops.size = rest.length + 1 := by simp [Stops.size, hq]
  refine outlook_lt (tripsLeft_le rfl (fun _ hcalls => hcalls) ?_ rfl) ?_ ?_ (Or.inr (Or.inl ?_))
  · cases rest <;> simp [lastFloor, Stops.last?, hq]
  · refine errands_le rfl (by simp) fun _ => ?_
    simp only [errandsEmpty, hsize, hne, Phase.recallCount, Phase.awaitsExchange]
    cases rest with
    | nil => simp [Stops.size, Stops.empty]
    | cons next rest => simp [Stops.size, Stops.empty]
  · simp [Stops.size, hq]
  · simp [Stops.size, hq]

/-- What is still to do depends on where a car stands, where it stops and whom it carries. -/
lemma outlook_congr (hfloor : c'.state.floor = c.state.floor)
    (hstops : c'.state.stops = c.state.stops) (hriders : c'.state.riders = c.state.riders)
    (hsettings : c'.settings = c.settings) (p : Phase) (pool : Pool) (b : Building) :
    c'.outlook p pool b = c.outlook p pool b := by
  have hlast : c'.lastFloor = c.lastFloor := by rw [lastFloor, lastFloor, hfloor, hstops]
  have hdistance : c'.distance = c.distance := by rw [distance, distance, hfloor, hstops]
  have htrips : c'.tripsLeft p pool b = c.tripsLeft p pool b := by
    simp only [tripsLeft, IsSettling, hlast, hsettings]
  have herrands : c'.errands p pool = c.errands p pool := by
    simp only [errands, errandsEmpty, hriders, hstops]
  rw [outlook, outlook, htrips, herrands, hdistance, hstops]

/-- Once its doors are open a car has a step of the door cycle less to do. -/
lemma outlook_openDoors (hopen : c.openDoors = (.ok floor, c')) :
    c'.outlook (.exchanging floor) pool b < c.outlook .opening pool b := by
  rw [openDoors] at hopen
  split_ifs at hopen
  · simp at hopen
  obtain ⟨-, rfl⟩ := Prod.mk.inj hopen
  refine outlook_lt (tripsLeft_le rfl (fun _ hcalls => hcalls) rfl rfl) ?_ le_rfl
    (Or.inr (Or.inr ?_))
  · refine errands_le rfl (by simp) fun _ => le_of_eq ?_
    simp [errandsEmpty, Phase.recallCount, Phase.awaitsExchange]
  · show 4 + c.distance < 5 + c.distance
    omega

/-- After an exchange that has changed nothing a step of the door cycle is done, and not more calls
are to be raised again than stops are left. -/
lemma outlook_exchange (hle : recalls.length ≤ 2)
    (hempty : c.state.riders = [] → recalls.length ≤ 1)
    (hstops : c.state.stops = .empty → recalls = []) (hdone : b.stagesLeft = 0 → recalls = []) :
    c.outlook (.recalling floor recalls) pool b < c.outlook (.exchanging floor) pool b := by
  refine outlook_lt (tripsLeft_le rfl (fun hstages hcalls => ?_) rfl rfl) ?_ le_rfl
    (Or.inr (Or.inr ?_))
  · simpa [Phase.recallCount, hdone hstages] using hcalls
  · refine errands_le rfl (by simp) fun hriders => ?_
    have hone := hempty hriders
    simp only [errandsEmpty, Phase.recallCount, Phase.awaitsExchange]
    by_cases hstop : c.state.stops = .empty
    · simp [hstop, hstops hstop]
    · simp [hstop]
      omega
  · simp only [Phase.doorSteps]
    omega

/-- A call that is raised again is pending instead, at most. -/
lemma outlook_raiseAgain (hpool : pool'.size ≤ pool.size + 1) :
    c.outlook (.recalling floor rs) pool' b < c.outlook (.recalling floor (r :: rs)) pool b := by
  refine outlook_lt (tripsLeft_le rfl (fun _ hcalls => ?_) rfl rfl) ?_ le_rfl
    (Or.inr (Or.inr ?_))
  · simp [Phase.recallCount] at hcalls
  · refine errands_le rfl (by simp) fun _ => ?_
    simp [errandsEmpty, Phase.recallCount, Phase.awaitsExchange]
    omega
  · simp [Phase.doorSteps]

lemma floor_closeDoors : c.closeDoors.state.floor = c.state.floor := by
  rw [closeDoors]
  split_ifs with hopen hempty
  · rfl
  · simp [CarState.settle, hempty]
  · rfl

/-- Once its doors are closed a car has done with the door cycle. -/
lemma outlook_closeDoors :
    c.closeDoors.outlook .starting pool b < c.outlook (.recalling floor []) pool b := by
  have hsame : c.closeDoors.outlook .starting pool b = c.outlook .starting pool b :=
    outlook_congr floor_closeDoors c.stops_closeDoors c.riders_closeDoors c.settings_closeDoors
      .starting pool b
  rw [hsame]
  refine outlook_lt (tripsLeft_le rfl (fun _ hcalls => hcalls) rfl rfl) ?_ le_rfl
    (Or.inr (Or.inr ?_))
  · refine errands_le rfl (by simp) fun _ => le_of_eq ?_
    simp [errandsEmpty, Phase.recallCount, Phase.awaitsExchange]
  · simp [Phase.doorSteps]

/-- A car that takes over pending calls has stops for them, but not more than it has taken. -/
lemma outlook_takeOver (hloads : Backfill.Loads c pool c' pool') (hgrown : c.Grown c')
    (hne : c'.state.stops ≠ .empty) (hpool : pool.size ≠ 0) :
    c'.outlook .rechecking pool' b < c.outlook .backfilling pool b := by
  have htrips : c'.tripsLeft .rechecking pool' b ≤ c.tripsLeft .backfilling pool b := by
    have hnot : ¬ c.IsSettling .backfilling pool b := fun hsettling =>
      hpool (Nat.eq_zero_of_add_eq_zero_right hsettling.2.1)
    simp only [tripsLeft, hnot, if_false]
    split_ifs <;> omega
  have herrands : c'.errands .rechecking pool' < c.errands .backfilling pool := by
    have hsize := hloads.size
    rw [errands, errands, hgrown.riders_eq]
    by_cases hriders : c.state.riders = []
    · simp [errandsEmpty, hriders, hne, Phase.recallCount, Phase.awaitsExchange]
      omega
    · simp [hriders]
  rw [outlook_lt_iff]
  omega

/-- A car that sets off for home has one stop, there. -/
lemma Sound.of_goHome (h : c.Sound) (hhome : c.returnToDefault = (.ok true, c')) :
    c.state.activity = .idle ∧ c.state.floor ≠ c.settings.defaultFloor ∧
      c'.state.stops.floors = [c.settings.defaultFloor] ∧ c'.settings = c.settings ∧
      c'.running = c.running ∧ c'.state.riders = c.state.riders := by
  cases hastray : c.isAstray with
  | false =>
      rw [Car.returnToDefault, if_pos (by simp [hastray])] at hhome
      simp at hhome
  | true =>
      have hidle : c.state.activity = .idle := by simp_all [isAstray]
      have haway : c.state.floor ≠ c.settings.defaultFloor := by simp_all [isAstray]
      have hempty : c.state.stops = .empty := h.lawful.idle hidle
      have hadd := h.lawful.addStop_of_ahead h.defaultFloor_lt (by simp [hempty]) (Or.inl hempty)
      rw [Car.returnToDefault, if_neg (by simp [hastray]), hadd] at hhome
      obtain ⟨-, rfl⟩ := Prod.mk.inj hhome
      refine ⟨hidle, haway, ?_, rfl, rfl, rfl⟩
      have hnew : c.settings.defaultFloor ∉ c.state.stops.floors := by simp [hempty]
      have hperm := Stops.floors_insert hnew
        (c.state.courseFor c.settings.defaultFloor c.settings.height)
      rw [show c.state.stops.floors = [] by rw [hempty]; rfl] at hperm
      exact List.perm_singleton.mp hperm

/-- A car that does not set off for home has not changed. -/
lemma Sound.of_stays (h : c.Sound) (hhome : c.returnToDefault = (.ok false, c')) : c' = c := by
  cases h.returnToDefault_cases with
  | stays _ heq => exact (Prod.mk.inj (hhome.symm.trans heq)).2
  | leaves _ _ _ _ _ _ heq => simp [heq] at hhome

/-- A car that sets off for home once everybody has arrived, with no call pending, has only the way
home left. -/
lemma Sound.outlook_goHome (h : c.Sound) (hhome : c.returnToDefault = (.ok true, c'))
    (hdone : b.stagesLeft = 0) (hpool : pool = .empty) :
    c'.outlook .starting pool b < c.outlook .returning pool b := by
  obtain ⟨hidle, haway, hstops, hsettings, -, -⟩ := h.of_goHome hhome
  have hempty : c.state.stops = .empty := h.lawful.idle hidle
  have hbefore : ¬ c.IsSettling .returning pool b := by
    rintro ⟨-, -, hlast⟩
    simp [lastFloor, hempty, Stops.last?, Stops.empty] at hlast
    exact haway hlast
  have hafter : c'.IsSettling .starting pool b := by
    refine ⟨hdone, by simp [hpool, Pool.size, Pool.empty, Phase.recallCount], ?_⟩
    simp [lastFloor, hstops, Stops.last?, hsettings]
  rw [outlook_lt_iff]
  refine Or.inl ?_
  simp [tripsLeft, hbefore, hafter]

/-- Going from phase to phase away from the doors leaves no more to do. A car that is going to ask
for pending calls is empty and has no stops. -/
lemma outlook_quiet (hp : p.isAtDoors = false) (hp' : p'.isAtDoors = false)
    (hseek : p' = .backfilling → c.state.stops = .empty ∧ c.state.riders = []) :
    c.outlook p' pool b ≤ c.outlook p pool b := by
  obtain ⟨hsteps, hcount, hawaits⟩ := Phase.of_not_isAtDoors hp
  obtain ⟨hsteps', hcount', hawaits'⟩ := Phase.of_not_isAtDoors hp'
  refine outlook_le (tripsLeft_le rfl (fun _ hcalls => ?_) rfl rfl) ?_ le_rfl ?_
  · rw [hcount']
    omega
  · by_cases hasks : p' = .backfilling
    · obtain ⟨hempty, hriders⟩ := hseek hasks
      simp [errands, errandsEmpty, hempty, hriders, hcount, hcount', hawaits, hawaits']
    · refine errands_le rfl hasks fun _ => ?_
      simp only [errandsEmpty, hcount, hcount', hawaits, hawaits', hasks]
      by_cases hempty : c.state.stops = .empty
      · simp [hempty]
      · simp [hempty]
  · rw [hsteps, hsteps']

end Car

end ElevatorFleet
