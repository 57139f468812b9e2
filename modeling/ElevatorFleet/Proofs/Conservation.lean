import ElevatorFleet.Proofs.Dispatching
import ElevatorFleet.Proofs.Exchanges
import ElevatorFleet.Worker

/-!
Nobody gets lost, and nobody is in two places.

* `Fleet.Happens` is anything that can happen to a fleet and the building it runs in, in one step
  and in any order, whether the workers are at work or not; `Fleet.Attained` is what can come about.
* `Fleet.Agrees` says that the fleet is in order and that its riders are on the books of the
  building; `Fleet.Agrees.happens` keeps it through a step, and `Fleet.Attained.agrees` through a
  run.
* `Place` is where somebody can be, and `Fleet.listAt` who is there.
* `Fleet.Attained.riders_conserved`: everybody who has ever been let in is in exactly one place,
  once, and it suits them.
-/

open scoped List

namespace ElevatorFleet

namespace Fleet

variable {f f' : Fleet} {b b' : Building} {id : Nat} {c c' : Car} {x : RiderId} {p : Person}

/-! ### The riders of a fleet -/

/-- Everybody aboard, car by car. -/
def occupants (f : Fleet) : List RiderId := (f.cars.map (·.state.riders)).flatten

/-- Nothing done from outside moves a rider. -/
lemma Grown.occupants_eq (h : f.Grown f') : f'.occupants = f.occupants := by
  have hriders : f'.cars.map (·.state.riders) = f.cars.map (·.state.riders) := by
    have hsame := List.forall₂_map_left_iff.mpr (List.forall₂_map_right_iff.mpr
      (h.cars.imp fun c c' hgrown => hgrown.riders_eq.symm))
    rw [List.forall₂_eq_eq_eq] at hsame
    exact hsame.symm
  rw [occupants, occupants, hriders]

/-- The riders of one car, and all the others. -/
lemma exists_others (hc : f.cars[id]? = some c) :
    ∃ others, f.occupants ~ c.state.riders ++ others ∧
      ∀ c', (f.setCar id c').occupants ~ c'.state.riders ++ others := by
  have hriders : (f.cars.map (·.state.riders))[id]? = some c.state.riders := by simp [hc]
  obtain ⟨others, hsplit, hmodify⟩ := flatten_modify_perm hriders
  refine ⟨others, hsplit, fun c' => ?_⟩
  have hset := hmodify fun _ => c'.state.riders
  rw [← List.set_eq_modify, ← List.map_set] at hset
  exact hset

lemma occupants_setCar (hc : f.cars[id]? = some c) (hriders : c'.state.riders = c.state.riders) :
    (f.setCar id c').occupants = f.occupants := by
  obtain ⟨hid, rfl⟩ := List.getElem?_eq_some_iff.mp hc
  simp only [occupants, setCar, List.map_set, hriders]
  congr 1
  refine List.ext_getElem (by simp) fun i hi hi' => ?_
  simp only [List.getElem_set, List.getElem_map]
  split_ifs with heq
  · subst heq
    rfl
  · rfl

/-! ### What can happen -/

/-- Anything that can happen to a fleet and the building it runs in, in one step. -/
inductive Happens (f : Fleet) (b : Building) : Fleet → Building → Prop where
  | enter (start destination : Floor) (now : Nat) :
      Happens f b f (b.enter start destination now).2
  | press (floor : Floor) (goingUp : Bool) : Happens f b (f.press floor goingUp).2 b
  | dispatch (r : Request) : Happens f b (f.dispatch r).2 b
  | backfill (id : Nat) (floor : Floor) : Happens f b (f.backfill id floor).2 b
  | move (id : Nat) : Happens f b (f.onCar id Car.move).2 b
  | openDoors (id : Nat) : Happens f b (f.onCar id Car.openDoors).2 b
  | exchange (id : Nat) (floor : Floor) (now : Nat) :
      Happens f b ((World.unstarted f b).exchange (Building.keeper now) id floor).2.fleet
        ((World.unstarted f b).exchange (Building.keeper now) id floor).2.riders
  | closeDoors (id : Nat) : Happens f b (f.onCar id fun c => (.ok (), c.closeDoors)).2 b
  | returnToDefault (id : Nat) : Happens f b (f.onCar id Car.returnToDefault).2 b
  | takeToken (id : Nat) : Happens f b (f.onCar id fun c => (.ok c.takeToken.1, c.takeToken.2)).2 b
  | stop (id : Nat) : Happens f b (f.stop id).2 b
  | stopAll : Happens f b f.stopAll b
  | tick (clock : Nat) : Happens f b { f with clock } b

/-- What can come about from a fresh fleet and a building without people, of the same height. -/
inductive Attained : Fleet → Building → Prop where
  | fresh (settings : FleetSettings) (strategies : Strategies) (f : Fleet)
      (h : make settings strategies = .ok f) : Attained f (.vacant f.settings.height)
  | next (f f' : Fleet) (b b' : Building) (h : Attained f b) (hnext : Happens f b f' b') :
      Attained f' b'

/-! ### What stays true -/

/-- The fleet is in order, and its riders are on the books of a building of the same height. -/
structure Agrees (f : Fleet) (b : Building) : Prop where
  sound : f.Sound
  height : b.height = f.settings.height
  ledger : b.Ledger f.occupants

lemma Agrees.grown (h : f.Agrees b) (hsound : f'.Sound) (hgrown : f.Grown f') : f'.Agrees b :=
  ⟨hsound, hgrown.settings_eq ▸ h.height, hgrown.occupants_eq ▸ h.ledger⟩

/-- Nothing done with one car that keeps its riders touches the books. -/
lemma Agrees.onCar {α : Type} (h : f.Agrees b) (id : Nat) (operation : Car → Attempt Car α)
    (hoperation : ∀ c : Car, c.Sound → (operation c).2.Sound ∧
      (operation c).2.settings = c.settings ∧ (operation c).2.state.riders = c.state.riders) :
    (f.onCar id operation).2.Agrees b := by
  cases hc : f.cars[id]? with
  | none => simpa [Fleet.onCar, hc] using h
  | some c =>
      obtain ⟨hsound, hsettings, hriders⟩ := hoperation c (h.sound.car hc)
      rw [onCar_eq hc]
      refine ⟨h.sound.setCar hc hsound hsettings, h.height, ?_⟩
      rw [occupants_setCar hc hriders]
      exact h.ledger

/-- An exchange succeeds and moves riders from list to list. -/
lemma Agrees.exchange (h : f.Agrees b) (hc : f.cars[id]? = some c) (now : Nat) :
    (Exchange.run c.settings.height c.settings.capacity c.state).EndsIn (Building.keeper now) b
      fun out b' => (f.setCar id { c with state := out.2 }).Agrees b' ∧
        ∃ others x, out.1 = .ok x ∧
          Exchange.Served c.settings.capacity c.state b others x.recalls out.2 b' := by
  have hcar := h.sound.car hc
  obtain ⟨others, hsplit, hset⟩ := exists_others hc
  have hheight : b.height = c.settings.height :=
    h.height.trans (h.sound.height c (List.mem_of_getElem? hc)).symm
  refine ((Exchange.run_endsIn hcar.lawful hheight (h.ledger.perm hsplit) now).and_always
    (Exchange.run_always hcar.lawful)).mono ?_
  rintro out b' ⟨⟨x, hx, hserved⟩, hkeeps⟩
  refine ⟨⟨?_, hserved.later.height_eq.trans h.height, ?_⟩, others, x, hx, hserved⟩
  · exact h.sound.setCar hc (hcar.withState hkeeps.lawful) rfl
  · exact hserved.ledger.perm (hset { c with state := out.2 }).symm

/-- With the riders on the books no exchange fails. -/
lemma Agrees.exchange_ne_error (h : f.Agrees b) (hc : f.cars[id]? = some c) (now : Nat)
    (fault : Fault) :
    ((Exchange.run c.settings.height c.settings.capacity c.state).hold
      (Building.keeper now) b).result.1 ≠ .error fault := by
  intro hfault
  obtain ⟨-, others, x, hx, -⟩ := h.exchange hc now
  exact absurd (hfault.symm.trans hx) (by simp)

/-- What is left of the fleet and of the riders after an exchange. -/
lemma exchange_eq (hc : f.cars[id]? = some c) (k : Keeper Building) (floor : Floor) :
    ((World.unstarted f b).exchange k id floor).2.fleet = f.setCar id { c with state :=
      ((Exchange.run c.settings.height c.settings.capacity c.state).hold k b).result.2 } ∧
    ((World.unstarted f b).exchange k id floor).2.riders =
      ((Exchange.run c.settings.height c.settings.capacity c.state).hold k b).keeper := by
  simp only [World.exchange, World.unstarted, hc]
  split
  · exact ⟨rfl, rfl⟩
  · simp only [World.noteExchange]
    split_ifs <;> exact ⟨rfl, rfl⟩

/-- **Whatever happens** keeps the fleet in order and its riders on the books. -/
theorem Agrees.happens (h : f.Agrees b) (hnext : Happens f b f' b') : f'.Agrees b' := by
  cases hnext with
  | enter start destination now =>
      obtain ⟨hledger, hlater⟩ := h.ledger.entered start destination now
      exact ⟨h.sound, hlater.height_eq.trans h.height, hledger⟩
  | press floor goingUp =>
      obtain ⟨hsound, hgrown⟩ := h.sound.press floor goingUp
      exact h.grown hsound hgrown
  | dispatch r =>
      obtain ⟨hsound, hgrown⟩ := h.sound.dispatch r
      exact h.grown hsound hgrown
  | backfill id floor =>
      obtain ⟨hsound, hgrown⟩ := h.sound.backfill id floor
      exact h.grown hsound hgrown
  | move id => exact h.onCar id _ fun c hc => ⟨hc.move, c.settings_move, c.riders_move⟩
  | openDoors id =>
      exact h.onCar id _ fun c hc => ⟨hc.openDoors, c.settings_openDoors, c.riders_openDoors⟩
  | exchange id floor now =>
      cases hc : f.cars[id]? with
      | none => simpa [World.exchange, World.unstarted, hc] using h
      | some c =>
          obtain ⟨hfleet, hriders⟩ := exchange_eq (b := b) hc (Building.keeper now) floor
          rw [hfleet, hriders]
          exact (h.exchange hc now).1
  | closeDoors id =>
      exact h.onCar id _ fun c hc => ⟨hc.closeDoors, c.settings_closeDoors, c.riders_closeDoors⟩
  | returnToDefault id =>
      exact h.onCar id _ fun c hc => ⟨hc.returnToDefault,
        hc.grown_returnToDefault.settings_eq, hc.grown_returnToDefault.riders_eq⟩
  | takeToken id => exact h.onCar id _ fun c hc => ⟨hc.takeToken, rfl, rfl⟩
  | stop id => exact h.grown (h.sound.stop id) (f.grown_stop id)
  | stopAll => exact h.grown h.sound.stopAll f.grown_stopAll
  | tick clock => exact h.grown (h.sound.withClock clock) (f.grown_withClock clock)

/-- A fresh fleet carries nobody, and a building without people has nobody on its books. -/
lemma agrees_vacant {settings : FleetSettings} {strategies : Strategies}
    (h : make settings strategies = .ok f) : f.Agrees (.vacant f.settings.height) := by
  obtain ⟨hsound, rfl⟩ := sound_of_make h
  refine ⟨hsound, rfl, ?_⟩
  have hnobody : (resting settings strategies).occupants = [] := by
    rw [occupants, List.flatten_eq_nil_iff]
    intro riders hriders
    obtain ⟨c, hc, rfl⟩ := List.mem_map.mp hriders
    obtain ⟨id, hid, rfl⟩ := List.mem_mapIdx.mp hc
    rfl
  rw [hnobody]
  exact Building.ledger_vacant _

/-- Whatever can come about is in order and on the books. -/
theorem Attained.agrees (h : Attained f b) : f.Agrees b := by
  induction h with
  | fresh settings strategies f hmake => exact agrees_vacant hmake
  | next f f' b b' _ hnext ih => exact ih.happens hnext

end Fleet

/-! ### Places -/

/-- Where somebody can be: in the line on a floor, aboard a car, or arrived on a floor. -/
inductive Place where
  | line (floor : Floor)
  | car (id : Nat)
  | hall (floor : Floor)
  deriving DecidableEq, Repr

/-- The place suits somebody: who waits does so on their start floor and has not boarded, who rides
has boarded and not arrived, and who has arrived has boarded and is on their destination floor. -/
def Place.Suits (p : Person) : Place → Prop
  | line floor => p.start = floor ∧ p.hasBoarded = false ∧ p.hasArrived = false
  | car _ => p.hasBoarded = true ∧ p.hasArrived = false
  | hall floor => p.destination = floor ∧ p.hasBoarded = true ∧ p.hasArrived = true

namespace Fleet

variable {f f' : Fleet} {b b' : Building} {id : Nat} {c c' : Car} {x : RiderId} {p : Person}
  {place place' : Place}

/-- Who is in a place. -/
def listAt (f : Fleet) (b : Building) : Place → List RiderId
  | .line floor => b.lineAt floor
  | .car id => (f.cars[id]?.map (·.state.riders)).getD []
  | .hall floor => b.arrivedAt floor

lemma mem_occupants (hc : f.cars[id]? = some c) (hx : x ∈ c.state.riders) : x ∈ f.occupants :=
  List.mem_flatten.mpr ⟨c.state.riders, List.mem_map_of_mem (List.mem_of_getElem? hc), hx⟩

lemma mem_listAt_car : x ∈ f.listAt b (.car id) ↔
    ∃ c, f.cars[id]? = some c ∧ x ∈ c.state.riders := by
  cases hc : f.cars[id]? <;> simp [listAt, hc]

/-- Everybody in a place is known, and the place suits them. -/
lemma Agrees.suits (h : f.Agrees b) (hx : x ∈ f.listAt b place) :
    ∃ p, b.people[x]? = some p ∧ place.Suits p := by
  cases place with
  | line floor =>
      obtain ⟨p, hp, hsuits⟩ := h.ledger.waits floor x hx
      exact ⟨p, hp, hsuits⟩
  | car id =>
      obtain ⟨c, hc, hrider⟩ := mem_listAt_car.mp hx
      obtain ⟨p, hp, hsuits⟩ := h.ledger.rides x (mem_occupants hc hrider)
      exact ⟨p, hp, hsuits⟩
  | hall floor =>
      obtain ⟨p, hp, hsuits⟩ := h.ledger.stays floor x hx
      exact ⟨p, hp, hsuits⟩

/-- Everybody aboard is known. -/
lemma Agrees.known (h : f.Agrees b) (hc : f.cars[id]? = some c) :
    ∀ x ∈ c.state.riders, ∃ p, b.people[x]? = some p := by
  intro x hx
  obtain ⟨p, hp, -⟩ := h.suits (mem_listAt_car.mpr ⟨c, hc, hx⟩)
  exact ⟨p, hp⟩

/-- Everybody who is known is somewhere. -/
lemma Agrees.exists_place (h : f.Agrees b) (hx : x < b.people.length) :
    ∃ place, x ∈ f.listAt b place := by
  have hmem : x ∈ b.waiting.flatten ++ f.occupants ++ b.arrived.flatten :=
    h.ledger.roll.mem_iff.mpr (List.mem_range.mpr hx)
  rcases List.mem_append.mp hmem with hmem | hhall
  · rcases List.mem_append.mp hmem with hline | haboard
    · obtain ⟨floor, hx⟩ := h.ledger.exists_lineAt hline
      exact ⟨.line floor, hx⟩
    · obtain ⟨riders, hriders, hx⟩ := List.mem_flatten.mp haboard
      obtain ⟨c, hc, rfl⟩ := List.mem_map.mp hriders
      obtain ⟨id, hid⟩ := List.mem_iff_getElem?.mp hc
      exact ⟨.car id, mem_listAt_car.mpr ⟨c, hid, hx⟩⟩
  · obtain ⟨floor, hx⟩ := h.ledger.exists_arrivedAt hhall
    exact ⟨.hall floor, hx⟩

/-- No place holds anybody twice. -/
lemma Agrees.nodup_listAt (h : f.Agrees b) (hx : x ∈ f.listAt b place) :
    (f.listAt b place).Nodup := by
  cases place with
  | line floor => exact h.ledger.nodup_lineAt hx
  | car id =>
      obtain ⟨c, hc, -⟩ := mem_listAt_car.mp hx
      have haboard : f.occupants.Nodup := h.ledger.nodup.of_append_left.of_append_right
      have hriders : f.listAt b (.car id) = c.state.riders := by simp [listAt, hc]
      have hmem : c.state.riders ∈ f.cars.map (·.state.riders) :=
        List.mem_map_of_mem (List.mem_of_getElem? hc)
      rw [hriders]
      exact List.Nodup.sublist (List.sublist_flatten_of_mem hmem) haboard
  | hall floor => exact h.ledger.nodup_arrivedAt hx

/-- Nobody rides in two cars. -/
lemma Agrees.car_unique (h : f.Agrees b) {i j : Nat} (hi : x ∈ f.listAt b (.car i))
    (hj : x ∈ f.listAt b (.car j)) : i = j := by
  obtain ⟨c, hc, hx⟩ := mem_listAt_car.mp hi
  obtain ⟨c', hc', hx'⟩ := mem_listAt_car.mp hj
  obtain ⟨hi, rfl⟩ := List.getElem?_eq_some_iff.mp hc
  obtain ⟨hj, rfl⟩ := List.getElem?_eq_some_iff.mp hc'
  have haboard : f.occupants.Nodup := h.ledger.nodup.of_append_left.of_append_right
  have hdisjoint := List.pairwise_iff_getElem.mp (List.nodup_flatten.mp haboard).2
  by_contra hne
  rcases Nat.lt_or_gt_of_ne hne with hlt | hlt
  · exact hdisjoint i j (by simpa using hi) (by simpa using hj) hlt (by simpa using hx)
      (by simpa using hx')
  · exact hdisjoint j i (by simpa using hj) (by simpa using hi) hlt (by simpa using hx')
      (by simpa using hx)

/-- Nobody is in two places. -/
lemma Agrees.place_unique (h : f.Agrees b) (hx : x ∈ f.listAt b place)
    (hx' : x ∈ f.listAt b place') : place' = place := by
  obtain ⟨p, hp, hsuits⟩ := h.suits hx
  obtain ⟨q, hq, hsuits'⟩ := h.suits hx'
  obtain rfl : p = q := Option.some.inj (hp.symm.trans hq)
  cases place <;> cases place' <;> simp_all [Place.Suits]
  exact h.car_unique hx' hx

/-- All have arrived exactly if those who have arrived are everybody. -/
lemma Agrees.allArrived_iff (h : f.Agrees b)
    (htotal : b.numWaiting + f.occupants.length + b.numArrived = b.people.length) :
    b.allArrived = true ↔ b.numArrived = b.people.length := by
  constructor
  · intro hall
    have harrived : ∀ (x : RiderId) (p : Person), b.people[x]? = some p → p.hasArrived = true :=
      fun x p hp => List.all_eq_true.mp hall p (List.mem_of_getElem? hp)
    have hwaiting : b.waiting.flatten = [] := by
      refine List.eq_nil_iff_forall_not_mem.mpr fun x hx => ?_
      obtain ⟨floor, hx⟩ := h.ledger.exists_lineAt hx
      obtain ⟨p, hp, -, -, hnot⟩ := h.ledger.waits floor x hx
      exact absurd ((harrived x p hp).symm.trans hnot) (by decide)
    have haboard : f.occupants = [] := by
      refine List.eq_nil_iff_forall_not_mem.mpr fun x hx => ?_
      obtain ⟨p, hp, -, hnot⟩ := h.ledger.rides x hx
      exact absurd ((harrived x p hp).symm.trans hnot) (by decide)
    rw [Building.numWaiting, hwaiting, haboard] at htotal
    simpa using htotal
  · intro hcount
    have hwaiting : b.waiting.flatten = [] := by
      refine List.length_eq_zero_iff.mp ?_
      rw [Building.numWaiting] at htotal
      omega
    have haboard : f.occupants = [] := List.length_eq_zero_iff.mp (by omega)
    refine List.all_eq_true.mpr fun p hp => ?_
    obtain ⟨x, hx⟩ := List.mem_iff_getElem?.mp hp
    obtain ⟨place, hplace⟩ := h.exists_place (List.getElem?_eq_some_iff.mp hx).1
    obtain ⟨q, hq, hsuits⟩ := h.suits hplace
    obtain rfl : p = q := Option.some.inj (hx.symm.trans hq)
    cases place with
    | line floor =>
        have hmem := Building.mem_waiting_of_lineAt hplace
        simp [hwaiting] at hmem
    | car id =>
        obtain ⟨c, hc, hrider⟩ := mem_listAt_car.mp hplace
        have hmem := mem_occupants hc hrider
        simp [haboard] at hmem
    | hall floor => exact hsuits.2.2

/-- **Riders are conserved**: everybody who has ever been let in is in exactly one place, exactly
once, and it suits them; nobody else is anywhere. So those waiting, those aboard and those who have
arrived make up everybody, and all have arrived exactly if the last of these are everybody. -/
theorem Attained.riders_conserved (h : Attained f b) :
    (∀ (x : RiderId) (p : Person), b.people[x]? = some p →
      ∃ place : Place, place.Suits p ∧ (f.listAt b place).count x = 1 ∧
        ∀ place', place' ≠ place → x ∉ f.listAt b place') ∧
    (∀ place, ∀ x ∈ f.listAt b place, x < b.people.length) ∧
    b.numWaiting + f.occupants.length + b.numArrived = b.people.length ∧
    (b.allArrived = true ↔ b.numArrived = b.people.length) := by
  have hagrees := h.agrees
  have htotal : b.numWaiting + f.occupants.length + b.numArrived = b.people.length := by
    have hlength := hagrees.ledger.roll.length_eq
    simp only [List.length_append, List.length_range] at hlength
    exact hlength
  refine ⟨fun x p hp => ?_, fun place x hx => ?_, htotal, hagrees.allArrived_iff htotal⟩
  · obtain ⟨place, hx⟩ := hagrees.exists_place (List.getElem?_eq_some_iff.mp hp).1
    obtain ⟨q, hq, hsuits⟩ := hagrees.suits hx
    obtain rfl : p = q := Option.some.inj (hp.symm.trans hq)
    refine ⟨place, hsuits, ?_, fun place' hne hx' => hne (hagrees.place_unique hx hx')⟩
    exact List.count_eq_one_of_mem (hagrees.nodup_listAt hx) hx
  · obtain ⟨p, hp, -⟩ := hagrees.suits hx
    exact (List.getElem?_eq_some_iff.mp hp).1

/-- Somebody has gone from floor 0 to floor 2, where somebody else has boarded; a third person still
waits on floor 1. -/
theorem riders_conserved_midway :
    ∃ f b, Attained f b ∧ f.listAt b (.line 1) = [1] ∧ f.listAt b (.car 0) = [2] ∧
      f.listAt b (.hall 2) = [0] ∧ b.numWaiting + f.occupants.length + b.numArrived = 3 := by
  have h₀ := Attained.fresh ⟨4, 2, ⟨1⟩, ⟨1⟩, ⟨1⟩, [0]⟩ ⟨.firstCapableThenIdle, .farthestFirst⟩ _ rfl
  have h₁ := h₀.next _ _ _ _ (.enter 0 2 3)
  have h₂ := h₁.next _ _ _ _ (.enter 1 0 3)
  have h₃ := h₂.next _ _ _ _ (.enter 2 3 3)
  have h₄ := h₃.next _ _ _ _ (.press 0 true)
  have h₅ := h₄.next _ _ _ _ (.move 0)
  have h₆ := h₅.next _ _ _ _ (.exchange 0 0 5)
  have h₇ := h₆.next _ _ _ _ (.move 0)
  have h₈ := h₇.next _ _ _ _ (.move 0)
  have h₉ := h₈.next _ _ _ _ (.move 0)
  have h := h₉.next _ _ _ _ (.exchange 0 2 7)
  obtain ⟨-, -, htotal, -⟩ := h.riders_conserved
  refine ⟨_, _, h, by decide +kernel, by decide +kernel, by decide +kernel, htotal.trans ?_⟩
  decide +kernel

end Fleet

end ElevatorFleet
