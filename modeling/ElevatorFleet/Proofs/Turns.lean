import ElevatorFleet.Proofs.Boarding
import ElevatorFleet.Proofs.Dispatching
import ElevatorFleet.Worker

/-!
What one worker counts on, and what it can do in one turn.

* `Phase.Fits` says what holds of a car and of the pool while the worker of the car is in a phase.
* `Phase.Fits.grown` says that nothing done from outside takes that away.
* `World.Turn` lists what a worker can do in one turn, phase by phase, and `World.step_eq_turn` says
  that every step of a worker that fits is such a turn. Only an exchange of riders can halt it.
* `World.Turn.fleet_cases` says what a turn does to the fleet, and `World.Turn.fits` that after it
  the worker finds what it counts on in its next phase.
-/

namespace ElevatorFleet

namespace Phase

/-- The worker is in a door cycle. -/
def isAtDoors : Phase → Bool
  | .opening | .exchanging _ | .recalling _ _ => true
  | _ => false

/-- The worker is done, or halted. -/
def isOver : Phase → Bool
  | .halted _ | .finished => true
  | _ => false

/-- The worker has seen something queued. -/
def hasSeenStops : Phase → Bool
  | .moving | .rechecking => true
  | _ => false

/-- The worker has seen nothing queued, and is on its way to wait for work. -/
def seeksWork : Phase → Bool
  | .backfilling | .rechecking | .idling | .returning | .waiting => true
  | _ => false

/-- The worker has seen the flag up, and may wait for work before it looks at it again. -/
def heedsOrders : Phase → Bool
  | .looking => true
  | p => p.seeksWork

/-- The worker has found no pending call to take over. -/
def hasFoundNone : Phase → Bool
  | .idling | .returning | .waiting => true
  | _ => false

/-- What a worker counts on in a phase. In a door cycle the doors are open, and otherwise they are
shut. Whatever is queued once the queue has been looked at, and an order to stop given once the flag
has been looked at, has left a token; and once no pending call has been found there is none for as
long as the car is idle. -/
structure Fits (height : Floor) (pool : Pool) (c : Car) (p : Phase) : Prop where
  opened : p.isAtDoors = true → c.state.activity = .doorOpen
  shut : p.isAtDoors = false → p.isOver = false → c.state.activity ≠ .doorOpen
  heading : p.hasSeenStops = true → c.state.stops ≠ .empty
  recalls : ∀ floor rs, p = .recalling floor rs → ∀ r ∈ rs, r.floor < height
  queued : p.seeksWork = true → c.state.stops ≠ .empty → c.token = true
  stopped : p.heedsOrders = true → c.running = false → c.token = true
  drained : p.hasFoundNone = true → c.state.activity = .idle → pool = .empty

variable {height : Floor} {pool pool' : Pool} {c c' : Car} {p : Phase}

/-- Nothing done from outside takes away what a worker counts on. -/
lemma Fits.grown (h : p.Fits height pool c) (hgrown : c.Grown c') (hsound : c'.Sound)
    (hadded : pool'.entries ⊆ pool.entries ∨ c'.state.activity ≠ .idle) :
    p.Fits height pool' c' where
  opened hp := by
    have hopen := h.opened hp
    rw [hgrown.state.activity_eq (by simp [hopen]), hopen]
  shut hp hover := hgrown.state.activity_ne_doorOpen (h.shut hp hover)
  heading hp := by
    obtain ⟨next, rest, hq⟩ := Stops.exists_cons_of_ne_empty (h.heading hp)
    exact Stops.ne_empty_of_mem (hgrown.state.subset next (by simp [hq]))
  recalls := h.recalls
  queued hp hne := by
    cases hgrown.queue_or_token with
    | inl heq => exact hgrown.token (h.queued hp (heq ▸ hne))
    | inr htoken => exact htoken
  stopped hp hrunning := by
    cases hgrown.running with
    | inl heq => exact hgrown.token (h.stopped hp (heq ▸ hrunning))
    | inr hstop => exact hstop.2
  drained hp hidle := by
    have hsame := hgrown.eq_of_idle hsound hidle
    have hempty := h.drained hp (hsame ▸ hidle)
    have hsub := hadded.resolve_right fun hne => hne hidle
    rw [hempty] at hsub
    obtain ⟨entries⟩ := pool'
    simpa [Pool.empty] using hsub

/-! ### The phases one by one -/

lemma fits_starting (h : c.state.activity ≠ .doorOpen) : Fits height pool c .starting := by
  constructor <;> simp [isAtDoors, isOver, hasSeenStops, seeksWork, heedsOrders, hasFoundNone, h]

lemma fits_looking (hshut : c.state.activity ≠ .doorOpen) (hrunning : c.running = true) :
    Fits height pool c .looking := by
  constructor <;>
    simp [isAtDoors, isOver, hasSeenStops, seeksWork, heedsOrders, hasFoundNone, hshut, hrunning]

lemma fits_moving (hshut : c.state.activity ≠ .doorOpen) (hne : c.state.stops ≠ .empty) :
    Fits height pool c .moving := by
  constructor <;>
    simp [isAtDoors, isOver, hasSeenStops, seeksWork, heedsOrders, hasFoundNone, hshut, hne]

/-- On its way to wait for work a worker counts on the tokens left for it, and on whatever it has
found out already. -/
lemma fits_seeking (hp : p.seeksWork = true) (hshut : c.state.activity ≠ .doorOpen)
    (hheading : p.hasSeenStops = true → c.state.stops ≠ .empty)
    (hqueued : c.state.stops ≠ .empty → c.token = true)
    (hstopped : c.running = false → c.token = true)
    (hdrained : p.hasFoundNone = true → c.state.activity = .idle → pool = .empty) :
    p.Fits height pool c := by
  refine ⟨fun hdoors => ?_, fun _ _ => hshut, hheading, fun floor rs heq => ?_, fun _ => hqueued,
    fun _ => hstopped, hdrained⟩
  · cases p <;> simp [seeksWork, isAtDoors] at hp hdoors
  · subst heq
    simp [seeksWork] at hp

lemma fits_opening (h : c.state.activity = .doorOpen) : Fits height pool c .opening := by
  constructor <;> simp [isAtDoors, isOver, hasSeenStops, seeksWork, heedsOrders, hasFoundNone, h]

lemma fits_exchanging (h : c.state.activity = .doorOpen) (floor : Floor) :
    Fits height pool c (.exchanging floor) := by
  constructor <;> simp [isAtDoors, isOver, hasSeenStops, seeksWork, heedsOrders, hasFoundNone, h]

lemma fits_recalling (h : c.state.activity = .doorOpen) (floor : Floor) {rs : List Request}
    (hrs : ∀ r ∈ rs, r.floor < height) : Fits height pool c (.recalling floor rs) := by
  constructor <;>
    simp [isAtDoors, isOver, hasSeenStops, seeksWork, heedsOrders, hasFoundNone, h]
  exact hrs

lemma fits_over (h : p.isOver = true) : Fits height pool c p := by
  cases p with
  | halted | finished =>
      constructor <;>
        simp [isAtDoors, isOver, hasSeenStops, seeksWork, heedsOrders, hasFoundNone]
  | _ => simp [isOver] at h

/-- A worker waiting with an empty wake slot has nothing to do: its car is idle with nothing queued,
nobody has told it to stop, and no call is pending. -/
lemma Fits.of_waiting (h : Fits height pool c .waiting) (hsound : c.Sound)
    (htoken : c.token = false) :
    c.state.activity = .idle ∧ c.state.stops = .empty ∧ c.running = true ∧ pool = .empty := by
  have hempty : c.state.stops = .empty := by
    by_contra hne
    exact absurd (h.queued rfl hne) (by simp [htoken])
  have hidle : c.state.activity = .idle := by
    cases hactivity : c.state.activity with
    | idle => rfl
    | moving => exact absurd hempty (hsound.lawful.moving hactivity)
    | doorOpen => exact absurd hactivity (h.shut rfl rfl)
  refine ⟨hidle, hempty, ?_, h.drained rfl hidle⟩
  by_contra hrunning
  exact absurd (h.stopped rfl (by simpa using hrunning)) (by simp [htoken])

end Phase

namespace World

variable {σ : Type} {k : Keeper σ} {w : World σ} {id : Nat} {c : Car} {f f' : Fleet}
  {riders riders' : σ} {p p' : Phase}

/-- One turn of the worker of the car `c` with the number `id`, from one phase to the next, and what
becomes of the fleet and of the riders. -/
inductive Turn (k : Keeper σ) (id : Nat) (c : Car) (f : Fleet) (riders : σ) :
    Phase → Phase → Fleet → σ → Prop where
  | begin (h : c.running = true) : Turn k id c f riders .starting .looking f riders
  | finish (h : c.running = false) : Turn k id c f riders .starting .finished f riders
  | depart (h : c.state.stops ≠ .empty) : Turn k id c f riders .looking .moving f riders
  | seek (h : c.state.stops = .empty) : Turn k id c f riders .looking .backfilling f riders
  | pass (floor : Floor) (c' : Car) (h : c.move = (.ok (.passed floor), c')) :
      Turn k id c f riders .moving .starting (f.setCar id c') riders
  | arrive (floor : Floor) (c' : Car) (h : c.move = (.ok (.arrived floor), c')) :
      Turn k id c f riders .moving .opening (f.setCar id c') riders
  | openDoors (c' : Car) (h : c.openDoors = (.ok c.state.floor, c')) :
      Turn k id c f riders .opening (.exchanging c.state.floor) (f.setCar id c') riders
  | exchange (floor : Floor) (x : Exchange)
      (h : ((Exchange.run c.settings.height c.settings.capacity c.state).hold k riders).result.1 =
        .ok x) :
      Turn k id c f riders (.exchanging floor) (.recalling floor x.recalls)
        (f.setCar id { c with state :=
          ((Exchange.run c.settings.height c.settings.capacity c.state).hold k riders).result.2 })
        ((Exchange.run c.settings.height c.settings.capacity c.state).hold k riders).keeper
  | exchangeFailed (floor : Floor) (fault : Fault)
      (h : ((Exchange.run c.settings.height c.settings.capacity c.state).hold k riders).result.1 =
        .error fault) :
      Turn k id c f riders (.exchanging floor) (.halted fault)
        (f.setCar id { c with state :=
          ((Exchange.run c.settings.height c.settings.capacity c.state).hold k riders).result.2 })
        ((Exchange.run c.settings.height c.settings.capacity c.state).hold k riders).keeper
  | raiseAgain (floor : Floor) (r : Request) (rs : List Request) (a : Assignment) (f' : Fleet)
      (h : f.dispatch r = (.ok a, f')) :
      Turn k id c f riders (.recalling floor (r :: rs)) (.recalling floor rs) f' riders
  | closeDoors (floor : Floor) :
      Turn k id c f riders (.recalling floor []) .starting (f.setCar id c.closeDoors) riders
  | takeOver (f' : Fleet) (h : f.backfill id c.state.floor = (.ok true, f')) :
      Turn k id c f riders .backfilling .rechecking f' riders
  | findNone (h : f.backfill id c.state.floor = (.ok false, f)) :
      Turn k id c f riders .backfilling .idling f riders
  | recheck (h : c.state.stops ≠ .empty) : Turn k id c f riders .rechecking .starting f riders
  | expire : Turn k id c f riders .idling .returning f riders
  | park : Turn k id c f riders .idling .waiting f riders
  | goHome (c' : Car) (any : Bool) (h : c.returnToDefault = (.ok any, c')) :
      Turn k id c f riders .returning .starting (f.setCar id c') riders
  | wakeUp : Turn k id c f riders .waiting .starting (f.setCar id c.takeToken.2) riders
  | sleepOn (h : c.token = false) :
      Turn k id c f riders .waiting .waiting (f.setCar id c.takeToken.2) riders
  | rest (p : Phase) (h : p.isOver = true) : Turn k id c f riders p p f riders

/-- **Every step of a worker** that finds what it counts on is one of the turns listed in `Turn`. -/
theorem step_eq_turn (hsound : w.fleet.Sound) (hp : w.workers[id]? = some p)
    (hc : w.fleet.cars[id]? = some c) (hfits : p.Fits w.fleet.settings.height w.fleet.pool c)
    (k : Keeper σ) (expired : Bool) :
    ∃ p' f' riders' log, Turn k id c w.fleet w.riders p p' f' riders' ∧
      w.step k expired id = ⟨f', riders', w.workers.set id p', log⟩ := by
  have hcar := hsound.car hc
  simp only [step, hp, hc]
  cases p with
  | starting =>
      by_cases hrunning : c.running = true
      · exact ⟨_, _, _, w.log, .begin hrunning, by simp [act, hrunning]⟩
      · exact ⟨_, _, _, w.log, .finish (by simpa using hrunning), by simp [act, hrunning]⟩
  | looking =>
      by_cases hempty : c.state.stops = .empty
      · exact ⟨_, _, _, w.log, .seek hempty, by simp [act, Car.hasStops_iff, hempty]⟩
      · exact ⟨_, _, _, w.log, .depart hempty, by simp [act, Car.hasStops_iff, hempty]⟩
  | moving =>
      simp only [act, move, Fleet.onCar_eq hc]
      cases hcar.move_cases with
      | refused hempty => exact absurd hempty (hfits.heading rfl)
      | arrives _ _ heq => exact ⟨_, _, _, _, .arrive _ _ heq, by rw [heq]; rfl⟩
      | passes _ _ _ _ heq => exact ⟨_, _, _, _, .pass _ _ heq, by rw [heq]; rfl⟩
  | opening =>
      have hopen : c.state.activity ≠ .moving := by simp [hfits.opened rfl]
      have heq : c.openDoors = (.ok c.state.floor, _) := if_neg hopen
      simp only [act, openDoors, Fleet.onCar_eq hc]
      exact ⟨_, _, _, _, .openDoors _ heq, by rw [heq]; rfl⟩
  | exchanging floor =>
      simp only [act, exchange, hc]
      split
      · rename_i fault hfault
        exact ⟨_, _, _, _, .exchangeFailed floor fault hfault, rfl⟩
      · rename_i x hx
        simp only [proceed, noteExchange]
        split_ifs <;> exact ⟨_, _, _, _, .exchange floor x hx, rfl⟩
  | recalling floor rs =>
      cases rs with
      | nil =>
          simp only [act, closeDoors, Fleet.onCar_eq hc]
          exact ⟨_, _, _, _, .closeDoors floor, rfl⟩
      | cons r rs =>
          have hlt := hfits.recalls floor _ rfl r List.mem_cons_self
          obtain ⟨a, f', heq, -⟩ := hsound.dispatch_of_lt hlt
          simp only [act, raiseAgain, note, heq]
          exact ⟨_, _, _, _, .raiseAgain floor r rs a f' heq, rfl⟩
  | backfilling =>
      obtain ⟨any, f', heq, -, -, -, hnone⟩ := hsound.backfill_spec hc c.state.floor
      simp only [act, backfill, heq]
      cases any with
      | true => exact ⟨_, _, _, _, .takeOver f' heq, rfl⟩
      | false =>
          obtain rfl : f' = w.fleet := (hnone rfl).1
          exact ⟨_, _, _, _, .findNone heq, rfl⟩
  | rechecking =>
      have hne := hfits.heading rfl
      exact ⟨_, _, _, w.log, .recheck hne, by simp [act, Car.hasStops_iff, hne]⟩
  | idling =>
      cases expired with
      | true => exact ⟨_, _, _, _, .expire, rfl⟩
      | false => exact ⟨_, _, _, _, .park, rfl⟩
  | returning =>
      simp only [act, returnToDefault, Fleet.onCar_eq hc]
      cases hcar.returnToDefault_cases with
      | stays _ heq | leaves _ _ _ _ _ _ heq =>
          exact ⟨_, _, _, _, .goHome _ _ heq, by rw [heq]; rfl⟩
  | waiting =>
      cases htoken : c.token || expired with
      | true => exact ⟨_, _, _, w.log, .wakeUp, by simp [act, Car.takeToken, htoken]⟩
      | false =>
          refine ⟨_, _, _, w.log, .sleepOn (Bool.or_eq_false_iff.mp htoken).1, ?_⟩
          simp [act, Car.takeToken, htoken]
  | halted fault => exact ⟨_, _, _, _, .rest _ rfl, rfl⟩
  | finished => exact ⟨_, _, _, _, .rest _ rfl, rfl⟩

/-! ### What a turn keeps -/

/-- A turn hands out calls as anybody else may, or it changes nothing but its own car. -/
inductive FleetCase (id : Nat) (c : Car) (f f' : Fleet) : Prop where
  | handsOut (hsound : f'.Sound) (hgrown : f.Grown f')
  | actsAlone (c' : Car) (hsound : c'.Sound) (hsettings : c'.settings = c.settings)
      (heq : f' = f.setCar id c')

lemma Turn.fleet_cases (h : Turn k id c f riders p p' f' riders') (hsound : f.Sound)
    (hc : f.cars[id]? = some c) : FleetCase id c f f' := by
  have hcar := hsound.car hc
  cases h with
  | pass floor c' heq =>
      have hmove := hcar.move
      have hsettings := c.settings_move
      rw [heq] at hmove hsettings
      exact .actsAlone c' hmove hsettings rfl
  | arrive floor c' heq =>
      have hmove := hcar.move
      have hsettings := c.settings_move
      rw [heq] at hmove hsettings
      exact .actsAlone c' hmove hsettings rfl
  | openDoors c' heq =>
      have hopen := hcar.openDoors
      have hsettings := c.settings_openDoors
      rw [heq] at hopen hsettings
      exact .actsAlone c' hopen hsettings rfl
  | exchange | exchangeFailed =>
      have hkeeps := (Exchange.run_always hcar.lawful).hold k riders
      exact .actsAlone _ (hcar.withState hkeeps.lawful) rfl rfl
  | closeDoors => exact .actsAlone _ hcar.closeDoors c.settings_closeDoors rfl
  | goHome c' any heq =>
      have hhome := hcar.returnToDefault
      have hgrown := hcar.grown_returnToDefault
      rw [heq] at hhome hgrown
      exact .actsAlone c' hhome hgrown.settings_eq rfl
  | wakeUp | sleepOn => exact .actsAlone _ hcar.takeToken rfl rfl
  | raiseAgain floor r rs a f' heq =>
      have hdispatch := hsound.dispatch r
      rw [heq] at hdispatch
      exact .handsOut hdispatch.1 hdispatch.2
  | takeOver f' heq =>
      obtain ⟨_, _, heq', hsound', hgrown, -⟩ := hsound.backfill_spec hc c.state.floor
      obtain ⟨-, rfl⟩ := Prod.mk.inj (heq.symm.trans heq')
      exact .handsOut hsound' hgrown
  | begin | finish | depart | seek | findNone | recheck | expire | park | rest =>
      exact .handsOut hsound (.refl f)

/-- A turn keeps the fleet in order. -/
lemma Turn.sound (h : Turn k id c f riders p p' f' riders') (hsound : f.Sound)
    (hc : f.cars[id]? = some c) : f'.Sound := by
  cases h.fleet_cases hsound hc with
  | handsOut hsound' => exact hsound'
  | actsAlone c' hc' hsettings heq =>
      rw [heq]
      exact hsound.setCar hc hc' hsettings

lemma Turn.settings_eq (h : Turn k id c f riders p p' f' riders') (hsound : f.Sound)
    (hc : f.cars[id]? = some c) : f'.settings = f.settings := by
  cases h.fleet_cases hsound hc with
  | handsOut _ hgrown => exact hgrown.settings_eq
  | actsAlone _ _ _ heq =>
      rw [heq]
      rfl

/-- To the other cars a turn does no more than anybody from outside may do. -/
lemma Turn.others (h : Turn k id c f riders p p' f' riders') (hsound : f.Sound)
    (hc : f.cars[id]? = some c) {i : Nat} {x' : Car} (hne : i ≠ id) (hx' : f'.cars[i]? = some x') :
    ∃ x, f.cars[i]? = some x ∧ x.Grown x' ∧
      (f'.pool.entries ⊆ f.pool.entries ∨ x'.state.activity ≠ .idle) := by
  cases h.fleet_cases hsound hc with
  | handsOut _ hgrown =>
      obtain ⟨x, hx, hgrown'⟩ := hgrown.exists_before hx'
      refine ⟨x, hx, hgrown', hgrown.added.imp_right fun hbusy => ?_⟩
      exact hbusy x' (List.mem_of_getElem? hx')
  | actsAlone _ _ _ heq =>
      rw [heq, Fleet.cars_setCar_ne hne] at hx'
      refine ⟨x', hx', .refl x', Or.inl ?_⟩
      rw [heq]
      exact List.Subset.refl _

/-- **After a turn** the worker finds in its next phase what it counts on there. -/
theorem Turn.fits (h : Turn k id c f riders p p' f' riders') (hsound : f.Sound)
    (hc : f.cars[id]? = some c) (hfits : p.Fits f.settings.height f.pool c) {c' : Car}
    (hc' : f'.cars[id]? = some c') : p'.Fits f'.settings.height f'.pool c' := by
  have hcar := hsound.car hc
  have hshut := hfits.shut
  have hown : ∀ {x : Car}, (f.setCar id x).cars[id]? = some c' → c' = x := fun hx => by
    rw [Fleet.cars_setCar_self hc] at hx
    exact (Option.some.inj hx).symm
  have hsame : ∀ {x : Car}, f.cars[id]? = some x → x = c := fun hx =>
    Option.some.inj (hx.symm.trans hc)
  cases h with
  | begin hrunning =>
      obtain rfl := hsame hc'
      exact Phase.fits_looking (hshut rfl rfl) hrunning
  | finish => exact Phase.fits_over rfl
  | depart hne =>
      obtain rfl := hsame hc'
      exact Phase.fits_moving (hshut rfl rfl) hne
  | seek hempty =>
      obtain rfl := hsame hc'
      exact Phase.fits_seeking rfl (hshut rfl rfl) (by simp [Phase.hasSeenStops])
        (fun hne => absurd hempty hne) (hfits.stopped rfl) (by simp [Phase.hasFoundNone])
  | pass floor x heq =>
      obtain rfl := hown hc'
      obtain ⟨_, _, -, -, -, rfl⟩ := hcar.of_passed heq
      exact Phase.fits_starting (by simp)
  | arrive floor x heq =>
      obtain rfl := hown hc'
      obtain ⟨_, -, rfl⟩ := hcar.of_arrived heq
      exact Phase.fits_opening rfl
  | openDoors x heq =>
      obtain rfl := hown hc'
      refine Phase.fits_exchanging ?_ _
      rw [Car.openDoors, if_neg (by simp [hfits.opened rfl])] at heq
      obtain ⟨-, rfl⟩ := Prod.mk.inj heq
      rfl
  | exchange floor x hx =>
      obtain rfl := hown hc'
      have hkeeps := (Exchange.run_always hcar.lawful).hold k riders
      have hopen := hfits.opened rfl
      refine Phase.fits_recalling ?_ floor fun r hr => ?_
      · rw [hkeeps.grown.activity_eq (by simp [hopen]), hopen]
      · rw [hkeeps.recalls x.recalls (by rw [hx]; rfl) r hr]
        have hlt := hcar.lawful.floor_lt
        rwa [hsound.height c (List.mem_of_getElem? hc)] at hlt
  | exchangeFailed => exact Phase.fits_over rfl
  | raiseAgain floor r rs a f' heq =>
      have hdispatch := hsound.dispatch r
      rw [heq] at hdispatch
      obtain ⟨x, hx, hgrown⟩ := hdispatch.2.exists_before hc'
      obtain rfl := hsame hx
      have hnext := hfits.grown hgrown (hdispatch.1.car hc')
        (hdispatch.2.added.imp_right fun hbusy => hbusy c' (List.mem_of_getElem? hc'))
      rw [hdispatch.2.settings_eq]
      exact Phase.fits_recalling (hnext.opened rfl) floor fun r' hr' =>
        hnext.recalls floor _ rfl r' (List.mem_cons_of_mem r hr')
  | closeDoors floor =>
      obtain rfl := hown hc'
      exact Phase.fits_starting Car.activity_closeDoors_ne
  | takeOver f' heq =>
      obtain ⟨any, _, heq', hsound', hgrown, hsome, -⟩ := hsound.backfill_spec hc c.state.floor
      obtain ⟨hany, rfl⟩ := Prod.mk.inj (heq.symm.trans heq')
      obtain ⟨y, hy, hne⟩ := hsome (Except.ok.inj hany).symm
      obtain rfl := Option.some.inj (hy.symm.trans hc')
      obtain ⟨x, hx, hgrown'⟩ := hgrown.exists_before hc'
      obtain rfl := hsame hx
      have hnext := hfits.grown hgrown' (hsound'.car hc')
        (hgrown.added.imp_right fun hbusy => hbusy y (List.mem_of_getElem? hc'))
      exact Phase.fits_seeking rfl (hnext.shut rfl rfl) (fun _ => hne) (hnext.queued rfl)
        (hnext.stopped rfl) (by simp [Phase.hasFoundNone])
  | findNone heq =>
      obtain rfl := hsame hc'
      obtain ⟨any, _, heq', -, -, -, hnone⟩ := hsound.backfill_spec hc c'.state.floor
      obtain ⟨hany, rfl⟩ := Prod.mk.inj (heq.symm.trans heq')
      exact Phase.fits_seeking rfl (hshut rfl rfl) (by simp [Phase.hasSeenStops])
        (hfits.queued rfl) (hfits.stopped rfl) fun _ => (hnone (Except.ok.inj hany).symm).2
  | recheck =>
      obtain rfl := hsame hc'
      exact Phase.fits_starting (hshut rfl rfl)
  | expire | park =>
      obtain rfl := hsame hc'
      exact Phase.fits_seeking rfl (hshut rfl rfl) (by simp [Phase.hasSeenStops])
        (hfits.queued rfl) (hfits.stopped rfl) fun _ => hfits.drained rfl
  | goHome x any heq =>
      obtain rfl := hown hc'
      have hgrown := hcar.grown_returnToDefault
      rw [heq] at hgrown
      exact Phase.fits_starting (hgrown.state.activity_ne_doorOpen (hshut rfl rfl))
  | wakeUp =>
      obtain rfl := hown hc'
      exact Phase.fits_starting (hshut rfl rfl)
  | sleepOn htoken =>
      obtain rfl := hown hc'
      have htake : c.takeToken.2 = c := by simp [Car.takeToken, ← htoken]
      rw [htake]
      exact hfits
  | rest _ hover => exact Phase.fits_over hover

end World

end ElevatorFleet
