import ElevatorFleet.Proofs.Conservation
import ElevatorFleet.Proofs.Interleavings

/-!
No call is ever lost.

* `World.Called` is what can come about, in any order of steps, in a building where riders come in
  and press their buttons some time later; it keeps a list of those who have.
* `World.Covered` says that somebody takes care of a call: it is pending, some car is going to stop
  at its floor, some car has stopped there and still has to exchange riders, or some worker still
  has to raise it again.
* `World.Attends` is what always holds: the fleet is in order and on the books, everybody aboard is
  taken to where they want to go, and everybody who waits and has pressed their button is covered.
  `World.Attends.grown`, `World.Attends.turn` and their like keep it through a step.
* `World.Called.no_call_lost`: everybody who has pressed their button and has not boarded is
  covered, and once all cars are idle and no call is pending everybody who has pressed has boarded.
-/

namespace ElevatorFleet

/-- The car has stopped, and the exchange of riders is still to come. -/
def Phase.awaitsExchange : Phase → Bool
  | .opening | .exchanging _ => true
  | _ => false

lemma Phase.isAtDoors_of_awaitsExchange {p : Phase} (h : p.awaitsExchange = true) :
    p.isAtDoors = true := by
  cases p with
  | opening | exchanging => rfl
  | _ => simp [awaitsExchange] at h

/-- The call of the button somebody presses. -/
def Person.call (p : Person) : Request := ⟨p.start, .ofUp p.goingUp⟩

namespace World

variable {w w' : World Building} {f f' : Fleet} {b b' : Building} {id : Nat} {c c' : Car}
  {p p' : Phase} {now : Nat} {r : Request} {pressed : List RiderId}

/-! ### Calls that are taken care of -/

/-- Somebody takes care of a call. -/
inductive Covered (w : World Building) (r : Request) : Prop where
  | pending (h : r ∈ w.fleet.pool.requests)
  | queued (id : Nat) (c : Car) (hc : w.fleet.cars[id]? = some c)
      (h : r.floor ∈ c.state.stops.floors)
  | arrived (id : Nat) (c : Car) (hc : w.fleet.cars[id]? = some c)
      (hphase : (w.phase id).awaitsExchange = true) (h : r.floor = c.state.floor)
  | recalled (id : Nat) (c : Car) (hc : w.fleet.cars[id]? = some c) (floor : Floor)
      (rs : List Request) (hphase : w.phase id = .recalling floor rs) (h : r ∈ rs)

lemma Covered.of_answers (h : w.fleet.Answers r) : Covered w r := by
  cases h with
  | inl hpool => exact .pending hpool
  | inr hqueued =>
      obtain ⟨c, hc, hstop⟩ := hqueued
      obtain ⟨id, hid⟩ := List.mem_iff_getElem?.mp hc
      exact .queued id c hid hstop

/-- Whether a call is covered depends on the fleet and on the phases of its workers alone. -/
lemma Covered.congr (h : Covered w r) (hfleet : w'.fleet = w.fleet)
    (hphase : ∀ id, w'.phase id = w.phase id) : Covered w' r := by
  cases h with
  | pending hpool => exact .pending (hfleet ▸ hpool)
  | queued id c hc hstop => exact .queued id c (hfleet ▸ hc) hstop
  | arrived id c hc hawaits hfloor => exact .arrived id c (hfleet ▸ hc) (hphase id ▸ hawaits) hfloor
  | recalled id c hc floor rs hrecalling hr =>
      exact .recalled id c (hfleet ▸ hc) floor rs (hphase id ▸ hrecalling) hr

/-- What is done from outside leaves a call covered. -/
lemma Covered.grown (h : Covered w r) (hgrown : w.fleet.Grown f') :
    Covered { w with fleet := f' } r := by
  cases h with
  | pending hpool => exact .of_answers (hgrown.answers (Or.inl hpool))
  | queued id c hc hstop =>
      exact .of_answers (hgrown.answers (Or.inr ⟨c, List.mem_of_getElem? hc, hstop⟩))
  | arrived id c hc hphase hfloor =>
      obtain ⟨c', hc', hcar⟩ := hgrown.exists_after hc
      exact .arrived id c' hc' hphase (hfloor.trans hcar.state.floor_eq.symm)
  | recalled id c hc floor rs hphase hr =>
      obtain ⟨c', hc', -⟩ := hgrown.exists_after hc
      exact .recalled id c' hc' floor rs hphase hr

/-! ### A turn of one worker -/

/-- A turn keeps the riders on the books. -/
lemma Turn.agrees
    (h : Turn (Building.keeper now) id c f b p p' f' b') (hagrees : f.Agrees b)
    (hc : f.cars[id]? = some c) : f'.Agrees b' ∧ b.Later b' := by
  cases h with
  | exchange | exchangeFailed =>
      obtain ⟨hafter, others, x, -, hserved⟩ := hagrees.exchange hc now
      exact ⟨hafter, hserved.later⟩
  | pass _ _ heq | arrive _ _ heq =>
      have hafter := hagrees.happens (.move id)
      rw [Fleet.onCar_eq hc, heq] at hafter
      exact ⟨hafter, .refl _⟩
  | openDoors _ heq =>
      have hafter := hagrees.happens (.openDoors id)
      rw [Fleet.onCar_eq hc, heq] at hafter
      exact ⟨hafter, .refl _⟩
  | closeDoors floor =>
      have hafter := hagrees.happens (.closeDoors id)
      rw [Fleet.onCar_eq hc] at hafter
      exact ⟨hafter, .refl _⟩
  | goHome _ _ heq =>
      have hafter := hagrees.happens (.returnToDefault id)
      rw [Fleet.onCar_eq hc, heq] at hafter
      exact ⟨hafter, .refl _⟩
  | wakeUp | sleepOn =>
      have hafter := hagrees.happens (.takeToken id)
      rw [Fleet.onCar_eq hc] at hafter
      exact ⟨hafter, .refl _⟩
  | raiseAgain floor r rs a f' heq =>
      have hafter := hagrees.happens (.dispatch r)
      rw [heq] at hafter
      exact ⟨hafter, .refl _⟩
  | takeOver f' heq =>
      have hafter := hagrees.happens (.backfill id c.state.floor)
      rw [heq] at hafter
      exact ⟨hafter, .refl _⟩
  | begin | finish | depart | seek | findNone | recheck | expire | park | rest =>
      exact ⟨hagrees, .refl _⟩

/-- A turn leaves every car in its place, and to the others it does no more than anybody from
outside may do. -/
lemma Turn.others_after
    (h : Turn (Building.keeper now) id c f b p p' f' b') (hsound : f.Sound)
    (hc : f.cars[id]? = some c) {i : Nat} {x : Car} (hne : i ≠ id) (hx : f.cars[i]? = some x) :
    ∃ x', f'.cars[i]? = some x' ∧ x.Grown x' := by
  cases h.fleet_cases hsound hc with
  | handsOut _ hgrown => exact hgrown.exists_after hx
  | actsAlone _ _ _ heq =>
      rw [heq]
      exact ⟨x, (Fleet.cars_setCar_ne hne).trans hx, .refl x⟩

lemma Turn.exists_own
    (h : Turn (Building.keeper now) id c f b p p' f' b') (hsound : f.Sound)
    (hc : f.cars[id]? = some c) : ∃ c', f'.cars[id]? = some c' := by
  cases h.fleet_cases hsound hc with
  | handsOut _ hgrown =>
      obtain ⟨c', hc', -⟩ := hgrown.exists_after hc
      exact ⟨c', hc'⟩
  | actsAlone c' _ _ heq =>
      rw [heq]
      exact ⟨c', Fleet.cars_setCar_self hc⟩

/-- What a turn does to the stops and the riders of its own car. Before the car has stopped, it
keeps its riders and all of its stops, but for the one at which it stops now; while the doors open
nothing changes; and an exchange leaves behind what `Exchange.Served` says. -/
inductive OwnCase (c c' : Car) (b b' : Building) (p p' : Phase) : Prop where
  | travels (hnot : p.awaitsExchange = false) (hriders : c'.state.riders = c.state.riders)
      (hstops : ∀ floor ∈ c.state.stops.floors, floor ∈ c'.state.stops.floors ∨
        (p'.awaitsExchange = true ∧ floor = c'.state.floor))
  | opens (hopening : p = .opening) (hawaits : p'.awaitsExchange = true)
      (hriders : c'.state.riders = c.state.riders) (hstops : c'.state.stops = c.state.stops)
      (hfloor : c'.state.floor = c.state.floor)
  | exchanges (floor : Floor) (others : List RiderId) (recalls : List Request)
      (hexchanging : p = .exchanging floor) (hrecalling : p' = .recalling floor recalls)
      (hgrown : c.state.Grown c'.state)
      (hserved : Exchange.Served c.settings.capacity c.state b others recalls c'.state b')

lemma Turn.own_cases
    (h : Turn (Building.keeper now) id c f b p p' f' b') (hagrees : f.Agrees b)
    (hc : f.cars[id]? = some c) (hc' : f'.cars[id]? = some c') : OwnCase c c' b b' p p' := by
  have hcar := hagrees.sound.car hc
  have hown : ∀ {x : Car}, (f.setCar id x).cars[id]? = some c' → c' = x := fun hx => by
    rw [Fleet.cars_setCar_self hc] at hx
    exact (Option.some.inj hx).symm
  have hgrows : p.awaitsExchange = false → c.Grown c' → OwnCase c c' b b' p p' :=
    fun hnot hgrown => .travels hnot hgrown.riders_eq fun floor hfloor =>
      Or.inl (hgrown.state.subset floor hfloor)
  cases h with
  | pass floor x heq =>
      obtain rfl := hown hc'
      obtain ⟨_, _, -, -, -, rfl⟩ := hcar.of_passed heq
      exact .travels rfl rfl fun _ hfloor => Or.inl hfloor
  | arrive floor x heq =>
      obtain rfl := hown hc'
      obtain ⟨rest, hq, rfl⟩ := hcar.of_arrived heq
      refine .travels rfl rfl fun floor hfloor => ?_
      rw [hq] at hfloor
      cases List.mem_cons.mp hfloor with
      | inl hhere => exact Or.inr ⟨rfl, hhere⟩
      | inr hrest => exact Or.inl hrest
  | openDoors x heq =>
      obtain rfl := hown hc'
      rw [Car.openDoors] at heq
      split_ifs at heq
      · simp at heq
      · obtain ⟨-, rfl⟩ := Prod.mk.inj heq
        exact .opens rfl rfl rfl rfl rfl
  | exchange floor x hx =>
      obtain rfl := hown hc'
      obtain ⟨-, others, y, hy, hserved⟩ := hagrees.exchange hc now
      obtain rfl := Except.ok.inj (hx.symm.trans hy)
      have hkeeps := (Exchange.run_always hcar.lawful).hold (Building.keeper now) b
      exact .exchanges floor others x.recalls rfl rfl hkeeps.grown hserved
  | exchangeFailed floor fault hfault =>
      exact absurd hfault (hagrees.exchange_ne_error hc now fault)
  | closeDoors =>
      obtain rfl := hown hc'
      exact .travels rfl c.riders_closeDoors fun _ hfloor => Or.inl (by simpa using hfloor)
  | goHome x any heq =>
      obtain rfl := hown hc'
      have hgrown := hcar.grown_returnToDefault
      rw [heq] at hgrown
      exact hgrows rfl hgrown
  | wakeUp | sleepOn =>
      obtain rfl := hown hc'
      exact .travels rfl rfl fun _ hfloor => Or.inl hfloor
  | raiseAgain floor r rs a f' heq =>
      have hdispatch := hagrees.sound.dispatch r
      rw [heq] at hdispatch
      obtain ⟨x, hx, hgrown⟩ := hdispatch.2.exists_before hc'
      obtain rfl := Option.some.inj (hx.symm.trans hc)
      exact hgrows rfl hgrown
  | takeOver f' heq =>
      have hbackfill := hagrees.sound.backfill id c.state.floor
      rw [heq] at hbackfill
      obtain ⟨x, hx, hgrown⟩ := hbackfill.2.exists_before hc'
      obtain rfl := Option.some.inj (hx.symm.trans hc)
      exact hgrows rfl hgrown
  | begin | finish | depart | seek | findNone | recheck | expire | park =>
      obtain rfl := Option.some.inj (hc'.symm.trans hc)
      exact hgrows rfl (.refl _)
  | rest _ hover =>
      obtain rfl := Option.some.inj (hc'.symm.trans hc)
      refine hgrows ?_ (.refl _)
      cases p with
      | halted | finished => rfl
      | _ => simp [Phase.isOver] at hover

/-- The calls a worker still has to raise again are raised one after the other. -/
lemma Turn.recalled_cases (h : Turn (Building.keeper now) id c f b p p' f' b') (hsound : f.Sound)
    (hfits : p.Fits f.settings.height f.pool c) {floor : Floor} {rs : List Request}
    (hp : p = .recalling floor rs) (hr : r ∈ rs) :
    f'.Answers r ∨ ∃ rs', p' = .recalling floor rs' ∧ r ∈ rs' := by
  subst hp
  cases h with
  | raiseAgain _ r' rs a f' heq =>
      have hlt := hfits.recalls floor _ rfl r' List.mem_cons_self
      cases List.mem_cons.mp hr with
      | inl hfirst =>
          obtain ⟨a', _, heq', -, -, hanswers⟩ := hsound.dispatch_of_lt hlt
          obtain ⟨-, rfl⟩ := Prod.mk.inj (heq.symm.trans heq')
          exact Or.inl (hfirst ▸ hanswers)
      | inr hlater => exact Or.inr ⟨rs, rfl, hlater⟩
  | closeDoors => simp at hr
  | rest _ hover => simp [Phase.isOver] at hover

/-- What is in hand stays in hand in a turn, but for a floor at which the car of the worker stops.
-/
lemma Turn.covered {log : List Event}
    (h : Turn (Building.keeper now) id c w.fleet w.riders p p' f' b') (horderly : w.Orderly)
    (hagrees : w.fleet.Agrees w.riders) (hp : w.workers[id]? = some p)
    (hc : w.fleet.cars[id]? = some c) (hr : Covered w r) :
    Covered ⟨f', b', w.workers.set id p', log⟩ r ∨
      (∃ floor, p = .exchanging floor ∧ r.floor = c.state.floor) := by
  set after : World Building := ⟨f', b', w.workers.set id p', log⟩
  have hsound := hagrees.sound
  obtain ⟨c', hc'⟩ := h.exists_own hsound hc
  have hown := h.own_cases hagrees hc hc'
  have hphase : after.phase id = p' := phase_set_self hp
  have hphases : ∀ {i}, i ≠ id → after.phase i = w.phase i := fun hne => phase_set_ne hne
  cases hr with
  | pending hpool =>
      refine Or.inl ?_
      cases h.fleet_cases hsound hc with
      | handsOut _ hgrown => exact .of_answers (hgrown.answers (Or.inl hpool))
      | actsAlone x _ _ hset =>
          refine .pending ?_
          rw [show after.fleet = w.fleet.setCar id x from hset]
          exact hpool
  | queued i x hx hstop =>
      by_cases hi : i = id
      · subst hi
        obtain rfl := Option.some.inj (hx.symm.trans hc)
        cases hown with
        | travels _ _ hstops =>
            cases hstops _ hstop with
            | inl hstop => exact Or.inl (.queued i c' hc' hstop)
            | inr hhere => exact Or.inl (.arrived i c' hc' (hphase ▸ hhere.1) hhere.2)
        | opens _ _ _ hstops => exact Or.inl (.queued i c' hc' (hstops ▸ hstop))
        | exchanges _ _ _ _ _ hgrown => exact Or.inl (.queued i c' hc' (hgrown.subset _ hstop))
      · obtain ⟨x', hx', hgrown⟩ := h.others_after hsound hc hi hx
        exact Or.inl (.queued i x' hx' (hgrown.state.subset _ hstop))
  | arrived i x hx hawaits hfloor =>
      by_cases hi : i = id
      · subst hi
        obtain rfl := Option.some.inj (hx.symm.trans hc)
        rw [phase_eq hp] at hawaits
        cases hown with
        | travels hnot => exact absurd (hawaits.symm.trans hnot) (by decide)
        | opens _ hawaits' _ _ hfloor' =>
            exact Or.inl (.arrived i c' hc' (hphase ▸ hawaits') (hfloor.trans hfloor'.symm))
        | exchanges floor _ _ hexchanging => exact Or.inr ⟨floor, hexchanging, hfloor⟩
      · obtain ⟨x', hx', hgrown⟩ := h.others_after hsound hc hi hx
        refine Or.inl (.arrived i x' hx' ?_ (hfloor.trans hgrown.state.floor_eq.symm))
        rw [hphases hi]
        exact hawaits
  | recalled i x hx floor rs hrecalling hr =>
      refine Or.inl ?_
      by_cases hi : i = id
      · subst hi
        rw [phase_eq hp] at hrecalling
        have hfits := horderly.fits i c hc
        rw [phase_eq hp] at hfits
        cases h.recalled_cases hsound hfits hrecalling hr with
        | inl hanswers => exact .of_answers hanswers
        | inr hleft =>
            obtain ⟨rs', hp', hr⟩ := hleft
            exact .recalled i c' hc' floor rs' (hphase.trans hp') hr
      · obtain ⟨x', hx', -⟩ := h.others_after hsound hc hi hx
        exact .recalled i x' hx' floor rs ((hphases hi).trans hrecalling) hr

/-! ### What always holds -/

/-- Everybody aboard is taken to where they want to go: their car is going to stop there, or it has
and they still have to step out. -/
def Carries (w : World Building) : Prop :=
  ∀ (id : Nat) (c : Car), w.fleet.cars[id]? = some c → ∀ x ∈ c.state.riders,
    ∃ d, w.riders.destination? x = some d ∧
      (d ∈ c.state.stops.floors ∨ ((w.phase id).awaitsExchange = true ∧ d = c.state.floor))

/-- Everybody aboard wants to go where the car is going to stop, or where it stands. -/
lemma Carries.aboard (h : w.Carries) (hc : w.fleet.cars[id]? = some c) :
    ∀ x ∈ c.state.riders, ∃ d, w.riders.destination? x = some d ∧
      (d ∈ c.state.stops.floors ∨ d = c.state.floor) := by
  intro x hx
  obtain ⟨d, hd, hthere⟩ := h id c hc x hx
  exact ⟨d, hd, hthere.imp_right fun hstopped => hstopped.2⟩

/-- The fleet is in order and on the books, everybody aboard is taken to where they want to go, and
everybody who waits and has pressed their button is covered. -/
structure Attends (w : World Building) (pressed : List RiderId) : Prop where
  orderly : w.Orderly
  agrees : w.fleet.Agrees w.riders
  carries : w.Carries
  known : ∀ x ∈ pressed, x < w.riders.people.length
  covered : ∀ x ∈ pressed, ∀ p, w.riders.people[x]? = some p → x ∈ w.riders.lineAt p.start →
    Covered w p.call

/-- What is done to the fleet from outside leaves everybody attended to. -/
lemma Attends.grown (h : w.Attends pressed) (hsound : f'.Sound) (hgrown : w.fleet.Grown f') :
    { w with fleet := f' }.Attends pressed where
  orderly := h.orderly.grown hsound hgrown
  agrees := h.agrees.grown hsound hgrown
  carries id c' hc' x hx := by
    obtain ⟨c, hc, hcar⟩ := hgrown.exists_before hc'
    obtain ⟨d, hd, hthere⟩ := h.carries id c hc x (hcar.riders_eq ▸ hx)
    refine ⟨d, hd, hthere.imp (hcar.state.subset d) fun hstopped => ⟨hstopped.1, ?_⟩⟩
    exact hstopped.2.trans hcar.state.floor_eq.symm
  known := h.known
  covered x hx p hp hwaits := (h.covered x hx p hp hwaits).grown hgrown

/-- Newcomers leave everybody else attended to. -/
lemma Attends.later (h : w.Attends pressed) (hagrees : w.fleet.Agrees b')
    (hlater : w.riders.Later b') : { w with riders := b' }.Attends pressed where
  orderly := ⟨h.orderly.sound, h.orderly.fits⟩
  agrees := hagrees
  carries id c hc x hx := by
    obtain ⟨d, hd, hthere⟩ := h.carries id c hc x hx
    exact ⟨d, hlater.destination? hd, hthere⟩
  known x hx := lt_of_lt_of_le (h.known x hx) hlater.length_le
  covered x hx q hq hwaits := by
    obtain ⟨p, hp, hstart, hgoing, hwaited⟩ := hlater.waited (h.known x hx) hq hwaits
    have hcall : q.call = p.call := by rw [Person.call, Person.call, hstart, hgoing]
    rw [hcall]
    exact (h.covered x hx p hp hwaited).congr rfl fun _ => rfl

/-- Starting the workers leaves everybody attended to. -/
lemma Attends.start (h : w.Attends pressed) : w.start.Attends pressed := by
  refine ⟨h.orderly.start, fleet_start.symm ▸ riders_start.symm ▸ h.agrees,
    fun id c hc x hx => ?_, riders_start.symm ▸ h.known, fun x hx p hp hwaits => ?_⟩
  · rw [fleet_start] at hc
    rw [riders_start, phase_start]
    exact h.carries id c hc x hx
  · rw [riders_start] at hp hwaits
    exact (h.covered x hx p hp hwaits).congr fleet_start fun _ => phase_start

/-- A turn takes everybody aboard a step further to where they want to go. -/
lemma Attends.carries_turn (h : w.Attends pressed) {log : List Event}
    (hturn : Turn (Building.keeper now) id c w.fleet w.riders p p' f' b')
    (hp : w.workers[id]? = some p) (hc : w.fleet.cars[id]? = some c) :
    Carries ⟨f', b', w.workers.set id p', log⟩ := by
  obtain ⟨-, hlater⟩ := hturn.agrees h.agrees hc
  intro i x' hx' y hy
  by_cases hi : i = id
  · subst hi
    have hbefore := h.carries i c hc
    rw [phase_eq hp] at hbefore
    rw [phase_set_self hp]
    cases hturn.own_cases h.agrees hc hx' with
    | travels hnot hriders hstops =>
        obtain ⟨d, hd, hthere⟩ := hbefore y (hriders ▸ hy)
        have hqueued := hthere.resolve_right fun hstopped =>
          absurd (hstopped.1.symm.trans hnot) (by decide)
        exact ⟨d, hlater.destination? hd, hstops d hqueued⟩
    | opens _ hawaits hriders hstops hfloor =>
        obtain ⟨d, hd, hthere⟩ := hbefore y (hriders ▸ hy)
        refine ⟨d, hlater.destination? hd, hthere.imp (fun hqueued => hstops ▸ hqueued) ?_⟩
        exact fun hstopped => ⟨hawaits, hstopped.2.trans hfloor.symm⟩
    | exchanges _ _ _ _ _ hgrown hserved =>
        obtain ⟨d, hstop, hd⟩ := hserved.carried hgrown (h.carries.aboard hc) hy
        exact ⟨d, hd, Or.inl hstop⟩
  · obtain ⟨x, hx, hgrown, -⟩ := hturn.others h.orderly.sound hc hi hx'
    obtain ⟨d, hd, hthere⟩ := h.carries i x hx y (hgrown.riders_eq ▸ hy)
    rw [phase_set_ne hi]
    refine ⟨d, hlater.destination? hd, hthere.imp (hgrown.state.subset d) fun hstopped => ?_⟩
    exact ⟨hstopped.1, hstopped.2.trans hgrown.state.floor_eq.symm⟩

/-- A turn leaves everybody covered who still waits after it. After an exchange these are the people
left behind, whose calls are raised again. -/
lemma Attends.covered_turn (h : w.Attends pressed) {log : List Event}
    (hturn : Turn (Building.keeper now) id c w.fleet w.riders p p' f' b')
    (hp : w.workers[id]? = some p) (hc : w.fleet.cars[id]? = some c) {x : RiderId} {q : Person}
    (hx : x ∈ pressed) (hq : b'.people[x]? = some q) (hwaits : x ∈ b'.lineAt q.start) :
    Covered ⟨f', b', w.workers.set id p', log⟩ q.call := by
  obtain ⟨-, hlater⟩ := hturn.agrees h.agrees hc
  obtain ⟨q₀, hq₀, hstart, hgoing, hwaited⟩ := hlater.waited (h.known x hx) hq hwaits
  have hcall : q.call = q₀.call := by rw [Person.call, Person.call, hstart, hgoing]
  have hbefore : Covered w q.call := hcall ▸ h.covered x hx q₀ hq₀ hwaited
  cases hturn.covered h.orderly h.agrees hp hc hbefore with
  | inl hafter => exact hafter
  | inr hexchange =>
      obtain ⟨floor, rfl, hfloor⟩ := hexchange
      obtain ⟨c', hc'⟩ := hturn.exists_own h.orderly.sound hc
      cases hturn.own_cases h.agrees hc hc' with
      | travels hnot => simp [Phase.awaitsExchange] at hnot
      | opens hopening => simp at hopening
      | exchanges _ others recalls _ hrecalling hgrown hserved =>
          have hline : x ∈ b'.lineAt c.state.floor := by
            rw [← hfloor]
            exact hwaits
          have hcapacity := (h.orderly.sound.car hc).capacity_pos
          have hne : c'.state.stops ≠ .empty :=
            hserved.stops_ne_empty hgrown (h.carries.aboard hc) hcapacity hline
          have hrecalled := hserved.recalled hne x hline q hq
          rw [← hfloor] at hrecalled
          exact .recalled id c' hc' _ recalls ((phase_set_self hp).trans hrecalling) hrecalled

/-- A turn of one worker leaves everybody attended to. -/
lemma Attends.turn (h : w.Attends pressed) (now : Nat) (expired : Bool) (id : Nat) :
    (w.step (Building.keeper now) expired id).Attends pressed := by
  cases h.orderly.step_cases (Building.keeper now) expired id with
  | nobody heq => exact heq.symm ▸ h
  | turn c p p' f' b' log hp hc _ hturn heq =>
      obtain ⟨hagrees, hlater⟩ := hturn.agrees h.agrees hc
      have horderly := h.orderly.turn (Building.keeper now) expired id
      rw [heq] at horderly ⊢
      exact
        { orderly := horderly
          agrees := hagrees
          carries := h.carries_turn hturn hp hc
          known := fun x hx => lt_of_lt_of_le (h.known x hx) hlater.length_le
          covered := fun x hx q hq hwaits => h.covered_turn hturn hp hc hx hq hwaits }

/-- Whoever is in the building finds the button they need on their start floor. -/
lemma press_eq_dispatch (h : w.fleet.Agrees w.riders) {x : RiderId} {p : Person}
    (hp : w.riders.people[x]? = some p) :
    w.fleet.press p.start p.goingUp = w.fleet.dispatch p.call := by
  obtain ⟨hstart, hdestination, hne⟩ := h.ledger.routes x p hp
  rw [h.height] at hstart hdestination
  refine Fleet.press_eq_dispatch hstart ?_
  have hne' : p.start.val ≠ p.destination.val := fun heq => hne (Fin.ext heq)
  rw [Fin.lt_def] at hdestination
  by_cases hup : p.start < p.destination
  · have hgoing : p.goingUp = true := by simpa [Person.goingUp] using hup
    rw [Fin.lt_def] at hup
    simp only [hgoing, Call.ofUp, if_true, Fleet.lacksButton, decide_eq_false_iff_not]
    omega
  · have hgoing : p.goingUp = false := by simpa [Person.goingUp] using hup
    rw [Fin.lt_def] at hup
    simp only [hgoing, Call.ofUp, Bool.false_eq_true, if_false, Fleet.lacksButton,
      decide_eq_false_iff_not]
    omega

/-- Pressing the button covers the call. -/
lemma Attends.press (h : w.Attends pressed) {x : RiderId} {p : Person}
    (hp : w.riders.people[x]? = some p) :
    (w.press p.start p.goingUp).2.Attends (x :: pressed) := by
  have hlt : p.call.floor < w.fleet.settings.height := by
    rw [← h.agrees.height]
    exact (h.agrees.ledger.routes x p hp).1
  obtain ⟨a, f', heq, hsound, hgrown, hanswers⟩ := h.agrees.sound.dispatch_of_lt hlt
  have hafter := h.grown hsound hgrown
  rw [World.press, press_eq_dispatch h.agrees hp, heq]
  refine ⟨hafter.orderly, hafter.agrees, hafter.carries, ?_, ?_⟩
  · exact List.forall_mem_cons.mpr ⟨(List.getElem?_eq_some_iff.mp hp).1, hafter.known⟩
  · intro y hy q hq hwaits
    cases List.mem_cons.mp hy with
    | inl hself =>
        subst hself
        obtain rfl := Option.some.inj (hp.symm.trans hq)
        exact .of_answers hanswers
    | inr hother => exact hafter.covered y hother q hq hwaits

/-! ### In any order -/

/-- Riders come in one by one. -/
def comesIn (b b' : Building) : Prop :=
  ∃ start destination now, b' = (b.enter start destination now).2

/-- Exchanges are held with the building, at any moment. -/
def isKeptByBuilding (k : Keeper Building) : Prop := ∃ now, k = Building.keeper now

/-- What can come about in a building where riders come in and press their buttons some time later,
in any order of steps, and who has pressed their button. The fleet and the building start fresh. -/
inductive Called : World Building → List RiderId → Prop where
  | fresh (settings : FleetSettings) (strategies : Strategies) (f : Fleet)
      (h : Fleet.make settings strategies = .ok f) :
      Called (.unstarted f (.vacant f.settings.height)) []
  | next (w w' : World Building) (pressed : List RiderId) (h : Called w pressed)
      (hnext : Next isKeptByBuilding comesIn w w') : Called w' pressed
  | press (w : World Building) (pressed : List RiderId) (x : RiderId) (p : Person)
      (h : Called w pressed) (hp : w.riders.people[x]? = some p) :
      Called (w.press p.start p.goingUp).2 (x :: pressed)

/-- **Every step** leaves everybody attended to, whoever takes it. -/
theorem Attends.next (h : w.Attends pressed) (hnext : Next isKeptByBuilding comesIn w w') :
    w'.Attends pressed := by
  have hsound := h.agrees.sound
  cases hnext with
  | start => exact h.start
  | turn k hk expired id =>
      obtain ⟨now, rfl⟩ := hk
      exact h.turn now expired id
  | press floor goingUp =>
      obtain ⟨hsound', hgrown⟩ := hsound.press floor goingUp
      exact h.grown hsound' hgrown
  | dispatch r =>
      obtain ⟨hsound', hgrown⟩ := hsound.dispatch r
      exact h.grown hsound' hgrown
  | stop id => exact h.grown (hsound.stop id) (w.fleet.grown_stop id)
  | shutdown => exact h.grown hsound.stopAll w.fleet.grown_stopAll
  | arrive riders harrives =>
      obtain ⟨start, destination, now, rfl⟩ := harrives
      have hagrees := h.agrees.happens (.enter start destination now)
      exact h.later hagrees (h.agrees.ledger.entered start destination now).2
  | tick clock => exact h.grown (hsound.withClock clock) (w.fleet.grown_withClock clock)

/-- A fresh fleet has nobody to attend to. -/
lemma attends_unstarted {settings : FleetSettings} {strategies : Strategies}
    (h : Fleet.make settings strategies = .ok f) :
    (unstarted f (.vacant f.settings.height)).Attends [] where
  orderly := orderly_unstarted h _
  agrees := Fleet.agrees_vacant h
  carries id c hc x hx := by
    obtain ⟨-, rfl⟩ := Fleet.sound_of_make h
    obtain ⟨i, hi, rfl⟩ := List.mem_mapIdx.mp (List.mem_of_getElem? hc)
    simp [Car.fresh, Car.restingState, CarState.resting] at hx
  known := by simp
  covered := by simp

/-- Whatever can come about leaves everybody attended to. -/
theorem Called.attends (h : Called w pressed) : w.Attends pressed := by
  induction h with
  | fresh settings strategies f hmake => exact attends_unstarted hmake
  | next w w' pressed _ hnext ih => exact ih.next hnext
  | press w pressed x p _ hp ih => exact ih.press hp

/-- With all cars idle and no call pending, no call is covered. -/
lemma Attends.not_covered (h : w.Attends pressed)
    (hidle : ∀ c ∈ w.fleet.cars, c.state.activity = .idle) (hpool : w.fleet.pool = .empty) :
    ¬ Covered w r := by
  have hshut : ∀ (id : Nat) (c : Car), w.fleet.cars[id]? = some c →
      (w.phase id).isAtDoors = false := fun id c hc => by
    by_contra hdoors
    have hopened := (h.orderly.fits id c hc).opened (by simpa using hdoors)
    rw [hidle c (List.mem_of_getElem? hc)] at hopened
    exact absurd hopened (by decide)
  intro hcovered
  cases hcovered with
  | pending hr => simp [hpool, Pool.requests, Pool.empty] at hr
  | queued id c hc hstop =>
      have hmem := List.mem_of_getElem? hc
      have hempty := (h.agrees.sound.cars c hmem).lawful.idle (hidle c hmem)
      simp [hempty] at hstop
  | arrived id c hc hawaits =>
      have hdoors := Phase.isAtDoors_of_awaitsExchange hawaits
      exact absurd (hdoors.symm.trans (hshut id c hc)) (by decide)
  | recalled id c hc floor rs hphase =>
      have hdoors := hshut id c hc
      simp [hphase, Phase.isAtDoors] at hdoors

/-- **No call is ever lost**: everybody who has pressed their button and has not boarded yet is
taken care of, by the pool, by a car that is going to stop on their floor or has stopped there and
still has to exchange riders, or by a worker that still has to raise their call again. So once all
cars are idle and no call is pending, everybody who has pressed their button has boarded. -/
theorem Called.no_call_lost (h : Called w pressed) :
    (∀ x ∈ pressed, ∀ p, w.riders.people[x]? = some p → p.hasBoarded = false →
      Covered w ⟨p.start, .ofUp p.goingUp⟩) ∧
    ((∀ c ∈ w.fleet.cars, c.state.activity = .idle) → w.fleet.pool = .empty →
      ∀ x ∈ pressed, ∀ p, w.riders.people[x]? = some p → p.hasBoarded = true) := by
  have hattends := h.attends
  have hcovered : ∀ x ∈ pressed, ∀ p, w.riders.people[x]? = some p → p.hasBoarded = false →
      Covered w p.call := fun x hx p hp hboarded =>
    hattends.covered x hx p hp (hattends.agrees.ledger.mem_lineAt hp hboarded)
  refine ⟨hcovered, fun hidle hpool x hx p hp => ?_⟩
  by_contra hboarded
  exact hattends.not_covered hidle hpool (hcovered x hx p hp (by simpa using hboarded))

/-- Turns of several workers in the order of a schedule can come about. -/
lemma Called.turns (h : Called w pressed) (now : Nat) (schedule : List (Nat × Bool)) :
    Called (w.turns (Building.keeper now) schedule) pressed := by
  induction schedule generalizing w with
  | nil => exact h
  | cons turn schedule ih => exact ih (.next _ _ _ h (.turn _ ⟨now, rfl⟩ turn.2 turn.1))

/-- Two people call a car for one on floor 0. The car leaves the second of them behind, whose call
is raised again, and comes back. -/
theorem no_call_lost_crowded :
    ∃ w w' : World Building, Called w [1, 0] ∧ Called w' [1, 0] ∧ w.Covered ⟨0, .up⟩ ∧
      ∀ x ∈ [1, 0], ∀ p, w'.riders.people[x]? = some p → p.hasBoarded = true := by
  have h₀ := Called.fresh ⟨4, 1, ⟨1⟩, ⟨1⟩, ⟨1⟩, [0]⟩ ⟨.firstCapableThenIdle, .farthestFirst⟩ _ rfl
  have h₁ := h₀.next _ _ _ .start
  have h₂ := h₁.next _ _ _ (.arrive _ ⟨0, 2, 0, rfl⟩)
  have h₃ := h₂.next _ _ _ (.arrive _ ⟨0, 3, 0, rfl⟩)
  have h₄ := h₃.press _ _ 0 ⟨0, 0, 2, 0, none, none⟩ (by decide +kernel)
  have h₅ := h₄.press _ _ 1 ⟨1, 0, 3, 0, none, none⟩ (by decide +kernel)
  have hleft := h₅.turns 1 (List.replicate 5 (0, false))
  have hback := h₅.turns 1 (List.replicate 54 (0, false))
  refine ⟨_, _, hleft, hback, ?_, ?_⟩
  · exact hleft.no_call_lost.1 1 (by decide) ⟨1, 0, 3, 0, none, none⟩ (by decide +kernel) rfl
  · exact hback.no_call_lost.2 (by decide +kernel) (by decide +kernel)

end World

end ElevatorFleet
