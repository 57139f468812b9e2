import ElevatorFleet.Proofs.Handover
import ElevatorFleet.Proofs.Reliability

/-!
Nobody is carried past their floor.

* `World.History` keeps everything that has come about so far, step by step, and `World.Ride` says
  since when somebody has been aboard a car.
* `World.arrivals` counts how often a car has arrived at a floor, as the log has it;
  `World.arrivals_step` says that only a movement step adds to it.
* `World.Bound` is what holds of somebody aboard all the way: their car has not arrived at their
  destination since they boarded, and is going to stop there, or it has arrived there once and the
  exchange is still to come. `World.History.bound` keeps it through a history.
* `World.History.nobody_carried_past`: everybody steps out in the exchange at the first arrival of
  their car at their destination, and nobody steps out at any other moment.
-/

namespace ElevatorFleet

/-- The car with the number `id` arrives at a floor. -/
def Event.isArrival (id : Nat) (floor : Floor) : Event → Bool
  | .arrived i f => i = id && f = floor
  | _ => false

namespace World

variable {w w' first : World Building} {past : List (World Building)} {f' : Fleet} {b' : Building}
  {id : Nat} {c : Car} {p p' : Phase} {x : RiderId} {d : Floor} {now : Nat} {expired : Bool}

/-! ### Arrivals -/

/-- How often a car has arrived at a floor, as the log has it. -/
def arrivals (w : World Building) (id : Nat) (floor : Floor) : Nat :=
  w.log.countP (Event.isArrival id floor)

lemma arrivals_congr (h : w'.log = w.log) : w'.arrivals id d = w.arrivals id d := by
  rw [arrivals, arrivals, h]

/-- An exchange leaves many remarks in the log, but no arrival. -/
lemma arrivals_exchange (k : Keeper Building) (w : World Building) (i : Nat) (floor : Floor) :
    (w.exchange k i floor).2.arrivals id d = w.arrivals id d := by
  have hremarks : ∀ remarks : List Remark,
      (remarks.map Event.remark).reverse.countP (Event.isArrival id d) = 0 := by
    intro remarks
    rw [List.countP_eq_zero]
    intro e he
    obtain ⟨remark, -, rfl⟩ := List.mem_map.mp (List.mem_reverse.mp he)
    simp [Event.isArrival]
  rw [exchange]
  split
  · rfl
  dsimp only
  split
  · simp [arrivals, hremarks]
  · rw [noteExchange]
    split_ifs <;> simp [arrivals, note, Event.isArrival, hremarks]

/-- **Only a movement step** of a car that ends in an arrival adds to its arrivals. -/
lemma arrivals_step (hp : w.workers[id]? = some p) (hc : w.fleet.cars[id]? = some c)
    (k : Keeper Building) (expired : Bool) (i : Nat) (d : Floor) :
    (w.step k expired id).arrivals i d = w.arrivals i d +
      if p = .moving ∧ i = id ∧ c.move.1 = .ok (.arrived d) then 1 else 0 := by
  have hnote : ∀ {α : Type} (next : α → Phase) (out : Attempt (World Building) α),
      (proceed id next out).2.arrivals i d = out.2.arrivals i d := by
    rintro α next ⟨fault | a, w⟩
    · simp [proceed, arrivals, note, Event.isArrival]
    · rfl
  have hstep : (w.step k expired id).arrivals i d = (w.act k expired id c p).2.arrivals i d := by
    rw [step, hp, hc]
    rfl
  rw [hstep]
  cases p with
  | moving =>
      rw [act, hnote, move, Fleet.onCar_eq hc]
      rcases c.move with ⟨fault | ⟨floor | floor⟩, c'⟩
      · simp [arrivals]
      · simp [arrivals, note, Event.isArrival]
      · by_cases hi : id = i
        · subst hi
          by_cases hd : floor = d <;> simp [arrivals, note, Event.isArrival, hd]
        · simp [arrivals, note, Event.isArrival, hi, Ne.symm hi]
  | exchanging floor =>
      rw [act, hnote, arrivals_exchange]
      simp
  | opening =>
      rw [act, hnote, openDoors, Fleet.onCar_eq hc]
      rcases c.openDoors with ⟨fault | floor, c'⟩ <;> simp [arrivals, note, Event.isArrival]
  | returning =>
      rw [act, hnote, returnToDefault, Fleet.onCar_eq hc]
      rcases c.returnToDefault with ⟨fault | _ | _, c'⟩ <;>
        simp [arrivals, note, Event.isArrival]
  | recalling floor rs =>
      cases rs <;> rw [act, hnote] <;>
        simp [closeDoors, raiseAgain, arrivals, note, Event.isArrival]
  | backfilling =>
      rw [act, hnote]
      simp [backfill, arrivals]
  | starting | looking | rechecking | idling | waiting | halted | finished => simp [act, arrivals]

/-! ### Histories -/

/-- Everything that has come about from a fresh fleet and a fresh building, step by step. The worlds
of the past are listed with the latest first. -/
inductive History : List (World Building) → World Building → Prop where
  | fresh (settings : FleetSettings) (strategies : Strategies) (f : Fleet)
      (h : Fleet.make settings strategies = .ok f) :
      History [] (.unstarted f (.vacant f.settings.height))
  | next (past : List (World Building)) (w w' : World Building) (h : History past w)
      (hnext : Next isKeptByBuilding comesIn w w') : History (w :: past) w'

lemma History.called (h : History past w) : Called w [] := by
  induction h with
  | fresh settings strategies f hmake => exact .fresh settings strategies f hmake
  | next past w w' _ hnext ih => exact .next w w' [] ih hnext

/-- Somebody is aboard a car. -/
def Aboard (w : World Building) (x : RiderId) (id : Nat) : Prop :=
  ∃ c, w.fleet.cars[id]? = some c ∧ x ∈ c.state.riders

/-- Somebody has been aboard a car ever since the world `first`, and not just before that. -/
inductive Ride (x : RiderId) (id : Nat) :
    List (World Building) → World Building → World Building → Prop where
  | boards (past : List (World Building)) (w w' : World Building) (hbefore : ¬ w.Aboard x id)
      (hafter : w'.Aboard x id) : Ride x id (w :: past) w' w'
  | rides (past : List (World Building)) (w w' first : World Building)
      (h : Ride x id past w first) (haboard : w'.Aboard x id) : Ride x id (w :: past) w' first

/-! ### On the way -/

/-- What holds of somebody aboard who wants to go to the floor `d`. Since the world `first` their
car has not arrived there and is going to, or it has arrived there once and the exchange is still to
come. -/
inductive Bound (first w : World Building) (id : Nat) (c : Car) (d : Floor) : Prop where
  | ahead (hstop : d ∈ c.state.stops.floors)
      (hnot : (w.phase id).awaitsExchange = true → c.state.floor ≠ d)
      (hcount : w.arrivals id d = first.arrivals id d)
  | there (hawaits : (w.phase id).awaitsExchange = true) (hfloor : c.state.floor = d)
      (hcount : w.arrivals id d = first.arrivals id d + 1)

/-- What does not touch the phase of a worker, and gives its car more to do at most, does not keep
anybody from their way. -/
lemma Bound.grown {c' : Car} (h : Bound first w id c d) (hgrown : c.Grown c')
    (hphase : w'.phase id = w.phase id) (hcount : w'.arrivals id d = w.arrivals id d) :
    Bound first w' id c' d := by
  have hfloor : c'.state.floor = c.state.floor := hgrown.state.floor_eq
  cases h with
  | ahead hstop hnot hsame =>
      refine .ahead (hgrown.state.subset d hstop) (fun hawaits => ?_) (hcount.trans hsame)
      rw [hfloor]
      exact hnot (hphase ▸ hawaits)
  | there hawaits hthere hone =>
      exact .there (hphase ▸ hawaits) (hfloor.trans hthere) (hcount.trans hone)

/-! ### A turn of the worker -/

/-- **Who arrives in a turn**: those aboard who want to go to the floor of the car, in an exchange,
and nobody else. -/
lemma Turn.arrivedAt (h : Turn (Building.keeper now) id c w.fleet w.riders p p' f' b')
    (hagrees : w.fleet.Agrees w.riders) (hc : w.fleet.cars[id]? = some c) (floor : Floor)
    (x : RiderId) :
    x ∈ b'.arrivedAt floor ↔ x ∈ w.riders.arrivedAt floor ∨
      ((∃ here, p = .exchanging here) ∧ floor = c.state.floor ∧ x ∈ c.state.riders ∧
        w.riders.destination? x = some c.state.floor) := by
  have hcar := hagrees.sound.car hc
  have hfloor : c.state.floor.val < w.riders.arrived.length := by
    rw [hagrees.ledger.halls, hagrees.height, ← hagrees.sound.height c (List.mem_of_getElem? hc)]
    exact Fin.lt_def.mp hcar.lawful.floor_lt
  have hhalls := Exchange.run_arrivedAt (hagrees.known hc) hfloor c.settings.height
    c.settings.capacity now
  cases h with
  | exchange | exchangeFailed =>
      refine (hhalls floor x).trans (or_congr_right ?_)
      simp
  | rest _ hover =>
      have hnot : ∀ here, p ≠ .exchanging here := by
        rintro here rfl
        simp [Phase.isOver] at hover
      simp [hnot]
  | _ => simp

/-- A turn after which an exchange is to come, and before which none was, is an arrival. -/
lemma Turn.arrival_cases (h : Turn (Building.keeper now) id c w.fleet w.riders p p' f' b')
    (hsound : w.fleet.Sound) (hc : w.fleet.cars[id]? = some c) {c' : Car}
    (hc' : f'.cars[id]? = some c') :
    (p = .moving ∧ p'.awaitsExchange = true ∧ c.move.1 = .ok (.arrived c'.state.floor)) ∨
      ((∀ d, ¬ (p = .moving ∧ c.move.1 = .ok (.arrived d))) ∧
        (p'.awaitsExchange = true → p.awaitsExchange = true)) := by
  cases h with
  | pass floor x heq => exact Or.inr ⟨by simp [heq], by simp [Phase.awaitsExchange]⟩
  | arrive floor x heq =>
      obtain ⟨rest, -, rfl⟩ := (hsound.car hc).of_arrived heq
      rw [Fleet.cars_setCar_self hc] at hc'
      obtain rfl := Option.some.inj hc'
      have hhere : floor = c.state.floor := by
        cases (hsound.car hc).move_cases with
        | refused _ hmove | passes _ _ _ _ hmove => simp [hmove] at heq
        | arrives _ _ hmove => simpa using congrArg Prod.fst (heq.symm.trans hmove)
      exact Or.inl ⟨rfl, rfl, by rw [heq, hhere]⟩
  | rest _ hover => exact Or.inr ⟨by rintro d ⟨rfl, -⟩; simp [Phase.isOver] at hover, fun h => h⟩
  | _ => exact Or.inr ⟨by simp, by simp [Phase.awaitsExchange]⟩

/-- A turn takes somebody who stays aboard further on their way. -/
lemma Attends.bound_turn {pressed : List RiderId} {c' : Car} (h : w.Attends pressed)
    (hturn : Turn (Building.keeper now) id c w.fleet w.riders p p' w'.fleet w'.riders)
    (hp : w.workers[id]? = some p) (hc : w.fleet.cars[id]? = some c)
    (hc' : w'.fleet.cars[id]? = some c') (hphase : w'.phase id = p')
    (hcount : w'.arrivals id d = w.arrivals id d +
      if p = .moving ∧ c.move.1 = .ok (.arrived d) then 1 else 0)
    (hx : x ∈ c.state.riders) (hx' : x ∈ c'.state.riders) (hd : w.riders.destination? x = some d)
    (hbound : Bound first w id c d) : Bound first w' id c' d := by
  have hafter := (hturn.agrees h.agrees hc).1
  have hbefore : w.phase id = p := phase_eq hp
  cases hturn.own_cases h.agrees hc hc' with
  | travels hnot hriders hstops =>
      -- the exchange is not to come yet, so the destination is still ahead
      cases hbound with
      | there hawaits => exact absurd ((hbefore ▸ hawaits).symm.trans hnot) (by decide)
      | ahead hstop _ hsame =>
          rcases hturn.arrival_cases h.agrees.sound hc hc' with
            ⟨hmoving, hawaits, hmove⟩ | ⟨hnone, hback⟩
          · by_cases hthere : c'.state.floor = d
            · refine .there (hphase ▸ hawaits) hthere ?_
              rw [hcount, if_pos ⟨hmoving, hthere ▸ hmove⟩, hsame]
            · have hstop' := (hstops d hstop).resolve_right fun hhere => hthere hhere.2.symm
              refine .ahead hstop' (fun _ => hthere) ?_
              rw [hcount, if_neg, Nat.add_zero, hsame]
              rintro ⟨-, harrived⟩
              exact hthere (by simpa using hmove.symm.trans harrived)
          · have hshut : p'.awaitsExchange ≠ true := fun hawaits =>
              absurd ((hback hawaits).symm.trans hnot) (by decide)
            have hstop' := (hstops d hstop).resolve_right fun hhere => hshut hhere.1
            refine .ahead hstop' (fun hawaits => absurd (hphase ▸ hawaits) hshut) ?_
            rw [hcount, if_neg (hnone d), Nat.add_zero, hsame]
  | opens hopening hawaits' hriders hstops hfloor =>
      have hcount' : w'.arrivals id d = w.arrivals id d := by simp [hcount, hopening]
      cases hbound with
      | ahead hstop hnot hsame =>
          have hne : c.state.floor ≠ d := hnot (by simp [hbefore, hopening, Phase.awaitsExchange])
          exact .ahead (hstops ▸ hstop) (fun _ => hfloor ▸ hne) (hcount'.trans hsame)
      | there _ hthere hone =>
          exact .there (hphase ▸ hawaits') (hfloor.trans hthere) (hcount'.trans hone)
  | exchanges floor others recalls hexchanging hrecalling hgrown hserved =>
      have hcount' : w'.arrivals id d = w.arrivals id d := by simp [hcount, hexchanging]
      cases hbound with
      | ahead hstop _ hsame =>
          refine .ahead (hgrown.subset d hstop) (fun hawaits => ?_) (hcount'.trans hsame)
          simp [hphase, hrecalling, Phase.awaitsExchange] at hawaits
      | there _ hthere =>
          -- whoever wants to go here has stepped out, and is not aboard any more
          exfalso
          have hhall : x ∈ w'.fleet.listAt w'.riders (.hall d) :=
            (hturn.arrivedAt h.agrees hc d x).mpr
              (Or.inr ⟨⟨floor, hexchanging⟩, hthere.symm, hx, hthere ▸ hd⟩)
          have haboard : x ∈ w'.fleet.listAt w'.riders (.car id) :=
            Fleet.mem_listAt_car.mpr ⟨c', hc', hx'⟩
          exact absurd (hafter.place_unique hhall haboard) (by simp)

/-- Whoever has just boarded has their destination ahead. -/
lemma Attends.bound_boarded {pressed : List RiderId} {c' : Car} (h : w.Attends pressed)
    (hturn : Turn (Building.keeper now) id c w.fleet w.riders p p' w'.fleet w'.riders)
    (hc : w.fleet.cars[id]? = some c) (hc' : w'.fleet.cars[id]? = some c')
    (hphase : w'.phase id = p') (hx : x ∉ c.state.riders) (hx' : x ∈ c'.state.riders) :
    ∃ d, w'.riders.destination? x = some d ∧ Bound w' w' id c' d := by
  cases hturn.own_cases h.agrees hc hc' with
  | travels _ hriders | opens _ _ hriders => exact absurd (hriders ▸ hx') hx
  | exchanges floor others recalls _ hrecalling _ hserved =>
      obtain ⟨d, hstop, hd⟩ := (hserved.aboard x hx').resolve_left fun hstayed => hx hstayed.1
      refine ⟨d, hd, .ahead hstop (fun hawaits => ?_) rfl⟩
      simp [hphase, hrecalling, Phase.awaitsExchange] at hawaits

/-- One step takes everybody who is aboard after it further on their way, or has them board. -/
lemma Attends.bound_next {pressed : List RiderId} {c' : Car} (h : w.Attends pressed)
    (hnext : NextCase w w') (hc' : w'.fleet.cars[id]? = some c') (hx' : x ∈ c'.state.riders) :
    (∃ c, w.fleet.cars[id]? = some c ∧ x ∈ c.state.riders ∧
      ∀ d first, w.riders.destination? x = some d → Bound first w id c d →
        w'.riders.destination? x = some d ∧ Bound first w' id c' d) ∨
    (¬ w.Aboard x id ∧ ∃ d, w'.riders.destination? x = some d ∧ Bound w' w' id c' d) := by
  cases hnext with
  | outside hgrown hlater hphase hlog =>
      obtain ⟨c, hc, hcar⟩ := hgrown.exists_before hc'
      refine Or.inl ⟨c, hc, hcar.riders_eq ▸ hx', fun d first hd hbound => ?_⟩
      exact ⟨hlater.destination? hd, hbound.grown hcar (hphase id) (arrivals_congr hlog)⟩
  | turn now expired i c p p' hp hc hturn hphase hothers heq =>
      have hlater := (hturn.agrees h.agrees hc).2
      have hcount : ∀ j d, w'.arrivals j d = w.arrivals j d +
          if p = .moving ∧ j = i ∧ c.move.1 = .ok (.arrived d) then 1 else 0 := by
        rw [heq]
        exact arrivals_step hp hc (Building.keeper now) expired
      by_cases hi : id = i
      · subst hi
        by_cases hx : x ∈ c.state.riders
        · refine Or.inl ⟨c, hc, hx, fun d first hd hbound => ⟨hlater.destination? hd, ?_⟩⟩
          exact h.bound_turn hturn hp hc hc' hphase (by simpa using hcount id d) hx hx' hd hbound
        · refine Or.inr ⟨?_, h.bound_boarded hturn hc hc' hphase hx hx'⟩
          rintro ⟨y, hy, hxy⟩
          obtain rfl := Option.some.inj (hy.symm.trans hc)
          exact hx hxy
      · obtain ⟨y, hy, hgrown, -⟩ := hturn.others h.agrees.sound hc hi hc'
        refine Or.inl ⟨y, hy, hgrown.riders_eq ▸ hx', fun d first hd hbound => ?_⟩
        refine ⟨hlater.destination? hd, hbound.grown hgrown (hothers id hi) ?_⟩
        simp [hcount id d, hi]

/-- **Everybody aboard** has boarded some time ago, and their car has not arrived at their
destination since, or it has just arrived there for the first time. -/
theorem History.bound (h : History past w) (hc : w.fleet.cars[id]? = some c)
    (hx : x ∈ c.state.riders) :
    ∃ d first, w.riders.destination? x = some d ∧ Ride x id past w first ∧
      Bound first w id c d := by
  induction h generalizing c with
  | fresh settings strategies f hmake =>
      -- nobody is aboard a fresh fleet
      obtain ⟨d, hd, -⟩ := (attends_unstarted hmake).carries id c hc x hx
      simp [unstarted, Building.destination?, Building.vacant] at hd
  | next past w w' hbefore hnext ih =>
      have hattends := hbefore.called.attends
      have haboard : w'.Aboard x id := ⟨c, hc, hx⟩
      rcases hattends.bound_next (hattends.next_cases hnext) hc hx with
        ⟨y, hy, hxy, hkeeps⟩ | ⟨hnot, d, hd, hbound⟩
      · obtain ⟨d, first, hd, hride, hbound⟩ := ih hy hxy
        obtain ⟨hd', hbound'⟩ := hkeeps d first hd hbound
        exact ⟨d, first, hd', .rides past w w' first hride haboard, hbound'⟩
      · exact ⟨d, w', hd, .boards past w w' hnot haboard, hbound⟩

/-! ### Nobody is carried past their floor -/

/-- **Nobody is carried past their floor.** Everybody aboard a car wants to go to a floor at which
it is going to stop, or at which it stands with the exchange still to come; and whoever arrives on a
floor does so in the exchange of the car they are aboard, which stands there, having arrived there
for the first time since they boarded. Whoever is where they want to go when riders are exchanged
does step out. -/
theorem History.nobody_carried_past (h : History past w) :
    (∀ (id : Nat) (c : Car), w.fleet.cars[id]? = some c → ∀ x ∈ c.state.riders,
      ∃ d, w.riders.destination? x = some d ∧ (d ∈ c.state.stops.floors ∨
        (c.state.floor = d ∧ (w.phase id).awaitsExchange = true))) ∧
    (∀ w', Next isKeptByBuilding comesIn w w' → ∀ (x : RiderId) (d : Floor),
      x ∈ w'.riders.arrivedAt d → x ∉ w.riders.arrivedAt d →
      ∃ (now : Nat) (expired : Bool) (id : Nat) (c : Car) (here : Floor) (first : World Building),
        w' = w.step (Building.keeper now) expired id ∧
        w.workers[id]? = some (.exchanging here) ∧ w.fleet.cars[id]? = some c ∧
        x ∈ c.state.riders ∧ w.riders.destination? x = some d ∧ c.state.floor = d ∧
        Ride x id past w first ∧ w.arrivals id d = first.arrivals id d + 1) ∧
    (∀ (now : Nat) (expired : Bool) (id : Nat) (c : Car) (here : Floor),
      w.workers[id]? = some (.exchanging here) → w.fleet.cars[id]? = some c →
      ∀ x ∈ c.state.riders, w.riders.destination? x = some c.state.floor →
        x ∈ (w.step (Building.keeper now) expired id).riders.arrivedAt c.state.floor) := by
  have hattends := h.called.attends
  refine ⟨fun id c hc x hx => ?carried, fun w' hnext x d harrived hnot => ?first,
    fun now expired id c here hp hc x hx hd => ?out⟩
  case carried =>
    obtain ⟨d, hd, hthere⟩ := hattends.carries id c hc x hx
    exact ⟨d, hd, hthere.imp_right fun hstopped => ⟨hstopped.2.symm, hstopped.1⟩⟩
  case first =>
    cases hattends.next_cases hnext with
    | outside _ _ _ _ hhalls =>
        rw [Building.arrivedAt, hhalls] at harrived
        exact absurd harrived hnot
    | turn now expired id c p p' hp hc hturn _ _ heq =>
        obtain ⟨⟨here, rfl⟩, rfl, hx, hd⟩ :=
          ((hturn.arrivedAt hattends.agrees hc d x).mp harrived).resolve_left hnot
        obtain ⟨d', first, hd', hride, hbound⟩ := h.bound hc hx
        obtain rfl : d' = c.state.floor := Option.some.inj (hd'.symm.trans hd)
        refine ⟨now, expired, id, c, here, first, heq, hp, hc, hx, hd, rfl, hride, ?_⟩
        cases hbound with
        | ahead _ hnot' => exact absurd rfl (hnot' (by simp [phase_eq hp, Phase.awaitsExchange]))
        | there _ _ hcount => exact hcount
  case out =>
    have hfits := hattends.orderly.fits id c hc
    rw [phase_eq hp] at hfits
    obtain ⟨p', f', b', log, hturn, heq⟩ :=
      step_eq_turn hattends.agrees.sound hp hc hfits (Building.keeper now) expired
    rw [heq]
    exact (hturn.arrivedAt hattends.agrees hc _ x).mpr (Or.inr ⟨⟨here, rfl⟩, rfl, hx, hd⟩)

/-- Turns of several workers in the order of a schedule make a history longer. -/
lemma History.turns (h : History past w) (now : Nat) (schedule : List (Nat × Bool)) :
    ∃ past', History past' (w.turns (Building.keeper now) schedule) := by
  induction schedule generalizing past w with
  | nil => exact ⟨past, h⟩
  | cons turn schedule ih => exact ih (.next _ _ _ h (.turn _ ⟨now, rfl⟩ turn.2 turn.1))

/-- Somebody rides from floor 0 to floor 2 and is about to step out there. -/
theorem nobody_carried_past_upwards :
    ∃ (past : List (World Building)) (w w' : World Building), History past w ∧
      Next isKeptByBuilding comesIn w w' ∧ 0 ∉ w.riders.arrivedAt 2 ∧ 0 ∈ w'.riders.arrivedAt 2 ∧
      ∃ id first, Ride 0 id past w first ∧ w.arrivals id 2 = first.arrivals id 2 + 1 := by
  have h₀ :=
    History.fresh ⟨4, 1, ⟨1⟩, ⟨1⟩, ⟨1⟩, [0]⟩ ⟨.firstCapableThenIdle, .farthestFirst⟩ _ rfl
  have h₁ := h₀.next _ _ _ .start
  have h₂ := h₁.next _ _ _ (.arrive _ ⟨0, 2, 0, rfl⟩)
  have h₃ := h₂.next _ _ _ (.press 0 true)
  obtain ⟨past, h⟩ := h₃.turns 1 (List.replicate 16 (0, false))
  refine ⟨past, _, _, h, .turn _ ⟨2, rfl⟩ false 0, by decide +kernel, by decide +kernel, ?_⟩
  obtain ⟨-, -, id, c, -, first, -, -, -, -, -, -, hride, hcount⟩ :=
    h.nobody_carried_past.2.1 _ (.turn _ ⟨2, rfl⟩ false 0) 0 2 (by decide +kernel)
      (by decide +kernel)
  exact ⟨id, first, hride, hcount⟩

end World

end ElevatorFleet
