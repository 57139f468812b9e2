import ElevatorFleet.Proofs.Coverage

/-!
No worker ever halts.

* `World.NextCase` lists what one step of a fleet at work can be: something done from outside, or a
  turn of one worker with its car; `World.Attends.next_cases` says that every step is one of these.
* `World.Succeeds` says that what a worker is about to do succeeds, phase by phase, and
  `World.Attends.succeeds` that it does for a worker that has not been halted.
* `World.Called.phase_ne_halted` says that none has.
* `World.Called.no_worker_halts`: whatever comes about, no worker has been halted and the next
  operation of every worker succeeds.
-/

namespace ElevatorFleet

namespace World

variable {w w' : World Building} {f' : Fleet} {b b' : Building} {id : Nat} {c : Car} {p p' : Phase}
  {now : Nat} {pressed : List RiderId}

/-! ### What one step can be -/

/-- What one step can be. Something done from outside gives the cars more to do, or lets somebody
in; it leaves all workers where they are and nobody arrives. Otherwise a worker takes a turn. -/
inductive NextCase (w w' : World Building) : Prop where
  | outside (hgrown : w.fleet.Grown w'.fleet) (hlater : w.riders.Later w'.riders)
      (hphase : ∀ id, w'.phase id = w.phase id) (hlog : w'.log = w.log)
      (hhalls : w'.riders.arrived = w.riders.arrived)
  | turn (now : Nat) (expired : Bool) (id : Nat) (c : Car) (p p' : Phase)
      (hp : w.workers[id]? = some p) (hc : w.fleet.cars[id]? = some c)
      (hturn : Turn (Building.keeper now) id c w.fleet w.riders p p' w'.fleet w'.riders)
      (hphase : w'.phase id = p') (hothers : ∀ i, i ≠ id → w'.phase i = w.phase i)
      (heq : w' = w.step (Building.keeper now) expired id)

/-- Nobody arrives by being let in. -/
lemma arrived_enter (b : Building) (start destination : Floor) (now : Nat) :
    (b.enter start destination now).2.arrived = b.arrived := by
  rw [Building.enter]
  split <;> rfl

lemma NextCase.of_grown {f : Fleet} (hgrown : w.fleet.Grown f) :
    NextCase w { w with fleet := f } :=
  .outside hgrown (.refl _) (fun _ => rfl) rfl rfl

/-- **Every step** of a fleet at work comes from outside or is a turn of a worker. -/
theorem Attends.next_cases (h : w.Attends pressed) (hnext : Next isKeptByBuilding comesIn w w') :
    NextCase w w' := by
  have hsound := h.agrees.sound
  cases hnext with
  | start =>
      have hlog : w.start.log = w.log := by
        rw [World.start]
        split_ifs <;> rfl
      refine .outside ?_ ?_ (fun _ => phase_start) hlog ?_
      · rw [fleet_start]
        exact .refl w.fleet
      · rw [riders_start]
        exact .refl w.riders
      · rw [riders_start]
  | turn k hk expired id =>
      obtain ⟨now, rfl⟩ := hk
      cases h.orderly.step_cases (Building.keeper now) expired id with
      | nobody heq =>
          rw [heq]
          exact .of_grown (.refl w.fleet)
      | turn c p p' f' b' log hp hc _ hturn heq =>
          refine .turn now expired id c p p' hp hc ?_ ?_ (fun i hi => ?_) rfl <;> rw [heq]
          · exact hturn
          · exact phase_set_self hp
          · exact phase_set_ne hi
  | press floor goingUp => exact .of_grown (hsound.press floor goingUp).2
  | dispatch r => exact .of_grown (hsound.dispatch r).2
  | stop id => exact .of_grown (w.fleet.grown_stop id)
  | shutdown => exact .of_grown w.fleet.grown_stopAll
  | arrive riders harrives =>
      obtain ⟨start, destination, now, rfl⟩ := harrives
      exact .outside (.refl _) (h.agrees.ledger.entered start destination now).2 (fun _ => rfl) rfl
        (arrived_enter _ _ _ _)
  | tick clock => exact .of_grown (w.fleet.grown_withClock clock)

/-! ### What a worker is about to do -/

/-- What the worker of the car `c` is about to do in a phase succeeds, the riders being kept by
`k`. -/
def Succeeds (k : Keeper Building) (w : World Building) (id : Nat) (c : Car) : Phase → Prop
  | .moving => ∃ step, (w.move id).1 = .ok step
  | .opening => ∃ floor, (w.openDoors id).1 = .ok floor
  | .exchanging floor => ∃ recalls, (w.exchange k id floor).1 = .ok recalls
  | .recalling floor (r :: _) => ∃ a, (w.raiseAgain id floor r).1 = .ok a
  | .recalling _ [] => (w.closeDoors id).1 = .ok ()
  | .backfilling => ∃ any, (w.backfill id c).1 = .ok any
  | .returning => ∃ any, (w.returnToDefault id c).1 = .ok any
  | .halted _ => False
  | .starting | .looking | .rechecking | .idling | .waiting | .finished => True

/-- With the riders on the books an exchange has an answer. -/
lemma exchange_ok (hagrees : w.fleet.Agrees w.riders) (hc : w.fleet.cars[id]? = some c)
    (floor : Floor) (now : Nat) :
    ∃ recalls, (w.exchange (Building.keeper now) id floor).1 = .ok recalls := by
  obtain ⟨-, others, x, hx, -⟩ := hagrees.exchange hc now
  refine ⟨x.recalls, ?_⟩
  simp only [exchange, hc, hx]

/-- A worker that has not been halted succeeds in what it is about to do. -/
theorem Attends.succeeds (h : w.Attends pressed) (hc : w.fleet.cars[id]? = some c)
    (hnot : ∀ fault, w.phase id ≠ .halted fault) (now : Nat) :
    w.Succeeds (Building.keeper now) id c (w.phase id) := by
  have hsound := h.agrees.sound
  have hcar := hsound.car hc
  have hfits := h.orderly.fits id c hc
  cases hp : w.phase id with
  | moving =>
      rw [hp] at hfits
      simp only [Succeeds, move, Fleet.onCar_eq hc]
      cases hcar.move_cases with
      | refused hempty => exact absurd hempty (hfits.heading rfl)
      | arrives _ _ heq | passes _ _ _ _ heq => exact ⟨_, by rw [heq]⟩
  | opening =>
      rw [hp] at hfits
      have hopen : c.state.activity ≠ .moving := by simp [hfits.opened rfl]
      have heq : c.openDoors = (.ok c.state.floor, _) := if_neg hopen
      simp only [Succeeds, openDoors, Fleet.onCar_eq hc, heq]
      exact ⟨_, rfl⟩
  | exchanging floor => exact exchange_ok h.agrees hc floor now
  | recalling floor rs =>
      rw [hp] at hfits
      cases rs with
      | nil => simp only [Succeeds, closeDoors, Fleet.onCar_eq hc]
      | cons r rs =>
          have hlt := hfits.recalls floor _ rfl r List.mem_cons_self
          obtain ⟨a, f', heq, -⟩ := hsound.dispatch_of_lt hlt
          exact ⟨a, by simp only [raiseAgain, note, heq]⟩
  | backfilling =>
      obtain ⟨any, f', heq, -⟩ := hsound.backfill_spec hc c.state.floor
      exact ⟨any, by simp only [backfill, heq]⟩
  | returning =>
      simp only [Succeeds, returnToDefault, Fleet.onCar_eq hc]
      cases hcar.returnToDefault_cases with
      | stays _ heq | leaves _ _ _ _ _ _ heq => exact ⟨_, by rw [heq]⟩
  | halted fault => exact absurd hp (hnot fault)
  | starting | looking | rechecking | idling | waiting | finished => trivial

/-! ### Nobody is halted -/

/-- No turn halts a worker: the only one that could is an exchange that fails. -/
lemma Turn.phase_ne_halted (h : Turn (Building.keeper now) id c w.fleet w.riders p p' f' b')
    (hagrees : w.fleet.Agrees w.riders) (hc : w.fleet.cars[id]? = some c)
    (hnot : ∀ fault, p ≠ .halted fault) (fault : Fault) : p' ≠ .halted fault := by
  cases h with
  | exchangeFailed floor fault' hfault =>
      exact absurd hfault (hagrees.exchange_ne_error hc now fault')
  | rest => exact hnot fault
  | _ => simp

lemma NextCase.phase_ne_halted (h : NextCase w w') (hagrees : w.fleet.Agrees w.riders)
    (hnot : ∀ id fault, w.phase id ≠ .halted fault) (id : Nat) (fault : Fault) :
    w'.phase id ≠ .halted fault := by
  cases h with
  | outside _ _ hphase =>
      rw [hphase]
      exact hnot id fault
  | turn now expired i c p p' hp hc hturn hphase hothers =>
      by_cases hi : id = i
      · subst hi
        rw [hphase]
        exact hturn.phase_ne_halted hagrees hc (fun fault => phase_eq hp ▸ hnot id fault) fault
      · rw [hothers id hi]
        exact hnot id fault

/-- Whatever comes about, nobody has been halted. -/
lemma Called.phase_ne_halted (h : Called w pressed) (id : Nat) (fault : Fault) :
    w.phase id ≠ .halted fault := by
  induction h generalizing id fault with
  | fresh settings strategies f hmake => simp [phase, unstarted]
  | next w w' pressed hbefore hnext ih =>
      have hattends := hbefore.attends
      exact (hattends.next_cases hnext).phase_ne_halted hattends.agrees ih id fault
  | press w pressed x p _ _ ih => exact ih id fault

/-- **No worker ever halts**: in whatever order riders come in, press their buttons and the workers
take their turns, no worker has been halted, and whatever a worker is about to do succeeds. The car
has somewhere to move to, the doors are not opened under way, the riders can be exchanged at any
moment, the calls of those left behind can be raised again, pending calls can be taken over and the
car can be sent home. -/
theorem Called.no_worker_halts (h : Called w pressed) :
    (∀ (id : Nat) (fault : Fault), w.workers[id]? ≠ some (.halted fault)) ∧
    ∀ (id : Nat) (c : Car) (p : Phase), w.fleet.cars[id]? = some c → w.workers[id]? = some p →
      ∀ k, isKeptByBuilding k → w.Succeeds k id c p := by
  refine ⟨fun id fault hp => h.phase_ne_halted id fault (phase_eq hp), fun id c p hc hp k hk => ?_⟩
  obtain ⟨now, rfl⟩ := hk
  rw [← phase_eq hp]
  exact h.attends.succeeds hc (h.phase_ne_halted id) now

/-- A car for one stands open on floor 0 for two people who want to go up, and leaves the second of
them behind. -/
theorem no_worker_halts_leaving :
    ∃ (w w' : World Building) (c c' : Car), Called w [1, 0] ∧ Called w' [1, 0] ∧
      w.fleet.cars[0]? = some c ∧ w'.fleet.cars[0]? = some c' ∧
      w.workers[0]? = some (.exchanging 0) ∧ w'.workers[0]? = some (.recalling 0 [⟨0, .up⟩]) ∧
      w.Succeeds (Building.keeper 7) 0 c (.exchanging 0) ∧
      w'.Succeeds (Building.keeper 7) 0 c' (.recalling 0 [⟨0, .up⟩]) := by
  have h₀ := Called.fresh ⟨4, 1, ⟨1⟩, ⟨1⟩, ⟨1⟩, [0]⟩ ⟨.firstCapableThenIdle, .farthestFirst⟩ _ rfl
  have h₁ := h₀.next _ _ _ .start
  have h₂ := h₁.next _ _ _ (.arrive _ ⟨0, 2, 0, rfl⟩)
  have h₃ := h₂.next _ _ _ (.arrive _ ⟨0, 3, 0, rfl⟩)
  have h₄ := h₃.press _ _ 0 ⟨0, 0, 2, 0, none, none⟩ (by decide +kernel)
  have h₅ := h₄.press _ _ 1 ⟨1, 0, 3, 0, none, none⟩ (by decide +kernel)
  have hopen := h₅.turns 1 (List.replicate 4 (0, false))
  have hleft := h₅.turns 1 (List.replicate 5 (0, false))
  refine ⟨_, _, ⟨0, ⟨4, 1, ⟨1⟩, ⟨1⟩, ⟨1⟩, 0⟩, ⟨0, .up, .doorOpen, .empty, []⟩, true, true⟩,
    ⟨0, ⟨4, 1, ⟨1⟩, ⟨1⟩, ⟨1⟩, 0⟩, ⟨0, .up, .doorOpen, ⟨[2]⟩, [0]⟩, true, true⟩, hopen, hleft,
    ?car, ?after, ?exchanging, ?recalling, ?exchanges, ?raises⟩
  case exchanges =>
    exact hopen.no_worker_halts.2 0 _ _ (by decide +kernel) (by decide +kernel) _ ⟨7, rfl⟩
  case raises =>
    exact hleft.no_worker_halts.2 0 _ _ (by decide +kernel) (by decide +kernel) _ ⟨7, rfl⟩
  all_goals decide +kernel

end World

end ElevatorFleet
