import ElevatorFleet.Proofs.SingleCar

/-!
A single car always finishes.

* `World.leftAlone` is what becomes of a fleet that is left alone with its riders and its calls: the
  worker of its first car takes one turn after the other.
* `World.Alone.work` keeps what holds of a single car at work through a turn, and
  `World.Alone.exists_run` through a whole `World.Run`.
* `World.Run.exists_idlesAt`: from some turn on nothing that counts is done any more, and
  `World.isAtRest_of_idlesAt`: then there is nothing to do.
* `World.Called.single_car_finishes`: whatever has come about, a single car does only finitely much,
  and from some turn on it is idle, nothing is queued, no call is pending and everybody has arrived.
-/

namespace ElevatorFleet

namespace World

variable {w w' : World Building} {c c' : Car} {p p' : Phase} {f' : Fleet} {b' : Building}
  {now : Nat} {expired : Bool} {pressed : List RiderId} {id : Nat}

/-! ### Turn after turn -/

/-- A turn of the worker of the first car: at which time, and whether the car counts as idle for
long enough. -/
structure Moment where
  now : Nat
  expired : Bool

/-- The worker of the first car takes its turn at some moment. -/
def work (w : World Building) (m : Moment) : World Building :=
  { w with fleet := { w.fleet with clock := m.now } }.step (Building.keeper m.now) m.expired 0

/-- What has become, after so many turns, of a fleet whose workers have been started and which is
left alone: nobody comes in, and nobody calls. -/
def leftAlone (w : World Building) (moments : ℕ → Moment) : ℕ → World Building
  | 0 => w.start
  | n + 1 => (w.leftAlone moments n).work (moments n)

/-- Nobody is done after a turn of a car that has not been told to stop. -/
lemma Alone.isOver_of_turn (h : w.Alone pressed c p)
    (hturn : Turn (Building.keeper now) 0 c w.fleet w.riders p p' f' b') : p'.isOver = false := by
  cases hturn with
  | finish hstopped => exact absurd (h.running.symm.trans hstopped) (by decide)
  | exchangeFailed floor fault hfault =>
      exact absurd hfault (h.attends.agrees.exchange_ne_error h.car now fault)
  | rest _ hover => exact absurd (h.going.symm.trans hover) (by decide)
  | _ => rfl

/-- A turn of its worker leaves a car at work. -/
lemma Alone.step (h : w.Alone pressed c p) (now : Nat) (expired : Bool) :
    ∃ c' p', (w.step (Building.keeper now) expired 0).Alone pressed c' p' ∧
      EffortCase w c p (w.step (Building.keeper now) expired 0).fleet
        (w.step (Building.keeper now) expired 0).riders c' p' := by
  have hagrees := h.attends.agrees
  obtain ⟨p', f', b', log, hturn, heq⟩ :=
    step_eq_turn hagrees.sound h.worker h.car h.fits (Building.keeper now) expired
  obtain ⟨c', hcars, hrunning, heffort⟩ := h.effort_cases hturn
  have hnext := h.attends.next_cases (.turn _ ⟨now, rfl⟩ expired 0)
  have hattends := h.attends.turn now expired 0
  have haway := hnext.turnsAway h.attends h.away
  rw [heq] at hattends haway ⊢
  refine ⟨c', p', ⟨hattends, haway, fun floor x hx => ?_, hcars, ?_, hrunning, ?_⟩, heffort⟩
  · exact h.called floor x (hturn.lines hagrees h.car floor hx)
  · exact List.getElem?_set_self (List.getElem?_eq_some_iff.mp h.worker).1
  · exact h.isOver_of_turn hturn

/-- The clock does not matter to a car at work. -/
lemma Alone.withClock (h : w.Alone pressed c p) (clock : Nat) :
    { w with fleet := { w.fleet with clock } }.Alone pressed c p where
  attends :=
    h.attends.grown (h.attends.agrees.sound.withClock clock) (w.fleet.grown_withClock clock)
  away := (NextCase.of_grown (w.fleet.grown_withClock clock)).turnsAway h.attends h.away
  called := h.called
  cars := h.cars
  worker := h.worker
  running := h.running
  going := h.going

/-- Nor does it to what a worker is about to do. -/
lemma works_withClock (clock : Nat) :
    { w with fleet := { w.fleet with clock } }.Works id c p ↔ w.Works id c p := by
  cases p with
  | backfilling =>
      simp only [Works, backfill, Fleet.backfill]
      cases w.fleet.cars[id]? <;> rfl
  | returning =>
      simp only [Works, returnToDefault, Fleet.onCar]
      cases w.fleet.cars[id]? with
      | none => rfl
      | some x =>
          dsimp only
          split <;> split <;> simp_all
  | _ => rfl

/-- There is one car at work and one phase of its worker. -/
lemma Alone.unique (h : w.Alone pressed c p) (h' : w.Alone pressed c' p') : c' = c ∧ p' = p :=
  ⟨Option.some.inj (h'.car.symm.trans h.car), Option.some.inj (h'.worker.symm.trans h.worker)⟩

/-- A turn at some moment leaves a car at work. -/
lemma Alone.work (h : w.Alone pressed c p) (m : Moment) :
    ∃ c' p', (w.work m).Alone pressed c' p' ∧
      EffortCase w c p (w.work m).fleet (w.work m).riders c' p' := by
  obtain ⟨c', p', halone, heffort⟩ := (h.withClock m.now).step m.now m.expired
  refine ⟨c', p', halone, ?_⟩
  cases heffort with
  | less hless => exact .less hless
  | idles hidles hstate hpool hle hnearer =>
      exact .idles (mt (works_withClock m.now).mpr hidles) hstate hpool hle hnearer

/-! ### Runs -/

/-- A run of a car that is left alone: after `n` turns it is the car `cs n`, and its worker is in
the phase `ps n`. -/
structure Run (pressed : List RiderId) (ws : ℕ → World Building) (cs : ℕ → Car) (ps : ℕ → Phase) :
    Prop where
  alone (n : ℕ) : (ws n).Alone pressed (cs n) (ps n)
  effort (n : ℕ) : EffortCase (ws n) (cs n) (ps n) (ws (n + 1)).fleet (ws (n + 1)).riders
    (cs (n + 1)) (ps (n + 1))

/-- A car at work stays at work when it is left alone. -/
lemma Alone.exists_run (h : w.start.Alone pressed c p) (moments : ℕ → Moment) :
    ∃ cs ps, Run pressed (w.leftAlone moments) cs ps := by
  have halone : ∀ n, ∃ c' p', (w.leftAlone moments n).Alone pressed c' p' := by
    intro n
    induction n with
    | zero => exact ⟨c, p, h⟩
    | succ n ih =>
        obtain ⟨c', p', hbefore⟩ := ih
        obtain ⟨c'', p'', hafter, -⟩ := hbefore.work (moments n)
        exact ⟨c'', p'', hafter⟩
  choose cs ps hrun using halone
  refine ⟨cs, ps, hrun, fun n => ?_⟩
  obtain ⟨c', p', hafter, heffort⟩ := (hrun n).work (moments n)
  obtain ⟨rfl, rfl⟩ := (hrun (n + 1)).unique hafter
  exact heffort

section Run

variable {ws : ℕ → World Building} {cs : ℕ → Car} {ps : ℕ → Phase} {N : ℕ}

/-- Nothing that counts is done in a turn, and nothing changes. -/
structure IdlesAt (ws : ℕ → World Building) (cs : ℕ → Car) (ps : ℕ → Phase) (n : ℕ) : Prop where
  idles : ¬ (ws n).Works 0 (cs n) (ps n)
  state : (cs (n + 1)).state = (cs n).state
  pool : (ws (n + 1)).fleet.pool = (ws n).fleet.pool
  nearer : (cs n).IsAtRest (ws n).fleet.pool ∨
    (ps (n + 1)).turnsToAct (cs (n + 1)) < (ps n).turnsToAct (cs n)

/-- From some turn on nothing that counts is done any more: there is never more to do, and less
after each turn in which something is. -/
lemma Run.exists_idlesAt (h : Run pressed ws cs ps) : ∃ N, ∀ n, N ≤ n → IdlesAt ws cs ps n := by
  let outlooks (n : ℕ) := (cs n).outlook (ps n) (ws n).fleet.pool (ws n).riders
  have hle : ∀ n, outlooks (n + 1) ≤ outlooks n := by
    intro n
    cases h.effort n with
    | less hless => exact hless.le
    | idles _ _ _ hle => exact hle
  obtain ⟨N, hN⟩ := WellFoundedLT.antitone_chain_condition (antitone_nat_of_succ_le hle)
  refine ⟨N, fun n hn => ?_⟩
  have hsame : outlooks (n + 1) = outlooks n := (hN (n + 1) (by omega)).symm.trans (hN n hn)
  cases h.effort n with
  | less hless => exact absurd hsame (ne_of_lt hless)
  | idles hidles hstate hpool _ hnearer => exact ⟨hidles, hstate, hpool, hnearer⟩

/-- As long as nothing that counts is done the car and the pool stay as they are. -/
lemma same_of_idlesAt (h : ∀ n, N ≤ n → IdlesAt ws cs ps n) {n : ℕ} (hn : N ≤ n) :
    (cs n).state = (cs N).state ∧ (ws n).fleet.pool = (ws N).fleet.pool := by
  induction n, hn using Nat.le_induction with
  | base => exact ⟨rfl, rfl⟩
  | succ n hn ih => exact ⟨(h n hn).state.trans ih.1, (h n hn).pool.trans ih.2⟩

/-- If nothing that counts is done any more there is nothing to do: the worker would find it. -/
lemma exists_isAtRest (h : ∀ n, N ≤ n → IdlesAt ws cs ps n) {n : ℕ} (hn : N ≤ n) :
    ∃ m, N ≤ m ∧ (cs m).IsAtRest (ws m).fleet.pool := by
  induction hturns : (ps n).turnsToAct (cs n) using Nat.strong_induction_on generalizing n with
  | _ turns ih =>
      cases (h n hn).nearer with
      | inl hrest => exact ⟨n, hn, hrest⟩
      | inr hnearer => exact ih _ (hturns ▸ hnearer) (by omega) rfl

/-- From then on the car is at rest. -/
lemma isAtRest_of_idlesAt (h : ∀ n, N ≤ n → IdlesAt ws cs ps n) {n : ℕ} (hn : N ≤ n) :
    (cs n).IsAtRest (ws n).fleet.pool := by
  obtain ⟨m, hm, hidle, hempty, hpool⟩ := exists_isAtRest h le_rfl
  obtain ⟨hstate, hsame⟩ := same_of_idlesAt h hm
  obtain ⟨hstate', hsame'⟩ := same_of_idlesAt h hn
  rw [Car.IsAtRest, hstate', hsame', ← hstate, ← hsame]
  exact ⟨hidle, hempty, hpool⟩

end Run

/-! ### A single car finishes -/

/-- A worker that is done after a turn has found out that its car has been told to stop. -/
lemma Turn.running_of_finished
    (h : Turn (Building.keeper now) id c w.fleet w.riders p .finished f' b')
    (hc : w.fleet.cars[id]? = some c) (hc' : f'.cars[id]? = some c')
    (hbefore : p = .finished → c.running = false) : c'.running = false := by
  cases h with
  | finish hstopped =>
      obtain rfl : c' = c := Option.some.inj (hc'.symm.trans hc)
      exact hstopped
  | rest =>
      obtain rfl : c' = c := Option.some.inj (hc'.symm.trans hc)
      exact hbefore rfl

lemma NextCase.running_of_finished (hnext : NextCase w w') (hsound : w.fleet.Sound)
    (hbefore : ∀ (id : Nat) (c : Car), w.fleet.cars[id]? = some c → w.phase id = .finished →
      c.running = false) (id : Nat) (c' : Car) (hc' : w'.fleet.cars[id]? = some c')
    (hfinished : w'.phase id = .finished) : c'.running = false := by
  have hgrows : ∀ c : Car, c.Grown c' → c.running = false → c'.running = false := by
    intro c hgrown hstopped
    cases hgrown.running with
    | inl hsame => exact hsame.trans hstopped
    | inr hstop => exact hstop.1
  cases hnext with
  | outside hgrown _ hphase =>
      obtain ⟨c, hc, hcar⟩ := hgrown.exists_before hc'
      exact hgrows c hcar (hbefore id c hc (hphase id ▸ hfinished))
  | turn now expired i c p p' hp hc hturn hphase hothers =>
      by_cases hi : id = i
      · subst hi
        obtain rfl : p' = .finished := hphase.symm.trans hfinished
        exact hturn.running_of_finished hc hc' fun heq => hbefore id c hc ((phase_eq hp).trans heq)
      · obtain ⟨x, hx, hgrown, -⟩ := hturn.others hsound hc hi hc'
        exact hgrows x hgrown (hbefore id x hx (hothers id hi ▸ hfinished))

/-- Whatever comes about, a worker is done only with a car that has been told to stop. -/
lemma Called.running_of_finished (h : Called w pressed) (id : Nat) (c : Car)
    (hc : w.fleet.cars[id]? = some c) (hfinished : w.phase id = .finished) :
    c.running = false := by
  induction h generalizing id c with
  | fresh settings strategies f hmake => simp [phase, unstarted] at hfinished
  | next w w' pressed hbefore hnext ih =>
      have hattends := hbefore.attends
      exact (hattends.next_cases hnext).running_of_finished hattends.agrees.sound ih id c hc
        hfinished
  | press w pressed x p hbefore _ ih =>
      have hattends := hbefore.attends
      exact (hattends.next_cases (.press p.start p.goingUp)).running_of_finished
        hattends.agrees.sound ih id c hc hfinished

/-- Once the workers have been started the first car has one. -/
lemma exists_worker (hc : w.fleet.cars[0]? = some c) : ∃ p, w.start.workers[0]? = some p := by
  rw [start]
  split_ifs with hstarted
  · have hne : w.workers ≠ [] := by simpa [isStarted] using hstarted
    exact ⟨_, List.getElem?_eq_getElem (List.length_pos_iff.mpr hne)⟩
  · refine ⟨.starting, ?_⟩
    show (w.fleet.cars.map _)[0]? = _
    rw [List.getElem?_map, hc]
    rfl

/-- Once its worker has been started, a single car that has not been told to stop is at work. -/
lemma Called.exists_alone (h : Called w pressed) (hone : w.fleet.size = 1)
    (hrunning : ∀ c ∈ w.fleet.cars, c.running = true)
    (hpressed : ∀ floor, ∀ x ∈ w.riders.lineAt floor, x ∈ pressed) :
    ∃ c p, w.start.Alone pressed c p := by
  obtain ⟨c, hcars⟩ := List.length_eq_one_iff.mp hone
  have hc : w.start.fleet.cars[0]? = some c := by simp [fleet_start, hcars]
  have hgoing : c.running = true := hrunning c (by simp [hcars])
  obtain ⟨p, hp⟩ := exists_worker (fleet_start ▸ hc)
  have hstart : Called w.start pressed := h.next _ _ _ .start
  refine ⟨c, p, hstart.attends, hstart.turnsAway, riders_start.symm ▸ hpressed,
    fleet_start.symm ▸ hcars, hp, hgoing, ?_⟩
  have hphase := phase_eq hp
  cases p with
  | halted fault => exact absurd hphase (hstart.phase_ne_halted 0 fault)
  | finished =>
      have hstopped := hstart.running_of_finished 0 c hc hphase
      exact absurd (hgoing.symm.trans hstopped) (by decide)
  | _ => rfl

/-- **A single car always finishes**: whatever has come about in a building with one car that has
not been told to stop, once everybody who waits has pressed their button and nobody comes in or
calls any more, the worker does only finitely many things that count, at whatever times it takes its
turns and however often the car counts as idle for long enough. From some turn on the car is idle,
nothing is queued, no call is pending and everybody has arrived. -/
theorem Called.single_car_finishes (h : Called w pressed) (hone : w.fleet.size = 1)
    (hrunning : ∀ c ∈ w.fleet.cars, c.running = true)
    (hpressed : ∀ floor, ∀ x ∈ w.riders.lineAt floor, x ∈ pressed) (moments : ℕ → Moment) :
    {n | ∃ c p, (w.leftAlone moments n).fleet.cars = [c] ∧
      (w.leftAlone moments n).workers[0]? = some p ∧
        (w.leftAlone moments n).Works 0 c p}.Finite ∧
    ∃ N, ∀ n, N ≤ n → ∃ c, (w.leftAlone moments n).fleet.cars = [c] ∧
      c.state.activity = .idle ∧ c.state.stops = .empty ∧
      (w.leftAlone moments n).fleet.pool = .empty ∧
      (w.leftAlone moments n).riders.allArrived = true := by
  obtain ⟨c, p, halone⟩ := h.exists_alone hone hrunning hpressed
  obtain ⟨cs, ps, hrun⟩ := halone.exists_run moments
  obtain ⟨N, hidles⟩ := hrun.exists_idlesAt
  constructor
  · refine (Set.finite_lt_nat N).subset ?_
    rintro n ⟨c', p', hcars, hp', hworks⟩
    by_contra hn
    obtain rfl : c' = cs n := List.singleton_inj.mp (hcars.symm.trans (hrun.alone n).cars)
    obtain rfl : p' = ps n := Option.some.inj (hp'.symm.trans (hrun.alone n).worker)
    exact (hidles n (by simpa using hn)).idles hworks
  · refine ⟨N, fun n hn => ?_⟩
    obtain ⟨hidle, hempty, hpool⟩ := isAtRest_of_idlesAt hidles hn
    refine ⟨cs n, (hrun.alone n).cars, hidle, hempty, hpool, ?_⟩
    exact Building.stagesLeft_eq_zero_iff.mp ((hrun.alone n).stagesLeft_eq_zero hidle hpool)

/-- Two people have called a car for one to floor 0, and the car counts as idle for long enough in
every third turn. -/
theorem single_car_finishes_crowded :
    ∃ (w : World Building) (moments : ℕ → Moment), Called w [1, 0] ∧ w.fleet.size = 1 ∧
      (∀ c ∈ w.fleet.cars, c.running = true) ∧
      (∀ floor, ∀ x ∈ w.riders.lineAt floor, x ∈ [1, 0]) ∧ w.riders.allArrived = false ∧
      {n | ∃ c p, (w.leftAlone moments n).fleet.cars = [c] ∧
        (w.leftAlone moments n).workers[0]? = some p ∧
          (w.leftAlone moments n).Works 0 c p}.Finite ∧
      ∃ N, ∀ n, N ≤ n → (w.leftAlone moments n).riders.allArrived = true := by
  have h₀ := Called.fresh ⟨4, 1, ⟨1⟩, ⟨1⟩, ⟨1⟩, [0]⟩ ⟨.firstCapableThenIdle, .farthestFirst⟩ _ rfl
  have h₁ := h₀.next _ _ _ .start
  have h₂ := h₁.next _ _ _ (.arrive _ ⟨0, 2, 0, rfl⟩)
  have h₃ := h₂.next _ _ _ (.arrive _ ⟨0, 3, 0, rfl⟩)
  have h₄ := h₃.press _ _ 0 ⟨0, 0, 2, 0, none, none⟩ (by decide +kernel)
  have h₅ := h₄.press _ _ 1 ⟨1, 0, 3, 0, none, none⟩ (by decide +kernel)
  refine ⟨_, fun n => ⟨n, n % 3 = 0⟩, h₅, ?one, ?running, ?pressed, ?waiting, ?finished⟩
  case finished =>
    obtain ⟨hfinite, N, hrest⟩ := h₅.single_car_finishes (by decide +kernel)
      (by decide +kernel) (by decide +kernel) fun n => ⟨n, n % 3 = 0⟩
    refine ⟨hfinite, N, fun n hn => ?_⟩
    obtain ⟨c, -, -, -, -, harrived⟩ := hrest n hn
    exact harrived
  all_goals decide +kernel

end World

end ElevatorFleet
