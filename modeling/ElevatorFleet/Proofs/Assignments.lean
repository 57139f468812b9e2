import ElevatorFleet.Proofs.Acceptance
import ElevatorFleet.Proofs.Plans

/-!
Who gets a hall call.

* `Dispatch.Serves`, `Dispatch.Passes` and `Dispatch.Rests` are the kinds of cars that matter to a
  call: those that serve it already, those that can take it on their way, and the idle ones.
* `Dispatch.IsTaker` is the first car of the first kind of which there is any, and
  `Dispatch.taker_of_isTaker` says that asking the cars in turn finds this car.
* `Dispatch.GetsCall` is what becomes of it.
* `Fleet.Reachable.dispatch_exact`: a call for a floor of the building goes to the first car that
  serves it, else to its taker, else into the pool. The rules differ only in the taker.
-/

namespace ElevatorFleet

namespace Dispatch

variable {cs : List Car} {c c' x : Car} {r : Request} {id now : Nat} {P : Car → Prop}
  {Ps : List (Car → Prop)} {eligible : CarState → Bool} {pool : Pool}

/-! ### The first of some cars -/

/-- `c` is the first car of a kind, and `id` its number. -/
structure IsFirst (P : Car → Prop) (cs : List Car) (id : Nat) (c : Car) : Prop where
  here : cs[id]? = some c
  holds : P c
  before : ∀ j < id, ∀ x, cs[j]? = some x → ¬ P x

lemma isFirst_cons : IsFirst P (x :: cs) id c ↔
    (P x ∧ id = 0 ∧ x = c) ∨ (¬ P x ∧ ∃ j, id = j + 1 ∧ IsFirst P cs j c) := by
  constructor
  · rintro ⟨hhere, hholds, hbefore⟩
    cases id with
    | zero =>
        obtain rfl : x = c := by simpa using hhere
        exact Or.inl ⟨hholds, rfl, rfl⟩
    | succ j =>
        refine Or.inr ⟨hbefore 0 j.succ_pos x rfl, j, rfl, by simpa using hhere, hholds, ?_⟩
        exact fun i hi y hy => hbefore (i + 1) (Nat.succ_lt_succ hi) y (by simpa using hy)
  · rintro (⟨hx, rfl, rfl⟩ | ⟨hx, j, rfl, hfirst⟩)
    · exact ⟨rfl, hx, fun j hj => absurd hj j.not_lt_zero⟩
    · refine ⟨by simpa using hfirst.here, hfirst.holds, fun i hi y hy => ?_⟩
      cases i with
      | zero =>
          obtain rfl : x = y := by simpa using hy
          exact hx
      | succ i => exact hfirst.before i (Nat.lt_of_succ_lt_succ hi) y (by simpa using hy)

/-- If there is a car of a kind there is a first one. -/
lemma exists_isFirst (h : ∃ c ∈ cs, P c) : ∃ id c, IsFirst P cs id c := by
  induction cs with
  | nil => simp at h
  | cons x cs ih =>
      by_cases hx : P x
      · exact ⟨0, x, isFirst_cons.mpr (Or.inl ⟨hx, rfl, rfl⟩)⟩
      · obtain ⟨c, hc, hholds⟩ := h
        have hc' : c ∈ cs := (List.mem_cons.mp hc).resolve_left fun heq => hx (heq ▸ hholds)
        obtain ⟨id, c, hfirst⟩ := ih ⟨c, hc', hholds⟩
        exact ⟨id + 1, c, isFirst_cons.mpr (Or.inr ⟨hx, id, rfl, hfirst⟩)⟩

lemma IsFirst.mem (h : IsFirst P cs id c) : c ∈ cs := List.mem_of_getElem? h.here

lemma findIdx?_of_isFirst {p : Car → Bool} (hp : ∀ c, p c = true ↔ P c)
    (h : IsFirst P cs id c) : cs.findIdx? p = some id := by
  obtain ⟨hid, rfl⟩ := List.getElem?_eq_some_iff.mp h.here
  refine List.findIdx?_eq_some_iff_getElem.mpr ⟨hid, (hp _).mpr h.holds, fun j hj hholds => ?_⟩
  exact h.before j hj _ (List.getElem?_eq_getElem _) ((hp _).mp hholds)

/-! ### The cars that matter to a call -/

/-- The car serves a call already: the floor of the call is queued, and the car travels in the
direction of the call. -/
def Serves (r : Request) (c : Car) : Prop :=
  r.floor ∈ c.state.stops.floors ∧ c.state.direction = r.direction

/-- The car can take a call on its way: it is moving or has its doors open, it has a free place, it
travels in the direction of the call, and it has not passed the floor of the call. -/
def Passes (r : Request) (c : Car) : Prop :=
  (c.state.activity = .moving ∨ c.state.activity = .doorOpen) ∧
    c.state.riders.length < c.settings.capacity ∧ c.state.direction = r.direction ∧
    c.state.direction.reaches c.state.floor r.floor = true

/-- The car is idle. -/
def Rests (c : Car) : Prop := c.state.activity = .idle

instance (r : Request) (c : Car) : Decidable (Serves r c) := inferInstanceAs (Decidable (_ ∧ _))

instance (r : Request) (c : Car) : Decidable (Passes r c) := inferInstanceAs (Decidable (_ ∧ _))

instance (c : Car) : Decidable (Rests c) := inferInstanceAs (Decidable (_ = _))

/-- The kinds of cars that can take a call, in the order in which a rule asks them. -/
def kinds (r : Request) : DispatchRule → List (Car → Prop)
  | .firstCapableThenIdle => [Passes r, Rests]
  | .idleFirstThenCapable => [Rests, Passes r]

/-- The car that takes a call: the first one of the first kind of which there is any. -/
inductive IsTaker (cs : List Car) (id : Nat) (c : Car) : List (Car → Prop) → Prop where
  | here (P : Car → Prop) (Ps : List (Car → Prop)) (h : IsFirst P cs id c) :
      IsTaker cs id c (P :: Ps)
  | later (P : Car → Prop) (Ps : List (Car → Prop)) (hnone : ∀ x ∈ cs, ¬ P x)
      (h : IsTaker cs id c Ps) : IsTaker cs id c (P :: Ps)

/-- If there is a car of one of some kinds there is a taker. -/
lemma exists_isTaker (h : ∃ P ∈ Ps, ∃ c ∈ cs, P c) : ∃ id c, IsTaker cs id c Ps := by
  induction Ps with
  | nil => simp at h
  | cons P Ps ih =>
      by_cases hP : ∃ c ∈ cs, P c
      · obtain ⟨id, c, hfirst⟩ := exists_isFirst hP
        exact ⟨id, c, .here P Ps hfirst⟩
      · obtain ⟨Q, hQ, hex⟩ := h
        have hQ' : Q ∈ Ps := (List.mem_cons.mp hQ).resolve_left fun heq => hP (heq ▸ hex)
        obtain ⟨id, c, htaker⟩ := ih ⟨Q, hQ', hex⟩
        exact ⟨id, c, .later P Ps (fun x hx hholds => hP ⟨x, hx, hholds⟩) htaker⟩

lemma IsTaker.mem (h : IsTaker cs id c Ps) : c ∈ cs := by
  induction h with
  | here P Ps h => exact h.mem
  | later P Ps _ _ ih => exact ih

lemma IsTaker.exists_kind (h : IsTaker cs id c Ps) : ∃ P ∈ Ps, P c := by
  induction h with
  | here P Ps h => exact ⟨P, List.mem_cons_self, h.holds⟩
  | later P Ps _ _ ih =>
      obtain ⟨Q, hQ, hholds⟩ := ih
      exact ⟨Q, List.mem_cons_of_mem P hQ, hholds⟩

/-- Both rules know the same kinds of cars. -/
lemma mem_kinds {rule : DispatchRule} : P ∈ kinds r rule ↔ P = Passes r ∨ P = Rests := by
  cases rule <;> simp [kinds, or_comm]

/-! ### Asking the cars in turn -/

/-- The kind of car that takes a call when a class of cars is asked. -/
def Accepts (eligible : CarState → Bool) (r : Request) (c : Car) : Prop :=
  eligible c.state = true ∧ c.state.canAccept r c.settings.capacity = true

lemma accepts_isActive : Accepts CarState.isActive r c ↔ Passes r c := by
  have hactive : c.state.isActive = true ↔
      c.state.activity = .moving ∨ c.state.activity = .doorOpen := by
    simp [CarState.isActive]
  rw [Accepts, Passes, hactive]
  refine and_congr_right fun hbusy => CarState.canAccept_of_busy ?_
  rcases hbusy with heq | heq <;> simp [heq]

lemma accepts_isIdle : Accepts CarState.isIdle r c ↔ Rests c := by
  rw [Accepts, Rests, CarState.isIdle_iff]
  exact and_iff_left_of_imp fun hidle => CarState.canAccept_of_idle hidle

/-- The classes that a rule asks consist of the cars of its kinds. -/
lemma classes_kinds (rule : DispatchRule) (r : Request) :
    List.Forall₂ (fun eligible P => ∀ c, Accepts eligible r c ↔ P c) rule.classes
      (kinds r rule) := by
  cases rule with
  | firstCapableThenIdle =>
      exact .cons (fun _ => accepts_isActive) (.cons (fun _ => accepts_isIdle) .nil)
  | idleFirstThenCapable =>
      exact .cons (fun _ => accepts_isIdle) (.cons (fun _ => accepts_isActive) .nil)

lemma firstTaker_of_none (hnone : ∀ c ∈ cs, ¬ Accepts eligible r c) :
    firstTaker eligible r cs = (.ok none, cs) := by
  induction cs with
  | nil => rfl
  | cons c cs ih =>
      obtain ⟨hc, hcs⟩ := List.forall_mem_cons.mp hnone
      rw [firstTaker, Car.offer_of_not hc, ih hcs]
      rfl

/-- Of the cars of one class the first that accepts takes the call, and all others stay as they
are. -/
lemma firstTaker_of_isFirst (h : ∀ c ∈ cs, c.Sound) (hin : ∀ c ∈ cs, r.floor < c.settings.height)
    (hfirst : IsFirst (Accepts eligible r) cs id c) :
    ∃ c', c.Takes r c' ∧ firstTaker eligible r cs = (.ok (some id), cs.set id c') := by
  induction cs generalizing id with
  | nil => simpa using hfirst.here
  | cons x cs ih =>
      obtain ⟨hx, hcs⟩ := List.forall_mem_cons.mp h
      obtain ⟨hxin, hcsin⟩ := List.forall_mem_cons.mp hin
      rcases isFirst_cons.mp hfirst with ⟨hok, rfl, rfl⟩ | ⟨hno, j, rfl, hlater⟩
      · obtain ⟨x', hoffer, htakes⟩ := hx.offer_of_canAccept hok.1 hok.2 hxin
        exact ⟨x', htakes, by rw [firstTaker, hoffer]; rfl⟩
      · obtain ⟨c', htakes, heq⟩ := ih hcs hcsin hlater
        refine ⟨c', htakes, ?_⟩
        rw [firstTaker, Car.offer_of_not hno, heq]
        rfl

section

variable {classes : List (CarState → Bool)}
  (hkinds : List.Forall₂ (fun eligible P => ∀ c, Accepts eligible r c ↔ P c) classes Ps)

include hkinds

lemma taker_of_none (hnone : ∀ P ∈ Ps, ∀ c ∈ cs, ¬ P c) :
    taker r classes cs = (.ok none, cs) := by
  induction hkinds with
  | nil => rfl
  | cons hkind _ ih =>
      obtain ⟨hfirst, hlater⟩ := List.forall_mem_cons.mp hnone
      rw [taker, firstTaker_of_none fun c hc => mt (hkind c).mp (hfirst c hc)]
      exact ih hlater

/-- Asking one class after the other finds the taker of the call, and all other cars stay as they
are. -/
lemma taker_of_isTaker (h : ∀ c ∈ cs, c.Sound) (hin : ∀ c ∈ cs, r.floor < c.settings.height)
    (htaker : IsTaker cs id c Ps) :
    ∃ c', c.Takes r c' ∧ taker r classes cs = (.ok (some id), cs.set id c') := by
  induction hkinds with
  | nil => cases htaker
  | cons hkind _ ih =>
      cases htaker with
      | here _ _ hfirst =>
          have hfirst' : IsFirst (Accepts _ r) cs id c :=
            ⟨hfirst.here, (hkind c).mpr hfirst.holds, fun j hj x hx =>
              mt (hkind x).mp (hfirst.before j hj x hx)⟩
          obtain ⟨c', htakes, heq⟩ := firstTaker_of_isFirst h hin hfirst'
          exact ⟨c', htakes, by rw [taker, heq]⟩
      | later _ _ hnone htaker =>
          obtain ⟨c', htakes, heq⟩ := ih htaker
          refine ⟨c', htakes, ?_⟩
          rw [taker, firstTaker_of_none fun x hx => mt (hkind x).mp (hnone x hx)]
          exact heq

end

/-! ### What becomes of the taker -/

/-- `c'` is `c` after it has got a call. The floor of the call is a new entry of its queue, which is
in the order of its sweep. A car under way goes on in its direction; an idle car sets off toward the
floor of the call, or in the direction of the call if it stands there. Nothing else about the car
has changed, but that it is awake. -/
structure GetsCall (r : Request) (c c' : Car) : Prop where
  new : r.floor ∉ c.state.stops.floors
  queued : c'.state.stops.floors.Perm (r.floor :: c.state.stops.floors)
  ordered : c'.state.stops.OrderedFor c'.state.direction
  under_way : c.state.activity ≠ .idle →
    c'.state.direction = c.state.direction ∧ c'.state.activity = c.state.activity
  sets_off : c.state.activity = .idle → c'.state.activity = .moving
  turns : c.state.activity = .idle → r.floor ≠ c.state.floor →
    c'.state.direction = .toward c.state.floor r.floor
  faces : c.state.activity = .idle → r.floor = c.state.floor → c'.state.direction = r.direction
  floor_eq : c'.state.floor = c.state.floor
  riders_eq : c'.state.riders = c.state.riders
  rest_eq : c' = { c with state := c'.state, token := true }

lemma getsCall_of_takes (h : c.Sound) (htakes : c.Takes r c')
    (hkind : Passes r c ∨ Rests c) (hnot : ¬ Serves r c) : GetsCall r c c' := by
  have hnew : r.floor ∉ c.state.stops.floors := by
    intro hmem
    cases hkind with
    | inl hpasses => exact hnot ⟨hmem, hpasses.2.2.1⟩
    | inr hrests => exact Stops.ne_empty_of_mem hmem (h.lawful.idle hrests)
  have hdirection := htakes.direction_eq
  rw [CarState.directionFor] at hdirection
  have hnodup : (r.floor :: c.state.stops.floors).Nodup :=
    List.nodup_cons.mpr ⟨hnew, h.lawful.ordered.nodup⟩
  refine ⟨hnew, ?_, htakes.sound.lawful.ordered, fun hbusy => ?_, fun hidle => ?_,
    fun hidle hne => ?_, fun hidle hhere => ?_, htakes.floor_eq, htakes.riders_eq,
    htakes.when_new hnew⟩
  · exact (List.perm_ext_iff_of_nodup htakes.sound.lawful.ordered.nodup hnodup).mpr fun f => by
      rw [htakes.mem_stops, List.mem_cons]
  · exact ⟨(htakes.holdsCourse hbusy).direction_eq, (htakes.holdsCourse hbusy).activity_eq⟩
  · rw [htakes.activity_eq, if_pos hidle]
  · rw [hdirection, if_pos hidle, if_neg hne]
  · rw [hdirection, if_pos hidle, if_pos hhere]

/-! ### The outcome of a call -/

variable {rule : DispatchRule}

lemma run_of_serves (hfirst : IsFirst (Serves r) cs id c) (rule : DispatchRule) (pool : Pool)
    (now : Nat) : run rule cs pool r now = (.ok (.alreadyServed id), cs, pool) := by
  rw [run, findIdx?_of_isFirst (fun c => ?_) hfirst]
  simp [Car.isServing, CarState.isServing, Serves]

lemma findIdx?_of_not_serves (hnot : ∀ c ∈ cs, ¬ Serves r c) :
    cs.findIdx? (·.isServing r) = none := by
  refine List.findIdx?_eq_none_iff.mpr fun c hc => Bool.eq_false_iff.mpr fun hserving => ?_
  exact hnot c hc (by simpa [Car.isServing, CarState.isServing, Serves] using hserving)

lemma run_of_isTaker (h : ∀ c ∈ cs, c.Sound) (hin : ∀ c ∈ cs, r.floor < c.settings.height)
    (hnot : ∀ c ∈ cs, ¬ Serves r c) (htaker : IsTaker cs id c (kinds r rule)) (pool : Pool)
    (now : Nat) :
    ∃ c', GetsCall r c c' ∧ run rule cs pool r now = (.ok (.assigned id), cs.set id c', pool) := by
  obtain ⟨c', htakes, heq⟩ := taker_of_isTaker (classes_kinds rule r) h hin htaker
  have hkind : Passes r c ∨ Rests c := by
    obtain ⟨P, hP, hholds⟩ := htaker.exists_kind
    rcases mem_kinds.mp hP with rfl | rfl
    · exact Or.inl hholds
    · exact Or.inr hholds
  refine ⟨c', getsCall_of_takes (h c htaker.mem) htakes hkind (hnot c htaker.mem), ?_⟩
  rw [run, findIdx?_of_not_serves hnot]
  dsimp only
  rw [heq]

lemma run_of_none (hnot : ∀ c ∈ cs, ¬ Serves r c) (hnone : ∀ c ∈ cs, ¬ Passes r c ∧ ¬ Rests c)
    (rule : DispatchRule) (pool : Pool) (now : Nat) :
    run rule cs pool r now = (.ok .pending, cs, ⟨pool.entries ++ [⟨r, now⟩]⟩) := by
  have hkinds : ∀ P ∈ kinds r rule, ∀ c ∈ cs, ¬ P c := by
    intro P hP c hc
    rcases mem_kinds.mp hP with rfl | rfl
    · exact (hnone c hc).1
    · exact (hnone c hc).2
  rw [run, findIdx?_of_not_serves hnot]
  dsimp only
  rw [taker_of_none (classes_kinds rule r) hkinds]
  rfl

/-- A call that some car can take is handed out. -/
lemma exists_assigned (h : ∀ c ∈ cs, c.Sound) (hin : ∀ c ∈ cs, r.floor < c.settings.height)
    (hnot : ∀ c ∈ cs, ¬ Serves r c) (hkind : ∃ c ∈ cs, Passes r c ∨ Rests c)
    (rule : DispatchRule) (pool : Pool) (now : Nat) :
    ∃ id, (run rule cs pool r now).1 = .ok (.assigned id) := by
  have hsome : ∃ P ∈ kinds r rule, ∃ c ∈ cs, P c := by
    obtain ⟨c, hc, hpasses | hrests⟩ := hkind
    · exact ⟨Passes r, mem_kinds.mpr (Or.inl rfl), c, hc, hpasses⟩
    · exact ⟨Rests, mem_kinds.mpr (Or.inr rfl), c, hc, hrests⟩
  obtain ⟨id, c, htaker⟩ := exists_isTaker hsome
  obtain ⟨c', -, heq⟩ := run_of_isTaker h hin hnot htaker pool now
  exact ⟨id, by rw [heq]⟩

end Dispatch

namespace Fleet

open Dispatch

variable {settings : FleetSettings} {strategies : Strategies} {f f' : Fleet} {r : Request}

/-! ### Numbers and places -/

/-- Every car stands at the place of its number in the list. -/
def Numbered (f : Fleet) : Prop :=
  ∀ (id : Nat) (c : Car), f.cars[id]? = some c → c.id = id

lemma Numbered.grown (h : f.Numbered) (hgrown : f.Grown f') : f'.Numbered := fun id c' hc' => by
  obtain ⟨c, hc, hcar⟩ := hgrown.exists_before hc'
  exact hcar.id_eq.trans (h id c hc)

lemma Numbered.setCar (h : f.Numbered) {id : Nat} {c c' : Car} (hc : f.cars[id]? = some c)
    (hid : c'.id = c.id) : (f.setCar id c').Numbered := fun i x hx => by
  by_cases hi : i = id
  · subst hi
    rw [cars_setCar_self hc] at hx
    obtain rfl := Option.some.inj hx
    exact hid.trans (h i c hc)
  · rw [cars_setCar_ne hi] at hx
    exact h i x hx

/-- Whatever becomes of a fleet, the numbers of its cars are their places. -/
lemma Reachable.numbered (h : Reachable settings strategies f) : f.Numbered := by
  induction h with
  | made f hmake =>
      obtain ⟨-, rfl⟩ := sound_of_make hmake
      intro id c hc
      obtain ⟨floor, -, rfl⟩ : ∃ floor, settings.defaultFloors[id]? = some floor ∧
          .fresh id (settings.carAt floor) = c := by
        simpa [resting] using hc
      rfl
  | press f floor goingUp hf ih => exact ih.grown (hf.sound.1.press floor goingUp).2
  | dispatch f r hf ih => exact ih.grown (hf.sound.1.dispatch r).2
  | backfill f id floor hf ih => exact ih.grown (hf.sound.1.backfill id floor).2
  | onCar f id op hf ih =>
      cases hc : f.cars[id]? with
      | none => simpa [Fleet.onCar, hc] using ih
      | some c =>
          rw [onCar_eq hc]
          exact ih.setCar hc (op.id_perform (hf.sound.1.car hc))
  | stopAll f _ ih => exact ih.grown f.grown_stopAll
  | reset f _ ih =>
      intro id c hc
      obtain ⟨x, hx, rfl⟩ : ∃ x, f.cars[id]? = some x ∧ x.reset = c := by
        simpa [Fleet.reset] using hc
      exact ih id x hx
  | tick f clock _ ih => exact ih

/-! ### Every fleet and every call -/

/-- **Who gets a call**, in any fleet, under either rule, with any pool, if the call is for a floor
of the building. If some car serves it already the first such car does, and nothing changes.
Otherwise the taker gets it, that is the first car that can take it on its way or the first idle
one, in the order of the rule; all other cars and the pool stay as they are. With no car of either
kind the call joins the pool at its end, and no car changes. So the rules agree whenever the call is
served already or ends in the pool, and otherwise both hand it out. -/
theorem Reachable.dispatch_exact (h : Reachable settings strategies f)
    (hlt : r.floor < settings.height) (pool : Pool) (now : Nat) :
    (∀ (id : Nat) (c : Car), f.cars[id]? = some c → c.id = id) ∧
    (∀ rule,
      (∀ id c, IsFirst (Serves r) f.cars id c →
        run rule f.cars pool r now = (.ok (.alreadyServed id), f.cars, pool)) ∧
      ((∀ c ∈ f.cars, ¬ Serves r c) →
        (∀ id c, IsTaker f.cars id c (kinds r rule) → ∃ c', GetsCall r c c' ∧
          run rule f.cars pool r now = (.ok (.assigned id), f.cars.set id c', pool)) ∧
        ((∀ c ∈ f.cars, ¬ Passes r c ∧ ¬ Rests c) →
          run rule f.cars pool r now =
            (.ok .pending, f.cars, ⟨pool.entries ++ [⟨r, now⟩]⟩)))) ∧
    ∀ rule rule',
      (run rule f.cars pool r now = run rule' f.cars pool r now ∧
        ∀ id, (run rule f.cars pool r now).1 ≠ .ok (.assigned id)) ∨
      ∃ id id', (run rule f.cars pool r now).1 = .ok (.assigned id) ∧
        (run rule' f.cars pool r now).1 = .ok (.assigned id') := by
  obtain ⟨hsound, hsettings⟩ := h.sound
  have hin : ∀ c ∈ f.cars, r.floor < c.settings.height := fun c hc => by
    rw [hsound.height c hc, hsettings]
    exact hlt
  refine ⟨h.numbered, fun rule => ⟨fun id c hfirst => run_of_serves hfirst rule pool now,
    fun hnot => ⟨fun id c htaker => run_of_isTaker hsound.cars hin hnot htaker pool now,
      fun hnone => run_of_none hnot hnone rule pool now⟩⟩, fun rule rule' => ?_⟩
  by_cases hserves : ∃ c ∈ f.cars, Serves r c
  · obtain ⟨id, c, hfirst⟩ := exists_isFirst hserves
    rw [run_of_serves hfirst rule pool now, run_of_serves hfirst rule' pool now]
    exact Or.inl ⟨rfl, by simp⟩
  have hnot : ∀ c ∈ f.cars, ¬ Serves r c := fun c hc hserving => hserves ⟨c, hc, hserving⟩
  by_cases hkind : ∃ c ∈ f.cars, Passes r c ∨ Rests c
  · obtain ⟨id, htaken⟩ := exists_assigned hsound.cars hin hnot hkind rule pool now
    obtain ⟨id', htaken'⟩ := exists_assigned hsound.cars hin hnot hkind rule' pool now
    exact Or.inr ⟨id, id', htaken, htaken'⟩
  · have hnone : ∀ c ∈ f.cars, ¬ Passes r c ∧ ¬ Rests c := fun c hc =>
      not_or.mp fun hholds => hkind ⟨c, hc, hholds⟩
    rw [run_of_none hnot hnone rule pool now, run_of_none hnot hnone rule' pool now]
    exact Or.inl ⟨rfl, by simp⟩

/-- The settings of a fleet of two cars that rest on one floor. -/
def twoCars (floor height : Floor) : FleetSettings := ⟨height, 4, ⟨1⟩, ⟨1⟩, ⟨1⟩, [floor, floor]⟩

/-- The second car of a fleet goes two floors up and then heads for another floor. -/
def sendSecondUp (near far : Floor) (f : Fleet) : Fleet :=
  [CarOperation.addStop near, .move, .move, .move, .closeDoors, .addStop far].foldl
    (fun f op => (f.onCar 1 fun c => (.ok (), op.perform c)).2) f

/-- The second of two cars passes floor 5 on its way up, and the first one is idle: who gets a call
there is up to the rule. A call for floor 9 is served already. -/
theorem dispatch_exact_by_rule :
    ∃ f, Reachable (twoCars 0 10) .standard f ∧
      (run .firstCapableThenIdle f.cars .empty ⟨5, .up⟩ 7).1 = .ok (.assigned 1) ∧
      (run .idleFirstThenCapable f.cars .empty ⟨5, .up⟩ 7).1 = .ok (.assigned 0) ∧
      (run .idleFirstThenCapable f.cars .empty ⟨9, .up⟩ 7).1 = .ok (.alreadyServed 1) := by
  have hreach : Reachable (twoCars 0 10) .standard
      (sendSecondUp 2 9 (resting (twoCars 0 10) .standard)) :=
    (((((Reachable.made _ rfl).onCar _ 1 _).onCar _ 1 _).onCar _ 1 _).onCar _ 1 _).onCar _ 1 _
      |>.onCar _ 1 _
  have hcars : (sendSecondUp 2 9 (resting (twoCars 0 10) .standard)).cars =
      [.fresh 0 ((twoCars 0 10).carAt 0),
        ⟨1, (twoCars 0 10).carAt 0, ⟨2, .up, .moving, ⟨[9]⟩, []⟩, true, true⟩] := by
    decide +kernel
  generalize sendSecondUp 2 9 (resting (twoCars 0 10) .standard) = f at hreach hcars
  have hbefore : ∀ P : Car → Prop, ¬ P (.fresh 0 ((twoCars 0 10).carAt 0)) → ∀ j < 1, ∀ x,
      f.cars[j]? = some x → ¬ P x := by
    intro P hP j hj x hx
    obtain rfl := Nat.lt_one_iff.mp hj
    rw [hcars] at hx
    obtain rfl := Option.some.inj hx
    exact hP
  have hpasses : IsFirst (Passes ⟨5, .up⟩) f.cars 1
      ⟨1, (twoCars 0 10).carAt 0, ⟨2, .up, .moving, ⟨[9]⟩, []⟩, true, true⟩ :=
    ⟨by rw [hcars]; rfl, by decide, hbefore _ (by decide)⟩
  have hrests : IsFirst Rests f.cars 0
      (.fresh 0 ((twoCars 0 10).carAt 0)) := ⟨by rw [hcars]; rfl, by decide, by simp⟩
  have hserves : IsFirst (Serves ⟨9, .up⟩) f.cars 1
      ⟨1, (twoCars 0 10).carAt 0, ⟨2, .up, .moving, ⟨[9]⟩, []⟩, true, true⟩ :=
    ⟨by rw [hcars]; rfl, by decide, hbefore _ (by decide)⟩
  have hnot : ∀ c ∈ f.cars, ¬ Serves ⟨5, .up⟩ c := by
    rw [hcars]
    decide
  obtain ⟨-, hrules, -⟩ := hreach.dispatch_exact (r := ⟨5, .up⟩) (by decide) .empty 7
  obtain ⟨-, hserved, -⟩ := hreach.dispatch_exact (r := ⟨9, .up⟩) (by decide) .empty 7
  obtain ⟨c, -, hfirst⟩ := ((hrules .firstCapableThenIdle).2 hnot).1 1 _ (.here _ _ hpasses)
  obtain ⟨c', -, hidle⟩ := ((hrules .idleFirstThenCapable).2 hnot).1 0 _ (.here _ _ hrests)
  exact ⟨f, hreach, by rw [hfirst], by rw [hidle],
    by rw [(hserved .idleFirstThenCapable).1 1 _ hserves]⟩

end Fleet

end ElevatorFleet
