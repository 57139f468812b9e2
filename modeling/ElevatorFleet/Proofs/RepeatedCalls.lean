import ElevatorFleet.Proofs.Assignments

/-!
What becomes of a call that comes in twice in a row.

* `Dispatch.GetsCall.serves_iff`: a car that has got a call serves it just if it now travels in the
  direction of the call.
* `Dispatch.GoesElsewhere` is what becomes of the second call otherwise: another car gets it, or it
  joins the pool.
* `Dispatch.ComesAgain` lists the three ways in which a call can come in twice, and
  `Fleet.Reachable.repeated_call` says that there are no others, in any fleet under either rule.
-/

namespace ElevatorFleet

namespace Dispatch

variable {cs : List Car} {c c' : Car} {r : Request} {id : Nat} {rule : DispatchRule} {pool : Pool}

/-! ### The car that has got the call -/

lemma GetsCall.mem_stops (h : GetsCall r c c') : r.floor ∈ c'.state.stops.floors :=
  h.queued.mem_iff.mpr List.mem_cons_self

/-- A car that has got a call serves it just if it now travels in the direction of the call. -/
lemma GetsCall.serves_iff (h : GetsCall r c c') :
    Serves r c' ↔ c'.state.direction = r.direction :=
  and_iff_right h.mem_stops

lemma GetsCall.not_idle (h : GetsCall r c c') : c'.state.activity ≠ .idle := by
  by_cases hidle : c.state.activity = .idle
  · simp [h.sets_off hidle]
  · rwa [(h.under_way hidle).2]

lemma GetsCall.settings_eq (h : GetsCall r c c') : c'.settings = c.settings := by
  rw [h.rest_eq]

/-- The floor of the call is new to the car, so that the car has changed. -/
lemma GetsCall.ne (h : GetsCall r c c') : c' ≠ c := by
  rintro rfl
  exact h.new h.mem_stops

/-- A car that gets a call on its way, or where it stands, travels in the direction of the call. -/
lemma GetsCall.direction_eq (h : GetsCall r c c') (hkind : Passes r c ∨ Rests c)
    (hnear : c.state.activity ≠ .idle ∨ r.floor = c.state.floor) :
    c'.state.direction = r.direction := by
  by_cases hidle : c.state.activity = .idle
  · exact h.faces hidle (hnear.resolve_left (not_not.mpr hidle))
  · rw [(h.under_way hidle).1]
    exact (hkind.resolve_right hidle).2.2.1

lemma IsTaker.getElem?_eq {Ps : List (Car → Prop)} (h : IsTaker cs id c Ps) :
    cs[id]? = some c := by
  induction h with
  | here P Ps h => exact h.here
  | later P Ps _ _ ih => exact ih

lemma IsTaker.kind (h : IsTaker cs id c (kinds r rule)) : Passes r c ∨ Rests c := by
  obtain ⟨P, hP, hholds⟩ := h.exists_kind
  rcases mem_kinds.mp hP with rfl | rfl
  · exact Or.inl hholds
  · exact Or.inr hholds

lemma not_kind_of_not_exists (hkind : ¬ ∃ P ∈ kinds r rule, ∃ x ∈ cs, P x) :
    ∀ x ∈ cs, ¬ Passes r x ∧ ¬ Rests x := fun x hx =>
  ⟨fun hpasses => hkind ⟨Passes r, mem_kinds.mpr (Or.inl rfl), x, hx, hpasses⟩,
    fun hrests => hkind ⟨Rests, mem_kinds.mpr (Or.inr rfl), x, hx, hrests⟩⟩

/-! ### The fleet in which it is -/

lemma forall_mem_set {P : Car → Prop} (h : ∀ x ∈ cs, P x) (hc' : P c') :
    ∀ x ∈ cs.set id c', P x := fun x hx => by
  rcases List.mem_or_eq_of_mem_set hx with hx | rfl
  · exact h x hx
  · exact hc'

/-- Handing out a call leaves all cars sound. -/
lemma sound_run (h : ∀ x ∈ cs, x.Sound) (hin : ∀ x ∈ cs, r.floor < x.settings.height)
    (rule : DispatchRule) (pool : Pool) (now : Nat) :
    ∀ x ∈ (run rule cs pool r now).2.1, x.Sound := by
  obtain ⟨taken, hok, hasked, -⟩ := taker_spec rule.classes h hin
  rw [run]
  cases cs.findIdx? (·.isServing r) with
  | some id => exact h
  | none =>
      rcases hout : taker r rule.classes cs with ⟨result, cs'⟩
      rw [hout] at hok hasked
      obtain rfl : result = .ok taken := hok
      cases taken with
      | some id => exact hasked.sound
      | none => exact hasked.sound

/-- If nobody served a call before one of the cars got it, that car is the first to serve it. -/
lemma isFirst_set (hnot : ∀ x ∈ cs, ¬ Serves r x) (hid : id < cs.length) (hc' : Serves r c') :
    IsFirst (Serves r) (cs.set id c') id c' where
  here := List.getElem?_set_self hid
  holds := hc'
  before j hj x hx := by
    rw [List.getElem?_set_ne (Nat.ne_of_gt hj)] at hx
    exact hnot x (List.mem_of_getElem? hx)

/-! ### The second call -/

/-- A call does not go to a certain car: another car gets it, or it joins the pool. -/
inductive GoesElsewhere (rule : DispatchRule) (cs : List Car) (pool : Pool) (r : Request)
    (now : Nat) (id : Nat) : Prop where
  | other (id' : Nat) (c c' : Car) (hne : id' ≠ id) (here : cs[id']? = some c)
      (gets : GetsCall r c c')
      (heq : run rule cs pool r now = (.ok (.assigned id'), cs.set id' c', pool))
  | waits (heq : run rule cs pool r now = (.ok .pending, cs, ⟨pool.entries ++ [⟨r, now⟩]⟩))

lemma GoesElsewhere.not_served {now : Nat} (h : GoesElsewhere rule cs pool r now id) (id' : Nat) :
    (run rule cs pool r now).1 ≠ .ok (.alreadyServed id') := by
  cases h with
  | other _ _ _ _ _ _ heq | waits heq => simp [heq]

/-- Either way the cars or the pending calls change. -/
lemma GoesElsewhere.changes {now : Nat} (h : GoesElsewhere rule cs pool r now id) :
    (run rule cs pool r now).2 ≠ (cs, pool) := by
  cases h with
  | other id' c c' _ here gets heq =>
      rw [heq]
      intro hsame
      have hset : cs.set id' c' = cs := congrArg Prod.fst hsame
      obtain ⟨hid, rfl⟩ := List.getElem?_eq_some_iff.mp here
      have hat : (cs.set id' c')[id']? = some c' := List.getElem?_set_self hid
      rw [hset, List.getElem?_eq_getElem hid] at hat
      exact gets.ne (Option.some.inj hat).symm
  | waits heq =>
      rw [heq]
      intro hsame
      have hpool : (⟨pool.entries ++ [⟨r, now⟩]⟩ : Pool) = pool := congrArg Prod.snd hsame
      simpa using congrArg (·.entries.length) hpool

/-- A call that a car has got and does not serve goes elsewhere when it comes in again. -/
lemma goesElsewhere_of_getsCall (h : ∀ x ∈ cs.set id c', x.Sound)
    (hin : ∀ x ∈ cs.set id c', r.floor < x.settings.height) (hnot : ∀ x ∈ cs, ¬ Serves r x)
    (hid : id < cs.length) (gets : GetsCall r c c') (haway : c'.state.direction ≠ r.direction)
    (now : Nat) : GoesElsewhere rule (cs.set id c') pool r now id := by
  have hnot' : ∀ x ∈ cs.set id c', ¬ Serves r x :=
    forall_mem_set hnot fun hserves => haway (gets.serves_iff.mp hserves)
  by_cases hkind : ∃ P ∈ kinds r rule, ∃ x ∈ cs.set id c', P x
  · obtain ⟨id', x, htaker⟩ := exists_isTaker hkind
    have here : (cs.set id c')[id']? = some x := htaker.getElem?_eq
    obtain ⟨x', gets', heq⟩ := run_of_isTaker h hin hnot' htaker pool now
    refine .other id' x x' ?_ here gets' heq
    -- the car that has got the call is neither idle nor on its way in the direction of the call
    rintro rfl
    obtain rfl : c' = x := by simpa [hid] using here
    cases htaker.kind with
    | inl hpasses => exact haway hpasses.2.2.1
    | inr hrests => exact gets.not_idle hrests
  · exact .waits (run_of_none hnot' (not_kind_of_not_exists hkind) rule pool now)

/-- What becomes of a call that comes in twice in a row. A car serves it already, and both times
nothing changes. Or a car gets it: when it comes in again it is absorbed, that is, this car serves
it and nothing changes, just if the car now travels in the direction of the call. It does if it was
under way or stood on the floor of the call; if it does not it was idle and has to travel against
the direction of the call, and the second call goes elsewhere. Or both calls join the pool. -/
inductive ComesAgain (rule : DispatchRule) (cs : List Car) (pool : Pool) (r : Request)
    (now again : Nat) : Prop where
  | served (id : Nat) (first : run rule cs pool r now = (.ok (.alreadyServed id), cs, pool))
      (second : run rule cs pool r again = (.ok (.alreadyServed id), cs, pool))
  | assigned (id : Nat) (c c' : Car) (here : cs[id]? = some c) (gets : GetsCall r c c')
      (first : run rule cs pool r now = (.ok (.assigned id), cs.set id c', pool))
      (absorbed : run rule (cs.set id c') pool r again =
        (.ok (.alreadyServed id), cs.set id c', pool) ↔ c'.state.direction = r.direction)
      (near : c.state.activity ≠ .idle ∨ r.floor = c.state.floor →
        c'.state.direction = r.direction)
      (away : c'.state.direction ≠ r.direction →
        c.state.activity = .idle ∧ r.floor ≠ c.state.floor ∧
          Direction.toward c.state.floor r.floor ≠ r.direction ∧
          GoesElsewhere rule (cs.set id c') pool r again id ∧
          (run rule (cs.set id c') pool r again).2 ≠ (cs.set id c', pool))
  | pending (first : run rule cs pool r now = (.ok .pending, cs, ⟨pool.entries ++ [⟨r, now⟩]⟩))
      (second : run rule cs ⟨pool.entries ++ [⟨r, now⟩]⟩ r again =
        (.ok .pending, cs, ⟨pool.entries ++ [⟨r, now⟩] ++ [⟨r, again⟩]⟩))

/-- What is known of the second call once a car has got the first. -/
lemma ComesAgain.of_assigned {now again : Nat} (h : ComesAgain rule cs pool r now again)
    (hassigned : (run rule cs pool r now).1 = .ok (.assigned id)) :
    ∃ c c', cs[id]? = some c ∧ GetsCall r c c' ∧
      run rule cs pool r now = (.ok (.assigned id), cs.set id c', pool) ∧
      (c'.state.direction = r.direction → run rule (cs.set id c') pool r again =
        (.ok (.alreadyServed id), cs.set id c', pool)) ∧
      (c'.state.direction ≠ r.direction → GoesElsewhere rule (cs.set id c') pool r again id) := by
  cases h with
  | served id' first | pending first => simp [first] at hassigned
  | assigned id' c c' here gets first absorbed near away =>
      obtain rfl : id' = id := by simpa [first] using hassigned
      exact ⟨c, c', here, gets, first, absorbed.mpr, fun haway => (away haway).2.2.2.1⟩

/-- A call that a car gets comes in again. -/
lemma comesAgain_of_isTaker (h : ∀ x ∈ cs, x.Sound) (hin : ∀ x ∈ cs, r.floor < x.settings.height)
    (hnot : ∀ x ∈ cs, ¬ Serves r x) (htaker : IsTaker cs id c (kinds r rule)) (pool : Pool)
    (now again : Nat) : ComesAgain rule cs pool r now again := by
  have here : cs[id]? = some c := htaker.getElem?_eq
  obtain ⟨hid, -⟩ := List.getElem?_eq_some_iff.mp here
  obtain ⟨c', gets, first⟩ := run_of_isTaker h hin hnot htaker pool now
  have hsound : ∀ x ∈ cs.set id c', x.Sound := by simpa [first] using sound_run h hin rule pool now
  have hin' : ∀ x ∈ cs.set id c', r.floor < x.settings.height :=
    forall_mem_set hin (gets.settings_eq ▸ hin c htaker.mem)
  have elsewhere : c'.state.direction ≠ r.direction →
      GoesElsewhere rule (cs.set id c') pool r again id := fun haway =>
    goesElsewhere_of_getsCall hsound hin' hnot hid gets haway again
  refine .assigned id c c' here gets first ⟨fun habsorbed => ?_, fun hsame => ?_⟩
    (gets.direction_eq htaker.kind) fun haway => ?_
  · by_contra haway
    exact (elsewhere haway).not_served id (by rw [habsorbed])
  · exact run_of_serves (isFirst_set hnot hid (gets.serves_iff.mpr hsame)) rule pool again
  · have hfar := mt (gets.direction_eq htaker.kind) haway
    obtain ⟨hidle, hfloor⟩ := not_or.mp hfar
    rw [ne_eq, not_not] at hidle
    exact ⟨hidle, hfloor, gets.turns hidle hfloor ▸ haway, elsewhere haway,
      (elsewhere haway).changes⟩

lemma comesAgain (h : ∀ x ∈ cs, x.Sound) (hin : ∀ x ∈ cs, r.floor < x.settings.height)
    (rule : DispatchRule) (pool : Pool) (now again : Nat) :
    ComesAgain rule cs pool r now again := by
  by_cases hserves : ∃ x ∈ cs, Serves r x
  · obtain ⟨id, c, hfirst⟩ := exists_isFirst hserves
    exact .served id (run_of_serves hfirst rule pool now) (run_of_serves hfirst rule pool again)
  have hnot : ∀ x ∈ cs, ¬ Serves r x := fun x hx hserving => hserves ⟨x, hx, hserving⟩
  by_cases hkind : ∃ P ∈ kinds r rule, ∃ x ∈ cs, P x
  · obtain ⟨id, c, htaker⟩ := exists_isTaker hkind
    exact comesAgain_of_isTaker h hin hnot htaker pool now again
  · have hnone := not_kind_of_not_exists hkind
    exact .pending (run_of_none hnot hnone rule pool now) (run_of_none hnot hnone rule _ again)

end Dispatch

namespace Fleet

open Dispatch

variable {settings : FleetSettings} {strategies : Strategies} {f : Fleet} {r : Request}

/-- **When a repeated call is absorbed**, in any fleet, under either rule and with any pool, if the
call is for a floor of the building and comes in again before anything else happens: it comes in
twice in one of the three ways that `ComesAgain` lists. -/
theorem Reachable.repeated_call (h : Reachable settings strategies f)
    (hlt : r.floor < settings.height) (rule : DispatchRule) (pool : Pool) (now again : Nat) :
    ComesAgain rule f.cars pool r now again := by
  obtain ⟨hsound, hsettings⟩ := h.sound
  refine comesAgain hsound.cars (fun c hc => ?_) rule pool now again
  rw [hsound.height c hc, hsettings]
  exact hlt

/-- Two cars rest on floor 5. A call for up from floor 7 is absorbed when it comes in again. One
from floor 2 is not: the first car has to travel down for it. -/
theorem repeated_call_below :
    ∃ f, Reachable (twoCars 5 10) .standard f ∧
      (∃ cars, run .idleFirstThenCapable f.cars .empty ⟨7, .up⟩ 3 =
          (.ok (.assigned 0), cars, .empty) ∧
        run .idleFirstThenCapable cars .empty ⟨7, .up⟩ 4 =
          (.ok (.alreadyServed 0), cars, .empty)) ∧
      ∃ cars, run .idleFirstThenCapable f.cars .empty ⟨2, .up⟩ 3 =
          (.ok (.assigned 0), cars, .empty) ∧
        GoesElsewhere .idleFirstThenCapable cars .empty ⟨2, .up⟩ 4 0 := by
  have hreach : Reachable (twoCars 5 10) .standard (resting (twoCars 5 10) .standard) :=
    .made _ rfl
  have hassigned : ∀ r ∈ [(⟨7, .up⟩ : Request), ⟨2, .up⟩],
      (run .idleFirstThenCapable (resting (twoCars 5 10) .standard).cars .empty r 3).1 =
        .ok (.assigned 0) := by decide +kernel
  have hidle : ∀ c ∈ (resting (twoCars 5 10) .standard).cars,
      c.state.activity = .idle ∧ c.state.floor = 5 := by decide
  have habove := hreach.repeated_call (r := ⟨7, .up⟩) (by decide) .idleFirstThenCapable .empty 3 4
  have hbelow := hreach.repeated_call (r := ⟨2, .up⟩) (by decide) .idleFirstThenCapable .empty 3 4
  have hturns : ∀ r c c', (resting (twoCars 5 10) .standard).cars[0]? = some c → GetsCall r c c' →
      r.floor ≠ 5 → c'.state.direction = Direction.toward 5 r.floor := by
    intro r c c' here gets hne
    obtain ⟨hrests, hfloor⟩ := hidle c (List.mem_of_getElem? here)
    rw [← hfloor]
    exact gets.turns hrests (hfloor ▸ hne)
  obtain ⟨c, c', here, gets, first, absorbed, -⟩ := habove.of_assigned (hassigned _ (by simp))
  obtain ⟨x, x', there, gets', first', -, away⟩ := hbelow.of_assigned (hassigned _ (by simp))
  refine ⟨_, hreach, ⟨_, first, absorbed ?_⟩, _, first', away ?_⟩
  · exact hturns _ _ _ here gets (by decide)
  · rw [hturns _ _ _ there gets' (by decide)]
    decide

end Fleet

end ElevatorFleet
