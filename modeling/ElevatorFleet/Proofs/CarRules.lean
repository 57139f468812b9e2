import ElevatorFleet.Car.Basic
import ElevatorFleet.Proofs.Course

/-!
What the operations of a car keep.

* `Car.Sound` is a car with settings it can run with, in a state that keeps the rules.
* `Car.Grown` is what can be done to a car from outside while its worker is between two steps: it is
  given more floors to stop at, or told to stop, and either leaves a token.
* `Car.OfferCase`, `Car.HomeCase` and `Car.MoveCase` list what can become of an operation, and the
  lemmas behind them say that every operation of a car keeps it sound.
-/

namespace ElevatorFleet

lemma CarSettings.check_eq_ok_iff {s : CarSettings} :
    s.check = .ok () ↔
      2 ≤ s.height.val ∧ s.capacity ≠ 0 ∧ s.defaultFloor < s.height ∧ s.idleTimeout.nanos ≠ 0 := by
  rw [check]
  split_ifs with h₁ h₂ h₃ h₄
  · simp [h₁]
  · simp [h₂]
  · simp [not_lt_of_ge h₃]
  · simp [h₄]
  · simp [Nat.le_of_not_lt h₁, h₂, lt_of_not_ge h₃, h₄]

namespace Car

variable {c c' c'' : Car} {eligible : CarState → Bool} {r : Request} {floor : Floor}

/-- A car with settings it can run with, in a state that keeps the rules. -/
structure Sound (c : Car) : Prop where
  settings : c.settings.check = .ok ()
  lawful : c.state.Lawful c.settings.height c.settings.capacity

lemma Sound.withState (h : c.Sound) {s : CarState}
    (hs : s.Lawful c.settings.height c.settings.capacity) : { c with state := s }.Sound :=
  ⟨h.settings, hs⟩

lemma Sound.wake (h : c.Sound) : c.wake.Sound := ⟨h.settings, h.lawful⟩

lemma Sound.wakeIf (h : c.Sound) (added : Bool) : (c.wakeIf added).Sound := by
  cases added
  · exact h
  · exact h.wake

lemma Sound.defaultFloor_lt (h : c.Sound) : c.settings.defaultFloor < c.settings.height :=
  (CarSettings.check_eq_ok_iff.mp h.settings).2.2.1

lemma Sound.capacity_pos (h : c.Sound) : 0 < c.settings.capacity :=
  Nat.pos_of_ne_zero (CarSettings.check_eq_ok_iff.mp h.settings).2.1

lemma hasStops_iff : c.hasStops = true ↔ c.state.stops ≠ .empty := by
  simp [hasStops, ← Stops.isEmpty_iff]

/-- A car that has just been built is sound. -/
lemma sound_of_make {id : Nat} {settings : CarSettings} (h : make id settings = .ok c) :
    c.Sound ∧ c = fresh id settings := by
  rw [make] at h
  split at h
  · simp at h
  · rename_i hcheck
    obtain rfl : fresh id settings = c := by simpa using h
    refine ⟨⟨hcheck, ?_⟩, rfl⟩
    exact CarState.lawful_resting (CarSettings.check_eq_ok_iff.mp hcheck).2.2.1

/-! ### What can be done to a car from outside -/

/-- `c'` is `c` after it has been given floors to stop at, or has been told to stop. It has the same
riders on the same floor; if its state has changed something is queued and there is a token, and
there is a token as well if it has been told to stop. -/
structure Grown (c c' : Car) : Prop where
  id_eq : c'.id = c.id
  settings_eq : c'.settings = c.settings
  state : c.state.Grown c'.state
  riders_eq : c'.state.riders = c.state.riders
  token : c.token = true → c'.token = true
  awake : c'.state = c.state ∨ (c'.state.stops ≠ .empty ∧ c'.token = true)
  running : c'.running = c.running ∨ (c'.running = false ∧ c'.token = true)

lemma Grown.refl (c : Car) : Grown c c :=
  ⟨rfl, rfl, .refl _, rfl, fun h => h, Or.inl rfl, Or.inl rfl⟩

lemma Grown.trans (h : Grown c c') (h' : Grown c' c'') : Grown c c'' where
  id_eq := h'.id_eq.trans h.id_eq
  settings_eq := h'.settings_eq.trans h.settings_eq
  state := h.state.trans h'.state
  riders_eq := h'.riders_eq.trans h.riders_eq
  token ht := h'.token (h.token ht)
  awake := by
    cases h'.awake with
    | inr hawake => exact Or.inr hawake
    | inl heq =>
        cases h.awake with
        | inl heq' => exact Or.inl (heq.trans heq')
        | inr hawake => exact Or.inr ⟨heq ▸ hawake.1, h'.token hawake.2⟩
  running := by
    cases h'.running with
    | inr hstop => exact Or.inr hstop
    | inl heq =>
        cases h.running with
        | inl heq' => exact Or.inl (heq.trans heq')
        | inr hstop => exact Or.inr ⟨heq.trans hstop.1, h'.token hstop.2⟩

/-- A car that is idle now has been idle before, and nobody has touched its state. -/
lemma Grown.eq_of_idle (h : Grown c c') (h' : c'.Sound) (hidle : c'.state.activity = .idle) :
    c'.state = c.state :=
  h.awake.resolve_right fun hawake => hawake.1 (h'.lawful.idle hidle)

/-- Whatever is queued newly has left a token. -/
lemma Grown.queue_or_token (h : Grown c c') :
    c'.state.stops = c.state.stops ∨ c'.token = true := by
  cases h.awake with
  | inl heq => exact Or.inl (by rw [heq])
  | inr hawake => exact Or.inr hawake.2

/-- A car that has taken up something and left a token has grown. -/
lemma Grown.ofWake (hstate : c.state.Grown c'.state) (hid : c'.id = c.id)
    (hsettings : c'.settings = c.settings) (hriders : c'.state.riders = c.state.riders)
    (hrunning : c'.running = c.running) (htoken : c'.token = true)
    (hne : c'.state.stops ≠ .empty) : Grown c c' :=
  ⟨hid, hsettings, hstate, hriders, fun _ => htoken, Or.inr ⟨hne, htoken⟩, Or.inl hrunning⟩

lemma grown_stop (c : Car) : Grown c c.stop :=
  ⟨rfl, rfl, .refl _, rfl, fun _ => rfl, Or.inl rfl, Or.inr ⟨rfl, rfl⟩⟩

/-! ### Offers -/

/-- What can become of an offer: it is declined, it is taken although its floor lies outside the
building and fails, it is for a floor that is queued already, or it is taken anew. Only in the last
case the car changes, and then it leaves a token. -/
inductive OfferCase (c : Car) (eligible : CarState → Bool) (r : Request) : Prop where
  | declined (hno : (eligible c.state && c.state.canAccept r c.settings.capacity) = false)
      (heq : c.offer eligible r = (.ok false, c))
  | outside (hok : (eligible c.state && c.state.canAccept r c.settings.capacity) = true)
      (hle : c.settings.height ≤ r.floor)
      (heq : c.offer eligible r = (.error (.floorOutOfRange r.floor c.settings.height), c))
  | present (hok : (eligible c.state && c.state.canAccept r c.settings.capacity) = true)
      (hlt : r.floor < c.settings.height) (hmem : r.floor ∈ c.state.stops.floors)
      (heq : c.offer eligible r = (.ok true, c))
  | taken (hok : (eligible c.state && c.state.canAccept r c.settings.capacity) = true)
      (hlt : r.floor < c.settings.height) (hnew : r.floor ∉ c.state.stops.floors)
      (hahead : c.state.stops = .empty ∨ c.state.direction.reaches c.state.floor r.floor)
      (heq : c.offer eligible r =
        (.ok true, { c with state := c.state.taking r c.settings.height }.wake))

lemma Sound.offer_cases (h : c.Sound) (eligible : CarState → Bool) (r : Request) :
    OfferCase c eligible r := by
  cases hok : eligible c.state && c.state.canAccept r c.settings.capacity with
  | false =>
      refine .declined hok ?_
      rw [offer, if_pos (by rw [← Bool.not_and]; simp [hok])]
  | true =>
      have htake : ¬ (!eligible c.state || !c.state.canAccept r c.settings.capacity) = true := by
        rw [← Bool.not_and]
        simp [hok]
      cases h.lawful.accept_cases r with
      | outside hle heq => exact .outside hok hle (by rw [offer, if_neg htake, heq])
      | present hlt hmem heq =>
          exact .present hok hlt hmem (by rw [offer, if_neg htake, heq]; rfl)
      | queued hlt hnew hahead heq =>
          exact .taken hok hlt hnew hahead (by rw [offer, if_neg htake, heq]; rfl)
      | behind hlt hne hbehind =>
          -- a car that accepts a call has not passed its floor
          exfalso
          have hidle := h.lawful.not_isIdle hne
          simp only [CarState.canAccept, hidle, Bool.and_eq_true] at hok
          grind

lemma Sound.offer (h : c.Sound) (eligible : CarState → Bool) (r : Request) :
    (c.offer eligible r).2.Sound := by
  cases h.offer_cases eligible r with
  | declined _ heq | outside _ _ heq | present _ _ _ heq =>
      rw [heq]
      exact h
  | taken _ hlt _ hahead heq =>
      rw [heq]
      exact (h.withState (h.lawful.lawful_taking h.lawful.room hlt hahead)).wake

lemma Sound.grown_offer (h : c.Sound) (eligible : CarState → Bool) (r : Request) :
    c.Grown (c.offer eligible r).2 := by
  cases h.offer_cases eligible r with
  | declined _ heq | outside _ _ heq | present _ _ _ heq =>
      rw [heq]
      exact .refl c
  | taken _ _ _ _ heq =>
      rw [heq]
      exact .ofWake (h.lawful.grown_taking r) rfl rfl CarState.riders_taking rfl rfl
        (Stops.ne_empty_of_mem (CarState.mem_stops_taking.mpr (Or.inl rfl)))

/-- An offer that is declined, or fails, leaves the car as it was. -/
lemma Sound.offer_eq_of_ne_true (h : c.Sound) (eligible : CarState → Bool) (r : Request)
    (hne : (c.offer eligible r).1 ≠ .ok true) : (c.offer eligible r).2 = c := by
  cases h.offer_cases eligible r with
  | declined _ heq | outside _ _ heq | present _ _ _ heq => rw [heq]
  | taken _ _ _ _ heq =>
      rw [heq] at hne
      exact absurd rfl hne

/-- The floor of a call that a car has taken is queued. -/
lemma Sound.mem_stops_of_offer (h : c.Sound) {eligible : CarState → Bool} {r : Request}
    (hok : (c.offer eligible r).1 = .ok true) :
    r.floor ∈ (c.offer eligible r).2.state.stops.floors := by
  cases h.offer_cases eligible r with
  | declined _ heq | outside _ _ heq =>
      rw [heq] at hok
      simp at hok
  | present _ _ hmem heq =>
      rw [heq]
      exact hmem
  | taken _ _ _ _ heq =>
      rw [heq]
      exact CarState.mem_stops_taking.mpr (Or.inl rfl)

/-- Only a call for a floor outside the building makes an offer fail. -/
lemma Sound.le_floor_of_offer_error (h : c.Sound) {eligible : CarState → Bool} {r : Request}
    {fault : Fault} (herror : (c.offer eligible r).1 = .error fault) :
    c.settings.height ≤ r.floor := by
  cases h.offer_cases eligible r with
  | outside _ hle => exact hle
  | declined _ heq | present _ _ _ heq | taken _ _ _ _ heq =>
      rw [heq] at herror
      simp at herror

/-- An idle car takes every call of the building that it is eligible for. -/
lemma Sound.offer_of_idle (h : c.Sound) (eligible : CarState → Bool) (r : Request)
    (hidle : c.state.activity = .idle) (heligible : eligible c.state = true)
    (hlt : r.floor < c.settings.height) : (c.offer eligible r).1 = .ok true := by
  have hok : (eligible c.state && c.state.canAccept r c.settings.capacity) = true := by
    simp [heligible, CarState.canAccept, hidle]
  cases h.offer_cases eligible r with
  | declined hno => exact absurd (hok.symm.trans hno) (by decide)
  | outside _ hle => exact absurd hlt (not_lt_of_ge hle)
  | present _ _ _ heq | taken _ _ _ _ heq => rw [heq]

/-! ### The other operations -/

lemma Sound.addStop (h : c.Sound) (floor : Floor) : (c.addStop floor).2.Sound := by
  have hstate := h.lawful.addStop floor
  rw [Car.addStop]
  split
  · rename_i heq
    rw [heq] at hstate
    exact h.withState hstate
  · rename_i added s heq
    rw [heq] at hstate
    exact (h.withState hstate).wakeIf added

/-- The way home is open to an idle car away from it, and to no other. -/
inductive HomeCase (c : Car) : Prop where
  | stays (hno : c.isAstray = false) (heq : c.returnToDefault = (.ok false, c))
  | leaves (hidle : c.state.activity = .idle) (s : CarState)
      (hlawful : s.Lawful c.settings.height c.settings.capacity) (hgrown : c.state.Grown s)
      (hriders : s.riders = c.state.riders) (hne : s.stops ≠ .empty)
      (heq : c.returnToDefault = (.ok true, { c with state := s }.wake))

lemma Sound.returnToDefault_cases (h : c.Sound) : HomeCase c := by
  cases hastray : c.isAstray with
  | false =>
      refine .stays hastray ?_
      rw [returnToDefault, if_pos (by simp [hastray])]
  | true =>
      have hidle : c.state.activity = .idle := by simp_all [isAstray]
      have hempty : c.state.stops = .empty := h.lawful.idle hidle
      have hadd := h.lawful.addStop_of_ahead h.defaultFloor_lt (by simp [hempty]) (Or.inl hempty)
      refine .leaves hidle _
        (h.lawful.lawful_enqueue h.lawful.room h.defaultFloor_lt (Or.inl hempty))
        (CarState.grown_enqueue _ _ _) rfl (Stops.insert_ne_empty _ _ _) ?_
      rw [returnToDefault, if_neg (by simp [hastray]), hadd]

lemma Sound.returnToDefault (h : c.Sound) : c.returnToDefault.2.Sound := by
  cases h.returnToDefault_cases with
  | stays _ heq =>
      rw [heq]
      exact h
  | leaves _ s hlawful _ _ _ heq =>
      rw [heq]
      exact (h.withState hlawful).wake

lemma Sound.grown_returnToDefault (h : c.Sound) : c.Grown c.returnToDefault.2 := by
  cases h.returnToDefault_cases with
  | stays _ heq =>
      rw [heq]
      exact .refl c
  | leaves _ s _ hgrown hriders hne heq =>
      rw [heq]
      exact .ofWake hgrown rfl rfl hriders rfl rfl hne

/-- What can become of a movement step: there is nothing to move for, the car stops where it stands
because that floor comes next, or it goes one floor on in its direction. -/
inductive MoveCase (c : Car) : Prop where
  | refused (hempty : c.state.stops = .empty)
      (heq : c.move = (.error (.noDestinations c.id), c))
  | arrives (rest : List Floor) (hq : c.state.stops.floors = c.state.floor :: rest)
      (heq : c.move = (.ok (.arrived c.state.floor), { c with state :=
        { c.state with stops := ⟨rest⟩, activity := .doorOpen } }))
  | passes (next : Floor) (rest : List Floor) (hq : c.state.stops.floors = next :: rest)
      (hne : c.state.floor ≠ next)
      (heq : c.move = (.ok (.passed (c.state.direction.step c.state.floor)), { c with state :=
        { c.state with
          floor := c.state.direction.step c.state.floor
          activity := .moving } }))

lemma Sound.move_cases (h : c.Sound) : MoveCase c := by
  by_cases hempty : c.state.stops = .empty
  · exact .refused hempty (by simp [move, hempty, Stops.head?])
  obtain ⟨next, rest, hq⟩ := Stops.exists_cons_of_ne_empty hempty
  by_cases hnext : next = c.state.floor
  · refine .arrives rest (by simp [hq, hnext]) ?_
    simp [move, Stops.head?, Stops.tail, hq, hnext]
  · have hreach := h.lawful.ahead next (by simp [hq])
    have htoward := Direction.toward_eq_of_reaches hreach (Ne.symm hnext)
    refine .passes next rest (by simp [hq]) (Ne.symm hnext) ?_
    simp [move, Stops.head?, hq, hnext, htoward]

/-- A car that arrives stops where it stands, and drops that floor from its queue. -/
lemma Sound.of_arrived (h : c.Sound) (hmove : c.move = (.ok (.arrived floor), c')) :
    ∃ rest, c.state.stops.floors = c.state.floor :: rest ∧
      c' = { c with state := { c.state with stops := ⟨rest⟩, activity := .doorOpen } } := by
  cases h.move_cases with
  | refused _ heq | passes _ _ _ _ heq => simp [heq] at hmove
  | arrives rest hq heq =>
      rw [heq] at hmove
      exact ⟨rest, hq, (Prod.mk.inj hmove).2.symm⟩

/-- A car that passes a floor goes there, on its way to the next floor it is to stop at. -/
lemma Sound.of_passed (h : c.Sound) (hmove : c.move = (.ok (.passed floor), c')) :
    ∃ next rest, c.state.stops.floors = next :: rest ∧ c.state.floor ≠ next ∧
      floor = c.state.direction.step c.state.floor ∧
      c' = { c with state := { c.state with floor, activity := .moving } } := by
  cases h.move_cases with
  | refused _ heq | arrives _ _ heq => simp [heq] at hmove
  | passes next rest hq hne heq =>
      rw [heq] at hmove
      obtain ⟨hstep, hcar⟩ := Prod.mk.inj hmove
      obtain rfl : c.state.direction.step c.state.floor = floor := by simpa using hstep
      exact ⟨next, rest, hq, hne, rfl, hcar.symm⟩

lemma Sound.move (h : c.Sound) : c.move.2.Sound := by
  have hordered := h.lawful.ordered
  cases h.move_cases with
  | refused _ heq =>
      rw [heq]
      exact h
  | arrives rest hq heq =>
      rw [heq]
      rw [Stops.OrderedFor, hq] at hordered
      have hmem : ∀ f ∈ rest, f ∈ c.state.stops.floors := fun f hf => by simp [hq, hf]
      exact h.withState
        { floor_lt := h.lawful.floor_lt
          stops_lt := fun f hf => h.lawful.stops_lt f (hmem f hf)
          ordered := hordered.of_cons
          ahead := fun f hf => h.lawful.ahead f (hmem f hf)
          idle := by simp
          settled := by simp
          moving := by simp
          room := h.lawful.room }
  | passes next rest hq hne heq =>
      rw [heq]
      rw [Stops.OrderedFor, hq] at hordered
      have hnext : next ∈ c.state.stops.floors := by simp [hq]
      have hreach := h.lawful.ahead next hnext
      have hlt := h.lawful.stops_lt next hnext
      have hstep := Direction.reaches_step hreach hne
      refine h.withState
        { floor_lt := Direction.step_lt hreach hne h.lawful.floor_lt hlt
          stops_lt := h.lawful.stops_lt
          ordered := h.lawful.ordered
          ahead := fun f hf => ?_
          idle := by simp
          settled := by simp
          moving := fun _ => Stops.ne_empty_of_mem hnext
          room := h.lawful.room }
      -- the next floor stays ahead, and so does all behind it
      rw [hq] at hf
      cases List.mem_cons.mp hf with
      | inl hhead => exact hhead ▸ hstep
      | inr htail =>
          exact Direction.reaches_of_precedes hstep (List.rel_of_pairwise_cons hordered htail)

lemma Sound.openDoors (h : c.Sound) : c.openDoors.2.Sound := by
  rw [Car.openDoors]
  split_ifs
  · exact h
  · exact h.withState { h.lawful with idle := by simp, settled := by simp, moving := by simp }

lemma Sound.closeDoors (h : c.Sound) : c.closeDoors.Sound := by
  rw [Car.closeDoors]
  split_ifs with hopen hempty
  · exact h
  · have hempty' : c.state.stops = .empty := Stops.isEmpty_iff.mp hempty
    refine h.withState ?_
    rw [CarState.settle, if_pos hempty]
    exact
      { floor_lt := h.lawful.floor_lt
        stops_lt := h.lawful.stops_lt
        ordered := by simp [hempty', Stops.orderedFor_empty]
        ahead := by simp [hempty']
        idle := fun _ => hempty'
        settled := fun _ => rfl
        moving := by simp
        room := h.lawful.room }
  · exact h.withState
      { h.lawful with
        idle := by simp
        settled := by simp
        moving := fun _ => mt Stops.isEmpty_iff.mpr hempty }

lemma Sound.stop (h : c.Sound) : c.stop.Sound := ⟨h.settings, h.lawful⟩

lemma Sound.takeToken (h : c.Sound) : c.takeToken.2.Sound := ⟨h.settings, h.lawful⟩

lemma Sound.reset (h : c.Sound) : c.reset.Sound :=
  ⟨h.settings, CarState.lawful_resting h.defaultFloor_lt⟩

/-! ### What the other operations leave alone -/

@[simp] lemma settings_move : c.move.2.settings = c.settings := by
  rw [Car.move]
  dsimp only
  split
  · rfl
  · split_ifs <;> rfl

@[simp] lemma settings_openDoors : c.openDoors.2.settings = c.settings := by
  rw [Car.openDoors]
  split_ifs <;> rfl

@[simp] lemma settings_closeDoors : c.closeDoors.settings = c.settings := by
  rw [Car.closeDoors]
  split_ifs <;> rfl

@[simp] lemma running_openDoors : c.openDoors.2.running = c.running := by
  rw [Car.openDoors]
  split_ifs <;> rfl

@[simp] lemma running_closeDoors : c.closeDoors.running = c.running := by
  rw [Car.closeDoors]
  split_ifs <;> rfl

@[simp] lemma riders_move : c.move.2.state.riders = c.state.riders := by
  rw [Car.move]
  dsimp only
  split
  · rfl
  · split_ifs <;> rfl

@[simp] lemma riders_openDoors : c.openDoors.2.state.riders = c.state.riders := by
  rw [Car.openDoors]
  split_ifs <;> rfl

@[simp] lemma riders_closeDoors : c.closeDoors.state.riders = c.state.riders := by
  rw [Car.closeDoors]
  split_ifs with hopen hempty
  · rfl
  · simp [CarState.settle, hempty]
  · rfl

@[simp] lemma stops_closeDoors : c.closeDoors.state.stops = c.state.stops := by
  rw [Car.closeDoors]
  split_ifs with hopen hempty
  · rfl
  · simp [CarState.settle, hempty]
  · rfl

lemma activity_closeDoors_ne : c.closeDoors.state.activity ≠ .doorOpen := by
  rw [Car.closeDoors]
  split_ifs with hopen hempty
  · exact hopen
  · simp [CarState.settle, hempty]
  · simp

end Car

end ElevatorFleet
