import ElevatorFleet.Proofs.Boarding
import ElevatorFleet.Proofs.Ledger

/-!
An exchange of riders between a car and a building whose books are in order.

* `Exchange.bound_endsIn`, `Exchange.announceAlighted_endsIn` and `Exchange.board_endsIn` say what
  the parts of an exchange come to.
* `Exchange.Served` is what an exchange leaves behind, and `Exchange.run_endsIn` says that every
  exchange succeeds and leaves it behind.
* `Exchange.Served.stops_ne_empty` says that a car that takes everybody aboard to where they want to
  go has somewhere to go itself as long as somebody is in line, so that all calls are raised again.
-/

namespace ElevatorFleet

namespace Exchange

variable {height floor : Floor} {capacity places now : Nat} {s s' s'' : CarState} {b b' : Building}
  {riders others : List RiderId} {x : RiderId} {p : Person}

/-! ### What a building answers -/

lemma keeper_destination : (Building.keeper now).answer (.destination x) b =
    (b.destination? x, b) := rfl

lemma keeper_hasArrived : (Building.keeper now).answer (.hasArrived x) b =
    (b.hasArrived x, b) := rfl

lemma keeper_next {goingUp queueWasEmpty : Bool} :
    (Building.keeper now).answer (.next floor goingUp queueWasEmpty) b =
      (b.next? floor goingUp queueWasEmpty, b) := rfl

lemma keeper_boarded : (Building.keeper now).answer (.boarded floor x) b =
    ((), b.toCar floor x now) := rfl

lemma keeper_hasWaiting {goingUp : Bool} :
    (Building.keeper now).answer (.hasWaiting floor goingUp) b =
      (b.hasWaiting floor goingUp, b) := rfl

/-! ### Who steps out -/

/-- Those who want to go to the floor are the riders whose destination it is. -/
lemma bound_endsIn (h : ∀ x ∈ riders, ∃ p, b.people[x]? = some p) (floor : Floor) (now : Nat) :
    (bound floor riders).EndsIn (Building.keeper now) b fun result b' =>
      result = .ok (riders.filter fun x => b.destination? x = some floor) ∧ b' = b := by
  induction riders with
  | nil => exact ⟨rfl, rfl⟩
  | cons x riders ih =>
      obtain ⟨⟨p, hp⟩, hrest⟩ := List.forall_mem_cons.mp h
      have hx : b.destination? x = some p.destination := by simp [Building.destination?, hp]
      rw [bound, Dialogue.endsIn_ask, keeper_destination, hx]
      dsimp only
      rw [Dialogue.endsIn_bind]
      refine (ih hrest).mono ?_
      rintro _ _ ⟨rfl, rfl⟩
      refine ⟨?_, rfl⟩
      simp only [Except.map, List.filter_cons, hx]
      by_cases hfloor : p.destination = floor <;> simp [hfloor]

/-- Riders who step out on the floor they want to go to leave the books in order. -/
lemma announceAlighted_endsIn (h : b.Ledger (riders ++ others))
    (hriders : ∀ x ∈ riders, b.destination? x = some floor) (now : Nat) :
    (announceAlighted floor riders).EndsIn (Building.keeper now) b fun _ b' =>
      b'.Ledger others ∧ b.Later b' := by
  induction riders generalizing b with
  | nil => exact ⟨h, .refl b⟩
  | cons x riders ih =>
      obtain ⟨hx, hrest⟩ := List.forall_mem_cons.mp hriders
      have hlater := Building.later_toFloor b floor x now
      rw [announceAlighted, Dialogue.endsIn_ask]
      refine (ih (h.toFloor hx now) fun y hy => hlater.destination? (hrest y hy)).mono ?_
      exact fun _ b' hb' => ⟨hb'.1, hlater.trans hb'.2⟩

/-! ### Who boards -/

/-- Whoever boards next stands in line on the floor and goes the way the car goes, if it has
anywhere to go. -/
lemma next?_eq_some (h : b.Ledger riders) {goingUp queueWasEmpty : Bool}
    (hnext : b.next? floor goingUp queueWasEmpty = some x) :
    x ∈ b.lineAt floor ∧ ∃ p, b.people[x]? = some p ∧ p.start = floor ∧ p.hasArrived = false ∧
      (queueWasEmpty = true ∨ p.goingUp = goingUp) := by
  have hx : x ∈ b.lineAt floor := List.mem_of_find?_eq_some hnext
  have hboardable := List.find?_some hnext
  obtain ⟨p, hp, hstart, -, harrived⟩ := h.waits floor x hx
  refine ⟨hx, p, hp, hstart, harrived, ?_⟩
  simpa [Building.isBoardable, hp, harrived] using hboardable

/-- If nobody boards next, the car has somewhere to go and everybody in line goes the other way. -/
lemma next?_eq_none (h : b.Ledger riders) {goingUp queueWasEmpty : Bool}
    (hnext : b.next? floor goingUp queueWasEmpty = none) (hx : x ∈ b.lineAt floor)
    (hp : b.people[x]? = some p) : queueWasEmpty = false ∧ p.goingUp ≠ goingUp := by
  have hnot := List.find?_eq_none.mp hnext x hx
  obtain ⟨q, hq, -, -, harrived⟩ := h.waits floor x hx
  obtain rfl : p = q := Option.some.inj (hp.symm.trans hq)
  simpa [Building.isBoardable, hp, harrived] using hnot

/-- The destination of somebody who goes the way the car goes can always be queued. -/
lemma addStop_of_boarding (h : s.OnCourse height) (hlt : p.destination < height)
    (hstart : p.start = s.floor)
    (hway : s.stops = .empty ∨ p.goingUp = decide (s.direction = .up)) :
    ∃ added s', s.addStop p.destination height = (.ok added, s') ∧
      p.destination ∈ s'.stops.floors := by
  cases h.addStop_cases p.destination with
  | outside hle => exact absurd hlt (not_lt_of_ge hle)
  | present _ hmem heq => exact ⟨_, _, heq, hmem⟩
  | queued _ _ _ heq => exact ⟨_, _, heq, CarState.mem_stops_enqueue.mpr (Or.inl rfl)⟩
  | behind _ hne hbehind =>
      -- a car with something queued goes up or down, and so does whoever boards
      exfalso
      have hgoing := hway.resolve_left hne
      rw [Person.goingUp, hstart] at hgoing
      apply hbehind
      cases hdirection : s.direction with
      | stop => exact absurd hdirection (h.direction_ne_stop hne)
      | up =>
          have hup : s.floor < p.destination := by simpa [hdirection] using hgoing
          simpa [Direction.reaches] using hup.le
      | down =>
          have hdown : p.destination ≤ s.floor := by simpa [hdirection] using hgoing
          simpa [Direction.reaches] using hdown

/-- What boarding leaves behind. Everybody aboard was aboard before or has their destination queued,
and boarding stops because nobody boards next or because all places are taken. -/
structure Boarded (places : Nat) (s : CarState) (b : Building) (others : List RiderId)
    (recalls : List Request) (s' : CarState) (b' : Building) : Prop where
  grown : s.Grown s'
  ledger : b'.Ledger (s'.riders ++ others)
  later : b.Later b'
  aboard : ∀ x ∈ s'.riders, x ∈ s.riders ∨ ∃ d ∈ s'.stops.floors, b'.destination? x = some d
  ended : b'.next? s'.floor (s'.direction = .up) s'.stops.isEmpty = none ∨
    (s'.riders.length = s.riders.length + places ∧ ∃ d, recalls = refusal s' d)

/-- Boarding goes on behind somebody who has stepped in and whose destination is queued. -/
lemma Boarded.stepsIn {recalls : List Request}
    (h : Boarded places { s' with riders := s'.riders ++ [x] } (b.toCar s'.floor x now) others
      recalls s'' b') (hgrown : s.Grown s') (hriders : s'.riders = s.riders)
    (hp : b.people[x]? = some p) (hmem : p.destination ∈ s'.stops.floors) :
    Boarded (places + 1) s b others recalls s'' b' where
  grown := hgrown.trans (h.grown.withRiders s'.riders s''.riders)
  ledger := h.ledger
  later := (b.later_toCar s'.floor x now).trans h.later
  aboard y hy := by
    cases h.aboard y hy with
    | inr hqueued => exact Or.inr hqueued
    | inl hy =>
        cases List.mem_append.mp hy with
        | inl hbefore => exact Or.inl (hriders ▸ hbefore)
        | inr hself =>
            obtain rfl := List.mem_singleton.mp hself
            refine Or.inr ⟨p.destination, h.grown.subset _ hmem, ?_⟩
            exact ((b.later_toCar s'.floor y now).trans h.later).destination?
              (by simp [Building.destination?, hp])
  ended := by
    cases h.ended with
    | inl hnext => exact Or.inl hnext
    | inr hfull =>
        refine Or.inr ⟨?_, hfull.2⟩
        have hcount : (s'.riders ++ [x]).length = s.riders.length + 1 := by simp [hriders]
        have hlength := hfull.1
        simp only [hcount] at hlength
        omega

/-- With nobody to board next, boarding is over. -/
lemma board_of_next_none {R : Attempt CarState (List RiderId × List Request) → Building → Prop}
    (hnext : b.next? s.floor (s.direction = .up) s.stops.isEmpty = none)
    (hR : R (.ok ([], []), s) b) :
    (board height places s).EndsIn (Building.keeper now) b R := by
  rw [board.eq_def, Dialogue.endsIn_ask, keeper_next, hnext]
  exact hR

/-- Somebody who boards next is refused if there is no place, and otherwise takes one. -/
lemma board_of_next_some {R : Attempt CarState (List RiderId × List Request) → Building → Prop}
    (hnext : b.next? s.floor (s.direction = .up) s.stops.isEmpty = some x)
    (hp : b.people[x]? = some p) (harrived : p.hasArrived = false)
    (hrefused : places = 0 → R (.ok ([], refusal s p.destination), s) b)
    (hboards : ∀ n, places = n + 1 → ∃ added s', s.addStop p.destination height = (.ok added, s') ∧
      (board height n { s' with riders := s'.riders ++ [x] }).EndsIn (Building.keeper now)
        (b.toCar s'.floor x now) fun out b' =>
          R (out.1.map fun result => (x :: result.1, result.2), out.2) b') :
    (board height places s).EndsIn (Building.keeper now) b R := by
  have hhas : b.hasArrived x = false := by simp [Building.hasArrived, hp, harrived]
  have hdestination : b.destination? x = some p.destination := by
    simp [Building.destination?, hp]
  rw [board.eq_def, Dialogue.endsIn_ask, keeper_next, hnext]
  dsimp only
  rw [Dialogue.endsIn_ask, keeper_hasArrived, hhas]
  dsimp only
  rw [Dialogue.endsIn_ask, keeper_destination, hdestination]
  cases places with
  | zero => exact hrefused rfl
  | succ n =>
      obtain ⟨added, s', hadd, hrest⟩ := hboards n rfl
      dsimp only
      rw [hadd]
      dsimp only
      rw [Dialogue.endsIn_ask, keeper_boarded, Dialogue.endsIn_bind]
      exact hrest

lemma board_endsIn (h : s.Lawful height capacity) (hroom : s.riders.length + places ≤ capacity)
    (hledger : b.Ledger (s.riders ++ others)) (hheight : b.height = height) (now : Nat) :
    (board height places s).EndsIn (Building.keeper now) b fun out b' =>
      ∃ boarded recalls, out.1 = .ok (boarded, recalls) ∧
        Boarded places s b others recalls out.2 b' := by
  induction places generalizing s b with
  | zero =>
      cases hnext : b.next? s.floor (s.direction = .up) s.stops.isEmpty with
      | none =>
          exact board_of_next_none hnext
            ⟨[], [], rfl, .refl s, hledger, .refl b, fun _ hx => Or.inl hx, Or.inl hnext⟩
      | some x =>
          obtain ⟨-, p, hp, -, harrived, -⟩ := next?_eq_some hledger hnext
          refine board_of_next_some hnext hp harrived (fun _ => ?_) (by simp)
          exact ⟨[], _, rfl, .refl s, hledger, .refl b, fun _ hx => Or.inl hx,
            Or.inr ⟨rfl, _, rfl⟩⟩
  | succ places ih =>
      cases hnext : b.next? s.floor (s.direction = .up) s.stops.isEmpty with
      | none =>
          exact board_of_next_none hnext
            ⟨[], [], rfl, .refl s, hledger, .refl b, fun _ hx => Or.inl hx, Or.inl hnext⟩
      | some x =>
          obtain ⟨hx, p, hp, hstart, harrived, hway⟩ := next?_eq_some hledger hnext
          have hlt : p.destination < height := hheight ▸ (hledger.routes x p hp).2.1
          obtain ⟨added, s', hadd, hmem⟩ := addStop_of_boarding h.toOnCourse hlt hstart
            (hway.imp_left Stops.isEmpty_iff.mp)
          have hlawful := h.addStop p.destination
          have hgrown := h.grown_addStop p.destination
          have hriders : (s.addStop p.destination height).2.riders = s.riders :=
            CarState.riders_addStop
          rw [hadd] at hlawful hgrown hriders
          have hfloor : s'.floor = s.floor := hgrown.floor_eq
          have hsame : s'.riders = s.riders := hriders
          have hcount : (s'.riders ++ [x]).length = s.riders.length + 1 := by simp [hsame]
          refine board_of_next_some hnext hp harrived (by simp) fun n hn => ⟨added, s', hadd, ?_⟩
          obtain rfl : places = n := by omega
          have hbooks : (b.toCar s'.floor x now).Ledger ((s'.riders ++ [x]) ++ others) := by
            rw [hfloor, hsame]
            refine (hledger.toCar hx now).perm ?_
            rw [List.append_assoc]
            exact List.perm_middle.symm
          refine (ih (hlawful.withRiders (by omega)) (by simp only; omega) hbooks hheight).mono ?_
          rintro ⟨result, s''⟩ b' ⟨boarded, recalls, rfl, hboarded⟩
          exact ⟨x :: boarded, recalls, rfl, hboarded.stepsIn hgrown hsame hp hmem⟩

/-! ### Who is left behind -/

lemma recallOthers_endsIn (s : CarState) (b : Building) (now : Nat) :
    (recallOthers s).EndsIn (Building.keeper now) b fun recalls b' => b' = b ∧
      ∀ call, s.direction.call? = some call → b.hasWaiting s.floor call.opposite.isUp = true →
        ⟨s.floor, call.opposite⟩ ∈ recalls := by
  rw [recallOthers]
  cases hcall : s.direction.call? with
  | none => exact ⟨rfl, by simp⟩
  | some call =>
      dsimp only
      rw [Dialogue.endsIn_ask, keeper_hasWaiting]
      cases hwaiting : b.hasWaiting s.floor call.opposite.isUp with
      | false => exact ⟨rfl, by simp [hwaiting]⟩
      | true => exact ⟨rfl, by simp⟩

/-- What an exchange leaves behind. Everybody aboard was aboard before and goes on, or has their
destination queued. If the car has somewhere to go then everybody who is still in line on its floor
has their call raised again, and if it has not then nobody is in line or the car is full. -/
structure Served (capacity : Nat) (s : CarState) (b : Building) (others : List RiderId)
    (recalls : List Request) (s' : CarState) (b' : Building) : Prop where
  ledger : b'.Ledger (s'.riders ++ others)
  later : b.Later b'
  aboard : ∀ x ∈ s'.riders, (x ∈ s.riders ∧ b.destination? x ≠ some s.floor) ∨
    ∃ d ∈ s'.stops.floors, b'.destination? x = some d
  recalled : s'.stops ≠ .empty → ∀ x ∈ b'.lineAt s.floor, ∀ p, b'.people[x]? = some p →
    ⟨s.floor, .ofUp p.goingUp⟩ ∈ recalls
  emptied : s'.stops = .empty → b'.lineAt s.floor = [] ∨ s'.riders.length = capacity

/-- A car with a direction raises the call of a refused rider in its own direction. -/
lemma refusal_eq {call : Call} (h : s.direction.call? = some call) (d : Floor) :
    refusal s d = [⟨s.floor, call⟩] := by
  cases hdirection : s.direction <;> simp [hdirection, Direction.call?] at h <;>
    simp [refusal, hdirection, Direction.call?, h]

/-- Somebody in line who goes the way the car goes is covered by the call that a refused rider
raises, and somebody who goes the other way by the calls for the others. -/
lemma mem_recalls (h : s.OnCourse height) (hne : s.stops ≠ .empty) (hledger : b.Ledger riders)
    {recalls others : List Request}
    (hended : b.next? s.floor (s.direction = .up) s.stops.isEmpty = none ∨
      ∃ d, recalls = refusal s d)
    (hothers : ∀ call, s.direction.call? = some call →
      b.hasWaiting s.floor call.opposite.isUp = true → ⟨s.floor, call.opposite⟩ ∈ others)
    (hx : x ∈ b.lineAt s.floor) (hp : b.people[x]? = some p) :
    ⟨s.floor, .ofUp p.goingUp⟩ ∈ recalls ++ others := by
  have hwaiting : ∀ goingUp, p.goingUp = goingUp → b.hasWaiting s.floor goingUp = true := by
    rintro goingUp rfl
    exact List.any_eq_true.mpr ⟨x, hx, by simp [hp]⟩
  obtain ⟨call, hcall, hup⟩ : ∃ call, s.direction.call? = some call ∧
      (call.isUp = decide (s.direction = .up)) := by
    cases hdirection : s.direction with
    | stop => exact absurd hdirection (h.direction_ne_stop hne)
    | up => exact ⟨.up, rfl, rfl⟩
    | down => exact ⟨.down, rfl, rfl⟩
  by_cases hway : p.goingUp = call.isUp
  · have hsome : b.next? s.floor (s.direction = .up) s.stops.isEmpty ≠ none := fun hnone =>
      (next?_eq_none hledger hnone hx hp).2 (hway.trans hup)
    obtain ⟨d, rfl⟩ := hended.resolve_left hsome
    have hofUp : Call.ofUp p.goingUp = call := by
      rw [hway]
      cases call <;> rfl
    rw [refusal_eq hcall, hofUp]
    exact List.mem_append_left _ List.mem_cons_self
  · have hopposite : p.goingUp = call.opposite.isUp := by
      cases call <;> simpa [Call.isUp, Call.opposite] using hway
    have hofUp : Call.ofUp p.goingUp = call.opposite := by
      rw [hopposite]
      cases call <;> rfl
    rw [hofUp]
    exact List.mem_append_right _ (hothers call hcall (hwaiting _ hopposite))

/-- Boarding behind those who stay, and the calls for the others, leave behind what an exchange is
to leave behind. -/
lemma Boarded.served {staying : List RiderId} {b₁ : Building} {recalls calls : List Request}
    (h : Boarded places { s with riders := staying } b₁ others recalls s' b')
    (hcourse : s'.OnCourse height) (hlater : b.Later b₁)
    (hstaying : ∀ x ∈ staying, x ∈ s.riders ∧ b.destination? x ≠ some s.floor)
    (hplaces : staying.length + places = capacity)
    (hcalls : ∀ call, s'.direction.call? = some call →
      b'.hasWaiting s'.floor call.opposite.isUp = true → ⟨s'.floor, call.opposite⟩ ∈ calls) :
    Served capacity s b others (recalls ++ calls) s' b' where
  ledger := h.ledger
  later := hlater.trans h.later
  aboard x hx := (h.aboard x hx).imp_left (hstaying x)
  recalled hne x hx p hp := by
    have hfloor : s'.floor = s.floor := h.grown.floor_eq
    rw [← hfloor] at hx ⊢
    exact mem_recalls hcourse hne h.ledger (h.ended.imp_right fun hfull => hfull.2) hcalls hx hp
  emptied hempty := by
    have hfloor : s'.floor = s.floor := h.grown.floor_eq
    cases h.ended with
    | inr hfull => exact Or.inr (hfull.1.trans hplaces)
    | inl hnone =>
        refine Or.inl (List.eq_nil_iff_forall_not_mem.mpr fun x hx => ?_)
        rw [← hfloor] at hx
        obtain ⟨p, hp, -⟩ := h.ledger.waits s'.floor x hx
        have hqueued : s'.stops.isEmpty = false := (next?_eq_none h.ledger hnone hx hp).1
        have hnothing : s'.stops.isEmpty = true := Stops.isEmpty_iff.mpr hempty
        exact absurd (hqueued.symm.trans hnothing) (by decide)

/-- Those who do not step out are those who want to go elsewhere. -/
lemma filter_not_alighted (riders : List RiderId) (b : Building) (floor : Floor) :
    riders.filter (!(riders.filter fun x => b.destination? x = some floor).contains ·) =
      riders.filter fun x => b.destination? x ≠ some floor := by
  refine List.filter_congr fun x hx => ?_
  by_cases hthere : b.destination? x = some floor <;> simp [hx, hthere]

/-- Those who step out and those who stay make up everybody aboard. -/
lemma ledger_alighted (h : b.Ledger (riders ++ others)) (floor : Floor) :
    b.Ledger ((riders.filter fun x => b.destination? x = some floor) ++
      ((riders.filter fun x => b.destination? x ≠ some floor) ++ others)) := by
  refine h.perm ?_
  rw [← List.append_assoc]
  simp only [ne_eq, decide_not]
  exact (List.filter_append_perm _ riders).symm.append_right others

/-- **An exchange with a building whose books are in order** succeeds, and leaves the books in order
and nobody behind without a call. -/
theorem run_endsIn (h : s.Lawful height capacity) (hheight : b.height = height)
    (hledger : b.Ledger (s.riders ++ others)) (now : Nat) :
    (run height capacity s).EndsIn (Building.keeper now) b fun out b' =>
      ∃ x, out.1 = .ok x ∧ Served capacity s b others x.recalls out.2 b' := by
  rw [run_eq, Dialogue.endsIn_bind]
  refine (bound_endsIn hledger.known s.floor now).mono ?_
  rintro _ b' ⟨rfl, hb'⟩
  rw [hb']
  change (afterBound height capacity s _).EndsIn _ _ _
  set alighted := s.riders.filter fun x => b.destination? x = some s.floor with halighted
  set staying := s.riders.filter (!alighted.contains ·) with hstaying
  have hplaces : staying.length ≤ capacity := (List.length_filter_le _ _).trans h.room
  -- everybody who is there steps out
  have hbooks : b.Ledger (alighted ++ (staying ++ others)) := by
    rw [hstaying, halighted, filter_not_alighted]
    exact ledger_alighted hledger s.floor
  rw [afterBound, Dialogue.endsIn_bind]
  refine (announceAlighted_endsIn hbooks (fun x hx => ?_) now).mono fun _ b₁ hout => ?_
  · simpa using (List.mem_filter.mp hx).2
  obtain ⟨hledger₁, hlater₁⟩ := hout
  -- others board
  have hlawful : { s with riders := staying }.Lawful height capacity := h.withRiders hplaces
  have hfull : staying.length + (capacity - staying.length) = capacity :=
    Nat.add_sub_of_le hplaces
  rw [Dialogue.endsIn_bind]
  refine ((board_endsIn hlawful hfull.le hledger₁ (hlater₁.height_eq.trans hheight) now).and_always
    (board_always hlawful hfull.le)).mono ?_
  rintro ⟨result, s'⟩ b₂ ⟨⟨boarded, recalls, rfl, hboarded⟩, hkeeps⟩
  -- the calls of those left behind are raised
  dsimp only
  rw [Dialogue.endsIn_bind]
  refine (recallOthers_endsIn s' b₂ now).mono ?_
  rintro calls _ ⟨rfl, hcalls⟩
  refine ⟨⟨alighted, boarded, recalls ++ calls⟩, rfl,
    hboarded.served hkeeps.lawful.toOnCourse hlater₁ (fun x hx => ?_) hfull hcalls⟩
  obtain ⟨hrider, hnot⟩ := List.mem_filter.mp hx
  refine ⟨hrider, fun hthere => ?_⟩
  simp [halighted, hrider, hthere] at hnot

/-- If everybody aboard had their destination queued, or was there, everybody aboard has their
destination queued. -/
lemma Served.carried {recalls : List Request} (h : Served capacity s b others recalls s' b')
    (hgrown : s.Grown s') (hcarried : ∀ x ∈ s.riders, ∃ d, b.destination? x = some d ∧
      (d ∈ s.stops.floors ∨ d = s.floor)) (hx : x ∈ s'.riders) :
    ∃ d ∈ s'.stops.floors, b'.destination? x = some d := by
  cases h.aboard x hx with
  | inr hqueued => exact hqueued
  | inl hstay =>
      obtain ⟨d, hd, hstop⟩ := hcarried x hstay.1
      have hne : d ≠ s.floor := fun heq => hstay.2 (heq ▸ hd)
      exact ⟨d, hgrown.subset d (hstop.resolve_right hne), h.later.destination? hd⟩

/-- Then a car with room for somebody leaves nobody in line without having somewhere to go. -/
lemma Served.stops_ne_empty {recalls : List Request} (h : Served capacity s b others recalls s' b')
    (hgrown : s.Grown s') (hcarried : ∀ x ∈ s.riders, ∃ d, b.destination? x = some d ∧
      (d ∈ s.stops.floors ∨ d = s.floor)) (hcapacity : 0 < capacity)
    (hx : x ∈ b'.lineAt s.floor) : s'.stops ≠ .empty := by
  intro hempty
  cases h.emptied hempty with
  | inl hnobody => simp [hnobody] at hx
  | inr hfull =>
      obtain ⟨y, hy⟩ := List.exists_mem_of_length_pos (hfull ▸ hcapacity)
      obtain ⟨d, hd, -⟩ := h.carried hgrown hcarried hy
      exact Stops.ne_empty_of_mem hd hempty

end Exchange

end ElevatorFleet
