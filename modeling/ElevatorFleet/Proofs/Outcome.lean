import ElevatorFleet.Proofs.Handover

/-!
What an exchange of riders with a building comes to, in closed form.

* `Building.exchanged` is the building after some riders have stepped out on a floor and others have
  boarded there.
* `Exchange.heading` is the direction in which a car goes on, `Exchange.boarding` are those who
  board, in the order in which they stand in line, and `Exchange.callsAgain` the calls of those left
  behind.
* `Exchange.run_outcome` says that an exchange comes to this.
-/

namespace ElevatorFleet

namespace Person

/-- The way somebody travels. -/
def heading (p : Person) : Direction := if p.goingUp then .up else .down

/-- Somebody who steps out, or boards, or neither. -/
def moved (p : Person) (stepsOut boards : Bool) (now : Nat) : Person :=
  let p := if stepsOut then p.arrive now else p
  if boards then p.board now else p

lemma moved_arrive {p : Person} {stepsOut boards : Bool} {now : Nat} :
    (p.arrive now).moved stepsOut boards now = p.moved true boards now := by
  cases stepsOut <;> cases boards <;> simp [moved, arrive, board]

lemma moved_board {p : Person} {stepsOut boards : Bool} {now : Nat} :
    (p.board now).moved stepsOut boards now = p.moved stepsOut true now := by
  cases stepsOut <;> cases boards <;> simp [moved, arrive, board]

lemma moved_moved {p : Person} {stepsOut boards : Bool} {now : Nat} :
    (p.moved stepsOut false now).moved false boards now = p.moved stepsOut boards now := by
  cases stepsOut <;> cases boards <;> rfl

end Person

namespace Building

variable {b b' : Building} {floor : Floor} {x : RiderId} {off on : List RiderId} {now : Nat}

/-- The way a rider travels. -/
def heading? (b : Building) (x : RiderId) : Option Direction := b.people[x]?.map (·.heading)

/-- The building after some riders have stepped out on a floor and others have boarded there: these
have left the line, those are among the arrivals behind everybody who has arrived before, and their
clocks have been set. -/
def exchanged (b : Building) (floor : Floor) (off on : List RiderId) (now : Nat) : Building where
  height := b.height
  people := b.people.mapIdx fun x p => p.moved (off.contains x) (on.contains x) now
  waiting := b.waiting.modify floor.val (·.filter (!on.contains ·))
  arrived := b.arrived.modify floor.val (· ++ off)

lemma people_exchanged : (b.exchanged floor off on now).people[x]? =
    b.people[x]?.map fun p => p.moved (off.contains x) (on.contains x) now :=
  List.getElem?_mapIdx

lemma eq_of_people (hheight : b'.height = b.height)
    (hpeople : ∀ x : RiderId, b'.people[x]? = b.people[x]?) (hwaiting : b'.waiting = b.waiting)
    (harrived : b'.arrived = b.arrived) : b' = b := by
  obtain ⟨height, people, waiting, arrived⟩ := b
  obtain ⟨height', people', waiting', arrived'⟩ := b'
  obtain rfl : people' = people := List.ext_getElem? hpeople
  obtain rfl : height' = height := hheight
  obtain rfl : waiting' = waiting := hwaiting
  obtain rfl : arrived' = arrived := harrived
  rfl

@[simp] lemma exchanged_nil : b.exchanged floor [] [] now = b := by
  refine eq_of_people rfl (fun x => ?_) ?_ ?_
  · rw [people_exchanged]
    exact congrFun Option.map_id_fun' _
  · have hid : (fun line : List RiderId => line.filter (!([] : List RiderId).contains ·)) = id :=
      funext fun line => by simp
    exact (congrArg _ hid).trans (List.modify_id _ _)
  · have hid : (fun hall : List RiderId => hall ++ []) = id := funext List.append_nil
    exact (congrArg _ hid).trans (List.modify_id _ _)

/-- Riders step out one after the other. -/
lemma exchanged_toFloor : (b.toFloor floor x now).exchanged floor off [] now =
    b.exchanged floor (x :: off) [] now := by
  refine eq_of_people rfl (fun y => ?_) rfl ?_
  · rw [people_exchanged, people_exchanged, people_toFloor]
    by_cases hxy : x = y
    · subst hxy
      simp [Function.comp_def, Person.moved_arrive]
    · simp [hxy, Ne.symm hxy]
  · have hcomp : (fun hall : List RiderId => hall ++ x :: off) = (· ++ off) ∘ (· ++ [x]) :=
      funext fun hall => by simp
    exact (List.modify_modify_eq _ _ _ _).trans (congrArg _ hcomp.symm)

/-- Riders board one after the other. -/
lemma exchanged_toCar : (b.toCar floor x now).exchanged floor [] on now =
    b.exchanged floor [] (x :: on) now := by
  refine eq_of_people rfl (fun y => ?_) ?_ rfl
  · rw [people_exchanged, people_exchanged, people_toCar]
    by_cases hxy : x = y
    · subst hxy
      simp [Function.comp_def, Person.moved_board]
    · simp [hxy, Ne.symm hxy]
  · have hcomp : (fun line : List RiderId => line.filter (!(x :: on).contains ·)) =
        (·.filter (!on.contains ·)) ∘ (·.filter (· != x)) := funext fun line => by
      simp only [Function.comp_apply, List.filter_filter, List.contains_cons]
      exact List.filter_congr fun y _ => by simp [Bool.and_comm, bne]
    exact (List.modify_modify_eq _ _ _ _).trans (congrArg _ hcomp.symm)

/-- A rider who boards alone. -/
lemma toCar_eq_exchanged : b.toCar floor x now = b.exchanged floor [] [x] now :=
  exchanged_nil.symm.trans exchanged_toCar

/-- Others board after some have stepped out. -/
lemma exchanged_exchanged : (b.exchanged floor off [] now).exchanged floor [] on now =
    b.exchanged floor off on now := by
  refine eq_of_people rfl (fun x => ?_) ?_ ?_
  · rw [people_exchanged, people_exchanged, people_exchanged]
    simp [Function.comp_def, Person.moved_moved]
  · have hcomp : (·.filter (!on.contains ·)) ∘ (·.filter (!([] : List RiderId).contains ·)) =
        fun line : List RiderId => line.filter (!on.contains ·) := funext fun line => by simp
    exact (List.modify_modify_eq _ _ _ _).trans (congrArg _ hcomp)
  · have hcomp : (· ++ []) ∘ (· ++ off) = fun hall : List RiderId => hall ++ off :=
      funext fun hall => by simp
    exact (List.modify_modify_eq _ _ _ _).trans (congrArg _ hcomp)

lemma lineAt_exchanged :
    (b.exchanged floor off on now).lineAt floor = (b.lineAt floor).filter (!on.contains ·) := by
  simp only [lineAt, exchanged, List.getElem?_modify_eq]
  cases b.waiting[floor.val]? <;> rfl

/-- What does not depend on the clocks of a rider is the same of whoever steps out or boards. -/
lemma map_people_exchanged {α : Type} {f : Person → α}
    (hf : ∀ p stepsOut boards, f (Person.moved p stepsOut boards now) = f p) :
    (b.exchanged floor off on now).people[x]?.map f = b.people[x]?.map f := by
  rw [people_exchanged, Option.map_map]
  exact congrArg (Option.map · _) (funext fun p => hf p _ _)

/-- Riders travel the way they have travelled, to where they wanted to go. -/
lemma heading?_exchanged : (b.exchanged floor off on now).heading? x = b.heading? x :=
  map_people_exchanged fun p stepsOut boards => by cases stepsOut <;> cases boards <;> rfl

lemma destination?_exchanged :
    (b.exchanged floor off on now).destination? x = b.destination? x :=
  map_people_exchanged fun p stepsOut boards => by cases stepsOut <;> cases boards <;> rfl

end Building

/-- Riders come and go without touching the course of a car. -/
lemma CarState.OnCourse.withRiders {height : Floor} {s : CarState} (h : s.OnCourse height)
    {riders : List RiderId} : { s with riders }.OnCourse height := { h with }

namespace Exchange

open Dialogue

variable {height floor : Floor} {capacity places now : Nat} {s s' s'' : CarState} {b b' : Building}
  {d : Direction} {x : RiderId} {p : Person} {on others : List RiderId}

/-- The direction in which a car goes on: with nothing queued the way of the first in line, if there
is anybody, and otherwise its own. -/
def heading (s : CarState) (b : Building) : Direction :=
  if s.stops.isEmpty then ((b.lineAt s.floor).head?.bind b.heading?).getD s.direction
  else s.direction

/-- Those who board a car with so many free places: the first in line who travel its way. -/
def boarding (b : Building) (floor : Floor) (d : Direction) (places : Nat) : List RiderId :=
  ((b.lineAt floor).filter fun x => b.heading? x = some d).take places

/-- The call of those who wait on a floor, if there is anybody. -/
def callAgain (b : Building) (floor : Floor) (call : Call) : List Request :=
  if b.hasWaiting floor call.isUp then [⟨floor, call⟩] else []

/-- The calls of those who are left behind by a car: first of those who travel its way. -/
def callsAgain (b : Building) (floor : Floor) (d : Direction) : List Request :=
  match d.call? with
  | none => []
  | some call => callAgain b floor call ++ callAgain b floor call.opposite

/-! ### The car -/

/-- A car that goes on in direction `d` has queued a floor. -/
structure Queues (height : Floor) (d : Direction) (floor : Floor) (s s' : CarState) : Prop where
  course : s'.OnCourse height
  floor_eq : s'.floor = s.floor
  direction_eq : s'.direction = d
  riders_eq : s'.riders = s.riders
  mem_stops : ∀ f, f ∈ s'.stops.floors ↔ f = floor ∨ f ∈ s.stops.floors
  activity_eq : s'.activity = if s.activity = .idle then .moving else s.activity

/-- Somebody who travels the way the car goes, or who decides where it goes, has their destination
queued. -/
lemma addStop_queues (h : s.OnCourse height) (hlt : p.destination < height)
    (hstart : p.start = s.floor) (hne : p.start ≠ p.destination)
    (hway : s.stops = .empty ∨ s.direction = p.heading) :
    ∃ added s', s.addStop p.destination height = (.ok added, s') ∧
      Queues height p.heading p.destination s s' := by
  have htoward : Direction.toward s.floor p.destination = p.heading := by
    rw [← hstart, Direction.toward, Person.heading, Person.goingUp]
    rcases lt_trichotomy p.start p.destination with hlt | heq | hgt
    · simp [hlt]
    · exact absurd heq hne
    · simp [hgt, hgt.not_gt]
  have hreaches : p.heading.reaches s.floor p.destination :=
    htoward ▸ Direction.reaches_toward (hstart ▸ hne)
  cases h.addStop_cases p.destination with
  | outside hle => exact absurd hlt (not_lt_of_ge hle)
  | present _ hmem heq =>
      have hqueued : s.stops ≠ .empty := Stops.ne_empty_of_mem hmem
      refine ⟨_, _, heq, h, rfl, hway.resolve_left hqueued, rfl, fun f => ?_, ?_⟩
      · exact ⟨Or.inr, fun hf => hf.elim (fun heq => heq ▸ hmem) fun hf => hf⟩
      · rw [if_neg fun hidle => hqueued (h.idle hidle)]
  | queued _ _ hahead heq =>
      refine ⟨_, _, heq, h.enqueue hlt hahead, rfl, ?_, rfl,
        fun f => CarState.mem_stops_enqueue, ?_⟩
      · rw [CarState.direction_enqueue]
        by_cases hempty : s.stops = .empty
        · rw [CarState.courseFor, if_pos (Stops.isEmpty_iff.mpr hempty), CarState.turnedToward,
            htoward]
          split
          · rename_i hstop
            exact absurd hstop (Direction.ne_stop_of_reaches hreaches)
          · rfl
        · rw [CarState.courseFor_of_ne_empty hempty]
          exact hway.resolve_left hempty
      · by_cases hidle : s.activity = .idle <;> simp [CarState.enqueue, hidle]
  | behind _ hqueued hbehind => exact absurd (hway.resolve_left hqueued ▸ hreaches) hbehind

/-- A car that goes on in direction `d` after some riders have boarded: their destinations have been
queued beside what was queued before, and an idle car has set off. -/
structure Filled (height : Floor) (d : Direction) (on : List RiderId) (s : CarState) (b : Building)
    (s' : CarState) : Prop where
  course : s'.OnCourse height
  floor_eq : s'.floor = s.floor
  direction_eq : s'.direction = d
  riders_eq : s'.riders = s.riders ++ on
  mem_stops : ∀ f, f ∈ s'.stops.floors ↔
    f ∈ s.stops.floors ∨ ∃ x ∈ on, b.destination? x = some f
  activity_eq : s'.activity = if s.activity = .idle ∧ on ≠ [] then .moving else s.activity

lemma filled_nil (h : s.OnCourse height) : Filled height s.direction [] s b s :=
  ⟨h, rfl, rfl, (List.append_nil _).symm, by simp, by simp⟩

/-- Others board behind somebody who has stepped in. -/
lemma Queues.filled (hqueues : Queues height d p.destination s s') (hp : b.people[x]? = some p)
    (h : Filled height d on { s' with riders := s'.riders ++ [x] } (b.toCar s.floor x now) s'') :
    Filled height d (x :: on) s b s'' where
  course := h.course
  floor_eq := h.floor_eq.trans hqueues.floor_eq
  direction_eq := h.direction_eq
  riders_eq := by
    rw [h.riders_eq, hqueues.riders_eq, List.append_assoc, List.singleton_append]
  mem_stops f := by
    have hx : b.destination? x = some p.destination := by simp [Building.destination?, hp]
    have hsame : ∀ y, (b.toCar s.floor x now).destination? y = b.destination? y := fun y => by
      rw [Building.toCar_eq_exchanged, Building.destination?_exchanged]
    rw [h.mem_stops, hqueues.mem_stops]
    simp only [hsame, List.exists_mem_cons_iff, hx, Option.some.injEq, @eq_comm _ f]
    tauto
  activity_eq := by
    have hset : s'.activity ≠ .idle := by
      rw [hqueues.activity_eq]
      split_ifs with hidle
      · decide
      · exact hidle
    rw [h.activity_eq, if_neg fun hidle => hset hidle.1, hqueues.activity_eq]
    simp

/-! ### Boarding -/

/-- Somebody in line boards a car that has something queued if they travel its way. -/
lemma isBoardable_eq (h : b.Ledger others) (hx : x ∈ b.lineAt floor) (hd : d ≠ .stop) :
    b.isBoardable (d = .up) false x = decide (b.heading? x = some d) := by
  obtain ⟨p, hp, -, -, harrived⟩ := h.waits floor x hx
  cases d with
  | stop => exact absurd rfl hd
  | up | down =>
      cases hup : p.goingUp <;>
        simp [Building.isBoardable, Building.heading?, Person.heading, hp, harrived, hup]

/-- A car that has something queued calls the first in line who travels its way. -/
lemma next?_eq_head? (h : b.Ledger others) (hd : d ≠ .stop) :
    b.next? floor (d = .up) false =
      ((b.lineAt floor).filter fun x => b.heading? x = some d).head? := by
  rw [List.head?_filter, Building.next?]
  refine List.find?_congr fun x hx => ?_
  exact isBoardable_eq h hx hd

/-- The same of a car on course. -/
lemma next?_of_queued (h : s.OnCourse height) (hqueued : s.stops ≠ .empty)
    (hledger : b.Ledger others) : b.next? s.floor (s.direction = .up) s.stops.isEmpty =
      ((b.lineAt s.floor).filter fun x => b.heading? x = some s.direction).head? := by
  have hempty : s.stops.isEmpty = false := Bool.eq_false_iff.mpr (mt Stops.isEmpty_iff.mp hqueued)
  rw [hempty]
  exact next?_eq_head? hledger (h.direction_ne_stop hqueued)

/-- A car that has nothing queued calls the first in line. -/
lemma next?_eq_first (h : b.Ledger others) {goingUp : Bool} :
    b.next? floor goingUp true = (b.lineAt floor).head? := by
  rw [Building.next?]
  cases hline : b.lineAt floor with
  | nil => rfl
  | cons x rest =>
      obtain ⟨p, hp, -, -, harrived⟩ := h.waits floor x (hline ▸ List.mem_cons_self)
      exact List.find?_cons_of_pos (by simp [Building.isBoardable, hp, harrived])

/-- A car that has something queued has a call of its own. -/
lemma exists_call_of_queued (h : s.OnCourse height) (hqueued : s.stops ≠ .empty) :
    ∃ call, s.direction.call? = some call ∧ call.direction = s.direction := by
  cases hdirection : s.direction with
  | stop => exact absurd hdirection (h.direction_ne_stop hqueued)
  | up => exact ⟨.up, rfl, rfl⟩
  | down => exact ⟨.down, rfl, rfl⟩

/-- Somebody waits to go one way if somebody in line travels that way. -/
lemma hasWaiting_iff (h : b.Ledger others) {call : Call} :
    b.hasWaiting floor call.isUp = true ↔
      (b.lineAt floor).filter (fun x => b.heading? x = some call.direction) ≠ [] := by
  rw [Building.hasWaiting, List.any_eq_true, ne_eq, List.filter_eq_nil_iff]
  push Not
  refine exists_congr fun x => and_congr_right fun hx => ?_
  obtain ⟨p, hp, -⟩ := h.waits floor x hx
  cases call <;> cases hup : p.goingUp <;>
    simp [Building.heading?, Person.heading, hp, hup, Call.isUp, Call.direction]

/-- The call that boarding raises again: that of those who travel the way of the car. -/
def ownCall (b : Building) (floor : Floor) (d : Direction) : List Request :=
  (d.call?.map (callAgain b floor)).getD []

lemma ownCall_of_filter_nil (h : b.Ledger others)
    (hnobody : (b.lineAt floor).filter (fun x => b.heading? x = some d) = []) :
    ownCall b floor d = [] := by
  rw [ownCall]
  cases hcall : d.call? with
  | none => rfl
  | some call =>
      obtain rfl : call.direction = d := by
        cases d <;> cases call <;> simp_all [Direction.call?, Call.direction]
      have hno : ¬ b.hasWaiting floor call.isUp = true := fun hyes =>
        (hasWaiting_iff h).mp hyes hnobody
      simp [callAgain, hno]

/-- What boarding comes to: those who board, the call of those who travel the same way and are left
behind, the building without those who have boarded, and the car with them. -/
def BoardsAll (height : Floor) (d : Direction) (on : List RiderId) (now : Nat) (s : CarState)
    (b : Building) (out : Attempt CarState (List RiderId × List Request)) (b' : Building) : Prop :=
  out.1 = .ok (on, ownCall b' s.floor d) ∧ b' = b.exchanged s.floor [] on now ∧
    Filled height d on s b out.2

/-- Of those who travel one way, the others are still in line when the first has boarded. -/
lemma boarding_toCar {rest : List RiderId} (h : b.Ledger others)
    (hgoing : (b.lineAt floor).filter (fun x => b.heading? x = some d) = x :: rest) :
    boarding (b.toCar floor x now) floor d places = rest.take places := by
  have hx : x ∈ b.lineAt floor := (List.mem_filter.mp (hgoing ▸ List.mem_cons_self)).1
  have hnodup : (x :: rest).Nodup := hgoing ▸ (h.nodup_lineAt hx).filter _
  rw [boarding, Building.toCar_eq_exchanged, Building.lineAt_exchanged, List.filter_filter]
  simp only [Building.heading?_exchanged, Bool.and_comm (decide _)]
  rw [← List.filter_filter, hgoing, List.filter_cons_of_neg (by simp)]
  congr 1
  exact List.filter_eq_self.mpr fun y hy => by
    simpa using fun heq : y = x => (List.nodup_cons.mp hnodup).1 (heq ▸ hy)

/-- Nobody boards if nobody travels the way of the car. -/
lemma board_of_nobody (h : s.OnCourse height) (hledger : b.Ledger others)
    (hnext : b.next? s.floor (s.direction = .up) s.stops.isEmpty = none)
    (hnobody : (b.lineAt s.floor).filter (fun x => b.heading? x = some s.direction) = [])
    (places now : Nat) :
    (board height places s).EndsIn (Building.keeper now) b
      (BoardsAll height s.direction (boarding b s.floor s.direction places) now s b) := by
  rw [show boarding b s.floor s.direction places = [] by rw [boarding, hnobody, List.take_nil]]
  refine board_of_next_none hnext ⟨?_, Building.exchanged_nil.symm, filled_nil h⟩
  rw [ownCall_of_filter_nil hledger hnobody]

/-- With somebody else aboard the books are in order again. -/
lemma ledger_stepsIn (h : b.Ledger (s.riders ++ others)) (hx : x ∈ b.lineAt floor) (now : Nat) :
    (b.toCar floor x now).Ledger ((s.riders ++ [x]) ++ others) := by
  refine (h.toCar hx now).perm ?_
  rw [List.append_assoc]
  exact List.perm_middle.symm

/-- The first who is called steps in, and then others board who travel the same way. -/
lemma boardsAll_cons {rest : List RiderId} (h : s.OnCourse height)
    (hledger : b.Ledger (s.riders ++ others)) (hheight : b.height = height)
    (hnext : b.next? s.floor (s.direction = .up) s.stops.isEmpty = some x)
    (hp : b.people[x]? = some p) (hway : s.stops = .empty ∨ s.direction = p.heading)
    (hgoing : (b.lineAt s.floor).filter (fun x => b.heading? x = some p.heading) = x :: rest)
    (hrest : ∀ s' : CarState, s'.OnCourse height → s'.stops ≠ .empty →
      (b.toCar s.floor x now).Ledger (s'.riders ++ others) →
      (board height places s').EndsIn (Building.keeper now) (b.toCar s.floor x now)
        (BoardsAll height s'.direction
          (boarding (b.toCar s.floor x now) s'.floor s'.direction places) now s'
          (b.toCar s.floor x now))) :
    (board height (places + 1) s).EndsIn (Building.keeper now) b
      (BoardsAll height p.heading (boarding b s.floor p.heading (places + 1)) now s b) := by
  obtain ⟨hx, q, hq, hstart, harrived, -⟩ := next?_eq_some hledger hnext
  obtain rfl : p = q := Option.some.inj (hp.symm.trans hq)
  obtain ⟨-, hlt, hne⟩ := hledger.routes x p hp
  obtain ⟨added, s', hadd, hqueues⟩ := addStop_queues h (hheight ▸ hlt) hstart hne hway
  refine board_of_next_some hnext hp harrived (by simp) fun n hn => ⟨added, s', hadd, ?_⟩
  obtain rfl : places = n := Nat.succ.inj hn
  have hfloor : b.toCar s'.floor x now = b.toCar s.floor x now := by rw [hqueues.floor_eq]
  have hboards := hrest { s' with riders := s'.riders ++ [x] } hqueues.course.withRiders
    (Stops.ne_empty_of_mem ((hqueues.mem_stops _).mpr (Or.inl rfl)))
    (hqueues.riders_eq ▸ ledger_stepsIn hledger hx now)
  have hon : boarding (b.toCar s.floor x now) s'.floor s'.direction places = rest.take places := by
    rw [hqueues.floor_eq, hqueues.direction_eq]
    exact boarding_toCar hledger hgoing
  rw [hfloor, boarding, hgoing, List.take_succ_cons]
  refine hboards.mono ?_
  rintro ⟨result, s''⟩ b' hout
  obtain ⟨hresult, hb', hfilled⟩ : BoardsAll height s'.direction (rest.take places) now
    { s' with riders := s'.riders ++ [x] } (b.toCar s.floor x now) (result, s'') b' := hon ▸ hout
  simp only [hqueues.floor_eq, hqueues.direction_eq] at hresult hb'
  subst hresult
  have hfilled' : Filled height p.heading (rest.take places)
      { s' with riders := s'.riders ++ [x] } (b.toCar s.floor x now) s'' :=
    { hfilled with direction_eq := hfilled.direction_eq.trans hqueues.direction_eq }
  exact ⟨rfl, hb'.trans Building.exchanged_toCar, hqueues.filled hp hfilled'⟩

/-- A car that has something queued takes those aboard who travel its way, as long as there are
places. -/
lemma board_of_queued (h : s.OnCourse height) (hqueued : s.stops ≠ .empty)
    (hledger : b.Ledger (s.riders ++ others)) (hheight : b.height = height) (places now : Nat) :
    (board height places s).EndsIn (Building.keeper now) b
      (BoardsAll height s.direction (boarding b s.floor s.direction places) now s b) := by
  induction places generalizing s b with
  | zero =>
      have hnext := next?_of_queued h hqueued hledger
      cases hgoing : (b.lineAt s.floor).filter fun x => b.heading? x = some s.direction with
      | nil => exact board_of_nobody h hledger (hnext.trans (congrArg _ hgoing)) hgoing 0 now
      | cons x rest =>
          -- somebody who travels the way of the car does not fit in
          rw [hgoing] at hnext
          obtain ⟨hx, p, hp, -, harrived, -⟩ := next?_eq_some hledger hnext
          refine board_of_next_some hnext hp harrived (fun _ => ?_) (by simp)
          refine ⟨?_, Building.exchanged_nil.symm, filled_nil h⟩
          obtain ⟨call, hcall, hdirection⟩ := exists_call_of_queued h hqueued
          have hwaiting : b.hasWaiting s.floor call.isUp = true :=
            (hasWaiting_iff hledger).mpr (by rw [hdirection, hgoing]; exact List.cons_ne_nil _ _)
          simp [refusal_eq hcall, ownCall, hcall, callAgain, hwaiting, boarding]
  | succ places ih =>
      have hnext := next?_of_queued h hqueued hledger
      cases hgoing : (b.lineAt s.floor).filter fun x => b.heading? x = some s.direction with
      | nil => exact board_of_nobody h hledger (hnext.trans (congrArg _ hgoing)) hgoing _ now
      | cons x rest =>
          have hheading : b.heading? x = some s.direction := by
            have hx : x ∈ (b.lineAt s.floor).filter fun x => b.heading? x = some s.direction :=
              hgoing ▸ List.mem_cons_self
            simpa using (List.mem_filter.mp hx).2
          rw [hgoing] at hnext
          obtain ⟨-, p, hp, -⟩ := next?_eq_some hledger hnext
          have hway : s.direction = p.heading := by
            simpa [Building.heading?, hp, eq_comm] using hheading
          rw [hway] at hgoing ⊢
          exact boardsAll_cons h hledger hheight hnext hp (Or.inr hway) hgoing
            fun s' hcourse hqueued hledger => ih hcourse hqueued hledger hheight

/-- A car that has nothing queued, but a place, takes the first in line aboard, and then those who
travel the same way. -/
lemma board_of_unqueued (h : s.OnCourse height) (hunqueued : s.stops = .empty)
    (hledger : b.Ledger (s.riders ++ others)) (hheight : b.height = height) (places now : Nat) :
    (board height (places + 1) s).EndsIn (Building.keeper now) b
      (BoardsAll height (heading s b) (boarding b s.floor (heading s b) (places + 1)) now s b) := by
  have hempty : s.stops.isEmpty = true := Stops.isEmpty_iff.mpr hunqueued
  have hnext : b.next? s.floor (s.direction = .up) s.stops.isEmpty = (b.lineAt s.floor).head? := by
    rw [hempty]
    exact next?_eq_first hledger
  cases hline : b.lineAt s.floor with
  | nil =>
      have hheading : heading s b = s.direction := by simp [heading, hline]
      rw [hheading]
      exact board_of_nobody h hledger (by rw [hnext, hline, List.head?_nil]) (by simp [hline]) _ now
  | cons x rest =>
      rw [hline, List.head?_cons] at hnext
      obtain ⟨hx, p, hp, -⟩ := next?_eq_some hledger hnext
      have hheading : heading s b = p.heading := by
        simp [heading, hempty, hline, Building.heading?, hp]
      have hgoing : (b.lineAt s.floor).filter (fun x => b.heading? x = some p.heading) =
          x :: rest.filter fun x => b.heading? x = some p.heading := by
        rw [hline, List.filter_cons_of_pos (by simp [Building.heading?, hp])]
      rw [hheading]
      exact boardsAll_cons h hledger hheight hnext hp (Or.inl hunqueued) hgoing
        fun s' hcourse hqueued hledger => board_of_queued hcourse hqueued hledger hheight places now

/-- Boarding in closed form: a car that has somewhere to go, or a place, takes those aboard who
travel the way it goes on. -/
lemma board_endsIn_boardsAll (h : s.OnCourse height) (hplace : s.stops ≠ .empty ∨ 0 < places)
    (hledger : b.Ledger (s.riders ++ others)) (hheight : b.height = height) (now : Nat) :
    (board height places s).EndsIn (Building.keeper now) b
      (BoardsAll height (heading s b) (boarding b s.floor (heading s b) places) now s b) := by
  by_cases hempty : s.stops = .empty
  · obtain ⟨n, rfl⟩ := Nat.exists_eq_add_of_lt (hplace.resolve_left (not_not_intro hempty))
    rw [Nat.zero_add]
    exact board_of_unqueued h hempty hledger hheight n now
  · have hheading : heading s b = s.direction :=
      if_neg (mt Stops.isEmpty_iff.mp hempty)
    rw [hheading]
    exact board_of_queued h hempty hledger hheight places now

/-! ### Those who step out, and those who are left behind -/

/-- Riders who step out are among those who have arrived, in the same order. -/
lemma announceAlighted_exchanged (floor : Floor) (riders : List RiderId) (b : Building)
    (now : Nat) : (announceAlighted floor riders).EndsIn (Building.keeper now) b fun _ b' =>
      b' = b.exchanged floor riders [] now := by
  induction riders generalizing b with
  | nil => exact Building.exchanged_nil.symm
  | cons x riders ih =>
      rw [announceAlighted, Dialogue.endsIn_ask]
      exact (ih _).mono fun _ b' hb' => hb'.trans Building.exchanged_toFloor

/-- The call for those who go the other way. -/
lemma recallOthers_eq (s : CarState) (b : Building) (now : Nat) :
    (recallOthers s).EndsIn (Building.keeper now) b fun calls b' => b' = b ∧
      ownCall b s.floor s.direction ++ calls = callsAgain b s.floor s.direction := by
  rw [recallOthers, callsAgain, ownCall]
  cases s.direction.call? with
  | none => exact ⟨rfl, rfl⟩
  | some call =>
      dsimp only
      rw [Dialogue.endsIn_ask, keeper_hasWaiting]
      cases hwaiting : b.hasWaiting s.floor call.opposite.isUp with
      | false => exact ⟨rfl, by simp [callAgain, hwaiting]⟩
      | true => exact ⟨rfl, by simp [callAgain, hwaiting]⟩

/-- The direction of a car does not depend on who has stepped out. -/
lemma heading_exchanged {riders off : List RiderId} :
    heading { s with riders } (b.exchanged s.floor off [] now) = heading s b := by
  have hline : (b.exchanged s.floor off [] now).lineAt s.floor = b.lineAt s.floor := by
    simp [Building.lineAt_exchanged]
  have hheading : (b.exchanged s.floor off [] now).heading? = b.heading? :=
    funext fun x => Building.heading?_exchanged
  simp only [heading, hline, hheading]

lemma boarding_exchanged {off : List RiderId} :
    boarding (b.exchanged floor off [] now) floor d places = boarding b floor d places := by
  simp [boarding, Building.lineAt_exchanged, Building.heading?_exchanged]

/-! ### The whole exchange -/

/-- What an exchange comes to in which some have stepped out and others have boarded. -/
def Exchanged (height : Floor) (d : Direction) (off on : List RiderId) (now : Nat) (s : CarState)
    (b : Building) (out : Attempt CarState Exchange) (b' : Building) : Prop :=
  out.1 = .ok ⟨off, on, callsAgain b' s.floor d⟩ ∧ b' = b.exchanged s.floor off on now ∧
    Filled height d on s b out.2

/-- Behind those who have stepped out, boarding and the calls of those left behind come to this. -/
lemma BoardsAll.afterBoarding {off : List RiderId}
    {out : Attempt CarState (List RiderId × List Request)}
    (h : BoardsAll height d on now s (b.exchanged s.floor off [] now) out b') :
    AfterBoarding (Exchanged height d off on now s b) now off out b' := by
  obtain ⟨result, s'⟩ := out
  obtain ⟨rfl, hb', hfilled⟩ := h
  refine afterBoarding_ok.mpr ((recallOthers_eq s' b' now).mono ?_)
  rintro calls _ ⟨rfl, hcalls⟩
  rw [hfilled.floor_eq, hfilled.direction_eq] at hcalls
  refine ⟨congrArg (fun calls => Except.ok (Exchange.mk off on calls)) hcalls,
    hb'.trans Building.exchanged_exchanged, ?_⟩
  -- where somebody wants to go does not depend on who has stepped out
  refine { hfilled with mem_stops := fun f => (hfilled.mem_stops f).trans ?_ }
  simp only [Building.destination?_exchanged]

/-- The parts of an exchange, one after the other: some step out, others board, and those left
behind have their calls raised again. -/
lemma run_exchanged (h : s.OnCourse height) (hheight : b.height = height)
    (hledger : b.Ledger (s.riders ++ others)) (now : Nat) {staying : List RiderId}
    (hstaying : staying = s.riders.filter fun x => b.destination? x ≠ some s.floor)
    (hplace : s.stops ≠ .empty ∨ staying.length < capacity) :
    (run height capacity s).EndsIn (Building.keeper now) b
      (Exchanged height (heading s b) (stepsOut s b)
        (boarding b s.floor (heading s b) (capacity - staying.length)) now
        { s with riders := staying } b) := by
  have hrest : s.riders.filter (!(stepsOut s b).contains ·) = staying :=
    (filter_not_alighted s.riders b s.floor).trans hstaying.symm
  refine run_endsIn_of hledger.known ?_
  refine ((announceAlighted_exchanged s.floor (stepsOut s b) b now).and
    (announceAlighted_endsIn (ledger_alighted hledger s.floor)
      (fun x hx => by simpa using (List.mem_filter.mp hx).2) now)).mono ?_
  rintro _ _ ⟨rfl, hledger₁, hlater⟩
  rw [← hstaying] at hledger₁
  dsimp only
  rw [hrest]
  have hboards := board_endsIn_boardsAll (s := { s with riders := staying }) h.withRiders
    (hplace.imp_right Nat.sub_pos_of_lt) hledger₁ (hlater.height_eq.trans hheight) now
  rw [heading_exchanged, boarding_exchanged] at hboards
  exact hboards.mono fun _ _ hout => hout.afterBoarding

/-- **An exchange in closed form**, between a car on course and a building whose books are in order,
if the car has somewhere to go or a place for somebody else. Those aboard who want to go to the
floor step out. The car goes on in the direction it has, or with nothing queued in that of the first
in line, and the first in line who travel that way take the free places, in the order in which they
stand there. Their destinations join the queue, which is in the order of a sweep in that direction,
and those left behind have their calls raised again. In the building nothing else changes. -/
theorem run_outcome (h : s.OnCourse height) (hheight : b.height = height)
    (hledger : b.Ledger (s.riders ++ others)) (now : Nat)
    (hplace : s.stops ≠ .empty ∨
      (s.riders.filter fun x => b.destination? x ≠ some s.floor).length < capacity) :
    let held := (run height capacity s).hold (Building.keeper now) b
    let off := s.riders.filter fun x => b.destination? x = some s.floor
    let staying := s.riders.filter fun x => b.destination? x ≠ some s.floor
    let d := heading s b
    let on := boarding b s.floor d (capacity - staying.length)
    let s' := held.result.2
    held.result.1 = .ok ⟨off, on, callsAgain held.keeper s.floor d⟩ ∧
      held.keeper = b.exchanged s.floor off on now ∧
      s'.floor = s.floor ∧ s'.direction = d ∧ s'.riders = staying ++ on ∧
      s'.stops.OrderedFor d ∧ s'.stops.floors.Nodup ∧
      (∀ f, f ∈ s'.stops.floors ↔
        f ∈ s.stops.floors ∨ ∃ x ∈ on, b.destination? x = some f) ∧
      s'.activity = if s.activity = .idle ∧ on ≠ [] then .moving else s.activity := by
  intro held off staying d on s'
  obtain ⟨hresult, hkeeper, hfilled⟩ :
      Exchanged height d off on now { s with riders := staying } b held.result held.keeper :=
    run_exchanged h hheight hledger now rfl hplace
  exact ⟨hresult, hkeeper, hfilled.floor_eq, hfilled.direction_eq, hfilled.riders_eq,
    hfilled.direction_eq ▸ hfilled.course.ordered, hfilled.course.ordered.nodup,
    hfilled.mem_stops, hfilled.activity_eq⟩

/-- Somebody steps out on floor 2, where three people wait to go up and one to go down. Two of those
who go up fit in, and both calls are raised again. -/
theorem run_outcome_crowded :
    let b := ((((((Building.vacant 5).enter 0 2 0).2.enter 2 4 0).2.enter 2 0 0).2.enter
      2 4 0).2.enter 2 3 0).2.toCar 0 0 1
    let held := (run 5 2 ⟨2, .up, .doorOpen, .empty, [0]⟩).hold (Building.keeper 2) b
    held.result.1 = .ok ⟨[0], [1, 3], [⟨2, .up⟩, ⟨2, .down⟩]⟩ ∧
      held.result.2.direction = .up ∧ held.result.2.riders = [1, 3] ∧
      (∀ f, f ∈ held.result.2.stops.floors ↔ f = 4) ∧
      held.keeper.lineAt 2 = [2, 4] ∧ held.keeper.arrivedAt 2 = [0] := by
  intro b held
  have hledger : b.Ledger [0] := by
    have h₀ := ((Building.ledger_vacant 5).entered 0 2 0).1
    have h₁ := ((h₀.entered 2 4 0).1.entered 2 0 0).1
    have h₂ := ((h₁.entered 2 4 0).1.entered 2 3 0).1
    exact h₂.toCar (by decide +kernel) 1
  have hcourse : CarState.OnCourse 5 ⟨2, .up, .doorOpen, .empty, [0]⟩ :=
    ⟨by decide, by simp [Stops.empty], Stops.orderedFor_empty _, by simp [Stops.empty], by simp⟩
  have hplace : (Stops.empty ≠ Stops.empty) ∨
      (([0] : List RiderId).filter fun x => b.destination? x ≠ some 2).length < 2 :=
    Or.inr (by decide +kernel)
  obtain ⟨hresult, hkeeper, -, hdirection, hriders, -, -, hstops, -⟩ :=
    run_outcome hcourse rfl hledger 2 hplace
  refine ⟨hresult.trans (by decide +kernel), hdirection.trans (by decide +kernel),
    hriders.trans (by decide +kernel), fun f => (hstops f).trans ?_, ?_, ?_⟩
  · revert f
    decide +kernel
  · rw [hkeeper]
    decide +kernel
  · rw [hkeeper]
    decide +kernel

end Exchange

end ElevatorFleet
