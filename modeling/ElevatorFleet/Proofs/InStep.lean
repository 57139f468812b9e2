import ElevatorFleet.Proofs.Boarding
import ElevatorFleet.Proofs.Transcripts
import ElevatorFleet.Riders.Script

/-!
A car and whoever keeps the riders stay in step in an exchange, whatever the keeper answers and
however the exchange ends.

* `Exchange.Refused` is what is said about a rider who cannot board, and why.
* `Exchange.Boarding` is what boarding comes to, and `Exchange.InStep` what a whole exchange comes
  to: those aboard are those who were, without whoever is reported to have stepped out, followed by
  whoever is reported to have boarded.
* `Exchange.run_yields` says that every exchange keeps in step, and `Exchange.kept_in_step` the
  same for an exchange with any keeper who never changes where somebody wants to go.
* `Exchange.fault_of_rider_aboard`: a rider at whom an exchange fails can be aboard all the same.
-/

namespace ElevatorFleet

namespace CarState

variable {s s' : CarState} {floor height : Floor} {added : Bool} {fault : Fault}

/-- A floor that has been queued is queued, whatever state the car was in, and nothing else has
been lost. -/
lemma addStop_eq_ok (h : s.addStop floor height = (.ok added, s')) :
    floor ∈ s'.stops.floors ∧ (∀ f ∈ s.stops.floors, f ∈ s'.stops.floors) ∧
      s'.riders = s.riders ∧ s'.floor = s.floor := by
  rw [addStop] at h
  split_ifs at h with hrange hmem hfree hahead
  · exact absurd (Prod.mk.inj h).1 (by simp)
  · obtain ⟨-, rfl⟩ := Prod.mk.inj h
    exact ⟨Stops.contains_iff.mp hmem, fun _ hf => hf, rfl, rfl⟩
  · obtain ⟨-, rfl⟩ := Prod.mk.inj h
    exact ⟨mem_stops_enqueue.mpr (Or.inl rfl), fun _ hf => mem_stops_enqueue.mpr (Or.inr hf), rfl,
      rfl⟩
  · obtain ⟨-, rfl⟩ := Prod.mk.inj h
    exact ⟨mem_stops_enqueue.mpr (Or.inl rfl), fun _ hf => mem_stops_enqueue.mpr (Or.inr hf), rfl,
      rfl⟩
  · exact absurd (Prod.mk.inj h).1 (by simp)

/-- A floor that is refused lies outside the building or behind the car, and the car is left as it
was. -/
lemma addStop_eq_error (h : s.addStop floor height = (.error fault, s')) :
    s' = s ∧ (fault = .floorOutOfRange floor height ∨
      fault = .destinationBehind floor s.floor s.direction) := by
  rw [addStop] at h
  split_ifs at h with hrange hmem hfree hahead
  · obtain ⟨hfault, rfl⟩ := Prod.mk.inj h
    exact ⟨rfl, Or.inl (Except.error.inj hfault).symm⟩
  · exact absurd (Prod.mk.inj h).1 (by simp)
  · exact absurd (Prod.mk.inj h).1 (by simp)
  · exact absurd (Prod.mk.inj h).1 (by simp)
  · obtain ⟨hfault, rfl⟩ := Prod.mk.inj h
    exact ⟨rfl, Or.inr (Except.error.inj hfault).symm⟩

end CarState

namespace Exchange

open Transcript

variable {height floor : Floor} {capacity places : Nat} {s s' : CarState} {t : Transcript}
  {x : RiderId} {d : Floor}

/-! ### Somebody who cannot board -/

/-- What is said about a rider who has been called and cannot board, and the fault in which the
exchange ends: they have arrived already, nobody knows them, or their destination cannot be
queued. -/
inductive Refused (height : Floor) (x : RiderId) : Transcript → Fault → Prop where
  | arrived : Refused height x [⟨.hasArrived x, true⟩] (.riderAlreadyArrived x)
  | unknown : Refused height x [⟨.hasArrived x, false⟩, ⟨.destination x, none⟩] (.unknownRider x)
  | outside (d : Floor) : Refused height x [⟨.hasArrived x, false⟩, ⟨.destination x, some d⟩]
      (.floorOutOfRange d height)
  | behind (d current : Floor) (direction : Direction) :
      Refused height x [⟨.hasArrived x, false⟩, ⟨.destination x, some d⟩]
        (.destinationBehind d current direction)

/-- Nothing is said about them but questions. -/
lemma Refused.quiet {fault : Fault} (h : Refused height x t fault) : t.Quiet := by
  cases h <;> exact ⟨rfl, rfl, rfl⟩

/-- An exchange ends in a fault because the rider it has called last cannot board: nothing follows
their call but the questions about them. -/
def FailsAtLast (height : Floor) (x : RiderId) (before t : Transcript) (fault : Fault) : Prop :=
  ∃ (floor : Floor) (goingUp queueWasEmpty : Bool) (asked : Transcript),
    t = before ++ ⟨.next floor goingUp queueWasEmpty, some x⟩ :: asked ∧
      Refused height x asked fault

/-- What has been said before may be a longer story. -/
lemma FailsAtLast.append {before : Transcript} {fault : Fault}
    (h : FailsAtLast height x before t fault) (t₀ : Transcript) :
    FailsAtLast height x (t₀ ++ before) (t₀ ++ t) fault := by
  obtain ⟨floor, goingUp, queueWasEmpty, asked, rfl, hrefused⟩ := h
  exact ⟨floor, goingUp, queueWasEmpty, asked, (List.append_assoc _ _ _).symm, hrefused⟩

/-- After that call nobody boards and nobody steps out. -/
lemma FailsAtLast.nobody_moves {before : Transcript} {fault : Fault}
    (h : FailsAtLast height x before t fault) :
    t.boarded = before.boarded ∧ t.alighted = before.alighted := by
  obtain ⟨floor, goingUp, queueWasEmpty, asked, rfl, hrefused⟩ := h
  have hquiet := hrefused.quiet
  constructor
  · rw [boarded_append]
    exact (congrArg (before.boarded ++ ·) hquiet.boarded).trans (List.append_nil _)
  · rw [alighted_append]
    exact (congrArg (before.alighted ++ ·) hquiet.alighted).trans (List.append_nil _)

/-! ### Boarding -/

/-- What boarding a car with so many free places comes to, of whatever the keeper has said: nobody
steps out, whoever is reported to have boarded joins those aboard in that order, has their
destination queued and takes a place, and riders are called once more than there are places at
most. A fault is that of the rider called last. -/
structure Boarding (height : Floor) (places : Nat) (s : CarState) (t : Transcript)
    (out : Attempt CarState (List RiderId × List Request)) : Prop where
  alighted : t.alighted = []
  riders : out.2.riders = s.riders ++ t.boarded
  listed : ∀ result, out.1 = .ok result → result.1 = t.boarded
  room : t.boarded.length ≤ places
  calls : t.calls ≤ places + 1
  stops : ∀ f ∈ s.stops.floors, f ∈ out.2.stops.floors
  queued : ∀ x ∈ t.boarded, ∃ d ∈ out.2.stops.floors, ⟨.destination x, some d⟩ ∈ t
  failed : ∀ fault, out.1 = .error fault → ∃ x before, FailsAtLast height x before t fault

/-- Boarding is over without anybody having boarded. -/
lemma Boarding.of_nobody {goingUp queueWasEmpty : Bool} {answer : Option RiderId}
    {recalls : List Request} (ht : t.Quiet) :
    Boarding height places s (⟨.next floor goingUp queueWasEmpty, answer⟩ :: t)
      (.ok ([], recalls), s) where
  alighted := ht.alighted
  riders := by
    change s.riders = s.riders ++ t.boarded
    rw [ht.boarded, List.append_nil]
  listed result hresult := by
    obtain rfl : ([], recalls) = result := by simpa using hresult
    exact ht.boarded.symm
  room := by
    change t.boarded.length ≤ places
    simp [ht.boarded]
  calls := by
    change Transcript.calls ([⟨.next floor goingUp queueWasEmpty, answer⟩] ++ t) ≤ places + 1
    rw [calls_append, ht.calls]
    exact Nat.le_add_left 1 places
  stops _ hf := hf
  queued x hx := by
    change x ∈ t.boarded at hx
    simp [ht.boarded] at hx
  failed := by simp

/-- Boarding fails at the first rider who is called. -/
lemma Boarding.of_refused {goingUp queueWasEmpty : Bool} {fault : Fault}
    (h : Refused height x t fault) :
    Boarding height places s (⟨.next floor goingUp queueWasEmpty, some x⟩ :: t)
      (.error fault, s) := by
  have hquiet : Boarding height places s (⟨.next floor goingUp queueWasEmpty, some x⟩ :: t)
      (.ok ([], []), s) := .of_nobody h.quiet
  refine { hquiet with listed := by simp, failed := fun fault' hfault => ?_ }
  obtain rfl : fault = fault' := by simpa using hfault
  exact ⟨x, [], floor, goingUp, queueWasEmpty, t, rfl, h⟩

/-- All that is said until somebody who has been called has boarded. -/
def round (floor : Floor) (goingUp queueWasEmpty : Bool) (x : RiderId) (d floor' : Floor) :
    Transcript :=
  [⟨.next floor goingUp queueWasEmpty, some x⟩, ⟨.hasArrived x, false⟩,
    ⟨.destination x, some d⟩, ⟨.boarded floor' x, ()⟩]

/-- Boarding goes on behind somebody who has boarded and whose destination has been queued. -/
lemma Boarding.stepsIn {goingUp queueWasEmpty added : Bool} {floor' : Floor}
    {out : Attempt CarState (List RiderId × List Request)}
    (hadd : s.addStop d height = (.ok added, s'))
    (h : Boarding height places { s' with riders := s'.riders ++ [x] } t out) :
    Boarding height (places + 1) s (round floor goingUp queueWasEmpty x d floor' ++ t)
      (out.1.map fun result => (x :: result.1, result.2), out.2) where
  alighted := h.alighted
  riders := by
    obtain ⟨-, -, hriders, -⟩ := CarState.addStop_eq_ok hadd
    rw [h.riders, hriders]
    change (s.riders ++ [x]) ++ t.boarded = s.riders ++ x :: t.boarded
    rw [List.append_assoc, List.singleton_append]
  listed result hresult := by
    rcases out with ⟨fault | ⟨riders, recalls⟩, s''⟩
    · simp [Except.map] at hresult
    · obtain rfl : (x :: riders, recalls) = result := by simpa [Except.map] using hresult
      exact congrArg (x :: ·) (h.listed _ rfl)
  room := by
    change (x :: t.boarded).length ≤ places + 1
    exact Nat.succ_le_succ h.room
  calls := by
    rw [calls_append]
    change 1 + t.calls ≤ places + 1 + 1
    have hcalls := h.calls
    omega
  stops f hf := by
    obtain ⟨-, hkept, -⟩ := CarState.addStop_eq_ok hadd
    exact h.stops f (hkept f hf)
  queued y hy := by
    obtain ⟨hmem, -, -⟩ := CarState.addStop_eq_ok hadd
    change y ∈ x :: t.boarded at hy
    rcases List.mem_cons.mp hy with rfl | hy
    · exact ⟨d, h.stops d hmem, by simp [round]⟩
    · obtain ⟨d', hd', hsaid⟩ := h.queued y hy
      exact ⟨d', hd', List.mem_append_right _ hsaid⟩
  failed fault hfault := by
    rcases out with ⟨fault' | ⟨riders, recalls⟩, s''⟩
    · obtain ⟨y, before, hfails⟩ := h.failed fault (by simpa [Except.map] using hfault)
      exact ⟨y, _, hfails.append _⟩
    · simp [Except.map] at hfault

/-- Boarding comes to what it is to come to, whatever the keeper answers. -/
lemma board_yields (height : Floor) (places : Nat) (s : CarState) :
    (board height places s).Yields (Boarding height places s) := by
  induction places using Nat.strong_induction_on generalizing s with
  | _ places ih =>
      rw [board.eq_def]
      rintro (_ | x)
      · exact .of_nobody quiet_nil
      rintro (_ | _)
      swap
      · exact .of_refused .arrived
      rintro (_ | d)
      · exact .of_refused .unknown
      cases places with
      | zero => exact .of_nobody ((quiet_nil.cons ⟨rfl, rfl, rfl⟩).cons ⟨rfl, rfl, rfl⟩)
      | succ places =>
          dsimp only
          split
          · rename_i fault s' hadd
            obtain ⟨rfl, rfl | rfl⟩ := CarState.addStop_eq_error hadd
            · exact .of_refused (.outside d)
            · exact .of_refused (.behind d _ _)
          · rename_i added s' hadd
            intro _
            rw [Dialogue.yields_bind]
            refine (ih places places.lt_succ_self _).mono fun t out hout => ?_
            rw [Dialogue.yields_done, List.append_nil]
            exact hout.stepsIn hadd

/-! ### Stepping out -/

/-- Asking those aboard where they want to go moves nobody. Everybody has been asked and is known,
or somebody is not. -/
lemma bound_yields (floor : Floor) (riders : List RiderId) :
    (bound floor riders).Yields fun t result => t.Quiet ∧
      ((∃ alighted, result = .ok alighted ∧ ∀ x ∈ riders, ∃ d, ⟨.destination x, some d⟩ ∈ t) ∨
        ∃ x ∈ riders, result = .error (.unknownRider x) ∧ ⟨.destination x, none⟩ ∈ t) := by
  induction riders with
  | nil => exact ⟨quiet_nil, Or.inl ⟨[], rfl, List.forall_mem_nil _⟩⟩
  | cons x riders ih =>
      rw [bound]
      rintro (_ | d)
      · exact ⟨quiet_nil.cons ⟨rfl, rfl, rfl⟩,
          Or.inr ⟨x, List.mem_cons_self, rfl, List.mem_cons_self⟩⟩
      rw [Dialogue.yields_bind]
      refine ih.mono fun t result ⟨hquiet, hresult⟩ => ?_
      rw [Dialogue.yields_done, List.append_nil]
      refine ⟨hquiet.cons ⟨rfl, rfl, rfl⟩, ?_⟩
      rcases hresult with ⟨alighted, rfl, hasked⟩ | ⟨y, hy, rfl, hasked⟩
      · refine Or.inl ⟨_, rfl, List.forall_mem_cons.mpr ⟨⟨d, List.mem_cons_self⟩, fun y hy => ?_⟩⟩
        obtain ⟨d', hd'⟩ := hasked y hy
        exact ⟨d', List.mem_cons_of_mem _ hd'⟩
      · exact Or.inr ⟨y, List.mem_cons_of_mem _ hy, rfl, List.mem_cons_of_mem _ hasked⟩

/-- The riders who step out are reported one after the other. -/
lemma announceAlighted_yields (floor : Floor) (riders : List RiderId) :
    (announceAlighted floor riders).Yields fun t _ =>
      t.alighted = riders ∧ t.boarded = [] ∧ t.calls = 0 := by
  induction riders with
  | nil => exact ⟨rfl, rfl, rfl⟩
  | cons x riders ih =>
      rintro ⟨⟩
      exact ih.mono fun t _ ⟨halighted, hboarded, hcalls⟩ =>
        ⟨congrArg (x :: ·) halighted, hboarded, hcalls⟩

/-- Asking who is left behind moves nobody. -/
lemma recallOthers_yields (s : CarState) : (recallOthers s).Yields fun t _ => t.Quiet := by
  rw [recallOthers]
  split
  · exact quiet_nil
  · rintro (_ | _) <;> exact quiet_nil.cons ⟨rfl, rfl, rfl⟩

/-! ### The whole exchange -/

/-- Those aboard who have not been reported to have stepped out. -/
def staying (s : CarState) (t : Transcript) : List RiderId :=
  s.riders.filter (!t.alighted.contains ·)

/-- What a whole exchange comes to, of whatever the keeper has said. It fails before anybody has
moved, because somebody aboard is unknown, or at the rider called last. -/
structure InStep (height : Floor) (capacity : Nat) (s : CarState) (t : Transcript)
    (out : Attempt CarState Exchange) : Prop where
  riders : out.2.riders = staying s t ++ t.boarded
  room : t.boarded.length ≤ capacity - (staying s t).length
  calls : t.calls ≤ (capacity - (staying s t).length) + 1
  stops : ∀ f ∈ s.stops.floors, f ∈ out.2.stops.floors
  queued : ∀ x ∈ t.boarded, ∃ d ∈ out.2.stops.floors, ⟨.destination x, some d⟩ ∈ t
  succeeded : ∀ result, out.1 = .ok result →
    result.alighted = t.alighted ∧ result.boarded = t.boarded
  ended : ((∀ x ∈ s.riders, ∃ d, ⟨.destination x, some d⟩ ∈ t) ∧
      ∀ fault, out.1 = .error fault → ∃ x before, FailsAtLast height x before t fault) ∨
    ∃ x ∈ s.riders, ⟨.destination x, none⟩ ∈ t ∧ out = (.error (.unknownRider x), s) ∧ t.Quiet

/-- An exchange with somebody aboard whom nobody knows does nothing. -/
lemma InStep.of_unknown (hx : x ∈ s.riders) (ht : t.Quiet) (hasked : ⟨.destination x, none⟩ ∈ t) :
    InStep height capacity s t (.error (.unknownRider x), s) where
  riders := by simp [staying, ht.alighted, ht.boarded]
  room := by simp [ht.boarded]
  calls := by simp [ht.calls]
  stops _ hf := hf
  queued y hy := by simp [ht.boarded] at hy
  succeeded := by simp
  ended := Or.inr ⟨x, hx, hasked, rfl, ht⟩

/-- Boarding behind those who have been asked and those who have stepped out. -/
lemma Boarding.inStep {asked out onBoard others : Transcript} {alighted : List RiderId}
    {result : Except Fault (List RiderId × List Request)} (calls : List Request)
    (hasked : asked.Quiet) (hknown : ∀ x ∈ s.riders, ∃ d, ⟨.destination x, some d⟩ ∈ asked)
    (hout : out.alighted = alighted ∧ out.boarded = [] ∧ out.calls = 0)
    (h : Boarding height (capacity - (s.riders.filter (!alighted.contains ·)).length)
      { s with riders := s.riders.filter (!alighted.contains ·) } onBoard (result, s'))
    (hothers : others.Quiet) (hfailed : ∀ fault, result = .error fault → others = []) :
    InStep height capacity s (asked ++ (out ++ (onBoard ++ others)))
      (result.map fun (boarded, recalls) => ⟨alighted, boarded, recalls ++ calls⟩, s') := by
  have hoff : Transcript.alighted (asked ++ (out ++ (onBoard ++ others))) = alighted := by
    simp [hasked.alighted, hout.1, h.alighted, hothers.alighted]
  have hon : Transcript.boarded (asked ++ (out ++ (onBoard ++ others))) = onBoard.boarded := by
    simp [hasked.boarded, hout.2.1, hothers.boarded]
  have hcount : Transcript.calls (asked ++ (out ++ (onBoard ++ others))) = onBoard.calls := by
    simp [hasked.calls, hout.2.2, hothers.calls]
  have hstay : staying s (asked ++ (out ++ (onBoard ++ others))) =
      s.riders.filter (!alighted.contains ·) := by rw [staying, hoff]
  refine ⟨?_, ?_, ?_, h.stops, fun x hx => ?_, fun x hx => ?_, Or.inl ⟨fun x hx => ?_, ?_⟩⟩
  · rw [hstay, hon]
    exact h.riders
  · rw [hstay, hon]
    exact h.room
  · rw [hstay, hcount]
    exact h.calls
  · rw [hon] at hx
    obtain ⟨d, hd, hsaid⟩ := h.queued x hx
    exact ⟨d, hd, by simp [hsaid]⟩
  · rw [hoff, hon]
    rcases result with fault | ⟨boarded, recalls⟩
    · simp [Except.map] at hx
    · obtain rfl : ⟨alighted, boarded, recalls ++ calls⟩ = x := by simpa [Except.map] using hx
      exact ⟨rfl, h.listed _ rfl⟩
  · obtain ⟨d, hd⟩ := hknown x hx
    exact ⟨d, List.mem_append_left _ hd⟩
  · rintro fault hfault
    rcases result with fault' | ⟨boarded, recalls⟩
    · obtain rfl : fault' = fault := by simpa [Except.map] using hfault
      obtain ⟨x, before, hfails⟩ := h.failed _ rfl
      rw [hfailed _ rfl, List.append_nil, ← List.append_assoc]
      exact ⟨x, _, hfails.append _⟩
    · simp [Except.map] at hfault

/-- Every exchange comes to what it is to come to, whatever the keeper answers. -/
lemma run_yields (height : Floor) (capacity : Nat) (s : CarState) :
    (run height capacity s).Yields (InStep height capacity s) := by
  rw [run_eq, Dialogue.yields_bind]
  refine (bound_yields s.floor s.riders).mono fun asked result ⟨hasked, hresult⟩ => ?_
  rcases hresult with ⟨alighted, rfl, hknown⟩ | ⟨x, hx, rfl, hnone⟩
  swap
  · dsimp only
    rw [Dialogue.yields_done, List.append_nil]
    exact .of_unknown hx hasked hnone
  dsimp only
  rw [afterBound, Dialogue.yields_bind]
  refine (announceAlighted_yields s.floor alighted).mono fun out _ hout => ?_
  rw [Dialogue.yields_bind]
  refine (board_yields height _ _).mono fun onBoard boarding hboarding => ?_
  rcases boarding with ⟨fault | ⟨boarded, recalls⟩, s'⟩
  · have h : InStep height capacity s (asked ++ (out ++ (onBoard ++ []))) (.error fault, s') :=
      hboarding.inStep [] hasked hknown hout quiet_nil fun _ _ => rfl
    exact h
  · rw [Dialogue.yields_bind]
    refine (recallOthers_yields s').mono fun others calls hothers => ?_
    have h : InStep height capacity s (asked ++ (out ++ (onBoard ++ others)))
        (.ok ⟨alighted, boarded, recalls ++ calls⟩, s') :=
      hboarding.inStep calls hasked hknown hout hothers (by simp)
    rw [Dialogue.yields_done, List.append_nil]
    exact h

/-- **Kept in step.** An exchange with somebody who never changes where a rider wants to go, but
answers everything else as they please, calls once more than there are free places at most. However
it ends, those aboard are those who were aboard and have not been reported to have stepped out, and
behind them whoever has been reported to have boarded; these have their destinations queued, and
each of them found a free place. A fault is that of somebody aboard who is unknown, and then nothing
has happened, or that of the rider called last, and then nobody has moved since that call. -/
theorem kept_in_step {σ : Type} (k : Keeper σ) (height : Floor) (capacity : Nat) (s : CarState)
    (kept : σ) (destination : RiderId → Option Floor)
    (hfixed : ∀ x answer, ⟨.destination x, answer⟩ ∈ ((run height capacity s).hold k kept).remarks →
      answer = destination x) :
    let held := (run height capacity s).hold k kept
    let off := Transcript.alighted held.remarks
    let on := Transcript.boarded held.remarks
    let staying := s.riders.filter (!off.contains ·)
    Transcript.calls held.remarks ≤ (capacity - staying.length) + 1 ∧
      held.result.2.riders = staying ++ on ∧
      (∀ x, held.result.1 = .ok x → x.alighted = off ∧ x.boarded = on) ∧
      (∀ x ∈ on, ∃ d ∈ held.result.2.stops.floors, destination x = some d) ∧
      (∀ n < on.length, staying.length + n < capacity) ∧
      ((∃ x ∈ s.riders, destination x = none) →
        (∃ fault, held.result = (.error fault, s)) ∧ off = [] ∧ on = []) ∧
      ((∀ x ∈ s.riders, destination x ≠ none) → ∀ fault, held.result.1 = .error fault →
        ∃ x before, FailsAtLast height x before held.remarks fault ∧
          off = before.alighted ∧ on = before.boarded) := by
  intro held off on staying
  have h : InStep height capacity s held.remarks held.result :=
    (run_yields height capacity s).hold k kept
  refine ⟨h.calls, h.riders, h.succeeded, fun x hx => ?_, fun n hn => ?_, ?_, fun hknown => ?_⟩
  · obtain ⟨d, hd, hsaid⟩ := h.queued x hx
    exact ⟨d, hd, (hfixed x _ hsaid).symm⟩
  · have hroom : on.length ≤ capacity - staying.length := h.room
    omega
  · rintro ⟨x, hx, hnone⟩
    rcases h.ended with ⟨hasked, -⟩ | ⟨y, -, -, hresult, hquiet⟩
    · obtain ⟨d, hd⟩ := hasked x hx
      exact absurd ((hfixed x _ hd).trans hnone) (by simp)
    · exact ⟨⟨_, hresult⟩, hquiet.alighted, hquiet.boarded⟩
  · rcases h.ended with ⟨-, hfails⟩ | ⟨y, hy, hsaid, -⟩
    · intro fault hfault
      obtain ⟨x, before, hlast⟩ := hfails fault hfault
      exact ⟨x, before, hlast, hlast.nobody_moves.2, hlast.nobody_moves.1⟩
    · exact absurd (hfixed y _ hsaid).symm (hknown y hy)

/-! ### Riders who follow a script -/

/-- A script never changes where its riders want to go. -/
lemma destination_of_script {script : Script} {x : RiderId} {answer : Option Floor}
    (h : ⟨.destination x, answer⟩ ∈ ((run height capacity s).hold Script.keeper script).remarks) :
    answer = (script.rider? x).bind (·.destination) := by
  have hsaid : ∀ r ∈ ((run height capacity s).hold Script.keeper script).remarks,
      ∀ x answer, r = ⟨.destination x, answer⟩ →
        answer = (script.rider? x).bind (·.destination) := by
    refine Dialogue.forall_remarks (I := fun s => s.riders = script.riders) (fun q s hs => ?_) _ rfl
    cases q <;> simp_all [Script.keeper, Script.rider?]
  exact hsaid _ h x answer rfl

/-- Of four riders one steps out, one stays, one boards, and the exchange fails at the last, who
wants to go where the car has come from. -/
theorem kept_in_step_refusing :
    let s : CarState := ⟨2, .up, .doorOpen, ⟨[5]⟩, [1, 2]⟩
    let script : Script := ⟨[⟨1, some 2, false⟩, ⟨2, some 5, false⟩, ⟨3, some 5, false⟩,
      ⟨4, some 0, false⟩], [some 3, some 4], false, false⟩
    let held := (run 10 3 s).hold Script.keeper script
    let fault := Fault.destinationBehind 0 2 .up
    held.result.1 = .error fault ∧ held.result.2.riders = [2, 3] ∧
      ∃ x before, FailsAtLast 10 x before held.remarks fault ∧
        Transcript.alighted before = [1] ∧ Transcript.boarded before = [3] := by
  intro s script held fault
  obtain ⟨-, hriders, -, -, -, -, hfails⟩ := kept_in_step Script.keeper 10 3 s script
    (fun x => (script.rider? x).bind (·.destination)) fun x answer h => destination_of_script h
  have hoff : Transcript.alighted held.remarks = [1] := by decide +kernel
  have hon : Transcript.boarded held.remarks = [3] := by decide +kernel
  have hfault : held.result.1 = .error fault := by decide +kernel
  obtain ⟨x, before, hlast, hoff', hon'⟩ := hfails (by decide) fault hfault
  refine ⟨hfault, ?_, x, before, hlast, hoff'.symm.trans hoff, hon'.symm.trans hon⟩
  rw [hriders, hoff, hon]
  rfl

/-- A keeper to whom everybody has arrived as soon as anybody has boarded, and who calls the same
rider again and again. -/
def impatient (x : RiderId) (destination : Floor) : Keeper Bool where
  answer
    | .destination _, b => (some destination, b)
    | .hasArrived _, b => (b, b)
    | .next _ _ _, b => (some x, b)
    | .boarded _ _, _ => ((), true)
    | .alighted _ _, b => ((), b)
    | .hasWaiting _ _, b => (false, b)

/-- A rider at whom an exchange fails can be aboard all the same: they were aboard when they were
called, from the beginning or because they have boarded in the same exchange. -/
theorem fault_of_rider_aboard :
    let script : Script := ⟨[⟨1, some 5, true⟩], [some 1], false, false⟩
    let aboard := (run 10 4 ⟨2, .up, .doorOpen, ⟨[5]⟩, [1]⟩).hold Script.keeper script
    let boards := (run 10 4 ⟨2, .up, .doorOpen, ⟨[5]⟩, []⟩).hold (impatient 1 5) false
    (aboard.result.1 = .error (.riderAlreadyArrived 1) ∧ 1 ∈ aboard.result.2.riders) ∧
      boards.result.1 = .error (.riderAlreadyArrived 1) ∧ 1 ∈ boards.result.2.riders ∧
        1 ∈ Transcript.boarded boards.remarks := by
  decide +kernel

end Exchange

end ElevatorFleet
