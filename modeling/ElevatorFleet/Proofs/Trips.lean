import ElevatorFleet.Proofs.Handover

/-!
How much of everybody's trip is left, and what an exchange of riders that brings nobody any further
comes to.

* `Person.stagesLeft` counts what somebody still has to do, to board and to arrive, and
  `Building.stagesLeft` what everybody has.
* `Exchange.run_stagesLeft`: an exchange brings somebody further, or it changes nothing at all and
  raises at most two calls again, and at most one if nobody is aboard.
* `Exchange.run_recalls`: a call is raised again only by a car that is full, or that goes the other
  way while somebody waits on its floor.
-/

namespace ElevatorFleet

/-! ### Stages of a trip -/

namespace Person

variable {p : Person} {now : Nat}

/-- What somebody still has to do: to board and to arrive, to arrive, or nothing. -/
def stagesLeft (p : Person) : Nat := if p.hasArrived then 0 else if p.hasBoarded then 1 else 2

lemma stagesLeft_eq_zero_iff : p.stagesLeft = 0 ↔ p.hasArrived = true := by
  rw [stagesLeft]
  split_ifs <;> simp_all

lemma stagesLeft_board_le (p : Person) (now : Nat) : (p.board now).stagesLeft ≤ p.stagesLeft := by
  rw [stagesLeft, stagesLeft, hasArrived_board, hasBoarded_board]
  cases p.hasArrived <;> cases p.hasBoarded <;> simp

lemma stagesLeft_board_lt (hboarded : p.hasBoarded = false) (harrived : p.hasArrived = false) :
    (p.board now).stagesLeft < p.stagesLeft := by
  simp [stagesLeft, hboarded, harrived]

lemma stagesLeft_arrive_le (p : Person) (now : Nat) :
    (p.arrive now).stagesLeft ≤ p.stagesLeft := by
  simp [stagesLeft]

lemma stagesLeft_arrive_lt (harrived : p.hasArrived = false) :
    (p.arrive now).stagesLeft < p.stagesLeft := by
  cases hboarded : p.hasBoarded <;> simp [stagesLeft, harrived, hboarded]

end Person

lemma sum_map_modify_le {α : Type} {weight : α → Nat} {change : α → α}
    (h : ∀ a, weight (change a) ≤ weight a) (l : List α) (i : Nat) :
    ((l.modify i change).map weight).sum ≤ (l.map weight).sum := by
  induction l generalizing i with
  | nil => simp
  | cons a l ih =>
      cases i with
      | zero => simpa using h a
      | succ i => simpa using ih i

lemma sum_map_modify_lt {α : Type} {weight : α → Nat} {change : α → α} {l : List α} {i : Nat}
    {a : α} (ha : l[i]? = some a) (h : weight (change a) < weight a) :
    ((l.modify i change).map weight).sum < (l.map weight).sum := by
  induction l generalizing i with
  | nil => simp at ha
  | cons b l ih =>
      cases i with
      | zero =>
          obtain rfl : b = a := by simpa using ha
          simpa using h
      | succ i => simpa using ih (by simpa using ha)

namespace Building

variable {b : Building} {x : RiderId} {p : Person} {floor : Floor} {now : Nat}
  {aboard : List RiderId}

/-- What everybody still has to do. -/
def stagesLeft (b : Building) : Nat := (b.people.map Person.stagesLeft).sum

lemma stagesLeft_eq_zero_iff : b.stagesLeft = 0 ↔ b.allArrived = true := by
  rw [stagesLeft, List.sum_eq_zero_iff, allArrived, List.all_eq_true]
  simp [Person.stagesLeft_eq_zero_iff]

lemma stagesLeft_toCar_le (b : Building) (floor : Floor) (x : RiderId) (now : Nat) :
    (b.toCar floor x now).stagesLeft ≤ b.stagesLeft :=
  sum_map_modify_le (fun p => p.stagesLeft_board_le now) _ _

lemma stagesLeft_toFloor_le (b : Building) (floor : Floor) (x : RiderId) (now : Nat) :
    (b.toFloor floor x now).stagesLeft ≤ b.stagesLeft :=
  sum_map_modify_le (fun p => p.stagesLeft_arrive_le now) _ _

/-- Whoever boards from a line has one stage less left. -/
lemma Ledger.stagesLeft_toCar_lt (h : b.Ledger aboard) (hx : x ∈ b.lineAt floor) (here : Floor)
    (now : Nat) : (b.toCar here x now).stagesLeft < b.stagesLeft := by
  obtain ⟨p, hp, -, hboarded, harrived⟩ := h.waits floor x hx
  exact sum_map_modify_lt hp (Person.stagesLeft_board_lt hboarded harrived)

/-- Whoever steps out has one stage less left. -/
lemma Ledger.stagesLeft_toFloor_lt (h : b.Ledger aboard) (hx : x ∈ aboard) (floor : Floor)
    (now : Nat) : (b.toFloor floor x now).stagesLeft < b.stagesLeft := by
  obtain ⟨p, hp, -, harrived⟩ := h.rides x hx
  exact sum_map_modify_lt hp (Person.stagesLeft_arrive_lt harrived)

/-- Once everybody has arrived nobody is in line any more. -/
lemma Ledger.lineAt_of_stagesLeft (h : b.Ledger aboard) (hdone : b.stagesLeft = 0)
    (floor : Floor) : b.lineAt floor = [] := by
  refine List.eq_nil_iff_forall_not_mem.mpr fun x hx => ?_
  have hlt := h.stagesLeft_toCar_lt hx floor 0
  omega

/-- Nor is anybody aboard. -/
lemma Ledger.aboard_of_stagesLeft (h : b.Ledger aboard) (hdone : b.stagesLeft = 0) :
    aboard = [] := by
  refine List.eq_nil_iff_forall_not_mem.mpr fun x hx => ?_
  have hlt := h.stagesLeft_toFloor_lt hx Floor.ground 0
  omega

end Building

namespace Exchange

variable {height floor : Floor} {capacity places now : Nat} {s : CarState} {b : Building}
  {riders others : List RiderId} {x : RiderId}

/-! ### Which calls are raised again -/

/-- A call is raised for somebody refused only once all places are taken. -/
lemma board_recalls (height : Floor) (places : Nat) (s : CarState) :
    (board height places s).Always fun out => ∀ boarded recalls, out.1 = .ok (boarded, recalls) →
      recalls = [] ∨ out.2.riders.length = s.riders.length + places := by
  induction places generalizing s with
  | zero =>
      rw [board]
      rintro (_ | rider)
      · simp
      rintro (_ | _)
      · rintro (_ | destination) <;> simp
      · simp
  | succ places ih =>
      rw [board]
      rintro (_ | rider)
      · simp
      rintro (_ | _)
      swap
      · simp
      rintro (_ | destination)
      · simp
      have hriders : (s.addStop destination height).2.riders = s.riders := CarState.riders_addStop
      dsimp only
      split
      · simp
      · rename_i added s' hadd
        rw [hadd] at hriders
        intro _
        rw [Dialogue.always_bind]
        refine (ih _).mono ?_
        rintro ⟨fault | ⟨boarded, recalls⟩, s''⟩ hout boarded' recalls' heq
        · simp [Except.map] at heq
        · obtain ⟨-, rfl⟩ : _ ∧ recalls = recalls' := by simpa [Except.map] using heq
          refine (hout boarded recalls rfl).imp_right fun hfull => ?_
          have hsame : s'.riders = s.riders := hriders
          simp only [List.length_append, List.length_singleton, hsame] at hfull
          show s''.riders.length = s.riders.length + (places + 1)
          omega

/-- The call for those who go the other way is raised only if somebody is in line. -/
lemma recallOthers_spec (s : CarState) (b : Building) (now : Nat) :
    (recallOthers s).EndsIn (Building.keeper now) b fun recalls b' => b' = b ∧
      recalls.length ≤ 1 ∧ ∀ r ∈ recalls, s.direction ≠ r.direction ∧ b.lineAt s.floor ≠ [] := by
  rw [recallOthers]
  cases hcall : s.direction.call? with
  | none => exact ⟨rfl, by simp⟩
  | some call =>
      dsimp only
      rw [Dialogue.endsIn_ask, keeper_hasWaiting]
      cases hwaiting : b.hasWaiting s.floor call.opposite.isUp with
      | false => exact ⟨rfl, by simp⟩
      | true =>
          refine ⟨rfl, le_rfl, fun r hr => ?_⟩
          obtain rfl : r = ⟨s.floor, call.opposite⟩ := by simpa using hr
          refine ⟨?_, fun hempty => by simp [Building.hasWaiting, hempty] at hwaiting⟩
          cases hdirection : s.direction <;> rw [hdirection] at hcall <;>
            simp only [Direction.call?, Option.some.injEq, reduceCtorEq] at hcall <;>
            subst hcall <;> simp [Request.direction, Call.opposite, Call.direction]

/-- **Which calls are raised again**: a call is raised again only if the car is full, or goes the
other way while somebody is in line. -/
theorem run_recalls (hknown : ∀ x ∈ s.riders, ∃ p, b.people[x]? = some p) (height : Floor)
    (capacity now : Nat) :
    (run height capacity s).EndsIn (Building.keeper now) b fun out b' =>
      ∀ x, out.1 = .ok x → ∀ r ∈ x.recalls, capacity ≤ out.2.riders.length ∨
        (out.2.direction ≠ r.direction ∧ b'.lineAt out.2.floor ≠ []) := by
  refine run_endsIn_of hknown ?_
  refine ((Dialogue.always_true _).endsIn (Building.keeper now) b).mono fun _ b₁ _ => ?_
  refine ((board_recalls height _ _).endsIn (Building.keeper now) b₁).mono ?_
  rintro ⟨fault | ⟨boarded, recalls⟩, s'⟩ b₂ hrecalls
  · exact afterBoarding_error.mpr (by simp)
  refine afterBoarding_ok.mpr ((recallOthers_spec s' b₂ now).mono ?_)
  rintro calls b₃ ⟨rfl, -, hcalls⟩ x hx r hr
  obtain rfl := Except.ok.inj hx
  cases List.mem_append.mp hr with
  | inr hother => exact Or.inr (hcalls r hother)
  | inl hrefused =>
      cases hrecalls boarded recalls rfl with
      | inl hnone => simp [hnone] at hrefused
      | inr hfull =>
          refine Or.inl ?_
          dsimp only at hfull ⊢
          omega

/-! ### Whether anybody gets any further -/

/-- Boarding brings somebody further, or nobody boards: then nothing has changed, and at most one
call is raised, by somebody who does not fit in. -/
lemma board_stagesLeft (h : s.OnCourse height) (hledger : b.Ledger riders)
    (hheight : b.height = height) (places now : Nat) :
    (board height places s).EndsIn (Building.keeper now) b fun out b' =>
      b'.stagesLeft < b.stagesLeft ∨ (b' = b ∧ ∃ recalls, out = (.ok ([], recalls), s) ∧
        recalls.length ≤ 1 ∧ (recalls = [] ∨ places = 0)) := by
  cases hnext : b.next? s.floor (s.direction = .up) s.stops.isEmpty with
  | none => exact board_of_next_none hnext (Or.inr ⟨rfl, [], rfl, by simp, Or.inl rfl⟩)
  | some x =>
      obtain ⟨hx, p, hp, hstart, harrived, hway⟩ := next?_eq_some hledger hnext
      have hlt : p.destination < height := hheight ▸ (hledger.routes x p hp).2.1
      refine board_of_next_some hnext hp harrived (fun hplaces => ?_) fun n _ => ?_
      · refine Or.inr ⟨rfl, _, rfl, ?_, Or.inr hplaces⟩
        rw [refusal]
        exact Option.length_toList_le
      · obtain ⟨added, s', hadd, -⟩ := addStop_of_boarding h hlt hstart
          (hway.imp_left Stops.isEmpty_iff.mp)
        have hfewer := hledger.stagesLeft_toCar_lt hx s'.floor now
        refine ⟨added, s', hadd, ?_⟩
        refine (board_keeps (P := fun b' => b'.stagesLeft < b.stagesLeft) (fun b₁ floor y hb₁ => ?_)
          height n _ hfewer).mono fun _ _ hb' => Or.inl hb'
        exact lt_of_le_of_lt (b₁.stagesLeft_toCar_le floor y now) hb₁

/-- If somebody steps out they get further, and boarding takes nobody back. -/
lemma run_stagesLeft_lt (hledger : b.Ledger (s.riders ++ others)) (hout : stepsOut s b ≠ [])
    (height : Floor) (capacity now : Nat) :
    (run height capacity s).EndsIn (Building.keeper now) b fun _ b' =>
      b'.stagesLeft < b.stagesLeft := by
  have hfloor : ∀ (b₁ : Building) (floor : Floor) (x : RiderId), b₁.stagesLeft < b.stagesLeft →
      (b₁.toFloor floor x now).stagesLeft < b.stagesLeft := by
    intro b₁ floor x hfewer
    exact lt_of_le_of_lt (b₁.stagesLeft_toFloor_le floor x now) hfewer
  have hcar : ∀ (b₁ : Building) (floor : Floor) (x : RiderId), b₁.stagesLeft < b.stagesLeft →
      (b₁.toCar floor x now).stagesLeft < b.stagesLeft := by
    intro b₁ floor x hfewer
    exact lt_of_le_of_lt (b₁.stagesLeft_toCar_le floor x now) hfewer
  obtain ⟨y, rest, hsome⟩ := List.exists_cons_of_ne_nil hout
  have hy : y ∈ s.riders := List.mem_of_mem_filter (hsome ▸ List.mem_cons_self)
  have hfirst := hledger.stagesLeft_toFloor_lt (List.mem_append_left others hy) s.floor now
  have halighted : (announceAlighted s.floor (stepsOut s b)).EndsIn (Building.keeper now) b
      fun _ b₁ => b₁.stagesLeft < b.stagesLeft := by
    rw [hsome, announceAlighted, Dialogue.endsIn_ask]
    exact announceAlighted_keeps (P := fun b' => b'.stagesLeft < b.stagesLeft) hfloor s.floor rest
      hfirst
  refine run_endsIn_of hledger.known (halighted.mono fun _ b₁ hfewer => ?_)
  refine (board_keeps (P := fun b' => b'.stagesLeft < b.stagesLeft) hcar height _ _ hfewer).mono ?_
  exact fun out b₂ hfewer => afterBoarding_of_forall (fun _ => hfewer) _ out

/-- **An exchange brings somebody further**, or it leaves the car and the riders as they were. Then
at most two calls are raised again, and at most one if there is a place left in the car. -/
theorem run_stagesLeft (h : s.OnCourse height) (hledger : b.Ledger (s.riders ++ others))
    (hheight : b.height = height) (capacity now : Nat) :
    (run height capacity s).EndsIn (Building.keeper now) b fun out b' =>
      b'.stagesLeft < b.stagesLeft ∨ (b' = b ∧ out.2 = s ∧ ∀ x, out.1 = .ok x →
        x.recalls.length ≤ 2 ∧ (s.riders.length < capacity → x.recalls.length ≤ 1)) := by
  by_cases hout : stepsOut s b = []
  swap
  · exact (run_stagesLeft_lt hledger hout height capacity now).mono fun _ _ hb => Or.inl hb
  -- nobody steps out, so it depends on who boards
  have hstaying : s.riders.filter (!(stepsOut s b).contains ·) = s.riders := by simp [hout]
  refine run_endsIn_of hledger.known ?_
  rw [hstaying, hout, announceAlighted, Dialogue.endsIn_done]
  refine (board_stagesLeft h hledger hheight (capacity - s.riders.length) now).mono ?_
  rintro ⟨result, s'⟩ b₂ (hfewer | ⟨rfl, recalls, hboard, hle, hplaces⟩)
  · exact afterBoarding_of_forall (fun _ => Or.inl hfewer) _ _
  · obtain ⟨rfl, rfl⟩ := Prod.mk.inj hboard
    refine afterBoarding_ok.mpr ((recallOthers_spec s' b₂ now).mono ?_)
    rintro calls b₃ ⟨rfl, hcalls, -⟩
    refine Or.inr ⟨rfl, rfl, fun x hx => ?_⟩
    obtain rfl := Except.ok.inj hx
    rw [List.length_append]
    refine ⟨by omega, fun hroom => ?_⟩
    have hnone : recalls = [] := hplaces.resolve_right (by omega)
    simpa [hnone] using hcalls

end Exchange

end ElevatorFleet
