import ElevatorFleet.Exchange
import ElevatorFleet.Proofs.Conversation
import ElevatorFleet.Proofs.Course

/-!
What an exchange of riders does to a car, whoever keeps the riders.

* `Exchange.run_eq` takes an exchange apart: everybody aboard is asked, those who are there step
  out, others board, and the calls of those left behind are raised.
* `Exchange.Keeps` is what an exchange leaves of a car, and `Exchange.run_always` says that every
  exchange does, whatever the keeper answers and however it ends.
-/

namespace ElevatorFleet

namespace Exchange

variable {height : Floor} {capacity places : Nat} {s : CarState}

/-- What follows once it is known who steps out. -/
def afterBound (height : Floor) (capacity : Nat) (s : CarState) (alighted : List RiderId) :
    Dialogue (Attempt CarState Exchange) :=
  let staying := s.riders.filter (!alighted.contains ·)
  (announceAlighted s.floor alighted).bind fun _ =>
    (board height (capacity - staying.length) { s with riders := staying }).bind fun
      | (.error fault, s) => .done (.error fault, s)
      | (.ok (boarded, recalls), s) =>
          (recallOthers s).bind fun others => .done (.ok ⟨alighted, boarded, recalls ++ others⟩, s)

lemma run_eq (height : Floor) (capacity : Nat) (s : CarState) :
    run height capacity s = (bound s.floor s.riders).bind fun
      | .error fault => .done (.error fault, s)
      | .ok alighted => afterBound height capacity s alighted := rfl

/-! ### The car in an exchange -/

lemma floor_of_mem_refusal {destination : Floor} {r : Request} (h : r ∈ refusal s destination) :
    r.floor = s.floor := by
  simp only [refusal, Option.mem_toList, Option.map_eq_some_iff] at h
  obtain ⟨call, -, rfl⟩ := h
  rfl

lemma recallOthers_always (s : CarState) :
    (recallOthers s).Always fun recalls => ∀ r ∈ recalls, r.floor = s.floor := by
  rw [recallOthers]
  split
  · simp
  · rintro (_ | _) <;> simp

/-- What holds of a car that `s` has become in an exchange, and of the calls to raise again: the car
keeps its rules and stays where it is with all it had queued, and the calls are for its floor. -/
structure Keeps (height : Floor) (capacity : Nat) (s : CarState)
    (recalls : Except Fault (List Request)) (s' : CarState) : Prop where
  lawful : s'.Lawful height capacity
  grown : s.Grown s'
  recalls : ∀ rs, recalls = .ok rs → ∀ r ∈ rs, r.floor = s.floor

/-- Everybody who boards takes a free place and is queued like any other floor. -/
lemma board_always (h : s.Lawful height capacity) (hroom : s.riders.length + places ≤ capacity) :
    (board height places s).Always fun out =>
      Keeps height capacity s (out.1.map (·.2)) out.2 := by
  induction places generalizing s with
  | zero =>
      rw [board]
      rintro (_ | rider)
      · exact ⟨h, .refl s, by simp [Except.map]⟩
      rintro (_ | _)
      · rintro (_ | destination)
        · exact ⟨h, .refl s, by simp [Except.map]⟩
        · refine ⟨h, .refl s, fun rs hrs r hr => ?_⟩
          obtain rfl : refusal s destination = rs := by simpa [Except.map] using hrs
          exact floor_of_mem_refusal hr
      · exact ⟨h, .refl s, by simp [Except.map]⟩
  | succ places ih =>
      rw [board]
      rintro (_ | rider)
      · exact ⟨h, .refl s, by simp [Except.map]⟩
      rintro (_ | _)
      swap
      · exact ⟨h, .refl s, by simp [Except.map]⟩
      rintro (_ | destination)
      · exact ⟨h, .refl s, by simp [Except.map]⟩
      have hlawful := h.addStop destination
      have hgrown := h.grown_addStop destination
      have hriders : (s.addStop destination height).2.riders = s.riders := CarState.riders_addStop
      dsimp only
      split
      · rename_i hadd
        rw [hadd] at hlawful hgrown
        exact ⟨hlawful, hgrown, by simp [Except.map]⟩
      · rename_i added s' hadd
        rw [hadd] at hlawful hgrown hriders
        have hlength : (s'.riders ++ [rider]).length + places ≤ capacity := by
          simp only [List.length_append, List.length_singleton]
          rw [show s'.riders = s.riders from hriders]
          omega
        have haboard : { s' with riders := s'.riders ++ [rider] }.Lawful height capacity :=
          hlawful.withRiders (by omega)
        intro _
        rw [Dialogue.always_bind]
        refine (ih haboard hlength).mono fun out hout => ?_
        refine ⟨hout.lawful, hgrown.trans (hout.grown.withRiders s'.riders out.2.riders),
          fun rs hrs r hr => ?_⟩
        rcases out with ⟨fault | ⟨riders, recalls⟩, s''⟩
        · simp [Except.map] at hrs
        · exact (hout.recalls rs hrs r hr).trans hgrown.floor_eq

/-- **A car in an exchange**: whatever the keeper answers, and however the exchange ends, the car
keeps its rules, stays where it stands and still heads for all it had queued, and the calls to raise
again are for the floor it stands on. -/
theorem run_always (h : s.Lawful height capacity) :
    (run height capacity s).Always fun out =>
      Keeps height capacity s (out.1.map (·.recalls)) out.2 := by
  rw [run_eq, Dialogue.always_bind]
  refine (Dialogue.always_true _).mono fun result _ => ?_
  rcases result with fault | alighted
  · exact ⟨h, .refl s, by simp [Except.map]⟩
  · have hle : (s.riders.filter (!alighted.contains ·)).length ≤ capacity :=
      (List.length_filter_le _ _).trans h.room
    change (afterBound height capacity s alighted).Always _
    rw [afterBound, Dialogue.always_bind]
    refine (Dialogue.always_true _).mono fun _ _ => ?_
    rw [Dialogue.always_bind]
    refine (board_always (h.withRiders hle) (Nat.add_sub_of_le hle).le).mono fun out hout => ?_
    rcases out with ⟨fault | ⟨boarded, recalls⟩, s'⟩
    · exact ⟨hout.lawful, hout.grown.withRiders s.riders s'.riders, by simp [Except.map]⟩
    · rw [Dialogue.always_bind]
      refine (recallOthers_always s').mono fun others hothers => ?_
      refine ⟨hout.lawful, hout.grown.withRiders s.riders s'.riders, fun rs hrs r hr => ?_⟩
      obtain rfl : recalls ++ others = rs := by simpa [Except.map] using hrs
      rcases List.mem_append.mp hr with hr | hr
      · exact hout.recalls recalls rfl r hr
      · exact (hothers r hr).trans hout.grown.floor_eq

end Exchange

end ElevatorFleet
