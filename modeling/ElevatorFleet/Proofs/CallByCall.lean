import ElevatorFleet.Backfill
import ElevatorFleet.Proofs.Acceptance

/-!
Take-overs of pending calls, one call at a time.

* `Pool.IsFarthest` singles out the call farthest from a floor, the oldest of several, and
  `Pool.exists_isFarthest` says that the search finds it.
* `Backfill.TakesOver` describes a take-over as a chain of single calls: each leaves its place in
  the pool, until the car wants no more or a call fails.
* `Backfill.Accounts` says where the calls of a pool and the stops of the car come to be, and
  `Backfill.TakesOver.accounts` that the accounts of every chain are in order.
* `Backfill.run_takesOver` says that every take-over is such a chain, by either rule, from any floor
  and with any pool. What holds of every take-over follows by induction along the chain.
-/

namespace ElevatorFleet

/-! ### The farthest call -/

namespace Pool

variable {p : Pool} {floor : Floor} {before behind : List Pending} {e : Pending}

/-- `e` is the farthest call of a pool, seen from a floor, and of several the oldest: those before it
are less far away, and those behind it not farther. -/
structure IsFarthest (p : Pool) (floor : Floor) (before : List Pending) (e : Pending)
    (behind : List Pending) : Prop where
  split : p.entries = before ++ e :: behind
  before_lt : ∀ x ∈ before,
    Floor.distance x.request.floor floor < Floor.distance e.request.floor floor
  behind_le : ∀ x ∈ behind,
    Floor.distance x.request.floor floor ≤ Floor.distance e.request.floor floor

lemma IsFarthest.mem (h : p.IsFarthest floor before e behind) : e ∈ p.entries := by
  simp [h.split]

lemma IsFarthest.sublist (h : p.IsFarthest floor before e behind) :
    (before ++ behind).Sublist p.entries := by
  rw [h.split]
  exact (List.sublist_cons_self e behind).append_left before

lemma IsFarthest.distance_le (h : p.IsFarthest floor before e behind) :
    ∀ x ∈ p.entries,
      Floor.distance x.request.floor floor ≤ Floor.distance e.request.floor floor := by
  intro x hx
  rw [h.split, List.mem_append, List.mem_cons] at hx
  rcases hx with hx | rfl | hx
  · exact (h.before_lt x hx).le
  · exact le_rfl
  · exact h.behind_le x hx

/-- The search for the farthest call ends with the first one that is farthest away. The induction is
on the calls from the last to the first, since the search goes forward. -/
lemma foldl_farther (floor : Floor) {es : List Pending} (hne : es ≠ []) :
    ∃ before e behind, IsFarthest ⟨es⟩ floor before e behind ∧
      (es.map (·.request)).zipIdx.foldl (farther floor) none =
        some (before.length, Floor.distance e.request.floor floor) := by
  induction es using List.reverseRecOn with
  | nil => exact absurd rfl hne
  | append_singleton es x ih =>
      rw [List.map_append, List.zipIdx_append, List.foldl_append]
      rcases eq_or_ne es [] with rfl | hes
      · exact ⟨[], x, [], ⟨rfl, by simp, by simp⟩, rfl⟩
      obtain ⟨before, e, behind, hfarthest, hfold⟩ := ih hes
      obtain rfl : es = before ++ e :: behind := hfarthest.split
      rw [hfold]
      by_cases hle : Floor.distance x.request.floor floor ≤ Floor.distance e.request.floor floor
      · refine ⟨before, e, behind ++ [x], ⟨by simp, hfarthest.before_lt, fun y hy => ?_⟩, ?_⟩
        · rcases List.mem_append.mp hy with hy | hy
          · exact hfarthest.behind_le y hy
          · exact List.mem_singleton.mp hy ▸ hle
        · simp [farther, hle]
      · refine ⟨before ++ e :: behind, x, [], ⟨rfl, fun y hy => ?_, by simp⟩, ?_⟩
        · have hlt := lt_of_not_ge hle
          exact (hfarthest.distance_le y hy).trans_lt hlt
        · simp [farther, hle]

/-- A pool with calls has a farthest one, and the search finds its place. -/
lemma exists_isFarthest (hne : p.entries ≠ []) (floor : Floor) :
    ∃ before e behind, p.IsFarthest floor before e behind ∧
      p.farthestFrom? floor = some before.length := by
  obtain ⟨before, e, behind, hfarthest, hfold⟩ := foldl_farther floor hne
  exact ⟨before, e, behind, hfarthest, by rw [farthestFrom?, requests, hfold]; rfl⟩

end Pool

namespace Backfill

variable {c c' c'' : Car} {es mid left taken taken' : List Pending} {fault? : Option Fault}
  {floor : Floor} {p : Pool}

/-- What a sweep does with one call: it offers the call if it passes the test of the sweep. -/
def offerIf (on : Request → Bool) (r : Request) (c : Car) : Attempt Car Bool :=
  if on r then c.offer anyCar r else (.ok false, c)

/-- The take-over of the farthest call: it leaves its place in the pool if the car accepts it. -/
lemma exists_offerFarthest_eq (hne : p.entries ≠ []) (c : Car) (floor : Floor) :
    ∃ before e behind, p.IsFarthest floor before e behind ∧ offerFarthest floor c p =
      match c.offer anyCar e.request with
      | (.error fault, c) => (.error fault, c, p)
      | (.ok true, c) => (.ok 1, c, ⟨before ++ behind⟩)
      | (.ok false, c) => (.ok 0, c, p) := by
  obtain ⟨before, e, behind, hfarthest, hsearch⟩ := Pool.exists_isFarthest hne floor
  have hget : p.get? before.length = some e.request := by
    simp [Pool.get?, hfarthest.split]
  have hremove : (p.remove before.length).2 = ⟨before ++ behind⟩ := by
    simp [Pool.remove, hfarthest.split, List.eraseIdx_append_of_length_le]
  refine ⟨before, e, behind, hfarthest, ?_⟩
  rw [offerFarthest, hsearch]
  dsimp only
  rw [hget]
  dsimp only
  rcases c.offer anyCar e.request with ⟨fault | took, c'⟩
  · rfl
  · cases took with
    | false => rfl
    | true => exact congrArg (fun left => (Except.ok 1, c', left)) hremove

/-! ### Chains of calls -/

/-- A take-over, call by call. The car takes nothing more; or it is offered a call of the pool on
which the offer fails; or it takes a call, which leaves its place in the pool, and goes on from
there. The calls that are taken are listed in the order in which they are. -/
inductive TakesOver : Car → List Pending → List Pending → Option Fault → Car → List Pending →
    Prop where
  | done (c : Car) (es : List Pending) : TakesOver c es [] none c es
  | fails (c : Car) (es : List Pending) (e : Pending) (fault : Fault) (he : e ∈ es)
      (hoffer : c.offer anyCar e.request = (.error fault, c)) :
      TakesOver c es [] (some fault) c es
  | takes (c c' c'' : Car) (before behind taken left : List Pending) (e : Pending)
      (fault? : Option Fault) (hoffer : c.offer anyCar e.request = (.ok true, c'))
      (h : TakesOver c' (before ++ behind) taken fault? c'' left) :
      TakesOver c (before ++ e :: behind) (e :: taken) fault? c'' left

/-- What a take-over answers: how many calls it took, or the fault that ended it. -/
def outcome (taken : List Pending) : Option Fault → Except Fault Nat
  | none => .ok taken.length
  | some fault => .error fault

/-- A call in front of all others that is passed over stays in front of what is left. -/
lemma TakesOver.keep (h : TakesOver c es taken fault? c' left) (x : Pending) :
    TakesOver c (x :: es) taken fault? c' (x :: left) := by
  induction h with
  | done c es => exact .done c (x :: es)
  | fails c es e fault he hoffer => exact .fails c _ e fault (List.mem_cons_of_mem x he) hoffer
  | takes c c' c'' before behind taken left e fault? hoffer _ ih =>
      exact .takes c c' c'' (x :: before) behind taken (x :: left) e fault? hoffer ih

/-- One take-over after another. -/
lemma TakesOver.trans (h : TakesOver c es taken none c' mid)
    (h' : TakesOver c' mid taken' fault? c'' left) :
    TakesOver c es (taken ++ taken') fault? c'' left := by
  generalize hnone : (none : Option Fault) = ending at h
  induction h with
  | done c es => exact h'
  | fails => cases hnone
  | takes c d _ before behind taken _ e ending hoffer _ ih =>
      exact .takes c d c'' before behind (taken ++ taken') left e fault? hoffer (ih h' hnone)

lemma TakesOver.sound (htakes : TakesOver c es taken fault? c' left) (h : c.Sound) : c'.Sound := by
  induction htakes with
  | done => exact h
  | fails => exact h
  | takes c c' c'' before behind taken left e fault? hoffer _ ih =>
      exact ih (h.takes_of_offer hoffer).1.sound

/-! ### The accounts of a chain -/

/-- The accounts of a take-over. Every call of the pool is either taken or left, and what is left
keeps its order and its times. The calls that are taken are for floors of the building; the car is
going to stop at these floors and where it was going to stop before, and nowhere else. -/
structure Accounts (c : Car) (es taken : List Pending) (c' : Car) (left : List Pending) : Prop where
  sublist : left.Sublist es
  perm : es.Perm (taken ++ left)
  inside : ∀ e ∈ taken, e.request.floor < c.settings.height
  mem_stops : ∀ f, f ∈ c'.state.stops.floors ↔
    f ∈ c.state.stops.floors ∨ ∃ e ∈ taken, e.request.floor = f
  grown : c.Grown c'

lemma Accounts.refl (c : Car) (es : List Pending) : Accounts c es [] c es :=
  ⟨.refl es, .refl es, by simp, by simp, .refl c⟩

/-- The accounts of a chain are in order. -/
lemma TakesOver.accounts (htakes : TakesOver c es taken fault? c' left) (h : c.Sound) :
    Accounts c es taken c' left := by
  induction htakes with
  | done c es => exact .refl c es
  | fails c es => exact .refl c es
  | takes c c' c'' before behind taken left e fault? hoffer _ ih =>
      obtain ⟨htakes, hlt⟩ := h.takes_of_offer hoffer
      have hgrown : c.Grown c' := by simpa [hoffer] using h.grown_offer anyCar e.request
      have hrest := ih htakes.sound
      exact
        { sublist := hrest.sublist.trans ((List.sublist_cons_self e behind).append_left before)
          perm := List.perm_middle.trans (hrest.perm.cons e)
          inside := List.forall_mem_cons.mpr ⟨hlt, htakes.settings_eq ▸ hrest.inside⟩
          mem_stops := fun f => by
            rw [hrest.mem_stops, htakes.mem_stops]
            simp [eq_comm, or_assoc, or_left_comm]
          grown := hgrown.trans hrest.grown }

/-- A take-over that fails has come to a call outside the building, which is left. -/
lemma TakesOver.exists_of_fault {fault : Fault}
    (htakes : TakesOver c es taken (some fault) c' left) (h : c.Sound) :
    ∃ e ∈ left, c'.offer anyCar e.request = (.error fault, c') ∧
      c.settings.height ≤ e.request.floor ∧
      fault = .floorOutOfRange e.request.floor c.settings.height := by
  generalize hsome : some fault = ending at htakes
  induction htakes with
  | done => cases hsome
  | fails c es e fault' he hoffer =>
      obtain rfl := Option.some.inj hsome
      refine ⟨e, he, hoffer, ?_⟩
      cases h.offer_cases anyCar e.request with
      | outside _ hle heq =>
          have hsame := (Prod.mk.inj (heq.symm.trans hoffer)).1
          exact ⟨hle, (Except.error.inj hsame).symm⟩
      | declined _ heq | present _ _ _ heq | taken _ _ _ _ heq => simp [heq] at hoffer
  | takes c c' c'' before behind taken left e ending hoffer _ ih =>
      obtain ⟨htakes, -⟩ := h.takes_of_offer hoffer
      simpa only [htakes.settings_eq] using ih htakes.sound hsome

/-! ### Every take-over is a chain -/

/-- A sweep is one pass over the entries of the pool. -/
lemma sweep_eq {on : Request → Bool} {result : Except Fault Nat}
    (h : Pool.claimEntries (offerIf on) p.entries c = (result, left, c')) :
    sweep on c p = (result, c', ⟨left⟩) := by
  have hclaim : p.claim (offerIf on) c = (result, ⟨left⟩, c') := by rw [Pool.claim, h]
  exact congrArg (fun out => (out.1, out.2.2, out.2.1)) hclaim

/-- One pass over the entries of a pool. -/
lemma claimEntries_takesOver (h : c.Sound) (on : Request → Bool) (es : List Pending) :
    ∃ taken fault? c' left, Pool.claimEntries (offerIf on) es c =
      (outcome taken fault?, left, c') ∧ TakesOver c es taken fault? c' left := by
  induction es generalizing c with
  | nil => exact ⟨[], none, c, [], rfl, .done c []⟩
  | cons e es ih =>
      rw [Pool.claimEntries, offerIf]
      by_cases hon : on e.request
      · rw [if_pos hon]
        rcases hoffer : c.offer anyCar e.request with ⟨fault | took, c'⟩
        all_goals
          have hsound := h.offer anyCar e.request
          have hsame := h.offer_eq_of_ne_true anyCar e.request
          rw [hoffer] at hsound hsame
          dsimp only at hsound hsame
        · obtain rfl : c' = c := hsame (by simp)
          exact ⟨[], some fault, c', e :: es, rfl, .fails c' _ e fault List.mem_cons_self hoffer⟩
        · cases took with
          | false =>
              obtain rfl : c' = c := hsame (by simp)
              obtain ⟨taken, fault?, c'', left, heq, htakes⟩ := ih hsound
              refine ⟨taken, fault?, c'', e :: left, ?_, htakes.keep e⟩
              dsimp only
              rw [heq]
          | true =>
              obtain ⟨taken, fault?, c'', left, heq, htakes⟩ := ih hsound
              refine ⟨e :: taken, fault?, c'', left, ?_,
                .takes c c' c'' [] es taken left e fault? hoffer htakes⟩
              dsimp only
              rw [heq]
              cases fault? <;> rfl
      · rw [if_neg hon]
        obtain ⟨taken, fault?, c', left, heq, htakes⟩ := ih h
        refine ⟨taken, fault?, c', e :: left, ?_, htakes.keep e⟩
        dsimp only
        rw [heq]

lemma sweep_takesOver (h : c.Sound) (on : Request → Bool) (p : Pool) :
    ∃ taken fault? c' left, sweep on c p = (outcome taken fault?, c', ⟨left⟩) ∧
      TakesOver c p.entries taken fault? c' left := by
  obtain ⟨taken, fault?, c', left, heq, htakes⟩ := claimEntries_takesOver h on p.entries
  exact ⟨taken, fault?, c', left, sweep_eq heq, htakes⟩

/-- The farthest call is taken or passed over, and then the others are offered. -/
lemma farthestFirst_takesOver (h : c.Sound) (hne : p.entries ≠ []) (floor : Floor) :
    ∃ taken fault? c' left, farthestFirst floor c p = (outcome taken fault?, c', ⟨left⟩) ∧
      TakesOver c p.entries taken fault? c' left := by
  obtain ⟨before, e, behind, hfarthest, heq⟩ := exists_offerFarthest_eq hne c floor
  rw [farthestFirst, heq]
  rcases hoffer : c.offer anyCar e.request with ⟨fault | took, c'⟩
  all_goals
    have hsound := h.offer anyCar e.request
    have hsame := h.offer_eq_of_ne_true anyCar e.request
    rw [hoffer] at hsound hsame
    dsimp only at hsound hsame
  · obtain rfl : c' = c := hsame (by simp)
    exact ⟨[], some fault, c', p.entries, rfl, .fails c' _ e fault hfarthest.mem hoffer⟩
  · cases took with
    | false =>
        obtain rfl : c' = c := hsame (by simp)
        obtain ⟨taken, fault?, c'', left, hsweep, htakes⟩ :=
          sweep_takesOver hsound (fun _ => true) p
        refine ⟨taken, fault?, c'', left, ?_, htakes⟩
        dsimp only
        rw [hsweep]
        cases fault? <;> simp [outcome, Except.map]
    | true =>
        obtain ⟨taken, fault?, c'', left, hsweep, htakes⟩ :=
          sweep_takesOver hsound (fun _ => true) ⟨before ++ behind⟩
        refine ⟨e :: taken, fault?, c'', left, ?_, ?_⟩
        · dsimp only
          rw [hsweep]
          cases fault? <;> simp [outcome, Except.map, Nat.add_comm]
        · rw [hfarthest.split]
          exact .takes c c' c'' before behind taken left e fault? hoffer htakes

/-- The calls on the busier side are offered, and those for the floor itself if nothing has been
taken. -/
lemma densityBased_takesOver (h : c.Sound) (floor : Floor) (p : Pool) :
    ∃ taken fault? c' left, densityBased floor c p = (outcome taken fault?, c', ⟨left⟩) ∧
      TakesOver c p.entries taken fault? c' left := by
  obtain ⟨taken, fault?, c', left, heq, htakes⟩ :=
    sweep_takesOver h (onBusierSide floor p) p
  by_cases hnothing : outcome taken fault? = .ok 0
  · obtain ⟨taken', fault?', c'', left', heq', htakes'⟩ :=
      sweep_takesOver (htakes.sound h) (·.floor = floor) ⟨left⟩
    obtain ⟨rfl, rfl⟩ : taken = [] ∧ fault? = none := by
      cases fault? <;> simp_all [outcome]
    exact ⟨taken', fault?', c'', left', by rw [densityBased, heq]; exact heq',
      htakes.trans htakes'⟩
  · refine ⟨taken, fault?, c', left, ?_, htakes⟩
    rw [densityBased, heq]
    split
    · rename_i hzero
      exact absurd (congrArg Prod.fst hzero) hnothing
    · rfl

/-- A take-over from a pool with calls is one by the rule. -/
lemma run_of_ne_nil {result : Except Fault Nat} {p' : Pool} (hne : p.entries ≠ [])
    (rule : BackfillRule)
    (heq : (match rule with
      | .farthestFirst => farthestFirst floor c p
      | .densityBased => densityBased floor c p) = (result, c', p')) :
    run rule floor c p = (result.map fun n => decide (0 < n), c', p') := by
  rw [run.eq_def, if_neg (by simpa [Pool.isEmpty] using hne)]
  cases rule <;> dsimp only at heq ⊢ <;> rw [heq]

/-- **Every take-over is a chain of single calls**, by either rule, from any floor and with any
pool, and its answer says whether any call was taken. -/
theorem run_takesOver (h : c.Sound) (rule : BackfillRule) (floor : Floor) (p : Pool) :
    ∃ taken fault? c' left, run rule floor c p =
        ((outcome taken fault?).map fun n => decide (0 < n), c', ⟨left⟩) ∧
      TakesOver c p.entries taken fault? c' left := by
  rcases eq_or_ne p.entries [] with hnil | hne
  · refine ⟨[], none, c, p.entries, ?_, .done c _⟩
    rw [run.eq_def, if_pos (by simp [Pool.isEmpty, hnil])]
    rfl
  cases rule with
  | farthestFirst =>
      obtain ⟨taken, fault?, c', left, heq, htakes⟩ := farthestFirst_takesOver h hne floor
      exact ⟨taken, fault?, c', left, run_of_ne_nil hne .farthestFirst heq, htakes⟩
  | densityBased =>
      obtain ⟨taken, fault?, c', left, heq, htakes⟩ := densityBased_takesOver h floor p
      exact ⟨taken, fault?, c', left, run_of_ne_nil hne .densityBased heq, htakes⟩

end Backfill

end ElevatorFleet
