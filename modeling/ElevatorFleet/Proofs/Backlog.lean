import ElevatorFleet.Proofs.Assignments

/-!
How many calls and stops there are.

* `Backfill.Loads` says that a car that takes over calls from a pool gets at most one stop for each,
  and `Backfill.run_loads` that every take-over is of this kind.
* `Fleet.dispatch_of_declined` says that a call that no car of a fleet may accept changes no car and
  adds one pending call at most.
-/

namespace ElevatorFleet

/-! ### One stop more at most -/

lemma Stops.size_insert_le (q : Stops) (floor : Floor) (d : Direction) :
    (q.insert floor d).size ≤ q.size + 1 := by
  by_cases hmem : floor ∈ q.floors
  · rw [Stops.insert_of_mem hmem]
    omega
  · exact (Stops.floors_insert hmem d).length_eq.le

lemma CarState.size_enqueue_le (s : CarState) (floor : Floor) (d : Direction) :
    (s.enqueue floor d).stops.size ≤ s.stops.size + 1 := s.stops.size_insert_le floor d

namespace Car

variable {c c' : Car} {eligible : CarState → Bool} {r : Request} {taken : Bool}

/-- A call that is taken adds one stop at most, and one that is not adds none. -/
lemma Sound.size_offer (h : c.Sound) (hoffer : c.offer eligible r = (.ok taken, c')) :
    c'.state.stops.size ≤ c.state.stops.size + taken.toNat := by
  cases h.offer_cases eligible r with
  | declined _ heq | present _ _ _ heq =>
      obtain ⟨-, rfl⟩ := Prod.mk.inj (heq.symm.trans hoffer)
      omega
  | outside _ _ heq => simp [heq] at hoffer
  | taken _ _ _ _ heq =>
      obtain ⟨htaken, rfl⟩ := Prod.mk.inj (heq.symm.trans hoffer)
      obtain rfl := Except.ok.inj htaken
      have hle := (c.state.facing r).size_enqueue_le r.floor
        ((c.state.facing r).courseFor r.floor c.settings.height)
      rw [CarState.stops_facing] at hle
      exact hle

/-- Offers have nothing to do with orders to stop. -/
lemma running_offer (c : Car) (eligible : CarState → Bool) (r : Request) :
    (c.offer eligible r).2.running = c.running := by
  rw [offer]
  split
  · rfl
  split
  · rfl
  · rename_i added s _
    cases added <;> rfl

end Car

/-! ### Take-overs -/

namespace Backfill

variable {c c' : Car} {es taken left : List Pending} {fault? : Option Fault}

/-- What a car that takes over calls gets from them: not more stops than calls have left the pool,
and no order to stop. -/
structure Loads (c : Car) (p : Pool) (c' : Car) (p' : Pool) : Prop where
  running : c'.running = c.running
  size : c'.state.stops.size + p'.size ≤ c.state.stops.size + p.size

/-- A chain of single calls gives one stop at most for each of them. -/
lemma TakesOver.loads (htakes : TakesOver c es taken fault? c' left) (h : c.Sound) :
    Loads c ⟨es⟩ c' ⟨left⟩ := by
  induction htakes with
  | done => exact ⟨rfl, le_rfl⟩
  | fails => exact ⟨rfl, le_rfl⟩
  | takes c c' c'' before behind taken left e fault? hoffer _ ih =>
      have hsize := h.size_offer hoffer
      have hrunning := c.running_offer anyCar e.request
      rw [hoffer] at hrunning
      have hrest := ih (h.takes_of_offer hoffer).1.sound
      refine ⟨hrest.running.trans hrunning, ?_⟩
      have hleft := hrest.size
      simp only [Pool.size, List.length_append, List.length_cons, Bool.toNat_true] at hleft hsize ⊢
      omega

/-- **A take-over**, by either rule, gives a car at most one stop for each call that leaves the
pool. -/
theorem run_loads (h : c.Sound) (rule : BackfillRule) (floor : Floor) (p : Pool) :
    Loads c p (run rule floor c p).2.1 (run rule floor c p).2.2 := by
  obtain ⟨taken, fault?, c', left, heq, htakes⟩ := run_takesOver h rule floor p
  rw [heq]
  exact htakes.loads h

end Backfill

/-! ### Calls that nobody accepts -/

namespace Fleet

variable {f f' : Fleet} {id : Nat} {c : Car} {r : Request} {floor : Floor}

/-- **A call that no car may accept** leaves the cars as they are. Some car is going to stop at its
floor already, or it is one pending call more. -/
theorem dispatch_of_declined (h : ∀ c ∈ f.cars, c.state.canAccept r c.settings.capacity = false) :
    (f.dispatch r).2.cars = f.cars ∧ (f.dispatch r).2.pool.size ≤ f.pool.size + 1 := by
  rw [dispatch, Request.checked]
  split_ifs
  · exact ⟨rfl, Nat.le_succ _⟩
  dsimp only
  by_cases hserves : ∃ c ∈ f.cars, Dispatch.Serves ⟨r.floor, r.call⟩ c
  · obtain ⟨id, c, hfirst⟩ := Dispatch.exists_isFirst hserves
    rw [Dispatch.run_of_serves hfirst]
    exact ⟨rfl, Nat.le_succ _⟩
  · have hnone : ∀ c ∈ f.cars, ¬ Dispatch.Passes ⟨r.floor, r.call⟩ c ∧ ¬ Dispatch.Rests c := by
      refine fun c hc => ⟨fun hpasses => ?_, fun hrests => ?_⟩
      · exact Bool.false_ne_true ((h c hc).symm.trans (Dispatch.accepts_isActive.mpr hpasses).2)
      · exact Bool.false_ne_true ((h c hc).symm.trans (CarState.canAccept_of_idle hrests))
    rw [Dispatch.run_of_none (fun c hc hserving => hserves ⟨c, hc, hserving⟩) hnone]
    exact ⟨rfl, by simp [Pool.size]⟩

/-- A take-over gives its car at most one stop for each call that leaves the pool. -/
lemma Sound.backfill_loads (h : f.Sound) (hc : f.cars[id]? = some c) (floor : Floor) :
    ∃ c', (f.backfill id floor).2.cars = f.cars.set id c' ∧
      Backfill.Loads c f.pool c' (f.backfill id floor).2.pool := by
  rw [Fleet.backfill, hc]
  exact ⟨_, rfl, Backfill.run_loads (h.car hc) f.strategies.backfill floor f.pool⟩

end Fleet

end ElevatorFleet
