import ElevatorFleet.Proofs.CallByCall

/-!
Which calls a car takes over, and which it leaves.

* `Backfill.picks` is the test that a call of a sweep has to pass; a car under way keeps to it from
  the first call to the last (`Backfill.claimEntries_of_busy`).
* An idle car takes the first call of a sweep, whatever its button, and is under way for all behind
  it (`Backfill.claimEntries_of_idle_split`).
* `Backfill.Collects` is what an idle car has done in the end, the calls that it has left included.
* `Backfill.farthestFirst_of_idle_split` and `Backfill.farthestFirst_of_busy` say which calls go when
  the farthest one comes first; `Backfill.collects_on_side` and `Backfill.collects_here` which go by
  the busier side.
-/

namespace ElevatorFleet

/-- Whether a call is on the way of a car that sweeps in direction `d` from a floor. -/
def Request.isOnWay (r : Request) (d : Direction) (here : Floor) : Bool :=
  d = r.direction && d.reaches here r.floor

/-- Whether a call lies ahead of a car that sweeps in direction `d` from a floor, and not on the
floor itself. -/
def Request.isBeyond (r : Request) (d : Direction) (here : Floor) : Bool := d.Precedes here r.floor

/-- The side of a floor on which more calls are waiting, the lower one if there are as many. -/
def Pool.busierSide (p : Pool) (floor : Floor) : Direction :=
  if p.countBelow floor < p.countAbove floor then .up else .down

lemma Pool.busierSide_ne_stop (p : Pool) (floor : Floor) : p.busierSide floor ≠ .stop := by
  rw [busierSide]
  split_ifs <;> simp

namespace Request

variable {r : Request} {d : Direction} {here : Floor} {s : CarState}

lemma reaches_of_isBeyond (hd : d ≠ .stop) (h : r.isBeyond d here = true) :
    d.reaches here r.floor = true :=
  Direction.reaches_of_precedes (Direction.reaches_self hd here) (of_decide_eq_true h)

/-- An idle car that takes a call ahead in direction `d` turns that way. -/
lemma directionFor_of_isBeyond (hidle : s.activity = .idle) (hd : d ≠ .stop)
    (h : r.isBeyond d s.floor = true) : s.directionFor r = d := by
  have hne : s.floor ≠ r.floor := fun heq => by
    have hprecedes : d.Precedes s.floor r.floor := of_decide_eq_true h
    rw [heq] at hprecedes
    exact hprecedes.asymm hprecedes
  rw [CarState.directionFor, if_pos hidle, if_neg (Ne.symm hne)]
  exact Direction.toward_eq_of_reaches (reaches_of_isBeyond hd h) hne

end Request

/-- A car that has taken a call may accept what is on its way, as long as there is room. -/
lemma Car.Takes.canAccept_eq {c c' : Car} {r : Request} (h : c.Takes r c')
    (hroom : c.state.riders.length < c.settings.capacity) (other : Request) :
    c'.state.canAccept other c'.settings.capacity =
      other.isOnWay (c.state.directionFor r) c.state.floor := by
  rw [Bool.eq_iff_iff, CarState.canAccept_of_busy h.not_idle, h.settings_eq, h.riders_eq,
    h.direction_eq, h.floor_eq, Request.isOnWay, Bool.and_eq_true, decide_eq_true_eq]
  exact and_iff_right hroom

/-- The floors of a sweep determine its order. -/
lemma Stops.OrderedFor.floors_eq {q : Stops} {d : Direction} {fs : List Floor}
    (h : q.OrderedFor d) (hfs : fs.Pairwise d.Precedes) (hmem : ∀ f, f ∈ q.floors ↔ f ∈ fs) :
    q.floors = fs :=
  have hnodup : fs.Nodup := OrderedFor.nodup (q := ⟨fs⟩) hfs
  ((List.perm_ext_iff_of_nodup h.nodup hnodup).mpr hmem).eq_of_pairwise
    (fun _ _ _ _ hab hba => absurd hba hab.asymm) h hfs

namespace Backfill

variable {c c' c'' : Car} {es before behind others : List Pending} {e : Pending} {p p' : Pool}
  {on also : Request → Bool} {floor : Floor} {n : Nat}

/-! ### Sweeps -/

/-- The test that a call has to pass to be taken in a sweep. -/
def picks (c : Car) (on : Request → Bool) (e : Pending) : Bool :=
  on e.request && c.state.canAccept e.request c.settings.capacity

lemma picks_of_holdsCourse (h : c.HoldsCourse c') (on : Request → Bool) :
    picks c' on = picks c on := by
  funext e
  rw [picks, picks, h.canAccept_eq]

lemma offerIf_of_picks (h : c.Sound) (hpick : picks c on e = true)
    (hlt : e.request.floor < c.settings.height) :
    ∃ c', offerIf on e.request c = (.ok true, c') ∧ c.Takes e.request c' := by
  obtain ⟨hon, hok⟩ := Bool.and_eq_true_iff.mp hpick
  obtain ⟨c', hoffer, htakes⟩ : ∃ c', c.offer anyCar e.request = (.ok true, c') ∧
      c.Takes e.request c' := h.offer_of_canAccept rfl hok hlt
  exact ⟨c', by rw [offerIf, if_pos hon, hoffer], htakes⟩

lemma offerIf_of_not_picks (hno : ¬ picks c on e = true) :
    offerIf on e.request c = (.ok false, c) := by
  rw [offerIf]
  split_ifs with hon
  · exact Car.offer_of_not fun hboth => hno (Bool.and_eq_true_iff.mpr ⟨hon, hboth.2⟩)
  · rfl

/-- `c'` is `c` on its course, with stops added at the floors of some calls. -/
structure GoesOn (c : Car) (es : List Pending) (c' : Car) : Prop where
  sound : c'.Sound
  course : c.HoldsCourse c'
  mem_stops : ∀ f, f ∈ c'.state.stops.floors ↔
    f ∈ c.state.stops.floors ∨ ∃ e ∈ es, e.request.floor = f

lemma GoesOn.refl (h : c.Sound) : GoesOn c [] c := ⟨h, .refl c, by simp⟩

lemma GoesOn.of_takes (htakes : c.Takes e.request c') (hbusy : c.state.activity ≠ .idle)
    (h : GoesOn c' es c'') : GoesOn c (e :: es) c'' where
  sound := h.sound
  course := (htakes.holdsCourse hbusy).trans h.course
  mem_stops f := by
    rw [h.mem_stops, htakes.mem_stops]
    simp [eq_comm, or_assoc, or_left_comm]

/-- A sweep takes nothing if no call passes its test. -/
lemma claimEntries_of_forall_not (hno : ∀ e ∈ es, ¬ picks c on e = true) :
    Pool.claimEntries (offerIf on) es c = (.ok 0, es, c) := by
  induction es with
  | nil => rfl
  | cons e es ih =>
      obtain ⟨hhead, hrest⟩ := List.forall_mem_cons.mp hno
      rw [Pool.claimEntries, offerIf_of_not_picks hhead]
      dsimp only
      rw [ih hrest]

/-- A car under way takes every call that it might accept when the sweep began, and no other. Each
call that it takes leaves it on its course, so that the test stays the same all along. -/
lemma claimEntries_of_busy (h : c.Sound) (hbusy : c.state.activity ≠ .idle)
    (hin : ∀ e ∈ es, e.request.floor < c.settings.height) (on : Request → Bool) :
    ∃ c', Pool.claimEntries (offerIf on) es c =
        (.ok (es.countP (picks c on)), es.filter fun e => !picks c on e, c') ∧
      GoesOn c (es.filter (picks c on)) c' := by
  induction es generalizing c with
  | nil => exact ⟨c, rfl, .refl h⟩
  | cons e es ih =>
      obtain ⟨hhead, hrest⟩ := List.forall_mem_cons.mp hin
      rw [Pool.claimEntries]
      by_cases hpick : picks c on e = true
      · obtain ⟨c', hoffer, htakes⟩ := offerIf_of_picks h hpick hhead
        have hsame := picks_of_holdsCourse (htakes.holdsCourse hbusy) on
        obtain ⟨c'', heq, hgoes⟩ :=
          ih htakes.sound htakes.not_idle (by simpa only [htakes.settings_eq] using hrest)
        -- the calls behind it pass the test of the car as it was
        rw [hsame] at heq hgoes
        refine ⟨c'', ?_, ?_⟩
        · rw [hoffer]
          dsimp only
          rw [heq]
          simp [hpick, Except.map]
        · rw [List.filter_cons_of_pos hpick]
          exact .of_takes htakes hbusy hgoes
      · obtain ⟨c', heq, hgoes⟩ := ih h hbusy hrest
        refine ⟨c', ?_, ?_⟩
        · rw [offerIf_of_not_picks hpick]
          dsimp only
          rw [heq]
          simp [hpick]
        · rwa [List.filter_cons_of_neg hpick]

/-- An idle car takes the first call of a sweep, and from then on it is under way. -/
lemma claimEntries_of_idle_split (h : c.Sound) (hidle : c.state.activity = .idle)
    (on : Request → Bool) (hbefore : ∀ x ∈ before, on x.request = false) (hon : on e.request = true)
    (hin : ∀ x ∈ before ++ e :: behind, x.request.floor < c.settings.height) :
    ∃ c' c'', c.Takes e.request c' ∧
      Pool.claimEntries (offerIf on) (before ++ e :: behind) c =
        (.ok (behind.countP (picks c' on) + 1),
          before ++ behind.filter fun x => !picks c' on x, c'') ∧
      GoesOn c' (behind.filter (picks c' on)) c'' := by
  induction before with
  | nil =>
      obtain ⟨hhead, hrest⟩ := List.forall_mem_cons.mp hin
      have hpick : picks c on e = true := by rw [picks, hon, CarState.canAccept_of_idle hidle]; rfl
      obtain ⟨c', hoffer, htakes⟩ := offerIf_of_picks h hpick hhead
      obtain ⟨c'', heq, hgoes⟩ := claimEntries_of_busy htakes.sound htakes.not_idle
        (by simpa only [htakes.settings_eq] using hrest) on
      refine ⟨c', c'', htakes, ?_, hgoes⟩
      rw [List.nil_append, Pool.claimEntries, hoffer]
      dsimp only
      rw [heq]
      rfl
  | cons x before ih =>
      obtain ⟨hx, hrest⟩ := List.forall_mem_cons.mp hbefore
      obtain ⟨c', c'', htakes, heq, hgoes⟩ :=
        ih hrest fun y hy => hin y (List.mem_cons_of_mem x hy)
      refine ⟨c', c'', htakes, ?_, hgoes⟩
      rw [List.cons_append, Pool.claimEntries, offerIf, if_neg (by simp [hx])]
      dsimp only
      rw [heq]
      rfl

/-! ### What an idle car collects -/

/-- What an idle car has done when it is under way: it has taken over one call, and of the others
those that pass a test. It is going to stop at the floors of these calls and nowhere else, in the
order of a sweep in direction `d`; the calls that do not pass the test are left in their order. -/
structure Collects (e : Pending) (others : List Pending) (d : Direction) (also : Request → Bool)
    (c' : Car) (p' : Pool) : Prop where
  left : p'.entries = others.filter fun x => !also x.request
  mem_stops : ∀ f, f ∈ c'.state.stops.floors ↔
    f = e.request.floor ∨ ∃ x ∈ others, also x.request = true ∧ x.request.floor = f
  ordered : c'.state.stops.OrderedFor d
  direction_eq : c'.state.direction = d
  activity_eq : c'.state.activity = .moving

lemma collects_of_takes (h : c.Sound) (hidle : c.state.activity = .idle)
    (htakes : c.Takes e.request c')
    (hgoes : GoesOn c' (others.filter fun x => also x.request) c'') :
    Collects e others (c.state.directionFor e.request) also c''
      ⟨others.filter fun x => !also x.request⟩ where
  left := rfl
  mem_stops f := by
    have hempty : c.state.stops = .empty := h.lawful.idle hidle
    rw [hgoes.mem_stops, htakes.mem_stops, hempty]
    simp [and_assoc]
  ordered := by
    have hordered := hgoes.sound.lawful.ordered
    rwa [hgoes.course.direction_eq, htakes.direction_eq] at hordered
  direction_eq := hgoes.course.direction_eq.trans htakes.direction_eq
  activity_eq := by rw [hgoes.course.activity_eq, htakes.activity_eq, if_pos hidle]

/-- Calls in front that do not pass the test are left. -/
lemma Collects.prepend {d : Direction} (h : Collects e others d also c' p')
    (hbefore : ∀ x ∈ before, also x.request = false) :
    Collects e (before ++ others) d also c' ⟨before ++ p'.entries⟩ where
  left := by
    rw [List.filter_append, ← h.left, List.filter_eq_self.mpr fun x hx => by simp [hbefore x hx]]
  mem_stops f := by
    rw [h.mem_stops]
    refine or_congr_right ⟨fun ⟨x, hx, halso⟩ => ⟨x, List.mem_append_right before hx, halso⟩, ?_⟩
    rintro ⟨x, hx, halso, hfloor⟩
    cases List.mem_append.mp hx with
    | inl hx => exact absurd (halso.symm.trans (hbefore x hx)) (by decide)
    | inr hx => exact ⟨x, hx, halso, hfloor⟩
  ordered := h.ordered
  direction_eq := h.direction_eq
  activity_eq := h.activity_eq

/-! ### The farthest call first -/

/-- Whatever is on the way of the car that has taken the farthest call goes with it. -/
lemma farthestFirst_of_takes {r : Request} (htakes : c.Takes r c')
    (heq : offerFarthest floor c p = (.ok 1, c', ⟨others⟩))
    (hin : ∀ x ∈ others, x.request.floor < c.settings.height) :
    ∃ c'', farthestFirst floor c p = (.ok (others.countP (picks c' fun _ => true) + 1), c'',
        ⟨others.filter fun x => !picks c' (fun _ => true) x⟩) ∧
      GoesOn c' (others.filter (picks c' fun _ => true)) c'' := by
  obtain ⟨c'', hsweep, hgoes⟩ := claimEntries_of_busy htakes.sound htakes.not_idle
    (by simpa only [htakes.settings_eq] using hin) fun _ => true
  refine ⟨c'', ?_, hgoes⟩
  rw [farthestFirst, heq]
  dsimp only
  rw [sweep_eq hsweep]
  simp only [Except.map, Nat.add_comm 1]

/-- An idle car takes the farthest call, and is under way for all others. -/
lemma farthestFirst_of_idle_split (h : c.Sound) (hidle : c.state.activity = .idle)
    (hne : p.entries ≠ []) (hin : ∀ e ∈ p.entries, e.request.floor < c.settings.height)
    (floor : Floor) :
    ∃ before e behind c' c'' n, p.IsFarthest floor before e behind ∧ c.Takes e.request c' ∧
      farthestFirst floor c p = (.ok (n + 1), c'',
        ⟨(before ++ behind).filter fun x => !picks c' (fun _ => true) x⟩) ∧
      GoesOn c' ((before ++ behind).filter (picks c' fun _ => true)) c'' := by
  obtain ⟨before, e, behind, hfarthest, heq⟩ := exists_offerFarthest_eq hne c floor
  obtain ⟨c', hoffer, htakes⟩ : ∃ c', c.offer anyCar e.request = (.ok true, c') ∧
      c.Takes e.request c' :=
    h.offer_of_canAccept rfl (CarState.canAccept_of_idle hidle) (hin e hfarthest.mem)
  rw [hoffer] at heq
  obtain ⟨c'', hrun, hgoes⟩ := farthestFirst_of_takes htakes heq fun x hx =>
    hin x (hfarthest.sublist.subset hx)
  exact ⟨before, e, behind, c', c'', _, hfarthest, htakes, hrun, hgoes⟩

/-- A car under way takes what it might accept at first, whether the farthest call is part of that
or not. -/
lemma farthestFirst_of_busy (h : c.Sound) (hbusy : c.state.activity ≠ .idle)
    (hne : p.entries ≠ []) (hin : ∀ e ∈ p.entries, e.request.floor < c.settings.height)
    (floor : Floor) :
    ∃ c', farthestFirst floor c p = (.ok (p.entries.countP (picks c fun _ => true)), c',
        ⟨p.entries.filter fun x => !picks c (fun _ => true) x⟩) ∧ c.HoldsCourse c' := by
  obtain ⟨before, e, behind, hfarthest, heq⟩ := exists_offerFarthest_eq hne c floor
  by_cases hpick : picks c (fun _ => true) e = true
  · obtain ⟨c', hoffer, htakes⟩ := offerIf_of_picks h hpick (hin e hfarthest.mem)
    have hcourse := htakes.holdsCourse hbusy
    rw [offerIf, if_pos rfl] at hoffer
    rw [hoffer] at heq
    obtain ⟨c'', hrun, hgoes⟩ := farthestFirst_of_takes htakes heq fun x hx =>
      hin x (hfarthest.sublist.subset hx)
    refine ⟨c'', ?_, hcourse.trans hgoes.course⟩
    rw [hrun, picks_of_holdsCourse hcourse, hfarthest.split]
    simp [hpick, Nat.add_assoc]
  · obtain ⟨c', hsweep, hgoes⟩ := claimEntries_of_busy h hbusy hin fun _ => true
    have hoffer := offerIf_of_not_picks hpick
    rw [offerIf, if_pos rfl] at hoffer
    refine ⟨c', ?_, hgoes.course⟩
    rw [farthestFirst, heq, hoffer]
    dsimp only
    rw [sweep_eq hsweep]
    simp only [Except.map, Nat.zero_add]

/-! ### The busier side -/

lemma onBusierSide_eq (floor : Floor) (p : Pool) (r : Request) :
    onBusierSide floor p r = r.isBeyond (p.busierSide floor) floor := by
  rw [onBusierSide, Request.isBeyond, Pool.busierSide]
  split_ifs <;> rfl

/-- With no call on the busier side all calls are for the floor itself. -/
lemma floor_eq_of_forall_not (hside : ∀ e ∈ p.entries, ¬ onBusierSide floor p e.request = true)
    (he : e ∈ p.entries) : e.request.floor = floor := by
  by_cases hup : p.countBelow floor < p.countAbove floor
  · -- a call that is counted above is on the busier side
    exfalso
    obtain ⟨r, hr, habove⟩ := List.countP_pos_iff.mp (Nat.zero_lt_of_lt hup)
    obtain ⟨x, hx, rfl⟩ := List.mem_map.mp hr
    exact hside x hx (by simpa [onBusierSide, hup] using habove)
  · have hbelow : p.countBelow floor = 0 := by
      rw [Pool.countBelow, List.countP_eq_zero]
      intro r hr hlow
      obtain ⟨x, hx, rfl⟩ := List.mem_map.mp hr
      exact hside x hx (by simpa [onBusierSide, hup] using hlow)
    have habove : p.countAbove floor = 0 := by omega
    rw [Pool.countBelow, List.countP_eq_zero] at hbelow
    rw [Pool.countAbove, List.countP_eq_zero] at habove
    have hmem : e.request ∈ p.requests := List.mem_map_of_mem he
    refine le_antisymm (not_lt.mp fun hlt => habove _ hmem (by simpa using hlt)) ?_
    exact not_lt.mp fun hlt => hbelow _ hmem (by simpa using hlt)

/-- An idle car takes the oldest call on the busier side, and is under way for all behind it. -/
lemma densityBased_of_idle_split (h : c.Sound) (hidle : c.state.activity = .idle)
    (hsplit : p.entries = before ++ e :: behind)
    (hin : ∀ e ∈ p.entries, e.request.floor < c.settings.height)
    (hbefore : ∀ x ∈ before, onBusierSide floor p x.request = false)
    (hon : onBusierSide floor p e.request = true) :
    ∃ c' c'', c.Takes e.request c' ∧
      densityBased floor c p = (.ok (behind.countP (picks c' (onBusierSide floor p)) + 1), c'',
        ⟨before ++ behind.filter fun x => !picks c' (onBusierSide floor p) x⟩) ∧
      GoesOn c' (behind.filter (picks c' (onBusierSide floor p))) c'' := by
  rw [hsplit] at hin
  obtain ⟨c', c'', htakes, heq, hgoes⟩ := claimEntries_of_idle_split h hidle _ hbefore hon hin
  rw [← hsplit] at heq
  refine ⟨c', c'', htakes, ?_, hgoes⟩
  rw [densityBased, sweep_eq heq]
  rfl

/-- With nothing on the busier side an idle car takes the oldest call of all. -/
lemma densityBased_of_idle_here (h : c.Sound) (hidle : c.state.activity = .idle)
    (hsplit : p.entries = e :: behind)
    (hin : ∀ e ∈ p.entries, e.request.floor < c.settings.height)
    (hside : ∀ e ∈ p.entries, ¬ onBusierSide floor p e.request = true) :
    ∃ c' c'', c.Takes e.request c' ∧
      densityBased floor c p = (.ok (behind.countP (picks c' (·.floor = floor)) + 1), c'',
        ⟨behind.filter fun x => !picks c' (·.floor = floor) x⟩) ∧
      GoesOn c' (behind.filter (picks c' (·.floor = floor))) c'' := by
  -- the first sweep leaves car and pool as they are
  have hnothing : sweep (onBusierSide floor p) c p = (.ok 0, c, p) :=
    sweep_eq (claimEntries_of_forall_not fun x hx hpick =>
      hside x hx (Bool.and_eq_true_iff.mp hpick).1)
  have hhere : e.request.floor = floor := floor_eq_of_forall_not hside (by simp [hsplit])
  rw [hsplit] at hin
  obtain ⟨c', c'', htakes, heq, hgoes⟩ := claimEntries_of_idle_split h hidle (·.floor = floor)
    (List.forall_mem_nil _) (decide_eq_true hhere) hin
  rw [List.nil_append, ← hsplit] at heq
  refine ⟨c', c'', htakes, ?_, hgoes⟩
  rw [densityBased, hnothing]
  exact sweep_eq heq

/-- The first call that passes a test, with none before it that does. -/
lemma exists_first {test : Pending → Bool} (hex : ∃ x ∈ es, test x = true) :
    ∃ before e behind, es = before ++ e :: behind ∧ (∀ x ∈ before, test x = false) ∧
      test e = true := by
  obtain ⟨e, hfind⟩ := Option.isSome_iff_exists.mp (List.find?_isSome.mpr hex)
  obtain ⟨hon, before, behind, hsplit, hbefore⟩ := List.find?_eq_some_iff_append.mp hfind
  exact ⟨before, e, behind, hsplit, fun x hx => by simpa using hbefore x hx, hon⟩

/-- What an idle car collects on the busier side: the oldest call there, and what goes that way. -/
lemma collects_on_side (h : c.Sound) (hidle : c.state.activity = .idle)
    (hroom : c.state.riders.length < c.settings.capacity)
    (hin : ∀ e ∈ p.entries, e.request.floor < c.settings.height)
    (hside : ∃ x ∈ p.entries,
      x.request.isBeyond (p.busierSide c.state.floor) c.state.floor = true) :
    ∃ before e behind c' p', p.entries = before ++ e :: behind ∧
      (∀ x ∈ before, x.request.isBeyond (p.busierSide c.state.floor) c.state.floor = false) ∧
      e.request.isBeyond (p.busierSide c.state.floor) c.state.floor = true ∧
      run .densityBased c.state.floor c p = (.ok true, c', p') ∧
      Collects e (before ++ behind) (p.busierSide c.state.floor)
        (fun r => r.isBeyond (p.busierSide c.state.floor) c.state.floor &&
          r.direction = p.busierSide c.state.floor) c' p' := by
  obtain ⟨before, e, behind, hsplit, hbefore, hon⟩ := exists_first hside
  have hd := p.busierSide_ne_stop c.state.floor
  have hdirection := Request.directionFor_of_isBeyond hidle hd hon
  have hbusier := onBusierSide_eq c.state.floor p
  obtain ⟨c', c'', htakes, heq, hgoes⟩ := densityBased_of_idle_split h hidle hsplit hin
    (fun x hx => (hbusier x.request).trans (hbefore x hx)) ((hbusier e.request).trans hon)
  generalize p.busierSide c.state.floor = d at *
  -- no call on that side has been passed, so that only the button counts
  have hpicks : picks c' (onBusierSide c.state.floor p) =
      fun x => x.request.isBeyond d c.state.floor && decide (x.request.direction = d) := by
    funext x
    rw [picks, hbusier, htakes.canAccept_eq hroom, hdirection, Request.isOnWay]
    cases hahead : x.request.isBeyond d c.state.floor with
    | false => rfl
    | true => simp [Request.reaches_of_isBeyond hd hahead, eq_comm]
  rw [hpicks] at heq hgoes
  have hne : p.entries ≠ [] := by simp [hsplit]
  have hcollects : Collects e behind (c.state.directionFor e.request)
      (fun r => r.isBeyond d c.state.floor && r.direction = d) c'' _ :=
    collects_of_takes h hidle htakes hgoes
  rw [hdirection] at hcollects
  exact ⟨before, e, behind, c'', _, hsplit, hbefore, hon, run_of_ne_nil hne .densityBased heq,
    hcollects.prepend fun x hx => by simp [hbefore x hx]⟩

/-- What an idle car collects with nothing on the busier side: the oldest call of all, and those for
the same button. -/
lemma collects_here (h : c.Sound) (hidle : c.state.activity = .idle)
    (hroom : c.state.riders.length < c.settings.capacity) (hne : p.entries ≠ [])
    (hin : ∀ e ∈ p.entries, e.request.floor < c.settings.height)
    (hhere : ∀ x ∈ p.entries, x.request.floor = c.state.floor)
    (hside : ∀ x ∈ p.entries, ¬ onBusierSide c.state.floor p x.request = true) :
    ∃ e behind c' p', p.entries = e :: behind ∧
      run .densityBased c.state.floor c p = (.ok true, c', p') ∧
      Collects e behind e.request.direction (fun r => r.direction = e.request.direction) c' p' := by
  obtain ⟨e, behind, hsplit⟩ := List.exists_cons_of_ne_nil hne
  obtain ⟨c', c'', htakes, heq, hgoes⟩ := densityBased_of_idle_here h hidle hsplit hin hside
  rw [hsplit] at hhere
  obtain ⟨hfloor, hrest⟩ := List.forall_mem_cons.mp hhere
  have hdirection : c.state.directionFor e.request = e.request.direction := by
    rw [CarState.directionFor, if_pos hidle, if_pos hfloor]
  have hreach : e.request.direction.reaches c.state.floor c.state.floor = true :=
    Direction.reaches_self e.request.call.direction_ne_stop c.state.floor
  have hpicks : ∀ x ∈ behind, picks c' (·.floor = c.state.floor) x =
      decide (x.request.direction = e.request.direction) := fun x hx => by
    rw [picks, htakes.canAccept_eq hroom, hdirection, Request.isOnWay, hrest x hx,
      hreach]
    simp [eq_comm]
  rw [List.filter_congr hpicks] at hgoes
  rw [List.filter_congr fun x hx => congrArg not (hpicks x hx)] at heq
  have hcollects : Collects e behind (c.state.directionFor e.request)
      (fun r => r.direction = e.request.direction) c'' _ :=
    collects_of_takes h hidle htakes hgoes
  rw [hdirection] at hcollects
  exact ⟨e, behind, c'', _, hsplit, run_of_ne_nil hne .densityBased heq, hcollects⟩

/-- A car that has collected calls for one floor stops there and nowhere else. -/
lemma Collects.floors_eq {d : Direction} (h : Collects e others d also c' p')
    (hfloor : ∀ x ∈ e :: others, x.request.floor = floor) : c'.state.stops.floors = [floor] := by
  obtain ⟨hhead, hrest⟩ := List.forall_mem_cons.mp hfloor
  refine h.ordered.floors_eq (List.pairwise_singleton _ floor) fun f => ?_
  rw [h.mem_stops, List.mem_singleton, hhead]
  refine or_iff_left_of_imp ?_
  rintro ⟨x, hx, -, rfl⟩
  exact hrest x hx

end Backfill

end ElevatorFleet
