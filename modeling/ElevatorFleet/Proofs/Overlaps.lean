import ElevatorFleet.Proofs.Coverage
import ElevatorFleet.Proofs.InStep

/-!
Cars that exchange riders on one floor at the same time.

Every question of an exchange is answered at once, but between two questions of one car the others
may put any number of their own. In particular a car calls a rider, asks about them, and only then
reports that they have boarded.

* `Landing` is several exchanges side by side, and `Landing.turns` goes on with them in any order.
* `Dialogue.Expects` says that a car has called a rider whom it may still report to have boarded.
* `Landing.boards_once`: a car never reports the same rider twice, and as long as no two cars expect
  the same rider at a time, no rider is reported twice or ends up in two cars.
* `Landing.boards_twice`: two cars that do expect the same rider can both take them aboard.
-/

namespace ElevatorFleet

/-! ### Whom a car expects -/

namespace Dialogue

variable {α β : Type} {x : RiderId} {floor : Floor} {d : Dialogue α} {f : α → Dialogue β}

/-- A car that goes on like this expects a rider: unless it calls somebody first, it may report that
this rider has boarded. -/
def Expects (x : RiderId) : Dialogue α → Prop
  | done _ => False
  | ask (.next _ _ _) _ => False
  | ask (.boarded _ y) _ => y = x
  | ask (.destination _) next => ∃ answer, (next answer).Expects x
  | ask (.hasArrived _) next => ∃ answer, (next answer).Expects x
  | ask (.alighted _ _) next => ∃ answer, (next answer).Expects x
  | ask (.hasWaiting _ _) next => ∃ answer, (next answer).Expects x

/-- A car that goes on like this calls and reports riders on one floor only, expects nobody but whom
it has called last, and nobody any more once it has reported them. -/
def CallsAt (floor : Floor) : Dialogue α → Prop
  | done _ => True
  | ask (.next f _ _) next => f = floor ∧
      ∀ answer, (next answer).CallsAt floor ∧ ∀ x, (next answer).Expects x → answer = some x
  | ask (.boarded f _) next => f = floor ∧ (next ()).CallsAt floor ∧ ∀ x, ¬ (next ()).Expects x
  | ask (.destination _) next => ∀ answer, (next answer).CallsAt floor
  | ask (.hasArrived _) next => ∀ answer, (next answer).CallsAt floor
  | ask (.alighted _ _) next => ∀ answer, (next answer).CallsAt floor
  | ask (.hasWaiting _ _) next => ∀ answer, (next answer).CallsAt floor

/-- The result of a dialogue that is over. -/
def result? : Dialogue α → Option α
  | done a => some a
  | ask _ _ => none

lemma eq_done_of_result? {a : α} (h : d.result? = some a) : d = done a := by
  cases d with
  | done a' => exact congrArg done (Option.some.inj h)
  | ask q next => simp [result?] at h

/-- If nobody is expected in what follows, nobody else is expected before it. -/
lemma Expects.of_bind (h : (d.bind f).Expects x) (hf : ∀ a, ¬ (f a).Expects x) : d.Expects x := by
  induction d with
  | done a => exact absurd h (hf a)
  | ask q next ih =>
      cases q with
      | next => exact h
      | boarded => exact h
      | destination | hasArrived | alighted | hasWaiting =>
          obtain ⟨answer, hanswer⟩ := h
          exact ⟨answer, ih answer hanswer⟩

/-- A car that goes on like this calls on one floor only, and expects nobody yet. -/
structure BeginsAt (floor : Floor) (d : Dialogue α) : Prop where
  calls : d.CallsAt floor
  nobody : ∀ x, ¬ d.Expects x

lemma beginsAt_done (a : α) : (done a).BeginsAt floor := ⟨trivial, fun _ => id⟩

/-- A car goes on calling on its floor if it begins there afresh in what follows. -/
lemma CallsAt.bind (h : d.CallsAt floor) (hf : ∀ a, (f a).BeginsAt floor) :
    (d.bind f).CallsAt floor := by
  induction d with
  | done a => exact (hf a).calls
  | ask q next ih =>
      cases q with
      | next =>
          obtain ⟨hfloor, hnext⟩ := h
          refine ⟨hfloor, fun answer => ⟨ih answer (hnext answer).1, fun x hx => ?_⟩⟩
          exact (hnext answer).2 x (hx.of_bind fun a => (hf a).nobody x)
      | boarded =>
          obtain ⟨hfloor, hnext, hnobody⟩ := h
          exact ⟨hfloor, ih () hnext, fun x hx => hnobody x (hx.of_bind fun a => (hf a).nobody x)⟩
      | destination | hasArrived | alighted | hasWaiting =>
          exact fun answer => ih answer (h answer)

lemma BeginsAt.bind (h : d.BeginsAt floor) (hf : ∀ a, (f a).BeginsAt floor) :
    (d.bind f).BeginsAt floor :=
  ⟨h.calls.bind hf, fun x hx => h.nobody x (hx.of_bind fun a => (hf a).nobody x)⟩

end Dialogue

namespace Exchange

open Dialogue

variable {height floor : Floor} {capacity : Nat} {x : RiderId}

lemma bound_beginsAt (floor : Floor) (riders : List RiderId) :
    (bound floor riders).BeginsAt floor := by
  induction riders with
  | nil => exact beginsAt_done _
  | cons y riders ih =>
      have hnext : ∀ d, ((bound floor riders).bind fun result => .done (result.map fun rest =>
          if d = floor then y :: rest else rest)).BeginsAt floor :=
        fun d => ih.bind fun _ => beginsAt_done _
      rw [bound]
      constructor
      · rintro (_ | d)
        · trivial
        · exact (hnext d).calls
      · rintro x ⟨_ | d, h⟩
        · exact h
        · exact (hnext d).nobody x h

lemma announceAlighted_beginsAt (floor : Floor) (riders : List RiderId) :
    (announceAlighted floor riders).BeginsAt floor := by
  induction riders with
  | nil => exact beginsAt_done _
  | cons y riders ih => exact ⟨fun _ => ih.calls, fun x ⟨_, h⟩ => ih.nobody x h⟩

lemma recallOthers_beginsAt (s : CarState) : (recallOthers s).BeginsAt floor := by
  rw [recallOthers]
  split
  · exact beginsAt_done _
  · exact ⟨by rintro (_ | _) <;> trivial, by rintro x ⟨_ | _, h⟩ <;> exact h⟩

/-- In boarding a car calls somebody first, and reports nobody else before it calls the next. -/
lemma board_beginsAt (height : Floor) (places : Nat) (s : CarState) (hfloor : s.floor = floor) :
    (board height places s).BeginsAt floor := by
  induction places using Nat.strong_induction_on generalizing s with
  | _ places ih =>
      rw [board.eq_def]
      refine ⟨⟨hfloor, ?_⟩, fun x => id⟩
      rintro (_ | y)
      · exact ⟨trivial, fun x => False.elim⟩
      -- they are reported only if they have not arrived and want to go somewhere
      suffices hcalled : ∀ d, _ ∧ ∀ x, _ → _ by
        refine ⟨?_, ?_⟩
        · rintro (_ | _)
          · rintro (_ | d)
            · trivial
            · exact (hcalled d).1
          · trivial
        · rintro x ⟨_ | _, h⟩
          · obtain ⟨_ | d, h⟩ := h
            · exact h.elim
            · exact (hcalled d).2 x h
          · exact h.elim
      intro d
      cases places with
      | zero => exact ⟨trivial, fun x => False.elim⟩
      | succ places =>
          dsimp only
          split
          · exact ⟨trivial, fun x => False.elim⟩
          · rename_i added s' hadd
            obtain ⟨-, -, -, hsame⟩ := CarState.addStop_eq_ok hadd
            have hrest := (ih places places.lt_succ_self { s' with riders := s'.riders ++ [y] }
              (hsame.trans hfloor)).bind
              fun out => beginsAt_done (out.1.map fun result => (y :: result.1, result.2), out.2)
            exact ⟨⟨hsame.trans hfloor, hrest.calls, hrest.nobody⟩, fun x h => congrArg some h⟩

/-- In an exchange a car calls riders on the floor it stands on. -/
lemma run_beginsAt (height : Floor) (capacity : Nat) (s : CarState) :
    (run height capacity s).BeginsAt s.floor := by
  rw [run_eq]
  refine (bound_beginsAt s.floor s.riders).bind ?_
  rintro (fault | alighted)
  · exact beginsAt_done _
  refine (announceAlighted_beginsAt s.floor alighted).bind fun _ => ?_
  refine (board_beginsAt height (capacity - (s.riders.filter (!alighted.contains ·)).length)
    { s with riders := s.riders.filter (!alighted.contains ·) } rfl).bind ?_
  rintro ⟨fault | ⟨boarded, recalls⟩, s'⟩
  · exact beginsAt_done _
  · exact (recallOthers_beginsAt s').bind fun _ => beginsAt_done _

end Exchange

/-! ### Several exchanges at once -/

/-- Cars that stand on one floor with open doors: what each of them still has to say, the building,
and what has been said so far, by which car. -/
structure Landing (ι : Type) where
  dialogues : ι → Dialogue (Attempt CarState Exchange)
  building : Building
  log : List (ι × Remark)

namespace Landing

variable {ι : Type} [DecidableEq ι] {l l' : Landing ι} {floor : Floor} {id : ι} {now : Nat}
  {x : RiderId}

/-- The cars are about to exchange riders. -/
def opened (cars : ι → Car) (b : Building) : Landing ι where
  dialogues id :=
    Exchange.run (cars id).settings.height (cars id).settings.capacity (cars id).state
  building := b
  log := []

/-- One car puts its next question at a moment. -/
def turn (l : Landing ι) (id : ι) (now : Nat) : Landing ι :=
  match l.dialogues id with
  | .done _ => l
  | .ask q next =>
      let (answer, b) := (Building.keeper now).answer q l.building
      ⟨Function.update l.dialogues id (next answer), b, l.log ++ [(id, ⟨q, answer⟩)]⟩

/-- The cars go on in the order of a schedule, which says whose turn it is and when. -/
def turns (l : Landing ι) (schedule : List (ι × Nat)) : Landing ι :=
  schedule.foldl (fun l (id, now) => l.turn id now) l

/-- All that one car has said. -/
def said (l : Landing ι) (id : ι) : Transcript := (l.log.filter (·.1 = id)).map (·.2)

/-- Who has been reported to have boarded, by any of the cars. -/
def reported (l : Landing ι) : List RiderId := Transcript.boarded (l.log.map (·.2))

/-- No two cars expect the same rider. -/
def IsExclusive (l : Landing ι) : Prop :=
  ∀ i j x, (l.dialogues i).Expects x → (l.dialogues j).Expects x → i = j

/-- A rider is not to be had by a car any more: nobody calls them again, and the car does not expect
them. -/
structure Gone (l : Landing ι) (floor : Floor) (i : ι) (x : RiderId) : Prop where
  left : x ∉ l.building.lineAt floor
  unexpected : ¬ (l.dialogues i).Expects x

/-! ### One turn -/

lemma said_snoc {dialogues : ι → Dialogue (Attempt CarState Exchange)} {b : Building} {r : Remark}
    (i : ι) : (Landing.mk dialogues b (l.log ++ [(id, r)])).said i =
      l.said i ++ if id = i then [r] else [] := by
  by_cases hi : id = i <;> simp [said, hi]

omit [DecidableEq ι] in
lemma reported_snoc {dialogues : ι → Dialogue (Attempt CarState Exchange)} {b : Building}
    {r : Remark} : (Landing.mk dialogues b (l.log ++ [(id, r)])).reported =
      l.reported ++ Transcript.boarded [r] := by
  simp [reported]

lemma mem_reported {i : ι} (hx : x ∈ (l.said i).boarded) : x ∈ l.reported := by
  obtain ⟨r, hr, hboards⟩ := List.mem_filterMap.mp hx
  obtain ⟨e, he, rfl⟩ := List.mem_map.mp hr
  exact List.mem_filterMap.mpr ⟨e.2, List.mem_map.mpr ⟨e, (List.mem_filter.mp he).1, rfl⟩, hboards⟩

/-- What a turn can be: the car is done, it says something else than that somebody has boarded, or
it reports a rider whom it has expected. -/
inductive TurnCase (floor : Floor) (l l' : Landing ι) (id : ι) : Prop where
  | finished (heq : l' = l)
  | asks (hsaid : ∀ i, (l'.said i).boarded = (l.said i).boarded)
      (hreported : l'.reported = l.reported)
      (hline : ∀ x ∈ l'.building.lineAt floor, x ∈ l.building.lineAt floor)
      (hexpects : ∀ i x, (l'.dialogues i).Expects x →
        (l.dialogues i).Expects x ∨ x ∈ l.building.lineAt floor)
  | boards (y : RiderId) (hy : (l.dialogues id).Expects y)
      (hsaid : (l'.said id).boarded = (l.said id).boarded ++ [y])
      (hothers : ∀ i ≠ id, (l'.said i).boarded = (l.said i).boarded ∧
        l'.dialogues i = l.dialogues i)
      (hreported : l'.reported = l.reported ++ [y])
      (hline : ∀ x ∈ l'.building.lineAt floor, x ∈ l.building.lineAt floor ∧ x ≠ y)
      (hnobody : ∀ x, ¬ (l'.dialogues id).Expects x)

/-- A question that is no report moves nobody aboard, and makes the car expect nobody but somebody
in line. -/
lemma turnCase_asks {q : Question} {next : q.Answer → Dialogue (Attempt CarState Exchange)}
    {answer : q.Answer} {b : Building} (hdialogue : l.dialogues id = .ask q next)
    (hquiet : Remark.boards? ⟨q, answer⟩ = none)
    (hline : ∀ x ∈ b.lineAt floor, x ∈ l.building.lineAt floor)
    (hexpects : ∀ x, (next answer).Expects x →
      (l.dialogues id).Expects x ∨ x ∈ l.building.lineAt floor) :
    TurnCase floor l
      ⟨Function.update l.dialogues id (next answer), b, l.log ++ [(id, ⟨q, answer⟩)]⟩ id := by
  refine .asks (fun i => ?_) ?_ hline fun i x hx => ?_
  · rw [said_snoc]
    by_cases hi : id = i <;> simp [hi, Transcript.boarded, hquiet]
  · rw [reported_snoc]
    simp [Transcript.boarded, hquiet]
  · by_cases hi : i = id
    · subst hi
      exact hexpects x (by simpa using hx)
    · exact Or.inl (by simpa [Function.update_of_ne hi] using hx)

lemma turn_cases (h : (l.dialogues id).CallsAt floor) (now : Nat) :
    TurnCase floor l (l.turn id now) id := by
  rw [turn]
  cases hdialogue : l.dialogues id with
  | done out => exact .finished rfl
  | ask q next =>
      rw [hdialogue] at h
      cases q with
      | next f goingUp queueWasEmpty =>
          obtain ⟨rfl, hnext⟩ := h
          refine turnCase_asks hdialogue rfl (fun _ hx => hx) fun x hx => Or.inr ?_
          exact List.mem_of_find?_eq_some ((hnext _).2 x hx)
      | boarded f y =>
          obtain ⟨rfl, hnext, hnobody⟩ := h
          refine .boards y (by rw [hdialogue]; rfl) ?_ (fun i hi => ⟨?_, ?_⟩) ?_ (fun x hx => ?_)
            fun x hx => ?_
          · rw [said_snoc, if_pos rfl]
            exact Transcript.boarded_append
          · rw [said_snoc, if_neg hi.symm, List.append_nil]
          · exact Function.update_of_ne hi _ _
          · exact reported_snoc
          · have hkept := Building.mem_lineAt_toCar.mp hx
            exact ⟨hkept.1, hkept.2 rfl⟩
          · exact hnobody x (by simpa using hx)
      | destination | hasArrived | hasWaiting | alighted =>
          refine turnCase_asks hdialogue rfl (fun _ hx => hx) fun x hx => Or.inl ?_
          rw [hdialogue]
          exact ⟨_, hx⟩

/-- A car goes on calling on its floor. -/
lemma callsAt_turn (h : ∀ i, (l.dialogues i).CallsAt floor) (id : ι) (now : Nat) (i : ι) :
    ((l.turn id now).dialogues i).CallsAt floor := by
  rw [turn]
  cases hdialogue : l.dialogues id with
  | done out => exact h i
  | ask q next =>
      by_cases hi : i = id
      · subst hi
        have hcalls := h i
        rw [hdialogue] at hcalls
        simp only [Function.update_self]
        cases q with
        | next => exact (hcalls.2 _).1
        | boarded => exact hcalls.2.1
        | destination | hasArrived | hasWaiting | alighted => exact hcalls _
      · simp only [Function.update_of_ne hi]
        exact h i

/-- What a car comes to in the end, of all that it says, it still comes to after a turn. -/
lemma yields_turn {P : Transcript → Attempt CarState Exchange → Prop} {i : ι}
    (h : (l.dialogues i).Yields fun t out => P (l.said i ++ t) out) (id : ι) (now : Nat) :
    ((l.turn id now).dialogues i).Yields fun t out => P ((l.turn id now).said i ++ t) out := by
  rw [turn]
  cases hdialogue : l.dialogues id with
  | done out => exact h
  | ask q next =>
      by_cases hi : i = id
      · subst hi
        rw [hdialogue] at h
        simp only [Function.update_self, said_snoc, if_true, List.append_assoc]
        exact h _
      · simp only [Function.update_of_ne hi, said_snoc, if_neg (Ne.symm hi), List.append_nil]
        exact h

/-- Whoever is not to be had by a car any more never is again, and is not reported by it. -/
lemma TurnCase.gone {i : ι} (h : TurnCase floor l l' id) (hx : l.Gone floor i x) :
    l'.Gone floor i x ∧ (x ∈ (l'.said i).boarded → x ∈ (l.said i).boarded) := by
  cases h with
  | finished heq =>
      subst heq
      exact ⟨hx, fun hmem => hmem⟩
  | asks hsaid hreported hline hexpects =>
      refine ⟨⟨fun hmem => hx.left (hline x hmem), fun hmem => ?_⟩, fun hmem => hsaid i ▸ hmem⟩
      exact (hexpects i x hmem).elim hx.unexpected hx.left
  | boards y hy hsaid hothers hreported hline hnobody =>
      have hleft : x ∉ l'.building.lineAt floor := fun hmem => hx.left (hline x hmem).1
      by_cases hi : i = id
      · subst hi
        refine ⟨⟨hleft, hnobody x⟩, fun hmem => ?_⟩
        rw [hsaid, List.mem_append, List.mem_singleton] at hmem
        exact hmem.resolve_right fun heq => hx.unexpected (heq ▸ hy)
      · obtain ⟨hsame, hdialogue⟩ := hothers i hi
        exact ⟨⟨hleft, hdialogue ▸ hx.unexpected⟩, fun hmem => hsame ▸ hmem⟩

/-! ### Any number of turns -/

/-- What always holds of cars that exchange riders: each calls on its floor, and whoever it has
reported is not to be had by it any more, so that it has reported nobody twice. -/
structure Tracked (l : Landing ι) (floor : Floor) : Prop where
  calls : ∀ i, (l.dialogues i).CallsAt floor
  nodup : ∀ i, (l.said i).boarded.Nodup
  gone : ∀ i, ∀ x ∈ (l.said i).boarded, l.Gone floor i x

lemma Tracked.after (h : l.Tracked floor) (hcalls : ∀ i, (l'.dialogues i).CallsAt floor)
    (hcase : TurnCase floor l l' id) : l'.Tracked floor := by
  have hgone : ∀ i, ∀ x ∈ (l.said i).boarded, l'.Gone floor i x :=
    fun i x hx => (hcase.gone (h.gone i x hx)).1
  cases hcase with
  | finished heq => exact heq ▸ h
  | asks hsaid _ hline hexpects =>
      exact ⟨hcalls, fun i => hsaid i ▸ h.nodup i, fun i x hx => hgone i x (hsaid i ▸ hx)⟩
  | boards y hy hsaid hothers _ hline hnobody =>
      refine ⟨hcalls, fun i => ?_, fun i x hx => ?_⟩ <;> by_cases hi : i = id
      · subst hi
        have hnew : y ∉ (l.said i).boarded := fun hmem => (h.gone i y hmem).unexpected hy
        rw [hsaid]
        exact List.nodup_append_comm.mp (List.nodup_cons.mpr ⟨hnew, h.nodup i⟩)
      · exact (hothers i hi).1 ▸ h.nodup i
      · subst hi
        rw [hsaid, List.mem_append, List.mem_singleton] at hx
        rcases hx with hx | rfl
        · exact hgone i x hx
        · exact ⟨fun hmem => (hline x hmem).2 rfl, hnobody x⟩
      · exact hgone i x ((hothers i hi).1 ▸ hx)

/-- What holds besides as long as no two cars expect the same rider: whoever has been reported is
not to be had by any car, so that nobody has been reported twice, by one car or by two. -/
structure Shared (l : Landing ι) (floor : Floor) : Prop where
  nodup : l.reported.Nodup
  gone : ∀ x ∈ l.reported, ∀ i, l.Gone floor i x
  single : ∀ i j x, x ∈ (l.said i).boarded → x ∈ (l.said j).boarded → i = j

lemma Shared.after (h : l.Shared floor) (hexclusive : l.IsExclusive)
    (hcase : TurnCase floor l l' id) : l'.Shared floor := by
  have hgone : ∀ x ∈ l.reported, ∀ i, l'.Gone floor i x :=
    fun x hx i => (hcase.gone (h.gone x hx i)).1
  cases hcase with
  | finished heq => exact heq ▸ h
  | asks hsaid hreported hline hexpects =>
      refine ⟨hreported ▸ h.nodup, fun x hx => hgone x (hreported ▸ hx), fun i j x hi hj => ?_⟩
      exact h.single i j x (hsaid i ▸ hi) (hsaid j ▸ hj)
  | boards y hy hsaid hothers hreported hline hnobody =>
      have hnew : y ∉ l.reported := fun hmem => (h.gone y hmem id).unexpected hy
      -- only the car that reports them has had a new rider
      have hbefore : ∀ i x, x ∈ (l'.said i).boarded → x ∈ (l.said i).boarded ∨ i = id ∧ x = y := by
        intro i x hx
        by_cases hi : i = id
        · subst hi
          rw [hsaid, List.mem_append, List.mem_singleton] at hx
          exact hx.imp_right fun heq => ⟨rfl, heq⟩
        · exact Or.inl ((hothers i hi).1 ▸ hx)
      refine ⟨?nodup, fun x hx i => ?gone, fun i j x hi hj => ?single⟩
      case nodup =>
        rw [hreported]
        exact List.nodup_append_comm.mp (List.nodup_cons.mpr ⟨hnew, h.nodup⟩)
      case gone =>
        rw [hreported, List.mem_append, List.mem_singleton] at hx
        rcases hx with hx | rfl
        · exact hgone x hx i
        refine ⟨fun hmem => (hline x hmem).2 rfl, fun hexpects => ?_⟩
        by_cases hi : i = id
        · exact hnobody x (hi ▸ hexpects)
        · exact hi (hexclusive i id x ((hothers i hi).2 ▸ hexpects) hy)
      case single =>
        rcases hbefore i x hi with hi | ⟨hi, hx⟩ <;> rcases hbefore j x hj with hj | ⟨hj, hx'⟩
        · exact h.single i j x hi hj
        · exact absurd (mem_reported hi) (hx' ▸ hnew)
        · exact absurd (mem_reported hj) (hx ▸ hnew)
        · exact hi.trans hj.symm

/-- Whatever each turn keeps is kept by any number of turns. -/
lemma turns_induction {P : Landing ι → Prop} (hP : ∀ l id now, P l → P (l.turn id now))
    (hl : P l) (schedule : List (ι × Nat)) : P (l.turns schedule) := by
  induction schedule generalizing l with
  | nil => exact hl
  | cons turn schedule ih => exact ih (hP _ _ _ hl)

lemma Tracked.turn (h : l.Tracked floor) (id : ι) (now : Nat) : (l.turn id now).Tracked floor :=
  h.after (callsAt_turn h.calls id now) (turn_cases (h.calls id) now)

lemma Tracked.turns (h : l.Tracked floor) (schedule : List (ι × Nat)) :
    (l.turns schedule).Tracked floor :=
  turns_induction (P := fun l => l.Tracked floor) (fun _ id now hl => hl.turn id now) h schedule

lemma Shared.turns (h : l.Shared floor) (htracked : l.Tracked floor) (schedule : List (ι × Nat))
    (hexclusive : ∀ n, (l.turns (schedule.take n)).IsExclusive) :
    (l.turns schedule).Shared floor := by
  induction schedule generalizing l with
  | nil => exact h
  | cons turn schedule ih =>
      refine ih (h.after (hexclusive 0) (turn_cases (htracked.calls _) _)) (htracked.turn _ _) ?_
      exact fun n => hexclusive (n + 1)

/-- Whoever is not to be had by any car is never reported. -/
lemma Tracked.never (h : l.Tracked floor) (hx : ∀ i, l.Gone floor i x)
    (hsaid : ∀ i, x ∉ (l.said i).boarded) (schedule : List (ι × Nat)) (i : ι) :
    x ∉ ((l.turns schedule).said i).boarded := by
  induction schedule generalizing l with
  | nil => exact hsaid i
  | cons turn schedule ih =>
      have hcase : TurnCase floor l (l.turn turn.1 turn.2) turn.1 := turn_cases (h.calls _) _
      refine ih (h.turn _ _) (fun j => (hcase.gone (hx j)).1) fun j hmem => ?_
      exact hsaid j ((hcase.gone (hx j)).2 hmem)

/-- Cars that are about to exchange riders have said nothing. -/
lemma tracked_opened {cars : ι → Car} (hfloor : ∀ i, (cars i).state.floor = floor) (b : Building) :
    (opened cars b).Tracked floor where
  calls i := hfloor i ▸ (Exchange.run_beginsAt _ _ _).calls
  nodup _ := List.nodup_nil
  gone _ _ hx := absurd hx List.not_mem_nil

lemma shared_opened {cars : ι → Car} (b : Building) : (opened cars b).Shared floor where
  nodup := List.nodup_nil
  gone _ hx := absurd hx List.not_mem_nil
  single _ _ _ hi := absurd hi List.not_mem_nil

/-- Whatever the others do, those aboard a car that is done are those who stayed and whoever it has
reported. -/
lemma mem_riders_of_done {cars : ι → Car} {b : Building} {schedule : List (ι × Nat)} {i : ι}
    {out : Attempt CarState Exchange}
    (hdone : ((opened cars b).turns schedule).dialogues i = .done out) (hx : x ∈ out.2.riders) :
    x ∈ (cars i).state.riders ∨ x ∈ (((opened cars b).turns schedule).said i).boarded := by
  set c := cars i with hc
  have hyields := turns_induction (l := opened cars b)
    (P := fun l => (l.dialogues i).Yields fun t out =>
      Exchange.InStep c.settings.height c.settings.capacity c.state (l.said i ++ t) out)
    (fun l id now h => yields_turn h id now) (Exchange.run_yields _ _ _) schedule
  rw [hdone, Dialogue.yields_done, List.append_nil] at hyields
  rw [hyields.riders, List.mem_append] at hx
  exact hx.imp_left fun hx => (List.mem_filter.mp hx).1

/-- **Nobody boards twice.** Cars exchange riders on one floor at the same time, in any order of
their questions. No car reports the same rider twice; and as long as no two cars expect the same
rider at a time, nobody is reported twice by all cars together, and nobody ends up aboard two cars.
-/
theorem boards_once (cars : ι → Car) (b : Building) (floor : Floor)
    (hfloor : ∀ i, (cars i).state.floor = floor)
    (haboard : ∀ i, ∀ x ∈ (cars i).state.riders, x ∉ b.lineAt floor ∧
      ∀ j, x ∈ (cars j).state.riders → i = j) (schedule : List (ι × Nat)) :
    let l := (opened cars b).turns schedule
    (∀ i, (l.said i).boarded.Nodup) ∧
      ((∀ n, ((opened cars b).turns (schedule.take n)).IsExclusive) →
        l.reported.Nodup ∧
          ∀ i j x out out', l.dialogues i = .done out → l.dialogues j = .done out' →
            x ∈ out.2.riders → x ∈ out'.2.riders → i = j) := by
  intro l
  have htracked : (opened cars b).Tracked floor := tracked_opened hfloor b
  refine ⟨(htracked.turns schedule).nodup, fun hexclusive => ?_⟩
  have hshared : l.Shared floor := (shared_opened b).turns htracked schedule hexclusive
  -- whoever has been aboard from the beginning is never called
  have hnever : ∀ i j, ∀ x ∈ (cars i).state.riders, x ∉ (l.said j).boarded := fun i j x hx =>
    htracked.never (fun k => ⟨(haboard i x hx).1, (Exchange.run_beginsAt _ _ _).nobody x⟩)
      (fun _ => List.not_mem_nil) schedule j
  refine ⟨hshared.nodup, fun i j x out out' hi hj hx hx' => ?_⟩
  rcases mem_riders_of_done hi hx with hx | hx <;> rcases mem_riders_of_done hj hx' with hx' | hx'
  · exact (haboard i x hx).2 j hx'
  · exact absurd hx' (hnever i j x hx)
  · exact absurd hx (hnever j i x hx')
  · exact hshared.single i j x hx hx'

/-! ### Two cars on one floor -/

/-- Two cars have answered the calls of two people on floor 1, one who wants to go up and one who
wants to go down. Both call the first of them, and only then report that they have boarded: they are
aboard both cars. -/
theorem boards_twice :
    ∃ (w : World Building) (c₀ c₁ : Car) (schedule : List (Fin 2 × Nat)), World.Called w [1, 0] ∧
      w.fleet.cars = [c₀, c₁] ∧ w.workers = [.exchanging 1, .exchanging 1] ∧
      c₀.state.floor = 1 ∧ c₁.state.floor = 1 ∧
      let l := (opened ![c₀, c₁] w.riders).turns schedule
      l.reported = [0, 0] ∧ ∃ out out', l.dialogues 0 = .done out ∧ l.dialogues 1 = .done out' ∧
        0 ∈ out.2.riders ∧ 0 ∈ out'.2.riders := by
  have h₀ := World.Called.fresh ⟨3, 4, ⟨1⟩, ⟨1⟩, ⟨1⟩, [0, 0]⟩
    ⟨.firstCapableThenIdle, .farthestFirst⟩ _ rfl
  have h₁ := h₀.next _ _ _ .start
  have h₂ := h₁.next _ _ _ (.arrive _ ⟨1, 2, 0, rfl⟩)
  have h₃ := h₂.next _ _ _ (.arrive _ ⟨1, 0, 0, rfl⟩)
  have h₄ := h₃.press _ _ 0 ⟨0, 1, 2, 0, none, none⟩ (by decide +kernel)
  have h₅ := h₄.press _ _ 1 ⟨1, 1, 0, 0, none, none⟩ (by decide +kernel)
  have h := h₅.turns 0 (List.replicate 7 (0, false) ++ List.replicate 7 (1, false))
  refine ⟨_, ⟨0, ⟨3, 4, ⟨1⟩, ⟨1⟩, ⟨1⟩, 0⟩, ⟨1, .up, .doorOpen, .empty, []⟩, true, true⟩,
    ⟨1, ⟨3, 4, ⟨1⟩, ⟨1⟩, ⟨1⟩, 0⟩, ⟨1, .up, .doorOpen, .empty, []⟩, true, true⟩,
    (List.replicate 6 [(0, 1), (1, 1)]).flatten, h, by decide +kernel, by decide +kernel, rfl, rfl,
    ?_⟩
  refine ⟨by decide +kernel, (.ok ⟨[], [0], [⟨1, .down⟩]⟩, ⟨1, .up, .doorOpen, ⟨[2]⟩, [0]⟩),
    (.ok ⟨[], [0], [⟨1, .down⟩]⟩, ⟨1, .up, .doorOpen, ⟨[2]⟩, [0]⟩),
    Dialogue.eq_done_of_result? ?_, Dialogue.eq_done_of_result? ?_, by decide, by decide⟩
  all_goals decide +kernel

/-! ### One car after the other -/

/-- A car that has nothing to say in a schedule goes on as before. -/
lemma dialogues_turns_of_forall_ne {schedule : List (ι × Nat)} {i : ι}
    (h : ∀ e ∈ schedule, e.1 ≠ i) : (l.turns schedule).dialogues i = l.dialogues i := by
  induction schedule generalizing l with
  | nil => rfl
  | cons e schedule ih =>
      obtain ⟨hne, hrest⟩ := List.forall_mem_cons.mp h
      refine (ih hrest).trans ?_
      change (l.turn e.1 e.2).dialogues i = l.dialogues i
      rw [turn]
      cases l.dialogues e.1 with
      | done out => rfl
      | ask q next => exact Function.update_of_ne hne.symm _ _

/-- Of two cars of which one expects nobody, no rider is expected by both. -/
lemma isExclusive_of_nobody {l : Landing (Fin 2)} {i : Fin 2}
    (h : ∀ x, ¬ (l.dialogues i).Expects x) : l.IsExclusive := by
  intro j k x hj hk
  have hj' : j ≠ i := fun heq => h x (heq ▸ hj)
  have hk' : k ≠ i := fun heq => h x (heq ▸ hk)
  omega

/-- Two cars that begin afresh and exchange riders one after the other never expect the same
rider. -/
lemma isExclusive_in_turn {l : Landing (Fin 2)} {first second : List (Fin 2 × Nat)}
    {out : Attempt CarState Exchange} (hfresh : ∀ x, ¬ (l.dialogues 1).Expects x)
    (hfirst : ∀ e ∈ first, e.1 ≠ 1) (hsecond : ∀ e ∈ second, e.1 ≠ 0)
    (hdone : (l.turns first).dialogues 0 = .done out) (n : Nat) :
    (l.turns ((first ++ second).take n)).IsExclusive := by
  rw [List.take_append]
  rcases le_total n first.length with hn | hn
  · refine isExclusive_of_nobody (i := 1) ?_
    rw [Nat.sub_eq_zero_of_le hn, List.take_zero, List.append_nil,
      dialogues_turns_of_forall_ne fun e he => hfirst e (List.mem_of_mem_take he)]
    exact hfresh
  · refine isExclusive_of_nobody (i := 0) ?_
    have hsplit : l.turns (first ++ second.take (n - first.length)) =
        (l.turns first).turns (second.take (n - first.length)) := List.foldl_append
    rw [List.take_of_length_le hn, hsplit,
      dialogues_turns_of_forall_ne fun e he => hsecond e (List.mem_of_mem_take he), hdone]
    exact fun x => id

/-- Two cars that exchange riders one after the other: the first takes one rider aboard, who wants
to go up, and the second the other, who wants to go down. -/
theorem boards_once_in_turn :
    let c : Car := ⟨0, ⟨3, 4, ⟨1⟩, ⟨1⟩, ⟨1⟩, 0⟩, ⟨1, .up, .doorOpen, .empty, []⟩, true, true⟩
    let b := (((Building.vacant 3).enter 1 2 0).2.enter 1 0 0).2
    let l := (opened ![c, { c with id := 1 }] b).turns
      (List.replicate 6 (0, 1) ++ List.replicate 6 (1, 2))
    l.reported = [0, 1] ∧ l.reported.Nodup ∧ (∀ i, (l.said i).boarded.Nodup) ∧
      ∃ out out', l.dialogues 0 = .done out ∧ l.dialogues 1 = .done out' ∧ 0 ∈ out.2.riders ∧
        0 ∉ out'.2.riders := by
  intro c b l
  have hdone : ((opened ![c, { c with id := 1 }] b).turns (List.replicate 6 (0, 1))).dialogues 0 =
      .done (.ok ⟨[], [0], [⟨1, .down⟩]⟩, ⟨1, .up, .doorOpen, ⟨[2]⟩, [0]⟩) :=
    Dialogue.eq_done_of_result? (by decide +kernel)
  have h₀ : l.dialogues 0 =
      .done (.ok ⟨[], [0], [⟨1, .down⟩]⟩, ⟨1, .up, .doorOpen, ⟨[2]⟩, [0]⟩) :=
    Dialogue.eq_done_of_result? (by decide +kernel)
  have h₁ : l.dialogues 1 = .done (.ok ⟨[], [1], []⟩, ⟨1, .down, .doorOpen, ⟨[0]⟩, [1]⟩) :=
    Dialogue.eq_done_of_result? (by decide +kernel)
  have haboard : ∀ i, (![c, { c with id := 1 }] i).state = ⟨1, .up, .doorOpen, .empty, []⟩ := by
    decide
  obtain ⟨hnodup, honce⟩ := boards_once ![c, { c with id := 1 }] b 1
    (fun i => by rw [haboard i]) (fun i x hx => by simp [haboard i] at hx)
    (List.replicate 6 (0, 1) ++ List.replicate 6 (1, 2))
  obtain ⟨hreported, hsingle⟩ := honce (isExclusive_in_turn
    ((Exchange.run_beginsAt _ _ _).nobody) (by simp) (by simp) hdone)
  have hboarded : 0 ∈ [0] := List.mem_singleton_self 0
  refine ⟨by decide +kernel, hreported, hnodup, _, _, h₀, h₁, hboarded, fun hx => ?_⟩
  exact absurd (hsingle 0 1 0 _ _ h₀ h₁ hboarded hx) (by decide)

end Landing

end ElevatorFleet
