import ElevatorFleet.Proofs.Plans
import Mathlib.Data.Finset.Card
import Mathlib.Order.Interval.Finset.Nat

/-!
What the percentages of a table are worth.

* The rolls that pick a floor are an interval: it begins where the percentages of the floors before
  it end, and is as long as its own percentage (`Tables.pick_cumulative_eq_iff`,
  `Tables.card_pick_eq`).
* `Tables.CanStart` and `Tables.EndsDraws` say where a trip can start and which rolls end the draws
  of its destination; `Tables.redraw?_isSome_iff` is about any number of draws.
* `TrafficSettings.check_eq_ok_iff`: tables of the right form are accepted just if, wherever a trip
  can start, some roll ends the draws.
-/

namespace ElevatorFleet

/-- One of the rolls to come, counted from `0`. -/
def Rolls.nth {τ : Type} (rolls : Rolls τ) : τ → Nat → Nat
  | s, 0 => (rolls.next s).1
  | s, k + 1 => rolls.nth (rolls.next s).2 k

lemma Rolls.nth_lt {τ : Type} {rolls : Rolls τ} {bound : Nat} (h : ∀ s, (rolls.next s).1 < bound)
    (s : τ) (k : Nat) : rolls.nth s k < bound := by
  induction k generalizing s with
  | zero => exact h s
  | succ k ih => exact ih (rolls.next s).2

namespace Tables

/-! ### The rolls that pick a floor -/

section Interval

variable {table : List Nat} {total roll i : Nat} {floor : Floor}

lemma sum_take_add_one (table : List Nat) (i : Nat) :
    (table.take (i + 1)).sum = (table.take i).sum + table.getD i 0 := by
  rw [List.take_add_one, List.sum_append, List.getD_eq_getElem?_getD]
  cases table[i]? <;> simp

/-- A roll is first exceeded by the total of the entry in whose interval it lies. -/
lemma findIdx?_totals_eq_some_iff (hle : total ≤ roll) :
    (totals total table).findIdx? (roll < ·) = some i ↔
      i < table.length ∧ total + (table.take i).sum ≤ roll ∧
        roll < total + (table.take (i + 1)).sum := by
  -- the first entry becomes part of the total in front of the others
  induction table generalizing total i with
  | nil => simp [totals]
  | cons weight table ih =>
      rw [totals, List.findIdx?_cons]
      by_cases hlt : roll < total + weight
      · cases i with
        | zero => simp [hlt, hle]
        | succ i =>
            have hpassed : ∀ sum, roll < total + (weight + sum) := fun sum => by omega
            simp [hlt, Nat.not_le_of_lt (hpassed _)]
      · cases i with
        | zero => simp [hlt]
        | succ i => simp [hlt, ih (Nat.le_of_not_lt hlt), Nat.add_assoc]

/-- A roll below the last of the totals is exceeded by some of them. -/
lemma exists_findIdx?_totals (hle : total ≤ roll) (hlt : roll < total + table.sum) :
    ∃ i, (totals total table).findIdx? (roll < ·) = some i := by
  induction table generalizing total with
  | nil => exact absurd hlt (Nat.not_lt_of_le (by simpa using hle))
  | cons weight table ih =>
      rw [totals, List.findIdx?_cons]
      by_cases hhere : roll < total + weight
      · exact ⟨0, by simp [hhere]⟩
      · obtain ⟨i, hi⟩ := ih (Nat.le_of_not_lt hhere) (by simpa [Nat.add_assoc] using hlt)
        exact ⟨i + 1, by simp [hhere, hi]⟩

/-- A roll below the sum of a table picks the entry that its total finds. -/
lemma exists_pick_cumulative (hlength : table.length ≤ 256) (hlt : roll < table.sum) :
    ∃ i, (cumulative table).findIdx? (roll < ·) = some i ∧
      (pick (cumulative table) roll).val = i := by
  obtain ⟨i, hi⟩ := exists_findIdx?_totals (Nat.zero_le roll) (hlt.trans_eq (Nat.zero_add _).symm)
  have hindex : i < 256 :=
    ((findIdx?_totals_eq_some_iff (Nat.zero_le roll)).mp hi).1.trans_le hlength
  refine ⟨i, hi, ?_⟩
  have hpick : pickIndex (cumulative table) roll = i := by
    rw [pickIndex, cumulative, hi, Option.getD_some]
  exact (congrArg (· % 256) hpick).trans (Nat.mod_eq_of_lt hindex)

/-- The rolls that pick a floor are those behind the percentages of the floors before it, and as
many as its own percentage. -/
lemma pick_cumulative_eq_iff (hlength : table.length ≤ 256) (hlt : roll < table.sum) :
    pick (cumulative table) roll = floor ↔
      (table.take floor.val).sum ≤ roll ∧ roll < (table.take (floor.val + 1)).sum := by
  obtain ⟨i, hi, hpick⟩ := exists_pick_cumulative hlength hlt
  have hinterval := fun j => @findIdx?_totals_eq_some_iff table 0 roll j (Nat.zero_le roll)
  simp only [Nat.zero_add] at hinterval
  rw [Fin.ext_iff, hpick]
  constructor
  · intro hfloor
    exact ((hinterval floor.val).mp (hfloor ▸ hi)).2
  · intro hmem
    -- behind the end of the table all intervals are empty
    have hfloor : floor.val < table.length := by
      by_contra hbehind
      rw [List.take_of_length_le (by omega), List.take_of_length_le (by omega)] at hmem
      omega
    exact Option.some.inj (hi.symm.trans ((hinterval floor.val).mpr ⟨hfloor, hmem⟩))

/-- As many rolls pick a floor as its percentage says. -/
lemma card_pick_eq (hlength : table.length ≤ 256) (floor : Floor) :
    ((Finset.range table.sum).filter fun roll => pick (cumulative table) roll = floor).card =
      table.getD floor.val 0 := by
  have hinterval : ((Finset.range table.sum).filter fun roll =>
      pick (cumulative table) roll = floor) =
      Finset.Ico (table.take floor.val).sum (table.take (floor.val + 1)).sum := by
    ext roll
    rw [Finset.mem_filter, Finset.mem_range, Finset.mem_Ico]
    refine ⟨fun ⟨hlt, hpick⟩ => (pick_cumulative_eq_iff hlength hlt).mp hpick, fun hmem => ?_⟩
    have hlt : roll < table.sum :=
      hmem.2.trans_le ((List.take_sublist _ _).sum_le_sum fun _ _ => Nat.zero_le _)
    exact ⟨hlt, (pick_cumulative_eq_iff hlength hlt).mpr hmem⟩
  rw [hinterval, Nat.card_Ico, sum_take_add_one, Nat.add_sub_cancel_left]

/-- All other rolls pick another floor. -/
lemma card_pick_ne (hlength : table.length ≤ 256) (floor : Floor) :
    ((Finset.range table.sum).filter fun roll => pick (cumulative table) roll ≠ floor).card =
      table.sum - table.getD floor.val 0 := by
  have hall := Finset.card_filter_add_card_filter_not (s := Finset.range table.sum)
    (fun roll => pick (cumulative table) roll = floor)
  rw [card_pick_eq hlength, Finset.card_range] at hall
  exact Nat.eq_sub_of_add_eq' hall

/-- A floor is drawn by some roll just if its percentage is not zero. -/
lemma exists_pick_eq_iff (hlength : table.length ≤ 256) (floor : Floor) :
    (∃ roll < table.sum, pick (cumulative table) roll = floor) ↔ 0 < table.getD floor.val 0 := by
  rw [← card_pick_eq hlength, Finset.card_pos, Finset.filter_nonempty_iff]
  simp only [Finset.mem_range]

end Interval

/-! ### Draws of a destination -/

section Destination

variable {τ : Type} {rolls : Rolls τ} {t : Tables} {start : Floor} {s : τ}

/-- A floor where a trip can start. -/
def CanStart (t : Tables) (start : Floor) : Prop := ∃ roll < 100, pick t.starts roll = start

/-- A roll that ends the draws of a destination for a trip from a floor. -/
def EndsDraws (t : Tables) (start : Floor) (roll : Nat) : Prop := pick t.destinations roll ≠ start

instance (t : Tables) (start : Floor) : DecidablePred (t.EndsDraws start) :=
  fun roll => inferInstanceAs (Decidable (pick t.destinations roll ≠ start))

/-- The draws of a destination end within the first few rolls just if one of these ends them. -/
lemma redraw?_isSome_iff {fuel : Nat} :
    (redraw? rolls t.destinations start fuel s).isSome ↔
      ∃ k < fuel, t.EndsDraws start (rolls.nth s k) := by
  induction fuel generalizing s with
  | zero => simp [redraw?]
  | succ fuel ih =>
      rw [redraw?, Nat.exists_lt_succ_left]
      dsimp only
      split_ifs with hsame
      · rw [ih]
        exact (or_iff_right (not_not.mpr hsame)).symm
      · exact iff_of_true rfl (Or.inl hsame)

end Destination

end Tables

/-! ### What is accepted -/

namespace TrafficSettings

open Tables

variable {settings : TrafficSettings} {height : Floor} {setting : Setting} {table : List Nat}

/-- The tables that riders are drawn from. -/
def tables (settings : TrafficSettings) : Tables :=
  .ofPercentages settings.startPercentages settings.destinationPercentages

lemma total_eq_sum (table : List Nat) : total table = table.sum := List.sum_eq_foldl.symm

/-- A table that gives a percentage to every floor and shares out a hundred of them. -/
def Shares (table : List Nat) (height : Floor) : Prop :=
  table.length = height.val ∧ total table = 100

lemma Shares.sum_eq (h : Shares table height) : table.sum = 100 :=
  (total_eq_sum table).symm.trans h.2

lemma Shares.length_le (h : Shares table height) : table.length ≤ 256 :=
  h.1.trans_le height.isLt.le

lemma Shares.checkTable_eq (h : Shares table height) :
    checkTable setting table height = .ok () := by
  rw [checkTable, if_neg (not_not.mpr h.1), if_neg (not_not.mpr h.2)]

/-- The entries of a table with a percentage are those of the floors with one. -/
lemma exists_mem_zipIdx_iff (hlength : table.length ≤ 256) (P : Nat → Prop) :
    (∃ x ∈ table.zipIdx, 0 < x.1 ∧ P x.2) ↔
      ∃ floor : Floor, 0 < table.getD floor.val 0 ∧ P floor.val := by
  constructor
  · rintro ⟨⟨weight, i⟩, hmem, hpos, hP⟩
    have hsome : table[i]? = some weight := List.mem_zipIdx_iff_getElem?.mp hmem
    have hi : i < table.length := (List.getElem?_eq_some_iff.mp hsome).1
    exact ⟨⟨i, hi.trans_le hlength⟩, by simpa [hsome] using hpos, hP⟩
  · rintro ⟨floor, hpos, hP⟩
    rw [List.getD_eq_getElem?_getD] at hpos
    cases hsome : table[floor.val]? with
    | none => simp [hsome] at hpos
    | some weight =>
        exact ⟨(weight, floor.val), List.mem_zipIdx_iff_getElem?.mpr hsome,
          by simpa [hsome] using hpos, hP⟩

/-- Riders have somewhere to go just if some other floor has a percentage. -/
lemma hasDestination_iff (hlength : table.length ≤ 256) (start : Floor) :
    hasDestination table start.val = true ↔
      ∃ floor : Floor, 0 < table.getD floor.val 0 ∧ floor ≠ start := by
  have hfloors := exists_mem_zipIdx_iff hlength (· ≠ start.val)
  simp only [ne_eq, ← Fin.ext_iff] at hfloors
  rw [← hfloors, hasDestination, List.any_eq_true]
  simp [and_comm]

/-- Nobody is stranded just if there is somewhere to go from every floor with a percentage. -/
lemma stranding?_eq_none_iff {starts destinations : List Nat} (hlength : starts.length ≤ 256) :
    stranding? starts destinations = none ↔
      ∀ start : Floor, 0 < starts.getD start.val 0 →
        hasDestination destinations start.val = true := by
  have hfloors := exists_mem_zipIdx_iff hlength (hasDestination destinations · = false)
  rw [stranding?, Option.map_eq_none_iff, List.find?_eq_none]
  constructor
  · intro hnone start hpos
    by_contra hno
    obtain ⟨x, hx, hweight, hstuck⟩ := hfloors.mpr ⟨start, hpos, Bool.eq_false_iff.mpr hno⟩
    exact hnone x hx (by simp [hweight, hstuck])
  · intro hall x hx hstranded
    have hstuck : 0 < x.1 ∧ hasDestination destinations x.2 = false := by simpa using hstranded
    obtain ⟨start, hpos, hno⟩ := hfloors.mp ⟨x, hx, hstuck⟩
    exact Bool.eq_false_iff.mp hno (hall start hpos)

/-- A trip can start just on the floors with a percentage. -/
lemma canStart_iff (h : Shares settings.startPercentages height) (start : Floor) :
    settings.tables.CanStart start ↔ 0 < settings.startPercentages.getD start.val 0 := by
  rw [← exists_pick_eq_iff h.length_le, h.sum_eq]
  exact Iff.rfl

/-- Some roll ends the draws just if there is somewhere to go. -/
lemma exists_endsDraws_iff (h : Shares settings.destinationPercentages height) (start : Floor) :
    (∃ roll < 100, settings.tables.EndsDraws start roll) ↔
      hasDestination settings.destinationPercentages start.val = true := by
  rw [hasDestination_iff h.length_le]
  simp only [← exists_pick_eq_iff h.length_le, h.sum_eq]
  exact ⟨fun ⟨roll, hlt, hends⟩ => ⟨_, ⟨roll, hlt, rfl⟩, hends⟩,
    fun ⟨_, ⟨roll, hlt, hpick⟩, hne⟩ => ⟨roll, hlt, fun hsame => hne (hpick.symm.trans hsame)⟩⟩

/-- Tables of the right form are accepted just if, wherever a trip can start, some roll ends the
draws of its destination. -/
lemma check_eq_ok_iff (hstarts : Shares settings.startPercentages height)
    (hdestinations : Shares settings.destinationPercentages height) :
    settings.check height = .ok () ↔
      ∀ start, settings.tables.CanStart start →
        ∃ roll < 100, settings.tables.EndsDraws start roll := by
  have hcheck : settings.check height = .ok () ↔
      stranding? settings.startPercentages settings.destinationPercentages = none := by
    rw [check, hstarts.checkTable_eq, hdestinations.checkTable_eq]
    dsimp only
    cases stranding? settings.startPercentages settings.destinationPercentages <;> simp
  rw [hcheck, stranding?_eq_none_iff hstarts.length_le]
  simp only [canStart_iff hstarts, exists_endsDraws_iff hdestinations]

/-- **Draws follow the tables exactly, and what is accepted is what the draws need.**

Of the hundred rolls, a table of at most 255 entries that add up to a hundred gives to every floor
just as many as its percentage; each roll is exceeded by some total, so the last entry is never
picked for want of one, and the floor picked has a percentage. Given two such tables with an entry
for every floor, the check is passed just if, wherever a trip can start, some roll ends the draws of
its destination. The percentage of the start floor itself is what is missing of a hundred such
rolls, and any number of draws ends just if one of their rolls is of this kind. -/
theorem draws_follow_percentages :
    (∀ table : List Nat, table.length ≤ 255 → total table = 100 →
      (∀ floor : Floor,
        ((Finset.range 100).filter fun roll => pick (cumulative table) roll = floor).card =
          table.getD floor.val 0) ∧
      ∀ roll < 100, ∃ i, (cumulative table).findIdx? (roll < ·) = some i ∧
        (pick (cumulative table) roll).val = i ∧ 0 < table.getD i 0) ∧
    ∀ (settings : TrafficSettings) (height : Floor), Shares settings.startPercentages height →
      Shares settings.destinationPercentages height →
      (settings.check height = .ok () ↔
        ∀ start, settings.tables.CanStart start →
          ∃ roll < 100, settings.tables.EndsDraws start roll) ∧
      ∀ start, ((Finset.range 100).filter (settings.tables.EndsDraws start)).card =
          100 - settings.destinationPercentages.getD start.val 0 ∧
        ∀ (τ : Type) (rolls : Rolls τ) (s : τ) (fuel : Nat),
          (redraw? rolls settings.tables.destinations start fuel s).isSome ↔
            ∃ k < fuel, settings.tables.EndsDraws start (rolls.nth s k) := by
  refine ⟨fun table hlength htotal => ?_, fun settings height hstarts hdestinations =>
    ⟨check_eq_ok_iff hstarts hdestinations, fun start => ⟨?_, fun τ rolls s fuel =>
      redraw?_isSome_iff⟩⟩⟩
  · have hsum : table.sum = 100 := (total_eq_sum table).symm.trans htotal
    have hbound : table.length ≤ 256 := Nat.le_succ_of_le hlength
    refine ⟨fun floor => hsum ▸ card_pick_eq hbound floor, fun roll hlt => ?_⟩
    have hroll : roll < table.sum := hlt.trans_eq hsum.symm
    obtain ⟨i, hi, hpick⟩ := exists_pick_cumulative hbound hroll
    exact ⟨i, hi, hpick, hpick ▸ (exists_pick_eq_iff hbound _).mp ⟨roll, hroll, rfl⟩⟩
  · have hcard := card_pick_ne hdestinations.length_le start
    rw [hdestinations.sum_eq] at hcard
    exact hcard

/-- Riders who start on floor 1 and draw floors 1 and 3 evenly get away with every other roll. Those
who can draw nothing but floor 1 again are never let in: their tables are refused, and no number of
draws would end. -/
theorem draws_follow_percentages_halves :
    ((Finset.range 100).filter fun roll => pick (cumulative [0, 50, 0, 50]) roll = 3).card = 50 ∧
    ((Finset.range 100).filter
      (tables ⟨⟨1⟩, ⟨1⟩, 1.0, [0, 100, 0, 0], [0, 50, 0, 50]⟩ |>.EndsDraws 1)).card = 50 ∧
    check ⟨⟨1⟩, ⟨1⟩, 1.0, [0, 100, 0, 0], [0, 50, 0, 50]⟩ 4 = .ok () ∧
    check ⟨⟨1⟩, ⟨1⟩, 1.0, [0, 100, 0, 0], [0, 100, 0, 0]⟩ 4 ≠ .ok () ∧
    ∀ fuel, redraw? ⟨fun n : Nat => (n % 100, n + 1)⟩ (cumulative [0, 100, 0, 0]) 1 fuel 0 =
      none := by
  obtain ⟨hpercentages, htables⟩ := draws_follow_percentages
  have hstarts : Shares [0, 100, 0, 0] 4 := ⟨rfl, rfl⟩
  obtain ⟨hcheck, hcount⟩ := htables ⟨⟨1⟩, ⟨1⟩, 1.0, [0, 100, 0, 0], [0, 50, 0, 50]⟩ 4 hstarts
    ⟨rfl, rfl⟩
  obtain ⟨hstuck, hdraws⟩ := htables ⟨⟨1⟩, ⟨1⟩, 1.0, [0, 100, 0, 0], [0, 100, 0, 0]⟩ 4 hstarts
    hstarts
  obtain ⟨hnone, hrun⟩ := hdraws 1
  have hnever : ∀ roll < 100,
      ¬ EndsDraws (tables ⟨⟨1⟩, ⟨1⟩, 1.0, [0, 100, 0, 0], [0, 100, 0, 0]⟩) 1 roll := by
    intro roll hlt hends
    exact absurd (Finset.card_eq_zero.mp hnone)
      (Finset.ne_empty_of_mem (Finset.mem_filter.mpr ⟨Finset.mem_range.mpr hlt, hends⟩))
  refine ⟨(hpercentages [0, 50, 0, 50] (by decide) rfl).1 3, (hcount 1).1, ?_, ?_, fun fuel => ?_⟩
  · -- wherever a trip starts, one of the rolls 0 and 99 leads away from there
    refine hcheck.mpr fun start _ => ?_
    by_cases hthree : start = 3
    · exact ⟨0, by decide, by subst hthree; decide⟩
    · exact ⟨99, by decide, fun hpick => hthree (hpick.symm.trans (by decide))⟩
  · intro haccepted
    obtain ⟨roll, hlt, hends⟩ := hstuck.mp haccepted 1 ⟨0, by decide, by decide⟩
    exact hnever roll hlt hends
  · refine Option.not_isSome_iff_eq_none.mp fun hends => ?_
    obtain ⟨k, -, hk⟩ := (hrun Nat ⟨fun n => (n % 100, n + 1)⟩ 0 fuel).mp hends
    exact hnever _ (Rolls.nth_lt (fun n => Nat.mod_lt n (by decide)) 0 k) hk

end TrafficSettings

end ElevatorFleet
