import ElevatorFleet.Building.Basic
import Mathlib.Tactic

/-!
The books of a building: where everybody is.

* `Building.Ledger` says of a building, and of the riders aboard some cars, that everybody who has
  been let in is on exactly one list, and on the list that suits them.
* `Building.Ledger.enter`, `Building.Ledger.toCar` and `Building.Ledger.toFloor` keep the books when
  somebody is let in, boards, or steps out.
* `Building.Later` says that time has passed: nobody has joined a line again, and nobody has changed
  where they come from and where they want to go.
-/

open scoped List

namespace ElevatorFleet

/-! ### Lists of lists -/

/-- One list of several changes, and the others stay. -/
lemma flatten_modify_perm {α : Type} {l : List (List α)} {i : Nat} {a : List α}
    (h : l[i]? = some a) :
    ∃ rest, l.flatten ~ a ++ rest ∧
      ∀ f : List α → List α, (l.modify i f).flatten ~ f a ++ rest := by
  induction l generalizing i with
  | nil => simp at h
  | cons x l ih =>
      cases i with
      | zero =>
          obtain rfl : x = a := by simpa using h
          exact ⟨l.flatten, .refl _, fun f => .refl _⟩
      | succ i =>
          obtain ⟨rest, hrest, hmodify⟩ := ih (by simpa using h)
          refine ⟨x ++ rest, ?_, fun f => ?_⟩
          · exact (hrest.append_left x).trans (List.perm_append_comm_assoc x a rest)
          · exact ((hmodify f).append_left x).trans (List.perm_append_comm_assoc x (f a) rest)

lemma getD_getElem?_modify {α : Type} {l : List (List α)} {i : Nat} (hi : i < l.length)
    (f : List α → List α) (j : Nat) :
    (l.modify i f)[j]?.getD [] = if i = j then f (l[j]?.getD []) else l[j]?.getD [] := by
  by_cases hij : i = j
  · subst hij
    rw [List.getElem?_modify_eq, List.getElem?_eq_getElem hi, if_pos rfl]
    rfl
  · rw [List.getElem?_modify_ne _ _ hij, if_neg hij]

namespace Person

variable {p : Person} {now : Nat}

@[simp] lemma start_board : (p.board now).start = p.start := rfl

@[simp] lemma destination_board : (p.board now).destination = p.destination := rfl

@[simp] lemma hasBoarded_board : (p.board now).hasBoarded = true := by
  simp [board, hasBoarded]

@[simp] lemma hasArrived_board : (p.board now).hasArrived = p.hasArrived := rfl

@[simp] lemma start_arrive : (p.arrive now).start = p.start := rfl

@[simp] lemma destination_arrive : (p.arrive now).destination = p.destination := rfl

@[simp] lemma hasBoarded_arrive : (p.arrive now).hasBoarded = p.hasBoarded := rfl

@[simp] lemma hasArrived_arrive : (p.arrive now).hasArrived = true := by
  simp [arrive, hasArrived]

/-- Somebody who is let in travels between two different floors of the building, and has neither
boarded nor arrived. -/
lemma make_eq_ok {id : RiderId} {start destination height : Floor}
    (h : make id start destination height now = .ok p) :
    start < height ∧ destination < height ∧ start ≠ destination ∧
      p = ⟨id, start, destination, now, none, none⟩ := by
  rw [make] at h
  split_ifs at h with hstart hdestination hsame
  exact ⟨lt_of_not_ge hstart, lt_of_not_ge hdestination, hsame, (Except.ok.inj h).symm⟩

end Person

namespace Building

variable {b b' b'' : Building} {aboard aboard' : List RiderId} {floor : Floor} {x y : RiderId}
  {p : Person} {now : Nat}

/-- The people who have arrived on a floor; there are none outside the building. -/
def arrivedAt (b : Building) (floor : Floor) : List RiderId := b.arrived[floor.val]?.getD []

/-- The books of a building with some riders aboard its cars. Every floor has a line and a list of
arrivals; the lines, the riders aboard and the lists of arrivals make up everybody who has been let
in, each of them once; and everybody is where they belong. -/
structure Ledger (b : Building) (aboard : List RiderId) : Prop where
  lines : b.waiting.length = b.height.val
  halls : b.arrived.length = b.height.val
  roll : b.waiting.flatten ++ aboard ++ b.arrived.flatten ~ List.range b.people.length
  routes : ∀ (x : RiderId) (p : Person), b.people[x]? = some p →
    p.start < b.height ∧ p.destination < b.height ∧ p.start ≠ p.destination
  waits : ∀ floor, ∀ x ∈ b.lineAt floor, ∃ p, b.people[x]? = some p ∧ p.start = floor ∧
    p.hasBoarded = false ∧ p.hasArrived = false
  rides : ∀ x ∈ aboard, ∃ p, b.people[x]? = some p ∧ p.hasBoarded = true ∧ p.hasArrived = false
  stays : ∀ floor, ∀ x ∈ b.arrivedAt floor, ∃ p, b.people[x]? = some p ∧ p.destination = floor ∧
    p.hasBoarded = true ∧ p.hasArrived = true

/-- Everybody aboard is known. -/
lemma Ledger.known {riders others : List RiderId} (h : b.Ledger (riders ++ others)) :
    ∀ x ∈ riders, ∃ p, b.people[x]? = some p := fun x hx => by
  obtain ⟨p, hp, -⟩ := h.rides x (List.mem_append_left _ hx)
  exact ⟨p, hp⟩

/-! ### Lines and arrivals -/

/-- Somebody in a line stands on a floor of the building. -/
lemma exists_line (h : x ∈ b.lineAt floor) : b.waiting[floor.val]? = some (b.lineAt floor) := by
  rw [lineAt] at h ⊢
  cases hline : b.waiting[floor.val]? with
  | none => simp [hline] at h
  | some line => rfl

lemma Ledger.exists_hall (h : b.Ledger aboard) (hfloor : floor < b.height) :
    b.arrived[floor.val]? = some (b.arrivedAt floor) := by
  have hlt : floor.val < b.arrived.length := by
    rw [h.halls]
    exact Fin.lt_def.mp hfloor
  rw [arrivedAt, List.getElem?_eq_getElem hlt]
  rfl

lemma mem_waiting_of_lineAt (h : x ∈ b.lineAt floor) : x ∈ b.waiting.flatten :=
  List.mem_flatten.mpr ⟨_, List.mem_of_getElem? (exists_line h), h⟩

/-- Everybody who waits does so in the line on some floor. -/
lemma Ledger.exists_lineAt (h : b.Ledger aboard) (hx : x ∈ b.waiting.flatten) :
    ∃ floor, x ∈ b.lineAt floor := by
  obtain ⟨line, hline, hx⟩ := List.mem_flatten.mp hx
  obtain ⟨i, hi, rfl⟩ := List.mem_iff_getElem.mp hline
  have hlt : i < 256 := (h.lines ▸ hi).trans b.height.isLt
  exact ⟨⟨i, hlt⟩, by rwa [lineAt, List.getElem?_eq_getElem hi]⟩

/-- Everybody who has arrived has done so on some floor. -/
lemma Ledger.exists_arrivedAt (h : b.Ledger aboard) (hx : x ∈ b.arrived.flatten) :
    ∃ floor, x ∈ b.arrivedAt floor := by
  obtain ⟨hall, hhall, hx⟩ := List.mem_flatten.mp hx
  obtain ⟨i, hi, rfl⟩ := List.mem_iff_getElem.mp hhall
  have hlt : i < 256 := (h.halls ▸ hi).trans b.height.isLt
  exact ⟨⟨i, hlt⟩, by rwa [arrivedAt, List.getElem?_eq_getElem hi]⟩

/-- The lists of everybody hold nobody twice. -/
lemma Ledger.nodup (h : b.Ledger aboard) :
    (b.waiting.flatten ++ aboard ++ b.arrived.flatten).Nodup :=
  h.roll.nodup_iff.mpr List.nodup_range

lemma Ledger.nodup_lineAt (h : b.Ledger aboard) (hx : x ∈ b.lineAt floor) :
    (b.lineAt floor).Nodup := by
  have hwaiting : b.waiting.flatten.Nodup := h.nodup.of_append_left.of_append_left
  exact List.Nodup.sublist
    (List.sublist_flatten_of_mem (List.mem_of_getElem? (exists_line hx))) hwaiting

lemma Ledger.nodup_arrivedAt (h : b.Ledger aboard) (hx : x ∈ b.arrivedAt floor) :
    (b.arrivedAt floor).Nodup := by
  have hhall : b.arrived[floor.val]? = some (b.arrivedAt floor) := by
    obtain ⟨p, hp, rfl, -⟩ := h.stays floor x hx
    exact h.exists_hall (h.routes x p hp).2.1
  have harrived : b.arrived.flatten.Nodup := h.nodup.of_append_right
  exact List.Nodup.sublist (List.sublist_flatten_of_mem (List.mem_of_getElem? hhall)) harrived

/-- Somebody who has not boarded waits in the line on their start floor. -/
lemma Ledger.mem_lineAt (h : b.Ledger aboard) (hp : b.people[x]? = some p)
    (hboarded : p.hasBoarded = false) : x ∈ b.lineAt p.start := by
  have hmem : x ∈ b.waiting.flatten ++ aboard ++ b.arrived.flatten :=
    h.roll.mem_iff.mpr (List.mem_range.mpr (List.getElem?_eq_some_iff.mp hp).1)
  have hsame : ∀ q, b.people[x]? = some q → q = p := fun q hq => Option.some.inj (hq.symm.trans hp)
  rcases List.mem_append.mp hmem with hmem | hhall
  · rcases List.mem_append.mp hmem with hline | haboard
    · obtain ⟨floor, hx⟩ := h.exists_lineAt hline
      obtain ⟨q, hq, rfl, -⟩ := h.waits floor x hx
      rwa [hsame q hq] at hx
    · obtain ⟨q, hq, hqboarded, -⟩ := h.rides x haboard
      rw [hsame q hq, hboarded] at hqboarded
      exact absurd hqboarded (by decide)
  · obtain ⟨floor, hx⟩ := h.exists_arrivedAt hhall
    obtain ⟨q, hq, -, hqboarded, -⟩ := h.stays floor x hx
    rw [hsame q hq, hboarded] at hqboarded
    exact absurd hqboarded (by decide)

/-- The books do not care in which order the riders aboard are listed. -/
lemma Ledger.perm (h : b.Ledger aboard) (hperm : aboard ~ aboard') : b.Ledger aboard' :=
  { h with
    roll := (((hperm.append_left _).append_right _).symm).trans h.roll
    rides := fun x hx => h.rides x (hperm.mem_iff.mpr hx) }

/-- A building without people has its books in order. -/
lemma ledger_vacant (height : Floor) : (vacant height).Ledger [] where
  lines := by simp [vacant]
  halls := by simp [vacant]
  roll := by simp [vacant]
  routes := by simp [vacant]
  waits floor x hx := by
    simp only [lineAt, vacant, List.getElem?_replicate] at hx
    split_ifs at hx <;> simp at hx
  rides := by simp
  stays floor x hx := by
    simp only [arrivedAt, vacant, List.getElem?_replicate] at hx
    split_ifs at hx <;> simp at hx

/-! ### Letting somebody in -/

lemma enter_eq_ok {start destination : Floor} (h : b.enter start destination now = (.ok x, b')) :
    start < b.height ∧ destination < b.height ∧ start ≠ destination ∧ x = b.people.length ∧
      b' = { b with
        people := b.people ++ [⟨x, start, destination, now, none, none⟩]
        waiting := b.waiting.modify start.val (· ++ [x]) } := by
  rw [enter] at h
  split at h
  · simp at h
  · rename_i p hmake
    obtain ⟨hstart, hdestination, hne, rfl⟩ := Person.make_eq_ok hmake
    obtain ⟨hx, rfl⟩ := Prod.mk.inj h
    obtain rfl := Except.ok.inj hx
    exact ⟨hstart, hdestination, hne, rfl, rfl⟩

/-- Somebody who is refused leaves no trace. -/
lemma enter_eq_error {start destination : Floor} {fault : Fault}
    (h : b.enter start destination now = (.error fault, b')) : b' = b := by
  rw [enter] at h
  split at h
  · exact (Prod.mk.inj h).2.symm
  · simp at h

/-- The newcomer joins the line on their start floor. -/
lemma Ledger.mem_lineAt_enter (h : b.Ledger aboard) {start destination : Floor}
    (henter : b.enter start destination now = (.ok x, b')) :
    y ∈ b'.lineAt floor ↔ y ∈ b.lineAt floor ∨ (floor = start ∧ y = x) := by
  obtain ⟨hstart, -, -, -, rfl⟩ := enter_eq_ok henter
  have hlt : start.val < b.waiting.length := by
    rw [h.lines]
    exact Fin.lt_def.mp hstart
  simp only [lineAt, getD_getElem?_modify hlt]
  by_cases hfloor : start.val = floor.val
  · obtain rfl : floor = start := Fin.ext hfloor.symm
    simp
  · have hne : floor ≠ start := fun heq => hfloor (congrArg Fin.val heq.symm)
    simp [hfloor, hne]

/-- The newcomer comes last in the list of everybody. -/
lemma people_enter {start destination : Floor}
    (henter : b.enter start destination now = (.ok x, b')) :
    b'.people[y]? =
      if y = x then some ⟨x, start, destination, now, none, none⟩ else b.people[y]? := by
  obtain ⟨-, -, -, rfl, rfl⟩ := enter_eq_ok henter
  by_cases heq : y = b.people.length
  · subst heq
    simp
  · rw [if_neg heq]
    cases lt_or_gt_of_ne heq with
    | inl hlt => exact List.getElem?_append_left hlt
    | inr hgt =>
        have hlength : b.people.length + 1 ≤ y := hgt
        rw [List.getElem?_eq_none (by simpa using hlength), List.getElem?_eq_none (le_of_lt hgt)]

/-- The books stay in order when somebody is let in. -/
lemma Ledger.enter (h : b.Ledger aboard) (henter : b.enter start destination now = (.ok x, b')) :
    b'.Ledger aboard := by
  have hmem : ∀ floor y, y ∈ b'.lineAt floor ↔ y ∈ b.lineAt floor ∨ (floor = start ∧ y = x) :=
    fun floor y => h.mem_lineAt_enter henter
  have hpeople := fun y => people_enter (y := y) henter
  obtain ⟨hstart, hdestination, hne, rfl, rfl⟩ := enter_eq_ok henter
  have hknown : ∀ y p, b.people[y]? = some p → y ≠ b.people.length := fun y p hp heq => by
    simp [heq] at hp
  refine ⟨by simpa using h.lines, h.halls, ?_, ?_, ?_, ?_, ?_⟩
  · have hline := List.getElem?_eq_getElem (h.lines ▸ Fin.lt_def.mp hstart)
    obtain ⟨rest, hrest, hmodify⟩ := flatten_modify_perm hline
    have hjoin : (b.waiting.modify start.val (· ++ [b.people.length])).flatten ~
        b.people.length :: b.waiting.flatten := by
      refine (hmodify _).trans ?_
      rw [List.append_assoc]
      exact List.perm_middle.trans (hrest.symm.cons _)
    rw [List.length_append, List.length_singleton, List.range_succ]
    calc (b.waiting.modify start.val (· ++ [b.people.length])).flatten ++ aboard ++
          b.arrived.flatten
      _ ~ b.people.length :: b.waiting.flatten ++ aboard ++ b.arrived.flatten :=
        (hjoin.append_right aboard).append_right b.arrived.flatten
      _ ~ b.people.length :: List.range b.people.length := h.roll.cons _
      _ ~ List.range b.people.length ++ [b.people.length] :=
        (List.perm_append_singleton _ _).symm
  · intro y p hp
    rw [hpeople] at hp
    split_ifs at hp with hy
    · obtain rfl := Option.some.inj hp
      exact ⟨hstart, hdestination, hne⟩
    · exact h.routes y p hp
  · intro floor y hy
    rcases (hmem floor y).mp hy with hy | ⟨rfl, rfl⟩
    · obtain ⟨p, hp, hwaits⟩ := h.waits floor y hy
      exact ⟨p, by rw [hpeople, if_neg (hknown y p hp), hp], hwaits⟩
    · exact ⟨_, by rw [hpeople, if_pos rfl], rfl, rfl, rfl⟩
  · intro y hy
    obtain ⟨p, hp, hrides⟩ := h.rides y hy
    exact ⟨p, by rw [hpeople, if_neg (hknown y p hp), hp], hrides⟩
  · intro floor y hy
    obtain ⟨p, hp, hstays⟩ := h.stays floor y hy
    exact ⟨p, by rw [hpeople, if_neg (hknown y p hp), hp], hstays⟩

/-! ### Boarding -/

lemma mem_lineAt_toCar {f : Floor} :
    y ∈ (b.toCar floor x now).lineAt f ↔ y ∈ b.lineAt f ∧ (f = floor → y ≠ x) := by
  simp only [lineAt, toCar]
  by_cases hf : f = floor
  · subst hf
    rw [List.getElem?_modify_eq]
    cases b.waiting[f.val]? <;> simp
  · have hne : floor.val ≠ f.val := fun heq => hf (Fin.ext heq.symm)
    rw [List.getElem?_modify_ne _ _ hne]
    simp [hf]

lemma people_toCar :
    (b.toCar floor x now).people[y]? =
      if x = y then b.people[y]?.map (·.board now) else b.people[y]? := by
  simp only [toCar]
  by_cases hxy : x = y
  · subst hxy
    rw [List.getElem?_modify_eq, if_pos rfl]
    rfl
  · rw [List.getElem?_modify_ne _ _ hxy, if_neg hxy]

/-- Whoever boards keeps their route, and so does everybody else. -/
lemma exists_of_people_toCar {q : Person} (h : (b.toCar floor x now).people[y]? = some q) :
    ∃ p, b.people[y]? = some p ∧ q.start = p.start ∧ q.destination = p.destination := by
  rw [people_toCar] at h
  split_ifs at h with hxy
  · obtain ⟨p, hp, rfl⟩ := Option.map_eq_some_iff.mp h
    exact ⟨p, hp, rfl, rfl⟩
  · exact ⟨q, h, rfl, rfl⟩

/-- The books stay in order when somebody boards from the line on the floor. -/
lemma Ledger.toCar (h : b.Ledger aboard) (hx : x ∈ b.lineAt floor) (now : Nat) :
    (b.toCar floor x now).Ledger (x :: aboard) := by
  obtain ⟨p, hp, hstart, hboarded, harrived⟩ := h.waits floor x hx
  have hother : ∀ y q, b.people[y]? = some q → x ≠ y →
      (b.toCar floor x now).people[y]? = some q := fun y q hq hne => by
    rw [people_toCar, if_neg hne, hq]
  refine ⟨by simpa [Building.toCar] using h.lines, h.halls, ?_, ?_, ?_, ?_, ?_⟩
  · obtain ⟨rest, hrest, hmodify⟩ := flatten_modify_perm (exists_line hx)
    have hleave : b.lineAt floor ~ x :: (b.lineAt floor).filter (· != x) := by
      rw [← (h.nodup_lineAt hx).erase_eq_filter]
      exact List.perm_cons_erase hx
    have hwaiting : b.waiting.flatten ~ x :: (b.toCar floor x now).waiting.flatten :=
      (hrest.trans (hleave.append_right rest)).trans ((hmodify _).symm.cons x)
    have hlength : (b.toCar floor x now).people.length = b.people.length := by
      simp [Building.toCar]
    rw [hlength]
    calc (b.toCar floor x now).waiting.flatten ++ x :: aboard ++ b.arrived.flatten
      _ ~ x :: (b.toCar floor x now).waiting.flatten ++ aboard ++ b.arrived.flatten :=
        List.perm_middle.append_right _
      _ ~ b.waiting.flatten ++ aboard ++ b.arrived.flatten :=
        (hwaiting.symm.append_right _).append_right _
      _ ~ List.range b.people.length := h.roll
  · intro y q hq
    obtain ⟨q', hq', hqstart, hqdestination⟩ := exists_of_people_toCar hq
    rw [hqstart, hqdestination]
    exact h.routes y q' hq'
  · intro f y hy
    obtain ⟨hy, hne⟩ := mem_lineAt_toCar.mp hy
    obtain ⟨q, hq, hqstart, hwaits⟩ := h.waits f y hy
    refine ⟨q, hother y q hq ?_, hqstart, hwaits⟩
    rintro rfl
    obtain rfl : p = q := Option.some.inj (hp.symm.trans hq)
    exact hne (hqstart.symm.trans hstart) rfl
  · intro y hy
    rcases List.mem_cons.mp hy with rfl | hy
    · exact ⟨p.board now, by rw [people_toCar, if_pos rfl, hp]; rfl, by simp, harrived⟩
    · obtain ⟨q, hq, hqboarded, hqarrived⟩ := h.rides y hy
      refine ⟨q, hother y q hq ?_, hqboarded, hqarrived⟩
      rintro rfl
      obtain rfl : p = q := Option.some.inj (hp.symm.trans hq)
      simp [hboarded] at hqboarded
  · intro f y hy
    obtain ⟨q, hq, hqdestination, hqboarded, hqarrived⟩ := h.stays f y hy
    refine ⟨q, hother y q hq ?_, hqdestination, hqboarded, hqarrived⟩
    rintro rfl
    obtain rfl : p = q := Option.some.inj (hp.symm.trans hq)
    simp [hboarded] at hqboarded

/-! ### Stepping out -/

lemma mem_arrivedAt_toFloor {f : Floor} (hfloor : floor.val < b.arrived.length) :
    y ∈ (b.toFloor floor x now).arrivedAt f ↔ y ∈ b.arrivedAt f ∨ (f = floor ∧ y = x) := by
  simp only [arrivedAt, toFloor, getD_getElem?_modify hfloor]
  by_cases hf : floor.val = f.val
  · obtain rfl : f = floor := Fin.ext hf.symm
    simp
  · have hne : f ≠ floor := fun heq => hf (congrArg Fin.val heq.symm)
    simp [hf, hne]

lemma people_toFloor :
    (b.toFloor floor x now).people[y]? =
      if x = y then b.people[y]?.map (·.arrive now) else b.people[y]? := by
  simp only [toFloor]
  by_cases hxy : x = y
  · subst hxy
    rw [List.getElem?_modify_eq, if_pos rfl]
    rfl
  · rw [List.getElem?_modify_ne _ _ hxy, if_neg hxy]

/-- Whoever steps out keeps their route, and so does everybody else. -/
lemma exists_of_people_toFloor {q : Person} (h : (b.toFloor floor x now).people[y]? = some q) :
    ∃ p, b.people[y]? = some p ∧ q.start = p.start ∧ q.destination = p.destination := by
  rw [people_toFloor] at h
  split_ifs at h with hxy
  · obtain ⟨p, hp, rfl⟩ := Option.map_eq_some_iff.mp h
    exact ⟨p, hp, rfl, rfl⟩
  · exact ⟨q, h, rfl, rfl⟩

/-- The books stay in order when somebody steps out on the floor they want to go to. -/
lemma Ledger.toFloor (h : b.Ledger (x :: aboard)) (hx : b.destination? x = some floor) (now : Nat) :
    (b.toFloor floor x now).Ledger aboard := by
  obtain ⟨p, hp, hboarded, harrived⟩ := h.rides x List.mem_cons_self
  have hdestination : p.destination = floor := by simpa [destination?, hp] using hx
  have hfloor : floor < b.height := hdestination ▸ (h.routes x p hp).2.1
  have hlt : floor.val < b.arrived.length := by
    rw [h.halls]
    exact Fin.lt_def.mp hfloor
  have hother : ∀ y q, b.people[y]? = some q → x ≠ y →
      (b.toFloor floor x now).people[y]? = some q := fun y q hq hne => by
    rw [people_toFloor, if_neg hne, hq]
  refine ⟨h.lines, by simpa [Building.toFloor] using h.halls, ?_, ?_, ?_, ?_, ?_⟩
  · obtain ⟨rest, hrest, hmodify⟩ := flatten_modify_perm (h.exists_hall hfloor)
    have harrive : (b.toFloor floor x now).arrived.flatten ~ x :: b.arrived.flatten := by
      refine (hmodify _).trans ?_
      rw [List.append_assoc]
      exact List.perm_middle.trans (hrest.symm.cons x)
    have hlength : (b.toFloor floor x now).people.length = b.people.length := by
      simp [Building.toFloor]
    rw [hlength]
    calc b.waiting.flatten ++ aboard ++ (b.toFloor floor x now).arrived.flatten
      _ ~ b.waiting.flatten ++ aboard ++ x :: b.arrived.flatten := harrive.append_left _
      _ ~ x :: (b.waiting.flatten ++ aboard ++ b.arrived.flatten) := List.perm_middle
      _ ~ b.waiting.flatten ++ x :: aboard ++ b.arrived.flatten :=
        (List.perm_middle.append_right _).symm
      _ ~ List.range b.people.length := h.roll
  · intro y q hq
    obtain ⟨q', hq', hqstart, hqdestination⟩ := exists_of_people_toFloor hq
    rw [hqstart, hqdestination]
    exact h.routes y q' hq'
  · intro f y hy
    obtain ⟨q, hq, hqstart, hqboarded, hqarrived⟩ := h.waits f y hy
    refine ⟨q, hother y q hq ?_, hqstart, hqboarded, hqarrived⟩
    rintro rfl
    obtain rfl : p = q := Option.some.inj (hp.symm.trans hq)
    simp [hboarded] at hqboarded
  · intro y hy
    obtain ⟨q, hq, hrides⟩ := h.rides y (List.mem_cons_of_mem x hy)
    refine ⟨q, hother y q hq ?_, hrides⟩
    rintro rfl
    have hnodup : (x :: aboard).Nodup := h.nodup.of_append_left.of_append_right
    exact (List.nodup_cons.mp hnodup).1 hy
  · intro f y hy
    rcases (mem_arrivedAt_toFloor hlt).mp hy with hy | ⟨rfl, rfl⟩
    · obtain ⟨q, hq, hqdestination, hqboarded, hqarrived⟩ := h.stays f y hy
      refine ⟨q, hother y q hq ?_, hqdestination, hqboarded, hqarrived⟩
      rintro rfl
      obtain rfl : p = q := Option.some.inj (hp.symm.trans hq)
      simp [harrived] at hqarrived
    · exact ⟨p.arrive now, by rw [people_toFloor, if_pos rfl, hp]; rfl, hdestination, hboarded,
        by simp⟩

/-! ### Time passes -/

/-- `b'` is `b` some time later: of the people known then, nobody has joined a line again or changed
their route. -/
structure Later (b b' : Building) : Prop where
  height_eq : b'.height = b.height
  routes : ∀ (x : RiderId) (p : Person), b.people[x]? = some p →
    ∃ q, b'.people[x]? = some q ∧ q.start = p.start ∧ q.destination = p.destination
  lines : ∀ floor, ∀ x ∈ b'.lineAt floor, x < b.people.length → x ∈ b.lineAt floor

lemma Later.refl (b : Building) : Later b b :=
  ⟨rfl, fun _ p hp => ⟨p, hp, rfl, rfl⟩, fun _ _ hx _ => hx⟩

lemma Later.length_le (h : Later b b') : b.people.length ≤ b'.people.length := by
  by_contra hlt
  have hlast : b'.people.length < b.people.length := Nat.lt_of_not_le hlt
  obtain ⟨q, hq, -⟩ := h.routes _ _ (List.getElem?_eq_getElem hlast)
  simp at hq

lemma Later.trans (h : Later b b') (h' : Later b' b'') : Later b b'' where
  height_eq := h'.height_eq.trans h.height_eq
  routes x p hp := by
    obtain ⟨q, hq, hstart, hdestination⟩ := h.routes x p hp
    obtain ⟨q', hq', hstart', hdestination'⟩ := h'.routes x q hq
    exact ⟨q', hq', hstart'.trans hstart, hdestination'.trans hdestination⟩
  lines floor x hx hlt := by
    have hlt' : x < b'.people.length := lt_of_lt_of_le hlt h.length_le
    exact h.lines floor x (h'.lines floor x hx hlt') hlt

/-- Routes never change. -/
lemma Later.destination? (h : Later b b') (hx : b.destination? x = some floor) :
    b'.destination? x = some floor := by
  obtain ⟨p, hp, rfl⟩ := Option.map_eq_some_iff.mp hx
  obtain ⟨q, hq, -, hdestination⟩ := h.routes x p hp
  simp [Building.destination?, hq, hdestination]

/-- Somebody in line who was known before has been in that line before, with the same route. -/
lemma Later.waited (h : Later b b') (hx : x < b.people.length) {q : Person}
    (hq : b'.people[x]? = some q) (hwaits : x ∈ b'.lineAt q.start) :
    ∃ p, b.people[x]? = some p ∧ q.start = p.start ∧ q.goingUp = p.goingUp ∧
      x ∈ b.lineAt p.start := by
  obtain ⟨q', hq', hstart, hdestination⟩ := h.routes x _ (List.getElem?_eq_getElem hx)
  obtain rfl : q = q' := Option.some.inj (hq.symm.trans hq')
  refine ⟨_, List.getElem?_eq_getElem hx, hstart, ?_, ?_⟩
  · rw [Person.goingUp, Person.goingUp, hstart, hdestination]
  · rw [← hstart]
    exact h.lines _ x hwaits hx

lemma later_toCar (b : Building) (floor : Floor) (x : RiderId) (now : Nat) :
    Later b (b.toCar floor x now) where
  height_eq := rfl
  routes y p hp := by
    rw [people_toCar, hp]
    split_ifs
    · exact ⟨p.board now, rfl, rfl, rfl⟩
    · exact ⟨p, rfl, rfl, rfl⟩
  lines _ _ hy _ := (mem_lineAt_toCar.mp hy).1

lemma later_toFloor (b : Building) (floor : Floor) (x : RiderId) (now : Nat) :
    Later b (b.toFloor floor x now) where
  height_eq := rfl
  routes y p hp := by
    rw [people_toFloor, hp]
    split_ifs
    · exact ⟨p.arrive now, rfl, rfl, rfl⟩
    · exact ⟨p, rfl, rfl, rfl⟩
  lines _ _ hy _ := hy

/-- Only newcomers join a line. -/
lemma Ledger.later_enter (h : b.Ledger aboard) {start destination : Floor}
    (henter : b.enter start destination now = (.ok x, b')) : Later b b' where
  height_eq := by
    obtain ⟨-, -, -, -, rfl⟩ := enter_eq_ok henter
    rfl
  routes y p hp := by
    have hx : x = b.people.length := (enter_eq_ok henter).2.2.2.1
    refine ⟨p, ?_, rfl, rfl⟩
    rw [people_enter henter, if_neg, hp]
    rintro rfl
    simp [hx] at hp
  lines floor y hy hlt := by
    have hx : x = b.people.length := (enter_eq_ok henter).2.2.2.1
    rcases (h.mem_lineAt_enter henter).mp hy with hy | ⟨-, rfl⟩
    · exact hy
    · exact absurd (hx ▸ hlt) (lt_irrefl _)

/-- Whether somebody is let in or refused, the books stay in order and nobody joins a line again. -/
lemma Ledger.entered (h : b.Ledger aboard) (start destination : Floor) (now : Nat) :
    (b.enter start destination now).2.Ledger aboard ∧
      b.Later (b.enter start destination now).2 := by
  cases henter : b.enter start destination now with
  | mk result b' =>
      cases result with
      | error fault =>
          obtain rfl := enter_eq_error henter
          exact ⟨h, .refl b'⟩
      | ok x => exact ⟨h.enter henter, h.later_enter henter⟩

end Building

end ElevatorFleet
