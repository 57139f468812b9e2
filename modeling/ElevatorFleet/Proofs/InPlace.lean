import ElevatorFleet.Fault
import ElevatorFleet.Pool
import Mathlib.Data.List.Induction
import Mathlib.Data.List.InsertIdx
import Mathlib.Order.Monotone.Basic
import Mathlib.Tactic.Basic

/-!
The pending calls kept in two columns that are changed in place.

* `Columns` keeps the calls and the times they came in beside each other. `Columns.claim` walks
  along the calls by index: it stays where it is when the call there is taken and removed, and goes
  on when it is not.
* `Pool.columns_claim`: this loop does to the columns what `Pool.claim` does to the entries.
* `Pool.Pass` says what one ordered pass is: which calls were asked about, with which answers, and
  what is left. `Pool.logged` is a taker that writes this down.
* `Pool.Change` is whatever can be done with a pool, and `Pool.after` the pool that some changes
  leave when a clock shows the time of each.
* `Pool.claimed_in_order`: the columns never drift apart, the oldest call comes first, and whatever
  the taker does, calls are claimed in one ordered pass.
-/

namespace ElevatorFleet

/-- The entry with the time that a clock shows for its own. -/
def Pending.readOff (clock : Nat → Nat) (e : Pending) : Pending :=
  ⟨e.request, clock e.since⟩

@[simp]
lemma Pending.request_readOff (clock : Nat → Nat) (e : Pending) :
    (e.readOff clock).request = e.request := rfl

/-! ### Two columns -/

/-- The pending calls, and beside each of them the time at which it came in. -/
structure Columns where
  requests : List Request
  timers : List Nat
  deriving DecidableEq, Repr

/-- The entries of a pool as two columns. -/
def Pool.columns (p : Pool) : Columns := ⟨p.requests, p.entries.map (·.since)⟩

namespace Columns

/-- No pending call. -/
def empty : Columns := ⟨[], []⟩

/-- Adds a call that comes in now. -/
def insert (q : Columns) (r : Request) (now : Nat) : Columns :=
  ⟨q.requests ++ [r], q.timers ++ [now]⟩

/-- The longest of the waits. -/
def oldestWait? (q : Columns) (now : Nat) : Option Nat := (q.timers.map (now - ·)).max?

/-- Takes the call at an index, if there is one, out of its column, and its time out of the
other. -/
def remove (q : Columns) (index : Nat) : Option Request × Columns :=
  if index < q.requests.length then
    (q.requests[index]?, ⟨q.requests.eraseIdx index, q.timers.eraseIdx index⟩)
  else (none, q)

variable {σ : Type}

/-- Offers the calls from an index on to a taker. A call that is taken is removed, so that the next
one moves up to its index. -/
def scan (take : Request → σ → Attempt σ Bool) (index claimed : Nat) (q : Columns) (s : σ) :
    Except Fault Nat × Columns × σ :=
  if h : index < q.requests.length then
    match take q.requests[index] s with
    | (.error fault, s) => (.error fault, q, s)
    | (.ok true, s) => scan take index (claimed + 1) (q.remove index).2 s
    | (.ok false, s) => scan take (index + 1) claimed q s
  else (.ok claimed, q, s)
termination_by q.requests.length - index
decreasing_by
  · rw [remove, if_pos h, List.length_eraseIdx_of_lt h]
    omega
  · omega

/-- Offers every call to a taker and removes those it takes. -/
def claim (q : Columns) (take : Request → σ → Attempt σ Bool) (s : σ) :
    Except Fault Nat × Columns × σ :=
  q.scan take 0 0 s

end Columns

namespace Pool

variable {σ : Type} {p : Pool}

lemma length_columns (p : Pool) : p.columns.requests.length = p.entries.length := List.length_map _

lemma columns_insert (p : Pool) (r : Request) (now : Nat) :
    (p.insert r now).columns = p.columns.insert r now := by
  simp [columns, insert, Columns.insert, requests]

lemma columns_remove (p : Pool) (index : Nat) :
    p.columns.remove index = ((p.remove index).1, (p.remove index).2.columns) := by
  rw [Columns.remove, length_columns]
  split_ifs with hindex
  · simp [columns, remove, requests, get?, List.eraseIdx_map]
  · have hbehind := Nat.le_of_not_lt hindex
    simp [columns, remove, requests, get?, List.eraseIdx_of_length_le hbehind, hbehind]

lemma columns_oldestWait? (p : Pool) (now : Nat) :
    p.columns.oldestWait? now = p.oldestWait? now := by
  rw [Columns.oldestWait?, columns, List.map_map]
  rfl

/-- The loop has dealt with the entries before its index, and does to those from there on what a
pass over them alone does. -/
lemma scan_columns (take : Request → σ → Attempt σ Bool) (before es : List Pending)
    (claimed : Nat) (s : σ) :
    (columns ⟨before ++ es⟩).scan take before.length claimed s =
      ((claimEntries take es s).1.map (claimed + ·),
        columns ⟨before ++ (claimEntries take es s).2.1⟩, (claimEntries take es s).2.2) := by
  induction es generalizing before claimed s with
  | nil =>
      rw [Columns.scan, dif_neg (by simp [length_columns])]
      rfl
  | cons e es ih =>
      have hindex : before.length < (columns ⟨before ++ e :: es⟩).requests.length := by
        simp [length_columns]
      have hhere : (columns ⟨before ++ e :: es⟩).requests[before.length] = e.request := by
        simp [columns, requests]
      rw [Columns.scan, dif_pos hindex, hhere, claimEntries]
      rcases take e.request s with ⟨fault | taken, s'⟩
      · rfl
      · cases taken with
        | false =>
            have hnext := ih (before ++ [e]) claimed s'
            simpa using hnext
        | true =>
            -- the next entry has moved up to the index
            have hremoved : ((columns ⟨before ++ e :: es⟩).remove before.length).2 =
                columns ⟨before ++ es⟩ := by
              rw [columns_remove, remove]
              simp [List.eraseIdx_append_of_length_le]
            dsimp only
            rw [hremoved, ih before (claimed + 1) s']
            cases (claimEntries take es s').1 <;> simp [Except.map, Nat.add_assoc, Nat.add_comm 1]

/-- The loop over the columns claims what a pass over the entries claims. -/
lemma columns_claim (p : Pool) (take : Request → σ → Attempt σ Bool) (s : σ) :
    p.columns.claim take s =
      ((p.claim take s).1, (p.claim take s).2.1.columns, (p.claim take s).2.2) := by
  have hall := scan_columns take [] p.entries 0 s
  rw [Columns.claim]
  refine hall.trans ?_
  rw [claim]
  cases (claimEntries take p.entries s).1 <;> simp [Except.map]

/-! ### One ordered pass -/

/-- The calls a taker has been asked about, with its answers. -/
abbrev Log := List (Request × Except Fault Bool)

/-- A taker that writes down what it is asked and what it answers. -/
def logged (take : Request → σ → Attempt σ Bool) (r : Request) (s : Log × σ) :
    Attempt (Log × σ) Bool :=
  let (answer, after) := take r s.2
  (answer, s.1 ++ [(r, answer)], after)

/-- One ordered pass over entries. All of them are asked about in turn, or all up to the first with
a fault. Those that are taken go, those that are declined stay, and so does all from the fault on;
the answer is the number of those taken. -/
inductive Pass (es : List Pending) (log : Log) (result : Except Fault Nat) (left : List Pending) :
    Prop where
  | whole (asked : List (Pending × Bool)) (hentries : es = asked.map (·.1))
      (hlog : log = asked.map fun x => (x.1.request, .ok x.2))
      (hresult : result = .ok (asked.countP (·.2)))
      (hleft : left = (asked.filter (!·.2)).map (·.1))
  | halted (asked : List (Pending × Bool)) (e : Pending) (fault : Fault) (behind : List Pending)
      (hentries : es = asked.map (·.1) ++ e :: behind)
      (hlog : log = (asked.map fun x => (x.1.request, .ok x.2)) ++ [(e.request, .error fault)])
      (hresult : result = .error fault)
      (hleft : left = (asked.filter (!·.2)).map (·.1) ++ e :: behind)

section

variable {es left : List Pending} {log : Log} {result : Except Fault Nat}

lemma Pass.taken (h : Pass es log result left) (e : Pending) :
    Pass (e :: es) ((e.request, .ok true) :: log) (result.map (· + 1)) left := by
  cases h with
  | whole asked hentries hlog hresult hleft =>
      exact .whole ((e, true) :: asked) (by simp [hentries]) (by simp [hlog])
        (by simp [hresult, Except.map]) (by simp [hleft])
  | halted asked x fault behind hentries hlog hresult hleft =>
      exact .halted ((e, true) :: asked) x fault behind (by simp [hentries]) (by simp [hlog])
        (by simp [hresult, Except.map]) (by simp [hleft])

lemma Pass.declined (h : Pass es log result left) (e : Pending) :
    Pass (e :: es) ((e.request, .ok false) :: log) result (e :: left) := by
  cases h with
  | whole asked hentries hlog hresult hleft =>
      exact .whole ((e, false) :: asked) (by simp [hentries]) (by simp [hlog])
        (by simp [hresult]) (by simp [hleft])
  | halted asked x fault behind hentries hlog hresult hleft =>
      exact .halted ((e, false) :: asked) x fault behind (by simp [hentries]) (by simp [hlog])
        (by simp [hresult]) (by simp [hleft])

/-- A pass leaves a part of the entries, in order. -/
lemma Pass.sublist (h : Pass es log result left) : left.Sublist es := by
  cases h with
  | whole asked hentries _ _ hleft =>
      rw [hentries, hleft]
      exact List.filter_sublist.map _
  | halted asked e fault behind hentries _ _ hleft =>
      rw [hentries, hleft]
      exact (List.filter_sublist.map _).append_right _

end

/-- A pass gives with a taker what it gives with one that writes down what it is asked, and that is
one ordered pass. -/
lemma claimEntries_logged (take : Request → σ → Attempt σ Bool) (es : List Pending) (before : Log)
    (s : σ) :
    ∃ log, claimEntries (logged take) es (before, s) =
        ((claimEntries take es s).1, (claimEntries take es s).2.1, before ++ log,
          (claimEntries take es s).2.2) ∧
      Pass es log (claimEntries take es s).1 (claimEntries take es s).2.1 := by
  induction es generalizing before s with
  | nil => exact ⟨[], by simp [claimEntries], .whole [] rfl rfl rfl rfl⟩
  | cons e es ih =>
      rw [claimEntries, claimEntries, logged]
      rcases take e.request s with ⟨fault | taken, s'⟩
      · exact ⟨[(e.request, .error fault)], rfl, .halted [] e fault es rfl rfl rfl rfl⟩
      · cases taken with
        | false =>
            obtain ⟨log, heq, hpass⟩ := ih (before ++ [(e.request, .ok false)]) s'
            exact ⟨(e.request, .ok false) :: log, by simp [heq], hpass.declined e⟩
        | true =>
            obtain ⟨log, heq, hpass⟩ := ih (before ++ [(e.request, .ok true)]) s'
            exact ⟨(e.request, .ok true) :: log, by simp [heq], hpass.taken e⟩

lemma claim_sublist (p : Pool) (take : Request → σ → Attempt σ Bool) (s : σ) :
    (p.claim take s).2.1.entries.Sublist p.entries := by
  obtain ⟨log, -, hpass⟩ := claimEntries_logged take p.entries [] s
  exact hpass.sublist

/-! ### Whatever is done with a pool -/

/-- What can be done with a pool. -/
inductive Change : Type 1 where
  | insert (r : Request)
  | remove (index : Nat)
  | claim (σ : Type) (take : Request → σ → Attempt σ Bool) (s : σ)
  | clear

/-- The pool that a change leaves. -/
def Change.perform (now : Nat) : Change → Pool → Pool
  | insert r, p => p.insert r now
  | remove index, p => (p.remove index).2
  | claim _ take s, p => (p.claim take s).2.1
  | clear, _ => .empty

/-- The columns that a change leaves. -/
def Change.performInPlace (now : Nat) : Change → Columns → Columns
  | insert r, q => q.insert r now
  | remove index, q => (q.remove index).2
  | claim _ take s, q => (q.claim take s).2.1
  | clear, _ => .empty

/-- What changes leave, if the clock shows the time of each of them. -/
def after (clock : Nat → Nat) (changes : List Change) : Pool :=
  changes.zipIdx.foldl (fun p change => change.1.perform (clock change.2) p) .empty

/-- What changes leave of columns. -/
def columnsAfter (clock : Nat → Nat) (changes : List Change) : Columns :=
  changes.zipIdx.foldl (fun q change => change.1.performInPlace (clock change.2) q) .empty

/-- The pool with the times that a clock shows for its own. -/
def readOff (clock : Nat → Nat) (p : Pool) : Pool := ⟨p.entries.map (·.readOff clock)⟩

variable {clock : Nat → Nat} {changes : List Change} {change : Change}

lemma after_concat : after clock (changes ++ [change]) =
    change.perform (clock changes.length) (after clock changes) := by
  simp [after, List.zipIdx_append]

lemma columnsAfter_concat : columnsAfter clock (changes ++ [change]) =
    change.performInPlace (clock changes.length) (columnsAfter clock changes) := by
  simp [columnsAfter, List.zipIdx_append]

/-- In place or not, a change does the same. -/
lemma Change.performInPlace_columns (change : Change) (now : Nat) (p : Pool) :
    change.performInPlace now p.columns = (change.perform now p).columns := by
  cases change with
  | insert r => exact (columns_insert p r now).symm
  | remove index => exact congrArg Prod.snd (columns_remove p index)
  | claim σ take s => exact congrArg (·.2.1) (columns_claim p take s)
  | clear => rfl

lemma columnsAfter_eq (clock : Nat → Nat) (changes : List Change) :
    columnsAfter clock changes = (after clock changes).columns := by
  induction changes using List.reverseRecOn with
  | nil => rfl
  | append_singleton changes change ih =>
      rw [columnsAfter_concat, after_concat, ih, Change.performInPlace_columns]

/-- A taker never sees the times. -/
lemma claimEntries_readOff (take : Request → σ → Attempt σ Bool) (es : List Pending) (s : σ) :
    claimEntries take (es.map (·.readOff clock)) s = ((claimEntries take es s).1,
      (claimEntries take es s).2.1.map (·.readOff clock), (claimEntries take es s).2.2) := by
  induction es generalizing s with
  | nil => rfl
  | cons e es ih =>
      rw [List.map_cons, claimEntries, claimEntries, Pending.request_readOff]
      rcases take e.request s with ⟨fault | taken, s'⟩
      · rfl
      · cases taken <;> simp [ih]

/-- Times make no difference to what is kept. -/
lemma Change.perform_readOff (change : Change) (now : Nat) (p : Pool) :
    change.perform (clock now) (p.readOff clock) = (change.perform now p).readOff clock := by
  cases change with
  | insert r => simp [perform, readOff, Pool.insert, Pending.readOff]
  | remove index => simp [perform, readOff, Pool.remove, List.eraseIdx_map]
  | claim σ take s =>
      rw [perform, perform, readOff, Pool.claim, claimEntries_readOff]
      rfl
  | clear => rfl

lemma after_eq_readOff (clock : Nat → Nat) (changes : List Change) :
    after clock changes = (after id changes).readOff clock := by
  induction changes using List.reverseRecOn with
  | nil => rfl
  | append_singleton changes change ih =>
      rw [after_concat, after_concat, ih, Change.perform_readOff, id]

/-- A change adds nothing but a call that comes in. -/
lemma Change.perform_cases (change : Change) (now : Nat) (p : Pool) :
    (∃ r, change = .insert r ∧ (change.perform now p).entries = p.entries ++ [⟨r, now⟩]) ∨
      (change.perform now p).entries.Sublist p.entries := by
  cases change with
  | insert r => exact Or.inl ⟨r, rfl, rfl⟩
  | remove index => exact Or.inr (List.eraseIdx_sublist _ _)
  | claim σ take s => exact Or.inr (p.claim_sublist take s)
  | clear => exact Or.inr (List.nil_sublist _)

/-- Numbered by their changes, the calls are in order, and each has come in with its own change. -/
lemma after_id_spec (changes : List Change) :
    (after id changes).entries.Pairwise (·.since < ·.since) ∧
      ∀ e ∈ (after id changes).entries, changes[e.since]? = some (.insert e.request) := by
  induction changes using List.reverseRecOn with
  | nil => exact ⟨List.Pairwise.nil, fun e he => absurd he List.not_mem_nil⟩
  | append_singleton changes change ih =>
      obtain ⟨hordered, hinserted⟩ := ih
      have hbefore : ∀ e ∈ (after id changes).entries, e.since < changes.length := fun e he =>
        (List.getElem?_eq_some_iff.mp (hinserted e he)).1
      have hstill : ∀ e ∈ (after id changes).entries,
          (changes ++ [change])[e.since]? = some (.insert e.request) := fun e he => by
        rw [List.getElem?_append_left (hbefore e he), hinserted e he]
      rw [after_concat, id]
      rcases change.perform_cases changes.length (after id changes) with ⟨r, rfl, heq⟩ | hsub
      · rw [heq, List.pairwise_append]
        refine ⟨⟨hordered, List.pairwise_singleton _ _, fun e he x hx => ?_⟩, fun e he => ?_⟩
        · rw [List.mem_singleton.mp hx]
          exact hbefore e he
        · rcases List.mem_append.mp he with hold | hnew
          · exact hstill e hold
          · rw [List.mem_singleton.mp hnew]
            exact List.getElem?_concat_length
      · exact ⟨hordered.sublist hsub, fun e he => hstill e (hsub.subset he)⟩

/-- The call that came in first has waited longest. -/
lemma oldestWait?_eq_head? (h : p.entries.Pairwise (·.since ≤ ·.since)) (now : Nat) :
    p.oldestWait? now = p.entries.head?.map (now - ·.since) := by
  rw [oldestWait?]
  cases hentries : p.entries with
  | nil => rfl
  | cons e es =>
      rw [hentries] at h
      refine List.max?_eq_some_iff.mpr ⟨List.mem_cons_self, fun wait hwait => ?_⟩
      obtain ⟨x, hx, rfl⟩ := List.mem_map.mp hwait
      rcases List.mem_cons.mp hx with rfl | hbehind
      · exact le_refl _
      · exact Nat.sub_le_sub_left (List.rel_of_pairwise_cons h hbehind) now

/-- How calls are kept, whatever has been done at the times of a clock: the two columns hold the
calls and the times of the same entries; the entries are those of the pool that is numbered by its
changes, so that each call has come in with a change of its own, at the time of this change, and all
are in the order of these changes; and the longest wait, read off the columns or the entries, is
that of the first call, if there is one. -/
structure InOrder (clock : Nat → Nat) (changes : List Change) : Prop where
  columns : columnsAfter clock changes = (after clock changes).columns
  times : (after clock changes).entries = (after id changes).entries.map (·.readOff clock)
  inserted : ∀ e ∈ (after id changes).entries, changes[e.since]? = some (.insert e.request)
  ordered : (after id changes).entries.Pairwise (·.since < ·.since)
  oldest : ∀ now, (after clock changes).oldestWait? now =
    (after clock changes).entries.head?.map (now - ·.since)
  oldest_in_place : ∀ now, (columnsAfter clock changes).oldestWait? now =
    (after clock changes).oldestWait? now
  none_iff : ∀ now, (after clock changes).oldestWait? now = none ↔
    (after clock changes).isEmpty = true

lemma inOrder (hclock : Monotone clock) (changes : List Change) : InOrder clock changes := by
  obtain ⟨hordered, hinserted⟩ := after_id_spec changes
  have htimes : (after clock changes).entries =
      (after id changes).entries.map (·.readOff clock) := by
    rw [after_eq_readOff, readOff]
  have hsorted : (after clock changes).entries.Pairwise (·.since ≤ ·.since) := by
    rw [htimes, List.pairwise_map]
    exact hordered.imp fun hlt => hclock hlt.le
  have holdest := oldestWait?_eq_head? hsorted
  refine ⟨columnsAfter_eq clock changes, htimes, hinserted, hordered, holdest, fun now => ?_,
    fun now => ?_⟩
  · rw [columnsAfter_eq, columns_oldestWait?]
  · rw [holdest, Option.map_eq_none_iff, List.head?_eq_none_iff, isEmpty, List.isEmpty_iff]

/-- **The columns never drift apart, and calls are claimed in one ordered pass.**

Whatever is done with a pool at the times of a clock that does not go back, with takers that
remember and fail as they like, calls are kept `InOrder`. And whatever is in a pool and whatever the
taker does, the loop over the columns leaves what claiming from the pool leaves, with the same
result and the same memory of the taker; a taker that writes down what it is asked makes no
difference to either, and what it has written down, the result and the calls that are left are those
of one `Pass` over the entries. -/
theorem claimed_in_order :
    (∀ (clock : Nat → Nat) (changes : List Change), Monotone clock → InOrder clock changes) ∧
    ∀ (p : Pool) (σ : Type) (take : Request → σ → Attempt σ Bool) (s : σ),
      ∃ result left after log, Pass p.entries log result left ∧
        p.claim take s = (result, ⟨left⟩, after) ∧
        p.columns.claim take s = (result, columns ⟨left⟩, after) ∧
        p.claim (logged take) ([], s) = (result, ⟨left⟩, log, after) ∧
        p.columns.claim (logged take) ([], s) = (result, columns ⟨left⟩, log, after) := by
  refine ⟨fun clock changes hclock => inOrder hclock changes, fun p σ take s => ?_⟩
  obtain ⟨log, heq, hpass⟩ := claimEntries_logged take p.entries [] s
  have hlogged : p.claim (logged take) ([], s) = ((claimEntries take p.entries s).1,
      ⟨(claimEntries take p.entries s).2.1⟩, log, (claimEntries take p.entries s).2.2) := by
    rw [claim, heq]
    rfl
  refine ⟨_, _, _, log, hpass, rfl, columns_claim p take s, hlogged, ?_⟩
  rw [columns_claim, hlogged]

/-- A taker that takes the first call it is asked about, declines the second and fails on the
third. -/
def threeTimes (_ : Request) : Nat → Attempt Nat Bool
  | 0 => (.ok true, 1)
  | 1 => (.ok false, 2)
  | asked => (.error .unparsable, asked)

/-- Of two calls one is taken before a third comes in: the other one and the third keep their own
times. And with four calls for a taker that fails on the third, just the first is gone, and the
fourth has not been asked about. -/
theorem claimed_in_order_three_times :
    (columnsAfter (10 * ·) [.insert ⟨3, .up⟩, .insert ⟨7, .up⟩, .claim Nat threeTimes 0,
        .insert ⟨5, .down⟩] = ⟨[⟨7, .up⟩, ⟨5, .down⟩], [10, 30]⟩ ∧
      (columnsAfter (10 * ·) [.insert ⟨3, .up⟩, .insert ⟨7, .up⟩, .claim Nat threeTimes 0,
        .insert ⟨5, .down⟩]).oldestWait? 50 = some 40) ∧
    (columns ⟨[⟨⟨3, .up⟩, 1⟩, ⟨⟨7, .up⟩, 2⟩, ⟨⟨5, .down⟩, 4⟩, ⟨⟨9, .down⟩, 8⟩]⟩).claim
        (logged threeTimes) ([], 0) =
      (.error .unparsable, ⟨[⟨7, .up⟩, ⟨5, .down⟩, ⟨9, .down⟩], [2, 4, 8]⟩,
        [(⟨3, .up⟩, .ok true), (⟨7, .up⟩, .ok false), (⟨5, .down⟩, .error .unparsable)], 2) := by
  obtain ⟨hhistories, hpasses⟩ := claimed_in_order
  have hclock : Monotone (10 * · : Nat → Nat) := fun m n hle => Nat.mul_le_mul_left 10 hle
  have hinorder := hhistories _ [.insert ⟨3, .up⟩, .insert ⟨7, .up⟩, .claim Nat threeTimes 0,
    .insert ⟨5, .down⟩] hclock
  obtain ⟨result, left, after, log, -, -, -, hentries, hcolumns⟩ := hpasses
    ⟨[⟨⟨3, .up⟩, 1⟩, ⟨⟨7, .up⟩, 2⟩, ⟨⟨5, .down⟩, 4⟩, ⟨⟨9, .down⟩, 8⟩]⟩ Nat threeTimes 0
  have hsame := congrArg (fun x => (x.1, x.2.1.columns, x.2.2)) hentries
  have holdest := (hinorder.oldest_in_place 50).trans (hinorder.oldest 50)
  exact ⟨⟨hinorder.columns.trans rfl, holdest.trans rfl⟩,
    hcolumns.trans (hsame.symm.trans rfl)⟩

end Pool

end ElevatorFleet
