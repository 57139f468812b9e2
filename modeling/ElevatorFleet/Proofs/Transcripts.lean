import ElevatorFleet.Proofs.Conversation

/-!
Transcripts: all that is said between a car and whoever keeps the riders, in the order in which it
is said.

* `Transcript.boarded` and `Transcript.alighted` are the riders whom a car has reported to have
  boarded, and to have stepped out; `Transcript.calls` counts how often it has called for the next
  rider.
* `Dialogue.Yields` is a property that the transcript and the result of a dialogue have together,
  whatever the answers are. `Dialogue.yields_bind` puts dialogues together, and
  `Dialogue.Yields.hold` says that transcript and result have the property with any keeper.
* `Dialogue.forall_remarks` is what all that a keeper says has in common.
-/

namespace ElevatorFleet

namespace Remark

/-- The rider who is reported to have boarded. -/
def boards? : Remark → Option RiderId
  | ⟨.boarded _ rider, _⟩ => some rider
  | _ => none

/-- The rider who is reported to have stepped out. -/
def alights? : Remark → Option RiderId
  | ⟨.alighted _ rider, _⟩ => some rider
  | _ => none

/-- Whether the next rider is called. -/
def callsNext : Remark → Bool
  | ⟨.next _ _ _, _⟩ => true
  | _ => false

end Remark

/-- All that is said, in the order in which it is said. -/
abbrev Transcript := List Remark

namespace Transcript

variable {t t' : Transcript}

/-- Who is reported to have boarded, one after the other. -/
def boarded (t : Transcript) : List RiderId := t.filterMap Remark.boards?

/-- Who is reported to have stepped out, one after the other. -/
def alighted (t : Transcript) : List RiderId := t.filterMap Remark.alights?

/-- How often the next rider is called. -/
def calls (t : Transcript) : Nat := t.countP Remark.callsNext

@[simp] lemma boarded_append : boarded (t ++ t') = boarded t ++ boarded t' :=
  List.filterMap_append

@[simp] lemma alighted_append : alighted (t ++ t') = alighted t ++ alighted t' :=
  List.filterMap_append

@[simp] lemma calls_append : calls (t ++ t') = calls t + calls t' := List.countP_append

/-- Nobody boards or steps out, and nobody is called. -/
structure Quiet (t : Transcript) : Prop where
  boarded : t.boarded = []
  alighted : t.alighted = []
  calls : t.calls = 0

lemma quiet_nil : Quiet [] := ⟨rfl, rfl, rfl⟩

/-- Asking about a rider, or who is waiting, moves nobody. -/
lemma Quiet.cons {r : Remark} (h : t.Quiet)
    (hr : r.boards? = none ∧ r.alights? = none ∧ r.callsNext = false) : Quiet (r :: t) where
  boarded := (List.filterMap_cons_none hr.1).trans h.boarded
  alighted := (List.filterMap_cons_none hr.2.1).trans h.alighted
  calls := (List.countP_cons_of_neg (by simp [hr.2.2])).trans h.calls

end Transcript

namespace Dialogue

variable {α β σ : Type} {P Q : Transcript → α → Prop} {d : Dialogue α}

/-- Whatever the answers are, the transcript of a dialogue and its result have the property `P`. -/
def Yields : Dialogue α → (Transcript → α → Prop) → Prop
  | done a, P => P [] a
  | ask q next, P => ∀ answer, (next answer).Yields fun t a => P (⟨q, answer⟩ :: t) a

@[simp] lemma yields_done {a : α} : (done a).Yields P ↔ P [] a := Iff.rfl

lemma Yields.mono (h : d.Yields P) (hPQ : ∀ t a, P t a → Q t a) : d.Yields Q := by
  induction d generalizing P Q with
  | done a => exact hPQ [] a h
  | ask q next ih => exact fun answer => ih answer (h answer) fun t a => hPQ (⟨q, answer⟩ :: t) a

/-- A dialogue that follows another one adds its own transcript behind the first. -/
lemma yields_bind {f : α → Dialogue β} {P : Transcript → β → Prop} :
    (d.bind f).Yields P ↔ d.Yields fun t a => (f a).Yields fun t' b => P (t ++ t') b := by
  induction d generalizing P with
  | done a => rfl
  | ask q next ih => exact forall_congr' fun answer => ih answer

/-- What holds of every transcript and its result holds of those with any keeper. -/
lemma Yields.hold (h : d.Yields P) (k : Keeper σ) (s : σ) :
    P (d.hold k s).remarks (d.hold k s).result := by
  induction d generalizing P s with
  | done a => exact h
  | ask q next ih => exact ih (k.answer q s).1 (h _) (k.answer q s).2

/-- What holds of every answer that a keeper gives, as long as an invariant holds of the keeper,
holds of all that is said. -/
lemma forall_remarks {k : Keeper σ} {I : σ → Prop} {Said : Remark → Prop}
    (hanswer : ∀ q s, I s → Said ⟨q, (k.answer q s).1⟩ ∧ I (k.answer q s).2)
    (d : Dialogue α) {s : σ} (hs : I s) : ∀ r ∈ (d.hold k s).remarks, Said r := by
  induction d generalizing s with
  | done a => exact List.forall_mem_nil _
  | ask q next ih => exact List.forall_mem_cons.mpr ⟨(hanswer q s hs).1, ih _ (hanswer q s hs).2⟩

end Dialogue

end ElevatorFleet
