import ElevatorFleet.Riders.Dialogue
import Mathlib.Tactic

/-!
Dialogues with a keeper, and what their results have in common.

* `Dialogue.hold_bind` holds one dialogue after another.
* `Dialogue.Always` is a property that the result of a dialogue has whatever the answers are, and
  `Dialogue.Always.hold` says that it has it with any keeper.
* `Dialogue.EndsIn` is a property of the result and of the state in which the keeper is left, for
  one keeper in one state.
-/

namespace ElevatorFleet

namespace Dialogue

variable {α β σ : Type} {P Q : α → Prop} {d : Dialogue α}

/-! ### One dialogue after another -/

@[simp] lemma bind_eq (d : Dialogue α) (f : α → Dialogue β) : d >>= f = d.bind f := rfl

@[simp] lemma pure_eq (a : α) : (pure a : Dialogue α) = .done a := rfl

@[simp] lemma hold_done (k : Keeper σ) (a : α) (s : σ) : (done a).hold k s = ⟨a, [], s⟩ := rfl

/-- A dialogue that follows another one goes on with its result, where the keeper was left, and what
was said before stays said. -/
lemma hold_bind (k : Keeper σ) (d : Dialogue α) (f : α → Dialogue β) (s : σ) :
    (d.bind f).hold k s =
      { (f (d.hold k s).result).hold k (d.hold k s).keeper with
        remarks := (d.hold k s).remarks ++
          ((f (d.hold k s).result).hold k (d.hold k s).keeper).remarks } := by
  induction d generalizing s with
  | done a => rfl
  | ask q next ih => simp only [bind, hold, ih, List.cons_append]

/-! ### Properties of every result -/

/-- Whatever the answers are, the result has the property `P`. -/
def Always (P : α → Prop) : Dialogue α → Prop
  | done a => P a
  | ask _ next => ∀ answer, (next answer).Always P

@[simp] lemma always_done {a : α} : (done a).Always P ↔ P a := Iff.rfl

lemma Always.mono (h : d.Always P) (hPQ : ∀ a, P a → Q a) : d.Always Q := by
  induction d with
  | done a => exact hPQ a h
  | ask q next ih => exact fun answer => ih answer (h answer)

lemma always_true (d : Dialogue α) : d.Always fun _ => True := by
  induction d with
  | done a => trivial
  | ask q next ih => exact fun answer => ih answer

lemma always_bind {P : β → Prop} {f : α → Dialogue β} :
    (d.bind f).Always P ↔ d.Always fun a => (f a).Always P := by
  induction d with
  | done a => rfl
  | ask q next ih => exact forall_congr' fun answer => ih answer

/-- What holds whatever the answers are holds with every keeper. -/
lemma Always.hold (h : d.Always P) (k : Keeper σ) (s : σ) : P (d.hold k s).result := by
  induction d generalizing s with
  | done a => exact h
  | ask q next ih => exact ih _ (h _) _

/-! ### What one dialogue comes to -/

/-- A dialogue held with a keeper in a state ends with a result and a state that fit together. -/
def EndsIn (d : Dialogue α) (k : Keeper σ) (s : σ) (P : α → σ → Prop) : Prop :=
  P (d.hold k s).result (d.hold k s).keeper

variable {k : Keeper σ} {s : σ} {R S : α → σ → Prop}

@[simp] lemma endsIn_done {a : α} : (done a).EndsIn k s R ↔ R a s := Iff.rfl

lemma endsIn_ask {q : Question} {next : q.Answer → Dialogue α} :
    (ask q next).EndsIn k s R ↔ (next (k.answer q s).1).EndsIn k (k.answer q s).2 R := Iff.rfl

lemma endsIn_bind {P : β → σ → Prop} {f : α → Dialogue β} :
    (d.bind f).EndsIn k s P ↔ d.EndsIn k s fun a s => (f a).EndsIn k s P := by
  rw [EndsIn, hold_bind]
  rfl

lemma EndsIn.mono (h : d.EndsIn k s R) (hRS : ∀ a s, R a s → S a s) : d.EndsIn k s S := hRS _ _ h

lemma EndsIn.and (hR : d.EndsIn k s R) (hS : d.EndsIn k s S) :
    d.EndsIn k s fun a s => R a s ∧ S a s := ⟨hR, hS⟩

lemma Always.endsIn (h : d.Always P) (k : Keeper σ) (s : σ) : d.EndsIn k s fun a _ => P a :=
  h.hold k s

/-- What holds whatever the answers are may be added to what a dialogue comes to. -/
lemma EndsIn.and_always (h : d.EndsIn k s R) (hP : d.Always P) :
    d.EndsIn k s fun a s => R a s ∧ P a := ⟨h, hP.hold k s⟩

end Dialogue

end ElevatorFleet
