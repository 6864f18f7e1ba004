import Mathlib
import OnrampLedger.Service.World

/-!
# Running an operation

An `Op` is a program over the world. This module gives the two readings the proofs use:
`Op.exec`, the answer and the world a run from a given world ends in, and Hoare triples
`⦃P⦄ x ⦃post⟨Q, E⟩⦄` of `Std.Do`, whose conditions `mvcgen` computes. A triple is turned
into a fact about `exec` by `Op.ends_of_triple`.

The primitives of `Op`, `Op.atomically` among them, are marked for `mvcgen` to unfold,
so that the triples of the service's operations are proved from the operations' own
text: a transaction's rollback shows up in them as the store put back on a refusal.

## Main results

* `ends_of_triple` — a triple holds of every run from a world meeting its precondition.
-/

namespace OnrampLedger

namespace Op

open Std.Do

/-- The answer and the world that running `x` from `w` ends in. -/
def exec {α : Type} (x : Op α) (w : World) : Except Error α × World := x.run.run w

/-- A run's end meets `Q` when it answered and `E` when it refused. -/
def Ends {α : Type} (Q : α → World → Prop) (E : Error → World → Prop) :
    Except Error α × World → Prop
  | (.ok a, w) => Q a w
  | (.error e, w) => E e w

@[simp] theorem ends_ok {α : Type} {Q : α → World → Prop} {E : Error → World → Prop} {a : α}
    {w : World} : Ends Q E (.ok a, w) ↔ Q a w := Iff.rfl

@[simp] theorem ends_error {α : Type} {Q : α → World → Prop} {E : Error → World → Prop}
    {e : Error} {w : World} : Ends Q E (.error e, w) ↔ E e w := Iff.rfl

theorem Ends.mono {α : Type} {Q Q' : α → World → Prop} {E E' : Error → World → Prop}
    {r : Except Error α × World} (h : Ends Q E r) (hQ : ∀ a w, Q a w → Q' a w)
    (hE : ∀ e w, E e w → E' e w) : Ends Q' E' r :=
  match r, h with
  | (.ok a, w), h => hQ a w h
  | (.error e, w), h => hE e w h

/-- Soundness of triples for `Op`: from a world meeting the precondition, the run ends
where the postcondition says. -/
theorem ends_of_triple {α : Type} {x : Op α} {P : World → Prop} {Q : α → World → Prop}
    {E : Error → World → Prop}
    (h : ⦃fun w => ⌜P w⌝⦄ x ⦃post⟨fun a w => ⌜Q a w⌝, fun e w => ⌜E e w⌝⟩⦄) {w : World}
    (hw : P w) : Ends Q E (x.exec w) := by
  have hwp := h w hw
  simp only [WP.wp, Id.run] at hwp
  simp at hwp
  unfold exec
  revert hwp
  rcases StateT.run (ExceptT.run x) w with ⟨_ | _, w'⟩ <;> simp

/-- A triple whose two postconditions are one property of the world: the property holds
after every run, answered or refused. -/
theorem world_of_triple {α : Type} {x : Op α} {P R : World → Prop}
    (h : ⦃fun w => ⌜P w⌝⦄ x ⦃post⟨fun _ w => ⌜R w⌝, fun _ w => ⌜R w⌝⟩⦄) {w : World}
    (hw : P w) : R (x.exec w).2 := by
  have hend := ends_of_triple h hw
  revert hend
  rcases x.exec w with ⟨_ | _, w'⟩ <;> simp

attribute [spec] store modifyStore now settings freshId require found atomically

end Op

end OnrampLedger
