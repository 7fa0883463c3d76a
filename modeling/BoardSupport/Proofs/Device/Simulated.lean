import BoardSupport.Device.Simulated

/-!
# Reading a Simulated Device

What a read of a simulated device answers and leaves behind.

A read can use up an answer that was laid out for its register, or a byte that a
flash controller has queued. Otherwise it answers the stored word and changes
nothing. In no case does it change a stored word or an answer that was laid out
for another register, and it does not make one kind of device another.

## Theorems

* `Device.Simulated.answer_stored`: A read that answers what is stored.
* `Device.Simulated.registers_answer`, `Device.Simulated.scripts_answer`,
  `Device.Simulated.reaction_answer`: What every read leaves behind.
-/

namespace BoardSupport

namespace Device

namespace Simulated

/-- Where no answer is laid out and the reaction has none, a read answers what is
    stored. -/
theorem answer_stored (d : Simulated) (offset : Nat) (hscript : d.scripts.getD offset [] = [])
    (hreaction : ∀ model, d.reaction = .flash model → model.answer? offset = none) :
    d.answer offset = (d.registers.peek offset, d) := by
  unfold answer
  rw [hscript]
  cases hr : d.reaction with
  | none | i2c model => rfl
  | flash model => simp only [hreaction model hr]

/-- A read changes no stored word. -/
theorem registers_answer (d : Simulated) (offset : Nat) :
    (d.answer offset).2.registers = d.registers := by
  unfold answer
  split
  · rfl
  split
  · split <;> rfl
  · rfl

/-- A read lays out no answers. -/
theorem scripts_answer (d : Simulated) (offset other : Nat) (h : d.scripts.getD other [] = []) :
    (d.answer offset).2.scripts.getD other [] = [] := by
  unfold answer
  split
  · rename_i word rest hscript
    have hother : offset ≠ other := by
      rintro rfl
      rw [h] at hscript
      cases hscript
    simp only [Std.TreeMap.getD_insert, Nat.compare_eq_eq, if_neg hother]
    exact h
  split
  · split <;> exact h
  · exact h

/-- A read leaves the reaction as it is, but for what a flash controller has
    queued. -/
theorem reaction_answer (d : Simulated) (offset : Nat) :
    (d.answer offset).2.reaction = d.reaction ∨
      ∃ model model', d.reaction = .flash model ∧
        (d.answer offset).2.reaction = .flash model' := by
  unfold answer
  split
  · exact Or.inl rfl
  split
  · rename_i model hr
    split
    · exact Or.inr ⟨model, _, hr, rfl⟩
    · exact Or.inl rfl
  · exact Or.inl rfl

end Simulated

end Device

end BoardSupport
