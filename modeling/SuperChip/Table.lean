/-!
# Tables

A table is a vector that is read and written at positions known to be in it.
The laws say what each way of making a table holds at each position, and that
the entries determine the table.
-/

namespace SuperChip

universe u

namespace Table

variable {α : Type u} {size : Nat}

/-- Replace the entry at a position. -/
def put (table : Vector α size) (position : Fin size) (entry : α) : Vector α size :=
  table.set position.val entry position.isLt

/-- Replacing an entry changes its position and no other. -/
theorem get_put (table : Vector α size) (changed : Fin size) (entry : α)
    (position : Fin size) :
    (put table changed entry).get position =
      if changed = position then entry else table.get position := by
  change (table.set changed.val entry changed.isLt)[position.val] = _
  simp only [Vector.getElem_set, Fin.ext_iff]
  rfl

/-- A table made by a rule holds what the rule gives. -/
theorem get_ofFn (entry : Fin size → α) (position : Fin size) :
    (Vector.ofFn entry).get position = entry position := by
  change (Vector.ofFn entry)[position.val] = _
  rw [Vector.getElem_ofFn]

/-- A table of one entry holds it everywhere. -/
theorem get_replicate (entry : α) (position : Fin size) :
    (Vector.replicate size entry).get position = entry := by
  change (Vector.replicate size entry)[position.val] = _
  rw [Vector.getElem_replicate]

/-- The entries determine a table. -/
theorem ext {first second : Vector α size}
    (same : ∀ position, first.get position = second.get position) : first = second := by
  apply Vector.ext
  intro position below
  exact same ⟨position, below⟩

end Table

end SuperChip
