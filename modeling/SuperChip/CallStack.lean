import SuperChip.Word

/-!
# The call stack

Return addresses of nested calls, at most sixteen.  Taking an address off the
top leaves it in its slot, and two stacks are equal only if they agree on these
old entries too; `toList` is the view that ignores them.  Through this view
saving appends at the end and taking removes the last address.
-/

namespace SuperChip

/-- Sixteen slots, of which the first `depth` hold return addresses. -/
structure CallStack where
  slots : Vector Address 16
  depth : Nat
  depth_le : depth ≤ 16
  deriving DecidableEq

namespace CallStack

/-- The most return addresses that fit. -/
def capacity : Nat := 16

/-- No return address, and nothing left from earlier ones. -/
def empty : CallStack where
  slots := Vector.replicate 16 0
  depth := 0
  depth_le := Nat.zero_le 16

/-- Whether no return address is saved. -/
def isEmpty (stack : CallStack) : Bool :=
  stack.depth == 0

/-- Save a return address; when all slots are taken the address is given back. -/
def push (stack : CallStack) (address : Address) : Except Address CallStack :=
  if room : stack.depth < 16 then
    .ok
      { slots := stack.slots.set stack.depth address
        depth := stack.depth + 1
        depth_le := room }
  else
    .error address

/-- Take the address saved last. -/
def pop? (stack : CallStack) : Option (Address × CallStack) :=
  if saved : 0 < stack.depth then
    have bound : stack.depth - 1 < 16 := by
      have := stack.depth_le
      omega
    some (stack.slots[stack.depth - 1],
      { slots := stack.slots
        depth := stack.depth - 1
        depth_le := Nat.le_of_lt bound })
  else
    none

/-- The saved addresses, oldest first. -/
def toList (stack : CallStack) : List Address :=
  stack.slots.toList.take stack.depth

/-- A stack holding the first sixteen of some addresses, oldest first. -/
def ofList (addresses : List Address) : CallStack :=
  addresses.foldl (fun stack address => (stack.push address).toOption.getD stack) empty

/-- The view of a stack has as many entries as the stack is deep. -/
@[simp] theorem length_toList (stack : CallStack) : stack.toList.length = stack.depth := by
  have bound := stack.depth_le
  simp only [toList, List.length_take, Vector.length_toList]
  omega

@[simp] theorem toList_empty : empty.toList = [] := rfl

/-- Saving succeeds as long as a slot is free. -/
theorem isOk_push_iff (stack : CallStack) (address : Address) :
    (stack.push address).isOk = true ↔ stack.depth < 16 := by
  unfold push
  split
  · next room => exact iff_of_true rfl room
  · next full => exact iff_of_false Bool.false_ne_true full

/-- A full stack gives back the address itself. -/
theorem push_eq_error_iff (stack : CallStack) (address refused : Address) :
    stack.push address = .error refused ↔ stack.depth = 16 ∧ refused = address := by
  have bound := stack.depth_le
  unfold push
  split
  · next room =>
    simp only [reduceCtorEq, false_iff, not_and]
    omega
  · next noRoom =>
    have full : stack.depth = 16 := by omega
    simp only [Except.error.injEq, full, true_and, eq_comm]

/-- Saving appends to the saved addresses. -/
theorem toList_of_push {stack saved : CallStack} {address : Address}
    (pushed : stack.push address = .ok saved) :
    saved.toList = stack.toList ++ [address] := by
  unfold push at pushed
  split at pushed
  · next room =>
    obtain rfl := Except.ok.inj pushed
    simp only [toList, Vector.toList_set]
    rw [List.take_add_one, List.take_set_of_le (Nat.le_refl _), List.getElem?_set_self]
    · rfl
    · simpa using room
  · exact absurd pushed (by simp)

/-- There is nothing to take just when the depth is zero. -/
theorem pop?_eq_none_iff (stack : CallStack) : stack.pop? = none ↔ stack.depth = 0 := by
  unfold pop?
  split
  · next saved =>
    simp only [reduceCtorEq, false_iff]
    omega
  · next none_saved =>
    simp only [true_iff]
    omega

/-- Taking removes the last saved address. -/
theorem toList_of_pop? {stack rest : CallStack} {address : Address}
    (popped : stack.pop? = some (address, rest)) :
    stack.toList = rest.toList ++ [address] := by
  have bound := stack.depth_le
  unfold pop? at popped
  split at popped
  · next saved =>
    obtain ⟨rfl, rfl⟩ := Prod.mk.inj (Option.some.inj popped)
    have place : stack.depth - 1 < stack.slots.toList.length := by
      rw [Vector.length_toList]
      omega
    have grown : stack.depth = stack.depth - 1 + 1 := by omega
    simp only [toList]
    conv =>
      lhs
      rw [grown]
    rw [List.take_add_one, List.getElem?_eq_getElem place]
    simp
  · exact absurd popped (by simp)

/-- Saving writes the first free slot and no other. -/
theorem get_slots_of_push {stack saved : CallStack} {address : Address}
    (pushed : stack.push address = .ok saved) (slot : Fin 16) :
    saved.slots.get slot = if stack.depth = slot.val then address else stack.slots.get slot := by
  unfold push at pushed
  split at pushed
  · next room =>
    obtain rfl := Except.ok.inj pushed
    exact Vector.getElem_set room slot.isLt
  · exact absurd pushed (by simp)

/-- Taking leaves every slot as it is, that of the address taken too. -/
theorem slots_of_pop? {stack rest : CallStack} {address : Address}
    (popped : stack.pop? = some (address, rest)) : rest.slots = stack.slots := by
  unfold pop? at popped
  split at popped
  · obtain ⟨-, rfl⟩ := Prod.mk.inj (Option.some.inj popped)
    rfl
  · exact absurd popped (by simp)

/-- The address taken is the one saved last. -/
theorem map_fst_pop? (stack : CallStack) : stack.pop?.map Prod.fst = stack.toList.getLast? := by
  cases popped : stack.pop? with
  | none =>
    have nothing : stack.toList.length = 0 := by
      rw [length_toList]
      exact (pop?_eq_none_iff stack).mp popped
    rw [List.eq_nil_of_length_eq_zero nothing]
    rfl
  | some taken =>
    rw [toList_of_pop? popped, List.getLast?_concat]
    rfl

end CallStack

end SuperChip
