import SuperChip.CallStack
import SuperChip.Table

/-!
# The call stack as a bounded list

Seen through its saved addresses the call stack is a list of at most sixteen entries that grows and
shrinks at its end. Equality of stacks sees more: an address that was taken stays in its slot until
another one is saved there. So two stacks are equal when they have the same depth and the same
address was saved last into every slot, and what was refused counts for neither.

The main statement is `CallStack.refines_bounded_list`, for every sequence of calls on an empty
stack. It follows from two laws about any stack, `CallStack.runAll_performOnList_toList` for the
view and `CallStack.get_slots_performAll` for the slots.
-/

namespace SuperChip

/-- What can be asked of a call stack. -/
inductive StackCall where
  | save (address : Address)
  | take
  deriving DecidableEq, Repr

/-- What a call stack replies. -/
inductive StackReply where
  | saved
  /-- All slots are taken; the address is given back. -/
  | refused (address : Address)
  | taken (address? : Option Address)
  deriving DecidableEq, Repr

/-- The replies to a sequence of calls, and what it leaves. -/
structure StackRun (σ : Type) where
  replies : List StackReply
  left : σ

namespace StackCall

/-- Calls one after the other, each on what the one before has left. -/
def runAll {σ : Type} (perform : σ → StackCall → StackReply × σ) (start : σ) :
    List StackCall → StackRun σ
  | [] => { replies := [], left := start }
  | call :: rest =>
      let first := perform start call
      let later := runAll perform first.2 rest
      { replies := first.1 :: later.replies, left := later.left }

/-- One call on a list of at most sixteen addresses, oldest first. -/
def performOnList (saved : List Address) : StackCall → StackReply × List Address
  | save address =>
      if saved.length < 16 then (.saved, saved ++ [address]) else (.refused address, saved)
  | take => (.taken saved.getLast?, saved.dropLast)

/-- The depth of a stack after a call, from its depth before. -/
def nextDepth (depth : Nat) : StackCall → Nat
  | save _ => if depth < 16 then depth + 1 else depth
  | take => depth - 1

/-- The addresses that calls save while the depth is that of a slot, oldest first. -/
def savedInto (slot : Fin 16) (depth : Nat) : List StackCall → List Address
  | [] => []
  | save address :: rest =>
      if depth = slot.val then address :: savedInto slot (nextDepth depth (save address)) rest
      else savedInto slot (nextDepth depth (save address)) rest
  | take :: rest => savedInto slot (nextDepth depth take) rest

/-- The address saved last into a slot of an empty stack, and zero if there is none. -/
def lastInto (slot : Fin 16) (calls : List StackCall) : Address :=
  (savedInto slot 0 calls).getLastD 0

end StackCall

namespace CallStack

/-- One call on a call stack. -/
def perform (stack : CallStack) : StackCall → StackReply × CallStack
  | .save address =>
      match stack.push address with
      | .ok saved => (.saved, saved)
      | .error refused => (.refused refused, stack)
  | .take =>
      match stack.pop? with
      | some (address, rest) => (.taken (some address), rest)
      | none => (.taken none, stack)

/-- Calls one after the other on a call stack. -/
def performAll (stack : CallStack) (calls : List StackCall) : StackRun CallStack :=
  StackCall.runAll perform stack calls

/-- The depth and the slots determine a call stack. -/
theorem ext_slots {first second : CallStack} (depth : first.depth = second.depth)
    (slots : ∀ slot, first.slots.get slot = second.slots.get slot) : first = second := by
  cases first
  cases second
  congr
  exact Table.ext slots

variable (stack : CallStack)

/-- A call sees of a stack only its saved addresses. -/
theorem performOnList_toList (call : StackCall) :
    StackCall.performOnList stack.toList call =
      ((stack.perform call).1, (stack.perform call).2.toList) := by
  cases call with
  | save address =>
    dsimp only [StackCall.performOnList, perform]
    rw [length_toList]
    cases pushed : stack.push address with
    | error refused =>
      obtain ⟨full, rfl⟩ := (push_eq_error_iff stack address refused).mp pushed
      rw [if_neg (by omega)]
    | ok saved =>
      have room := (isOk_push_iff stack address).mp (pushed ▸ rfl)
      rw [if_pos room, toList_of_push pushed]
  | take =>
    dsimp only [StackCall.performOnList, perform]
    rw [← map_fst_pop?]
    cases popped : stack.pop? with
    | none =>
      have nothing := (pop?_eq_none_iff stack).mp popped
      have empty : stack.toList = [] :=
        List.eq_nil_of_length_eq_zero (by rw [length_toList, nothing])
      rw [empty]
      rfl
    | some taken =>
      obtain ⟨address, rest⟩ := taken
      rw [toList_of_pop? popped, List.dropLast_concat]
      rfl

/-- The depth after a call goes by the depth before it alone. -/
theorem depth_perform (call : StackCall) :
    (stack.perform call).2.depth = StackCall.nextDepth stack.depth call := by
  have listed := congrArg (fun run => run.2.length) (stack.performOnList_toList call)
  simp only [length_toList] at listed
  rw [← listed]
  cases call with
  | save address =>
    dsimp only [StackCall.performOnList, StackCall.nextDepth]
    rw [length_toList]
    split <;> simp
  | take => simp [StackCall.performOnList, StackCall.nextDepth]

/-- Only an address saved at the depth of a slot is put there. -/
theorem get_slots_perform (call : StackCall) (slot : Fin 16) :
    (stack.perform call).2.slots.get slot =
      (StackCall.savedInto slot stack.depth [call]).getLastD (stack.slots.get slot) := by
  cases call with
  | save address =>
    dsimp only [perform]
    rw [StackCall.savedInto]
    cases pushed : stack.push address with
    | error refused =>
      obtain ⟨full, -⟩ := (push_eq_error_iff stack address refused).mp pushed
      rw [if_neg (by omega)]
      rfl
    | ok saved =>
      refine (get_slots_of_push pushed slot).trans ?_
      split <;> rfl
  | take =>
    dsimp only [perform]
    cases popped : stack.pop? with
    | none => rfl
    | some taken => exact congrArg (Vector.get · slot) (slots_of_pop? popped)

/-- **The saved addresses are a list of at most sixteen entries.** -/
theorem runAll_performOnList_toList (calls : List StackCall) :
    StackCall.runAll StackCall.performOnList stack.toList calls =
      { replies := (stack.performAll calls).replies
        left := (stack.performAll calls).left.toList } := by
  induction calls generalizing stack with
  | nil => rfl
  | cons call rest continued =>
    rw [StackCall.runAll, performOnList_toList, continued]
    rfl

/-- **A slot holds what was saved there last.** -/
theorem get_slots_performAll (calls : List StackCall) (slot : Fin 16) :
    (stack.performAll calls).left.slots.get slot =
      (StackCall.savedInto slot stack.depth calls).getLastD (stack.slots.get slot) := by
  -- The content of the slot is carried along: it stands until the calls that follow save there.
  induction calls generalizing stack with
  | nil => rfl
  | cons call rest continued =>
    have first := stack.get_slots_perform call slot
    have later := continued (stack.perform call).2
    rw [depth_perform, first] at later
    refine later.trans ?_
    cases call with
    | save address =>
      simp only [StackCall.savedInto]
      split
      · rw [List.getLastD_cons, List.getLastD_cons]
        rfl
      · rfl
    | take => rfl

/-- A slot holds what was last pushed into it, or zero if nothing ever was. -/
theorem get_slots_performAll_empty (calls : List StackCall) (slot : Fin 16) :
    (empty.performAll calls).left.slots.get slot = StackCall.lastInto slot calls := by
  have blank : empty.slots.get slot = 0 := Table.get_replicate 0 slot
  rw [get_slots_performAll, blank]
  rfl

/-- **The call stack refines a bounded list, and equality remembers the slots.** Calls on an empty
stack are replied to as on a list of at most sixteen addresses and leave its depth and its entries.
What two sequences of calls leave is equal when the depths are and into each slot both saved the
same address last, zero standing for none; so it equals the empty stack when its depth is zero and
the last address saved into each slot is zero. -/
theorem refines_bounded_list :
    (∀ calls : List StackCall,
      let ran := empty.performAll calls
      let listed := StackCall.runAll StackCall.performOnList [] calls
      ran.replies = listed.replies ∧ ran.left.toList = listed.left ∧
        ran.left.depth = listed.left.length ∧ ran.left.isEmpty = listed.left.isEmpty) ∧
    (∀ first second : List StackCall,
      (empty.performAll first).left = (empty.performAll second).left ↔
        (empty.performAll first).left.depth = (empty.performAll second).left.depth ∧
          ∀ slot, StackCall.lastInto slot first = StackCall.lastInto slot second) ∧
    ∀ calls : List StackCall, (empty.performAll calls).left = empty ↔
      (empty.performAll calls).left.depth = 0 ∧ ∀ slot, StackCall.lastInto slot calls = 0 := by
  have equality (first second : List StackCall) :
      (empty.performAll first).left = (empty.performAll second).left ↔
        (empty.performAll first).left.depth = (empty.performAll second).left.depth ∧
          ∀ slot, StackCall.lastInto slot first = StackCall.lastInto slot second := by
    constructor
    · intro same
      refine ⟨congrArg depth same, fun slot => ?_⟩
      rw [← get_slots_performAll_empty, same, get_slots_performAll_empty]
    · rintro ⟨depths, slots⟩
      refine ext_slots depths fun slot => ?_
      rw [get_slots_performAll_empty, slots slot, get_slots_performAll_empty]
  refine ⟨fun calls => ?_, equality, fun calls => equality calls []⟩
  intro ran listed
  have view : listed = { replies := ran.replies, left := ran.left.toList } :=
    empty.runAll_performOnList_toList calls
  have depth : ran.left.depth = ran.left.toList.length := (length_toList ran.left).symm
  rw [view]
  refine ⟨rfl, rfl, depth, ?_⟩
  rw [isEmpty, depth]
  cases ran.left.toList <;> rfl

/-- An address that was taken is still in its slot, out of sight. -/
example :
    let left := (empty.performAll [.save 0x202, .take]).left
    left.toList = [] ∧ left ≠ empty := by
  decide

end CallStack

end SuperChip
