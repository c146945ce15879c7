import Mathlib.Data.List.DropRight

/-!
# Histories

A history is a list of events, oldest first. Some events wipe out what was put before, some put a
value, and the others do neither. What shows the value put last, and a blank once it was wiped out,
is determined by the values put since the last wipe: `History.eq_getLastD_putSince`.
-/

namespace SuperChip

universe u v

namespace History

variable {α : Type u} {β : Type v} (wipes : α → Bool) (puts? : α → Option β)

/-- The values put since the last event that wipes, oldest first. -/
def putSince (events : List α) : List β :=
  (events.rtakeWhile fun event => !wipes event).filterMap puts?

variable {wipes puts?}

/-- One more event forgets everything if it wipes, and otherwise adds what it puts. -/
theorem putSince_concat (events : List α) (event : α) :
    putSince wipes puts? (events ++ [event]) =
      if wipes event then [] else putSince wipes puts? events ++ (puts? event).toList := by
  have last : [event].filterMap puts? = (puts? event).toList := by
    cases put : puts? event with
    | none => rw [List.filterMap_cons_none put, List.filterMap_nil, Option.toList_none]
    | some value => rw [List.filterMap_cons_some put, List.filterMap_nil, Option.toList_some]
  unfold putSince
  rw [List.rtakeWhile_concat]
  cases wipes event with
  | true => rfl
  | false =>
    rw [Bool.not_false, if_pos rfl, if_neg Bool.noConfusion, List.filterMap_append, last]

/-- **What follows every put shows the last one since the last wipe.** -/
theorem eq_getLastD_putSince {shown : List α → β} {blank : β} (first : shown [] = blank)
    (next : ∀ events event, shown (events ++ [event]) =
      if wipes event then blank else (puts? event).getD (shown events)) (events : List α) :
    shown events = (putSince wipes puts? events).getLastD blank := by
  induction events using List.reverseRecOn with
  | nil => exact first
  | append_singleton events event continued =>
    rw [next, putSince_concat, continued]
    cases wipes event with
    | true => rfl
    | false =>
      rw [if_neg Bool.noConfusion, if_neg Bool.noConfusion]
      cases puts? event with
      | none => rw [Option.toList_none, List.append_nil, Option.getD_none]
      | some value => rw [Option.toList_some, List.getLastD_concat, Option.getD_some]

/-- What is on or off, and off as long as nothing is put, is on if it was put on last. -/
theorem on_iff_getLast?_putSince {puts? : α → Option Bool} {shown : List α → Bool}
    (first : shown [] = false)
    (next : ∀ events event, shown (events ++ [event]) =
      if wipes event then false else (puts? event).getD (shown events)) (events : List α) :
    shown events = true ↔ (putSince wipes puts? events).getLast? = some true := by
  rw [eq_getLastD_putSince first next, List.getLastD_eq_getLast?]
  cases (putSince wipes puts? events).getLast? with
  | none => exact iff_of_false Bool.noConfusion nofun
  | some on => exact (Option.some.injEq on true).symm ▸ Iff.rfl

end History

end SuperChip
