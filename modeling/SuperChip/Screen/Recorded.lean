import SuperChip.Screen.Basic

/-!
# Recorded screens

A screen that remembers every change that is asked of it, in order, and a
screen of one colour that no change touches.
-/

namespace SuperChip

universe u

/-- What can be done to a screen. -/
inductive ScreenCall where
  | clear
  | set (cell : Cell) (on : Bool)
  deriving DecidableEq, Repr

/-- A screen with the changes asked of it so far, oldest first. -/
structure Recorded (δ : Type u) where
  screen : δ
  calls : Array ScreenCall := #[]

/-- A recorded screen answers as the screen behind it, and keeps what is done to it. -/
instance {δ : Type u} [Screen δ] : Screen (Recorded δ) where
  clear recorded :=
    { screen := Screen.clear recorded.screen
      calls := recorded.calls.push .clear }
  lit recorded cell := Screen.lit recorded.screen cell
  set recorded cell on :=
    { screen := Screen.set recorded.screen cell on
      calls := recorded.calls.push (.set cell on) }

/-- A screen on which every cell always reads the same. -/
structure Uniform where
  on : Bool
  deriving DecidableEq, Repr

/-- A uniform screen answers always the same, and nothing changes it. -/
instance : Screen Uniform where
  clear screen := screen
  lit screen _ := screen.on
  set screen _ _ := screen

end SuperChip
