/-!
# Keys

The machine asks a source of keys which of the sixteen hexadecimal keys are
held.  A host drives a pad by pressing and releasing keys on it.

The main statements say how each event on a pad changes what it answers: a key
number counts modulo the number of keys.
-/

namespace SuperChip

universe u

/-- What answers whether a key is held, and can let go of all keys. -/
class KeySource (κ : Type u) where
  pressed : κ → UInt8 → Bool
  releaseAll : κ → κ

/-- A source of keys that a host presses and releases. -/
class KeyPanel (κ : Type u) extends KeySource κ where
  press : κ → UInt8 → κ
  release : κ → UInt8 → κ

/-- A pad of some number of keys; a key number counts modulo their number. -/
structure KeyPad (count : Nat) where
  held : Vector Bool count
  deriving DecidableEq

/-- The pad of the machine, which looks at the low four bits of a key number. -/
abbrev Keypad := KeyPad 16

/-- A pad with a key for every byte. -/
abbrev WidePad := KeyPad 256

namespace KeyPad

variable {count : Nat}

/-- A pad on which no key is held. -/
def released : KeyPad count where
  held := Vector.replicate count false

/-- Whether a key is held, by its number modulo the number of keys. -/
def pressed (pad : KeyPad count) (key : UInt8) : Bool :=
  pad.held.toArray.getD (key.toNat % count) false

/-- Press a key or let go of it. -/
def set (pad : KeyPad count) (key : UInt8) (down : Bool) : KeyPad count where
  held := pad.held.setIfInBounds (key.toNat % count) down

/-- A pad is driven by pressing and releasing its keys. -/
instance : KeyPanel (KeyPad count) where
  pressed := pressed
  releaseAll _ := released
  press pad key := pad.set key true
  release pad key := pad.set key false

@[simp] theorem pressed_released (key : UInt8) :
    (released : KeyPad count).pressed key = false := by
  simp [released, pressed, Array.getD]

/-- Setting a key answers for every number that means this key. -/
theorem pressed_set (nonempty : 0 < count) (pad : KeyPad count) (changed : UInt8) (down : Bool)
    (key : UInt8) :
    (pad.set changed down).pressed key =
      if changed.toNat % count = key.toNat % count then down else pad.pressed key := by
  have below : key.toNat % count < count := Nat.mod_lt _ nonempty
  simp only [pressed, set, Array.getD, Vector.size_toArray, below, ↓reduceDIte]
  exact Vector.getElem_setIfInBounds below

/-- Different keys may be set in either order. -/
theorem set_comm (pad : KeyPad count) {first second : UInt8} (down other : Bool)
    (different : first.toNat % count ≠ second.toNat % count) :
    (pad.set first down).set second other = (pad.set second other).set first down := by
  unfold set
  rw [Vector.setIfInBound_comm _ _ different]

end KeyPad

end SuperChip
