import SuperChip.Word
import SuperChip.Table
import SuperChip.Resolution
import SuperChip.Timing
import SuperChip.Font
import SuperChip.Text.Numeral
import SuperChip.Memory
import SuperChip.CallStack
import SuperChip.Rom
import SuperChip.ChaCha
import SuperChip.RandomStream
import SuperChip.Keys
import SuperChip.Screen.Basic
import SuperChip.Screen.FrameBuffer
import SuperChip.Screen.Recorded
import SuperChip.Screen.Sprite
import SuperChip.Screen.Shift
import SuperChip.Operation.Basic
import SuperChip.Operation.Decode
import SuperChip.Operation.Assembly
import SuperChip.Operation.Description
import SuperChip.State.Basic
import SuperChip.State.Control
import SuperChip.State.Arithmetic
import SuperChip.State.Transfer
import SuperChip.Status
import SuperChip.Journal
import SuperChip.Operation.Effect
import SuperChip.Machine.Basic
import SuperChip.Machine.Step
import SuperChip.Machine.Session
import SuperChip.Proofs.Encoding
import SuperChip.Proofs.Ownership
import SuperChip.Proofs.Execution
import SuperChip.Proofs.ControlFlow
import SuperChip.Proofs.Strokes
import SuperChip.Proofs.Footprint
import SuperChip.Proofs.Bounds
import SuperChip.Proofs.Frames
import SuperChip.Proofs.Moments
import SuperChip.Proofs.Lockstep
import SuperChip.Proofs.Perception
import SuperChip.Proofs.Exits
import SuperChip.Proofs.Subroutines
import SuperChip.Proofs.Timers
import SuperChip.Proofs.Interleavings
import SuperChip.Proofs.KeyWait
import SuperChip.Proofs.Diagnostics
import SuperChip.Proofs.ScreenCalls
import SuperChip.Proofs.ScreenIndependence
import SuperChip.Proofs.Masking
import SuperChip.Proofs.Recording
import SuperChip.Proofs.Redraw
import SuperChip.Proofs.Replay
import SuperChip.Proofs.RandomBytes
import SuperChip.Proofs.Loading
import SuperChip.Proofs.SixteenKeys
import SuperChip.Proofs.SavedRegisters
import SuperChip.Proofs.Journals
import SuperChip.Proofs.Glyphs
import SuperChip.Proofs.Sprites
import SuperChip.Proofs.Overlays
import SuperChip.Proofs.Scrolling
import SuperChip.Proofs.Carries
import SuperChip.Proofs.Slots
import SuperChip.Proofs.Blocks
import SuperChip.Proofs.Listings
import SuperChip.Proofs.Disassembly
import SuperChip.Proofs.Histories
import SuperChip.Proofs.Points
import SuperChip.Proofs.HeldKeys
