import GuestBridge.Bench.Run
import GuestBridge.Graphics.Numbered
import GuestBridge.Graphics.Scripted

/-!
# Setting up a bench

There are two kinds of benches. On a scripted one, graphics calls go to the context of a page and
every answer of the guest, the host and the images can be told in advance. On a numbered one, the
context notes what it is asked for, the images are test images of given sizes, and the guest
fails in one way only.
-/

set_option autoImplicit false

namespace GuestBridge.Bench

abbrev ScriptedBench := Bench ScriptedContext ScriptedContext.Change

abbrev NumberedBench := Bench NumberedContext NumberedContext.Change

/-- A scripted bench with a guest of `memory` bytes, attached or not. -/
def scripted (memory : Nat) (attached : Bool) : ScriptedBench where
  core := { gl := {}, memory := .zeros memory, bridge := { attached } }

/-- Test images of the given sizes. -/
def testImages (sizes : List (String × UInt32 × UInt32)) : List (String × ImageSource) :=
  sizes.map fun (url, width, height) => (url, .image ⟨width, height, testPixels width height⟩)

/-- A numbered bench with an attached guest of `memory` bytes and test images. -/
def numbered (memory : Nat) (sizes : List (String × UInt32 × UInt32)) : NumberedBench where
  core := { gl := {}, memory := .zeros memory, bridge := { attached := true } }
  guest := { allocator := { growth := .onDemand } }
  images := testImages sizes

/-- The step after which every call of an export fails on a numbered bench. -/
def failOn {C : Type} (name : String) : Step C := .failExport name (some "unreachable executed")

/-- The operation by which a bridge is made to run. -/
def firstInit : Operation := .init 640 480

variable {G C : Type} [GraphicsContext G] [AdjustableContext G C]

/-- A bench whose bridge runs, if its guest is there. -/
def running (b : Bench G C) : Bench G C := (perform (.bridge firstInit) b).2

end GuestBridge.Bench
