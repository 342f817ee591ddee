import GuestBridge.Guest.Entry
import GuestBridge.Proofs.Ieee.Integer

/-!
# Calls as the guest sees them

A guest sees the export that is called and the numbers that are passed, and nothing else
(`EntryPoint.wire`). It can read off from them which entry point was meant: `EntryPoint.ofWire?`
takes a number for the word, the signed word or the flag that the export declares in its place, and
gives back every entry point just as it was. So different entry points, and different events of the
page, never come to the same call (`EntryPoint.wire_distinguishes`).
-/

set_option autoImplicit false

namespace GuestBridge

open Ieee

namespace Ieee.Double

/-- The number as an unsigned word that was read as a signed one. -/
def word (x : Double) : UInt32 := x.toInt32.toUInt32

/-- The number as a flag. -/
def flag (x : Double) : Bool := !x.isZero

@[simp] theorem word_ofWord32 (v : UInt32) : (ofWord32 v).word = v := toUInt32_toInt32_ofWord32 v

@[simp] theorem flag_ofBool (b : Bool) : (ofBool b).flag = b := by
  cases b <;> decide

end Ieee.Double

namespace EntryPoint

/-- What a guest sees of a call. -/
def wire (entry : EntryPoint) : String × List Double := (entry.exportName, entry.args)

/-- The call that a guest is told of, if it is one that a bridge makes. -/
def ofWire? : String × List Double → Option EntryPoint
  | ("onInit", [width, height]) => some (.init width.word height.word)
  | ("onKeyDown", [code, down, repeated]) => some (.keyDown code.word down.flag repeated.flag)
  | ("onKeyUp", [code, down]) => some (.keyUp code.word down.flag)
  | ("onMouseDown", [button, x, y]) => some (.mouseDown button.toInt32 x.toInt32 y.toInt32)
  | ("onMouseUp", [button, x, y]) => some (.mouseUp button.toInt32 x.toInt32 y.toInt32)
  | ("onMouseMove", [x, y]) => some (.mouseMove x.toInt32 y.toInt32)
  | ("onResize", [width, height]) => some (.resize width.word height.word)
  | ("onAnimationFrame", [timestamp]) => some (.animationFrame timestamp)
  | ("onEquation", [ptr, len]) => some (.equation ptr.word len.word)
  | ("onFetch", [width, height, ptr, len, token]) =>
    some (.fetch width.word height.word ptr.word len.word token.word)
  | _ => none

theorem ofWire?_wire (entry : EntryPoint) : ofWire? entry.wire = some entry := by
  cases entry <;> simp [wire, exportName, args, ofWire?, Double.toInt32_ofInt32]

theorem wire_injective : Function.Injective wire := by
  intro entry entry' h
  have hread : ofWire? entry.wire = ofWire? entry'.wire := congrArg ofWire? h
  rw [ofWire?_wire, ofWire?_wire] at hread
  exact Option.some.inj hread

end EntryPoint

theorem InputEvent.entryPoint_injective : Function.Injective InputEvent.entryPoint := by
  intro event event' h
  cases event <;> cases event' <;> simp_all [InputEvent.entryPoint]

/-- A guest reads every entry point off its call. Two entry points come to the same call only if
they are the same one, a frame down to the bits of its time, and two events of the page only if
they are the same event. -/
theorem EntryPoint.wire_distinguishes :
    (∀ entry : EntryPoint, ofWire? (entry.exportName, entry.args) = some entry) ∧
    (∀ entry entry' : EntryPoint,
      entry.exportName = entry'.exportName ∧ entry.args = entry'.args ↔ entry = entry') ∧
    ∀ event event' : InputEvent,
      event.entryPoint.exportName = event'.entryPoint.exportName ∧
        event.entryPoint.args = event'.entryPoint.args ↔ event = event' := by
  have hentry (entry entry' : EntryPoint) :
      entry.exportName = entry'.exportName ∧ entry.args = entry'.args ↔ entry = entry' := by
    rw [← wire_injective.eq_iff, wire, wire, Prod.mk.injEq]
  refine ⟨ofWire?_wire, hentry, fun event event' => ?_⟩
  rw [hentry]
  exact InputEvent.entryPoint_injective.eq_iff

/-- The largest token comes as -1, and is read as it was. -/
example : (EntryPoint.fetch 1 1 8 4 4294967295).args[4]? = some (.ofInt (-1)) ∧
    EntryPoint.ofWire? ("onFetch", (EntryPoint.fetch 1 1 8 4 4294967295).args) =
      some (.fetch 1 1 8 4 4294967295) := by
  decide +kernel

end GuestBridge
