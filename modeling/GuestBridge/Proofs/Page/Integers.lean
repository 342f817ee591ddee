import GuestBridge.Proofs.Ieee.Integer
import GuestBridge.Proofs.Page.Trails

/-!
# Integers that cross the boundary

Whatever integer passes between a bridge and its guest passes as a double that stands for a signed
32-bit number: the arguments of an entry point, those of an import, and the pointers that the
allocator answers. `Page.integers_cross` says that none of them is lost on the way, and what comes
of that in a session: a guest is told of an image under the very token with which it has asked for
it, and can pass the region that it is told of back to any import.
-/

set_option autoImplicit false

namespace GuestBridge

open Ieee

/-- The integers that a call passes, read as unsigned words; a frame comes with none. -/
def EntryPoint.words : EntryPoint → List UInt32
  | init width height | resize width height => [width, height]
  | keyDown code down repeated => [code, down.toUInt32, repeated.toUInt32]
  | keyUp code down => [code, down.toUInt32]
  | mouseDown button x y | mouseUp button x y => [button.toUInt32, x.toUInt32, y.toUInt32]
  | mouseMove x y => [x.toUInt32, y.toUInt32]
  | animationFrame _ => []
  | equation ptr len => [ptr, len]
  | fetch width height ptr len token => [width, height, ptr, len, token]

theorem EntryPoint.args_eq {entry : EntryPoint}
    (h : ∀ timestamp, entry ≠ .animationFrame timestamp) :
    entry.args = entry.words.map .ofWord32 := by
  cases entry with
  | animationFrame timestamp => exact (h timestamp rfl).elim
  | _ => simp [args, words, Double.ofWord32_toUInt32, Double.ofBool_eq]

namespace Arguments

variable {args : Arguments} {i : Nat}

theorem word_of_ofWord32 {v : UInt32} (h : args.value i = .number (.ofWord32 v)) :
    args.word i = v := by
  unfold word int number
  rw [h]
  exact Double.toUInt32_toInt32_ofWord32 v

theorem word_of_ofInt32 {t : Int32} (h : args.value i = .number (.ofInt32 t)) :
    Double.ofWord32 (args.word i) = .ofInt32 t := by
  rw [← Double.ofWord32_toUInt32 t] at h
  rw [word_of_ofWord32 h, Double.ofWord32_toUInt32]

end Arguments

namespace Page

/-- What the guest of a bridge is told of by a call has been asked for and copied before, in this
order. -/
structure Answers (before : List Stage) (owner : Nat) (c : Completion) (args : Arguments)
    (fetch : Accepted) (image : DecodedImage) (ptr : UInt32) (memory : Memory) : Prop where
  request : fetch.id = c.request
  order : [.asked owner args fetch, .copied owner fetch image ptr memory].Sublist before
  /-- A token that is a signed word is told as it was given. -/
  token : ∀ t, args.value 2 = .number (.ofInt32 t) → c.entry.args[4]? = some (.ofInt32 t)
  /-- The region that the guest is told of is, as arguments of any import, the one that the pixels
  were copied to. -/
  region : ∀ x y, c.entry.args[2]? = some x → c.entry.args[3]? = some y →
    ∀ (back : Arguments) i j, back.value i = .number x → back.value j = .number y →
      back.word i = ptr ∧ (back.word j).toNat = image.pixels.length ∧
        memory.readBytes (back.word i) (back.word j) = .ok image.pixels

variable {stages before after : List Stage} {owner size : Nat} {q : Page}

theorem Trail.answers {c : Completion}
    (h : Trail (fresh size) (before ++ .told owner c :: after) q) :
    ∃ args fetch image ptr memory, Answers before owner c args fetch image ptr memory := by
  obtain ⟨fetch, image, ptr, memory, hcopied, rfl⟩ := h.copied_of_told
  obtain ⟨earlier, between, rfl⟩ := List.append_of_mem hcopied
  have hask : Trail (fresh size) (earlier ++ .copied owner fetch image ptr memory ::
      (between ++ .told owner (Bench.completion fetch image ptr) :: after)) q := by
    simpa using h
  obtain ⟨args, hasked⟩ := hask.asked_of_copied
  obtain ⟨hb, hread⟩ := h.readBytes_of_copied (List.mem_append_left _ hcopied)
  have htoken : fetch.request.token = args.word 2 :=
    h.token_eq (List.mem_append_left _ (List.mem_append_left _ hasked))
  refine ⟨args, fetch, image, ptr, memory, rfl, ?_, ?_, ?_⟩
  · exact (List.singleton_sublist.2 hasked).append ((List.nil_sublist _).cons_cons _)
  · intro t ht
    show some (Double.ofWord32 fetch.request.token) = _
    rw [htoken, Arguments.word_of_ofInt32 ht]
  · rintro _ _ ⟨⟩ ⟨⟩ back i j hi hj
    rw [Arguments.word_of_ofWord32 hi, Arguments.word_of_ofWord32 hj]
    exact ⟨rfl, UInt32.toNat_ofNat_of_lt' hb, hread⟩

/-- The token -1 is among the upper half of the words. -/
example :
    let fetchBytes := PageStep.importCall "fetchBytes"
      [.number .zero, .number (.ofInt 5), .number (.ofInt (-1))]
    (run [.start, .setImage "a.png" ⟨1, 1, [1, 2, 3, 4]⟩, .poke 0 (Text.utf8 "a.png"), fetchBytes,
        .runAll] (fresh 64)).fetchCalls = [.fetch 1 1 8 4 4294967295] ∧
      (EntryPoint.fetch 1 1 8 4 4294967295).args[4]? = some (.ofInt (-1)) := by
  decide +kernel

end Page

end GuestBridge
