import Mathlib.Data.List.Forall2
import Mathlib.Data.List.TakeDrop
import Mathlib.Data.List.TakeWhile
import GuestBridge.Fetch.Image

/-!
# Which addresses are images

`isImageUrl` cuts an address three times: at the first `?` or `#`, after the last `/` and after
the last dot. Documented is a test of how the path ends. `Url.isImageUrl_iff` is the bridge
between the two, over the address in lower case; `Url.isImageUrl_grammar` is the rule with what it
says of queries, fragments, directories and upper case.
-/

set_option autoImplicit false

namespace GuestBridge.Url

/-! ## Upper and lower case -/

/-- `d` is the lower case of the ASCII letter `c`. -/
def Lowers (c d : Char) : Prop :=
  'A'.toNat ≤ c.toNat ∧ c.toNat ≤ 'Z'.toNat ∧ d.toNat = c.toNat + 32

/-- The same character, or one ASCII letter in its two cases. -/
def SameLetter (c d : Char) : Prop := c = d ∨ Lowers c d ∨ Lowers d c

theorem toNat_toLower (c : Char) :
    c.toLower.toNat = if 65 ≤ c.toNat ∧ c.toNat ≤ 90 then c.toNat + 32 else c.toNat := by
  have hshift : ('a'.val - 'A'.val).toNat = 32 := rfl
  have hrange : 'A'.val ≤ c.val ∧ c.val ≤ 'Z'.val ↔ 65 ≤ c.toNat ∧ c.toNat ≤ 90 := by
    rw [UInt32.le_iff_toNat_le, UInt32.le_iff_toNat_le]
    rfl
  show (dite ('A'.val ≤ c.val ∧ c.val ≤ 'Z'.val) _ _ : Char).toNat = _
  by_cases hc : 65 ≤ c.toNat ∧ c.toNat ≤ 90
  · rw [dif_pos (hrange.2 hc), if_pos hc]
    show (c.val + ('a'.val - 'A'.val)).toNat = c.toNat + 32
    rw [UInt32.toNat_add, hshift, Nat.mod_eq_of_lt (by unfold Char.toNat at hc; omega)]
    rfl
  · rw [dif_neg fun h => hc (hrange.1 h), if_neg hc]

/-- Lower case forgets the case of ASCII letters and nothing else. -/
theorem toLower_eq_iff {c d : Char} : c.toLower = d.toLower ↔ SameLetter c d := by
  have hinj : ∀ a b : Char, a = b ↔ a.toNat = b.toNat := fun a b =>
    ⟨congrArg _, Char.toNat_inj.mp⟩
  have hA : 'A'.toNat = 65 := rfl
  have hZ : 'Z'.toNat = 90 := rfl
  rw [SameLetter, Lowers, Lowers, hinj, hinj, toNat_toLower, toNat_toLower, hA, hZ]
  split <;> split <;> omega

/-- Signs and digits have no case. -/
theorem toLower_eq_iff_of_lt {mark c : Char} (h : mark.toNat < 'A'.toNat) :
    c.toLower = mark ↔ c = mark := by
  have hA : 'A'.toNat = 65 := rfl
  have hlow : mark.toLower = mark := by
    apply Char.toNat_inj.mp
    rw [toNat_toLower, if_neg (by omega)]
  constructor
  · intro hc
    rw [← hlow, toLower_eq_iff] at hc
    obtain hc | ⟨hc, -, hmark⟩ | ⟨hmark, -⟩ := hc
    · exact hc
    · omega
    · omega
  · rintro rfl
    exact hlow

/-- Two texts that are the same up to the case of ASCII letters. -/
abbrev SameText (cs ds : List Char) : Prop := List.Forall₂ SameLetter cs ds

theorem sameText_iff {cs ds : List Char} :
    SameText cs ds ↔ cs.map Char.toLower = ds.map Char.toLower := by
  rw [← List.forall₂_eq_eq_eq, List.forall₂_map_left_iff, List.forall₂_map_right_iff]
  simp only [toLower_eq_iff]

/-! ## The path -/

/-- Neither of the marks that end a path. -/
abbrev Unmarked (cs : List Char) : Prop := ∀ c ∈ cs, c ≠ '?' ∧ c ≠ '#'

/-- The longest beginning of an address with neither `?` nor `#`. -/
structure IsPath (p url : List Char) : Prop where
  begins : p <+: url
  unmarked : Unmarked p
  longest : ∀ q, q <+: url → Unmarked q → q.length ≤ p.length

theorem unmarked_path (url : List Char) : Unmarked (path url) := by
  intro c hc
  simpa using List.mem_takeWhile_imp hc

theorem path_append {front : List Char} (h : Unmarked front) (url : List Char) :
    path (front ++ url) = front ++ path url :=
  List.takeWhile_append_of_pos fun c hc => by simpa using h c hc

/-- Nothing from the first mark on is part of the path. -/
theorem path_append_mark {mark : Char} (hm : mark = '?' ∨ mark = '#') (url rest : List Char) :
    path (url ++ mark :: rest) = path url := by
  induction url with
  | nil => obtain rfl | rfl := hm <;> simp [path]
  | cons c url ih =>
    simp only [path, List.cons_append, List.takeWhile_cons] at ih ⊢
    split
    · rw [ih]
    · rfl

theorem isPath_path (url : List Char) : IsPath (path url) url where
  begins := List.takeWhile_prefix _
  unmarked := unmarked_path url
  longest q hq hfree := by
    obtain ⟨rest, rfl⟩ := hq
    rw [path_append hfree, List.length_append]
    omega

theorem IsPath.eq_path {p url : List Char} (h : IsPath p url) : p = path url := by
  have hle : p.length ≤ (path url).length := (isPath_path url).longest p h.begins h.unmarked
  have hge : (path url).length ≤ p.length :=
    h.longest _ (isPath_path url).begins (unmarked_path url)
  have hp : p <+: path url := List.prefix_of_prefix_length_le h.begins (isPath_path url).begins hle
  exact hp.eq_of_length (by omega)

/-- Lower case makes no mark and hides none. -/
theorem path_map_toLower (url : List Char) :
    path (url.map Char.toLower) = (path url).map Char.toLower := by
  rw [path, path, List.takeWhile_map]
  congr 2
  funext c
  have hquery : c.toLower = '?' ↔ c = '?' := toLower_eq_iff_of_lt (by decide)
  have hfragment : c.toLower = '#' ↔ c = '#' := toLower_eq_iff_of_lt (by decide)
  simp [bne, BEq.beq, hquery, hfragment]

/-! ## What follows the last of a mark -/

theorem afterLast?_append {mark : Char} {tail : List Char} (h : mark ∉ tail) (front : List Char) :
    afterLast? mark (front ++ mark :: tail) = some tail := by
  have hfree : ∀ c ∈ tail.reverse, (c != mark) = true := by
    intro c hc
    simpa using fun (he : c = mark) => h (he ▸ List.mem_reverse.mp hc)
  rw [afterLast?, if_pos (by simp), List.reverse_append, List.reverse_cons, List.append_assoc,
    List.takeWhile_append_of_pos hfree]
  simp

theorem exists_last {mark : Char} {cs : List Char} (h : mark ∈ cs) :
    ∃ front tail, cs = front ++ mark :: tail ∧ mark ∉ tail := by
  obtain ⟨tail, front, hcs, hfree⟩ := List.eq_append_cons_of_mem (List.mem_reverse.mpr h)
  refine ⟨front.reverse, tail.reverse, ?_, by simpa using hfree⟩
  rw [← cs.reverse_reverse, hcs]
  simp

theorem afterLast?_eq_some_iff {mark : Char} {cs tail : List Char} :
    afterLast? mark cs = some tail ↔ mark ∉ tail ∧ mark :: tail <:+ cs := by
  constructor
  · intro h
    by_cases hm : mark ∈ cs
    · obtain ⟨front, last, rfl, hfree⟩ := exists_last hm
      rw [afterLast?_append hfree] at h
      cases h
      exact ⟨hfree, List.suffix_append ..⟩
    · simp [afterLast?, hm] at h
  · rintro ⟨hfree, front, rfl⟩
    exact afterLast?_append hfree front

/-- What holds no slash ends the path if and only if it ends the last segment. -/
theorem suffix_file_iff {tail path : List Char} (h : '/' ∉ tail) :
    tail <:+ file path ↔ tail <:+ path := by
  rw [file]
  cases hlast : afterLast? '/' path with
  | none => rfl
  | some last =>
    obtain ⟨-, hends⟩ := afterLast?_eq_some_iff.mp hlast
    rw [Option.getD_some]
    constructor
    · intro ht
      exact ht.trans ((List.suffix_cons ..).trans hends)
    · intro ht
      -- of two endings one ends the other, and the longer would begin with the slash or before
      by_cases hlen : tail.length ≤ last.length
      · exact List.suffix_of_suffix_length_le ht ((List.suffix_cons ..).trans hends) hlen
      · have hmore : '/' :: last <:+ tail :=
          List.suffix_of_suffix_length_le hends ht (by rw [List.length_cons]; omega)
        exact absurd (hmore.subset (List.mem_cons_self ..)) h

theorem extension?_eq_some_iff {url ext : List Char} (h : '/' ∉ ext) :
    extension? url = some ext ↔ '.' ∉ ext ∧ '.' :: ext <:+ path url := by
  rw [extension?, afterLast?_eq_some_iff, suffix_file_iff (by simpa using h)]

/-! ## The rule -/

/-- How the path of an image ends. -/
def imageEndings : List String := [".png", ".jpg", ".jpeg", ".gif", ".webp", ".bmp"]

/-- Whether `p` ends in one of the endings of images, up to the case of ASCII letters. -/
def EndsAsImage (p : List Char) : Prop :=
  ∃ ending ∈ imageEndings, ∃ last, last <:+ p ∧ SameText last ending.toList

theorem mem_map_toLower_iff {mark : Char} {cs : List Char} (h : mark.toNat < 'A'.toNat) :
    mark ∈ cs.map Char.toLower ↔ mark ∈ cs := by
  simp only [List.mem_map, toLower_eq_iff_of_lt h, exists_eq_right]

theorem not_mem_of_known {known : String} (h : known ∈ imageExtensions) :
    '/' ∉ known.toList ∧ '.' ∉ known.toList := by
  revert known
  decide

/-- The endings are the extensions behind a dot, all in lower case. -/
theorem endsAsImage_iff {p : List Char} :
    EndsAsImage p ↔ ∃ known ∈ imageExtensions, '.' :: known.toList <:+ p.map Char.toLower := by
  have hends : imageEndings = imageExtensions.map ("." ++ ·) := by decide
  have hlow : ∀ known ∈ imageExtensions,
      ("." ++ known).toList.map Char.toLower = '.' :: known.toList := by decide
  simp only [EndsAsImage, hends, List.mem_map, sameText_iff]
  constructor
  · rintro ⟨-, ⟨known, hknown, rfl⟩, last, hlast, hsame⟩
    refine ⟨known, hknown, ?_⟩
    rw [← hlow known hknown, ← hsame]
    exact hlast.map _
  · rintro ⟨known, hknown, front, hfront⟩
    obtain ⟨first, last, rfl, -, hlast⟩ := List.map_eq_append_iff.mp hfront.symm
    refine ⟨_, ⟨known, hknown, rfl⟩, last, List.suffix_append .., ?_⟩
    rw [hlast, hlow known hknown]

/-- The three cuts come to a test of how the path ends. -/
theorem isImageUrl_iff {url : String} : isImageUrl url = true ↔ EndsAsImage (path url.toList) := by
  have hsome : isImageUrl url = true ↔
      ∃ ext, extension? url.toList = some ext ∧ isImageExtension ext = true := by
    rw [isImageUrl]
    cases extension? url.toList <;> simp
  rw [hsome, endsAsImage_iff]
  simp only [isImageExtension, List.any_eq_true, decide_eq_true_eq]
  constructor
  · rintro ⟨ext, hext, known, hknown, hlow⟩
    obtain ⟨hslash, -⟩ := not_mem_of_known hknown
    rw [hlow, mem_map_toLower_iff (by decide)] at hslash
    obtain ⟨-, hends⟩ := (extension?_eq_some_iff hslash).mp hext
    refine ⟨known, hknown, ?_⟩
    rw [hlow]
    exact hends.map Char.toLower
  · rintro ⟨known, hknown, front, hfront⟩
    obtain ⟨first, last, hpath, -, hlast⟩ := List.map_eq_append_iff.mp hfront.symm
    obtain ⟨dot, ext, rfl, hdot, hlow⟩ := List.map_eq_cons_iff.mp hlast
    obtain ⟨hslash, hfree⟩ := not_mem_of_known hknown
    rw [← hlow, mem_map_toLower_iff (by decide)] at hslash hfree
    rw [toLower_eq_iff_of_lt (by decide)] at hdot
    subst hdot
    exact ⟨ext, (extension?_eq_some_iff hslash).mpr ⟨hfree, first, hpath.symm⟩, known, hknown,
      hlow.symm⟩

theorem isImageUrl_congr {url other : String} (h : path url.toList = path other.toList) :
    isImageUrl url = isImageUrl other := by
  rw [Bool.eq_iff_iff, isImageUrl_iff, isImageUrl_iff, h]

/-- What it is for an address to be that of an image, and what that does not depend on. -/
structure Grammar (url : String) : Prop where
  /-- The address has one path. -/
  path : ∃! p, IsPath p url.toList
  /-- The address is accepted if and only if its path ends as those of images do. -/
  ending : isImageUrl url = true ↔ ∃ p, IsPath p url.toList ∧ EndsAsImage p
  query : ∀ rest, isImageUrl (url ++ "?" ++ rest) = isImageUrl url
  fragment : ∀ rest, isImageUrl (url ++ "#" ++ rest) = isImageUrl url
  /-- Directories in front, or anything else with no mark, keep an address accepted. -/
  front : ∀ start : String, Unmarked start.toList → isImageUrl url = true →
    isImageUrl (start ++ url) = true
  /-- Upper and lower case make no difference. -/
  letters : ∀ other : String, SameText url.toList other.toList → isImageUrl other = isImageUrl url

theorem isImageUrl_grammar (url : String) : Grammar url where
  path := ⟨path url.toList, isPath_path _, fun _ hp => hp.eq_path⟩
  ending := by
    rw [isImageUrl_iff]
    constructor
    · intro h
      exact ⟨_, isPath_path _, h⟩
    · rintro ⟨p, hp, h⟩
      exact hp.eq_path ▸ h
  query rest := isImageUrl_congr (by simpa using path_append_mark (.inl rfl) url.toList rest.toList)
  fragment rest :=
    isImageUrl_congr (by simpa using path_append_mark (.inr rfl) url.toList rest.toList)
  front start hstart h := by
    rw [isImageUrl_iff] at h ⊢
    rw [String.toList_append, path_append hstart]
    obtain ⟨ending, hending, last, hlast, hsame⟩ := h
    exact ⟨ending, hending, last, hlast.trans (List.suffix_append ..), hsame⟩
  letters other hsame := by
    rw [Bool.eq_iff_iff, isImageUrl_iff, isImageUrl_iff, endsAsImage_iff, endsAsImage_iff,
      ← path_map_toLower, ← path_map_toLower, sameText_iff.mp hsame]

end GuestBridge.Url
