import GuestBridge.Core.State

/-!
# Requests of a bridge

What accepting, cancelling and settling do to the records of the fetches. A cancelled fetch stays
cancelled, and cancelling all pending fetches cancels exactly those besides the ones that were
(`Bridge.isCancelled_cancelPending`). Settling one takes it off the pending ones
(`Bridge.settle_eq`).
-/

set_option autoImplicit false

namespace GuestBridge.Bridge

variable {b : Bridge} {id i j : Nat}

@[simp] theorem requests_length_cancel (b : Bridge) (id : Nat) :
    (b.cancel id).requests.length = b.requests.length := by
  simp [cancel]

theorem isCancelled_cancel (b : Bridge) (i j : Nat) :
    (b.cancel i).isCancelled j = (b.isCancelled j || decide (i = j ∧ j < b.requests.length)) := by
  unfold isCancelled cancel
  rw [List.getElem?_modify]
  rcases hj : b.requests[j]? with _ | request
  · have hlen : ¬ j < b.requests.length := by simpa using hj
    by_cases hij : i = j <;> simp [hij, hlen]
  · have hlen : j < b.requests.length := (List.getElem?_eq_some_iff.1 hj).1
    by_cases hij : i = j <;> simp [hij, hlen]

theorem isCancelled_accept (b : Bridge) {request : FetchRequest} (h : request.cancelled = false)
    (id : Nat) : (b.accept request).2.isCancelled id = b.isCancelled id := by
  unfold isCancelled accept
  rcases Nat.lt_trichotomy id b.requests.length with hlt | heq | hgt
  · simp [List.getElem?_append_left hlt]
  · subst heq
    simp [h]
  · have h1 : (b.requests ++ [request])[id]? = none := by
      rw [List.getElem?_eq_none]
      simp
      omega
    have h2 : b.requests[id]? = none := List.getElem?_eq_none (by omega)
    simp [h1, h2]

theorem exists_of_isCancelled (h : b.isCancelled id = true) :
    ∃ request, b.requests[id]? = some request ∧ request.cancelled = true := by
  unfold isCancelled at h
  rcases hr : b.requests[id]? with _ | request <;> rw [hr] at h
  · cases h
  · exact ⟨request, rfl, h⟩

/-! ## Settling -/

/-- Where no fetch is pending twice, one is taken off and nothing else changes. -/
theorem settle_eq (h : b.pending.Nodup) (id : Nat) :
    b.settle id = { b with pending := b.pending.erase id } := by
  unfold settle
  rw [h.erase_eq_filter]
  congr 2
  funext i
  by_cases hi : i = id <;> simp [hi]

theorem settle_of_not_mem (h : id ∉ b.pending) : b.settle id = b := by
  have hsame : b.pending.filter (· ≠ id) = b.pending := by
    apply List.filter_eq_self.2
    intro i hi
    exact decide_eq_true fun he => h (he ▸ hi)
  unfold settle
  rw [hsame]

/-! ## Cancelling many -/

theorem foldl_cancel (ids : List Nat) (b : Bridge) :
    ∃ requests, ids.foldl cancel b = { b with requests } ∧
      requests.length = b.requests.length := by
  induction ids generalizing b with
  | nil => exact ⟨b.requests, rfl, rfl⟩
  | cons id ids ih =>
    obtain ⟨requests, he, hl⟩ := ih (b.cancel id)
    exact ⟨requests, he, hl.trans (requests_length_cancel b id)⟩

theorem isCancelled_foldl_cancel (ids : List Nat) (b : Bridge) (j : Nat) :
    (ids.foldl cancel b).isCancelled j =
      (b.isCancelled j || decide (j ∈ ids ∧ j < b.requests.length)) := by
  induction ids generalizing b with
  | nil => simp
  | cons id ids ih =>
    rw [List.foldl_cons, ih, isCancelled_cancel, requests_length_cancel]
    by_cases hlt : j < b.requests.length
    · by_cases hid : id = j
      · simp [hid, hlt]
      · simp [hid, Ne.symm hid, hlt]
    · simp [hlt]

theorem cancelPending_eq (b : Bridge) :
    ∃ requests, b.cancelPending = { b with requests, pending := [] } ∧
      requests.length = b.requests.length := by
  obtain ⟨requests, he, hl⟩ := foldl_cancel b.pending b
  exact ⟨requests, by rw [cancelPending, he], hl⟩

theorem isCancelled_cancelPending (b : Bridge) (j : Nat) :
    b.cancelPending.isCancelled j =
      (b.isCancelled j || decide (j ∈ b.pending ∧ j < b.requests.length)) :=
  isCancelled_foldl_cancel b.pending b j

/-! ## Requests as they were accepted -/

/-- The request of a fetch as it was accepted. -/
def accepted? (b : Bridge) (id : Nat) : Option FetchRequest :=
  b.requests[id]?.map fun request => { request with cancelled := false }

theorem accepted?_cancel (b : Bridge) (i id : Nat) :
    (b.cancel i).accepted? id = b.accepted? id := by
  unfold accepted? cancel
  rw [List.getElem?_modify]
  by_cases h : i = id <;> cases b.requests[id]? <;> simp [h]

theorem accepted?_foldl_cancel (ids : List Nat) (b : Bridge) (id : Nat) :
    (ids.foldl cancel b).accepted? id = b.accepted? id := by
  induction ids generalizing b with
  | nil => rfl
  | cons i ids ih => rw [List.foldl_cons, ih, accepted?_cancel]

theorem accepted?_cancelPending (b : Bridge) (id : Nat) :
    b.cancelPending.accepted? id = b.accepted? id :=
  accepted?_foldl_cancel b.pending b id

theorem accepted?_eq_none {b : Bridge} {id : Nat} :
    b.accepted? id = none ↔ b.requests.length ≤ id := by
  simp [accepted?]

theorem isCancelled_eq {request : FetchRequest} (h : b.requests[id]? = some request) :
    b.isCancelled id = request.cancelled := by
  simp [isCancelled, h]

theorem accepted?_of_not_cancelled {request : FetchRequest} (h : b.requests[id]? = some request)
    (hc : request.cancelled = false) : b.accepted? id = some request := by
  cases request
  cases hc
  simp [accepted?, h]

theorem accepted?_accept (b : Bridge) {request : FetchRequest} (h : request.cancelled = false)
    (id : Nat) : (b.accept request).2.accepted? id =
      if id = b.requests.length then some request else b.accepted? id := by
  unfold accepted? accept
  rw [List.getElem?_append]
  split
  · rw [if_neg (by omega)]
  · split
    · cases request
      cases h
      simp_all
    · rw [List.getElem?_eq_none (by simp; omega), List.getElem?_eq_none (by omega)]

end GuestBridge.Bridge
