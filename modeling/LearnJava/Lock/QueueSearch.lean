import LearnJava.Lock.QueueAdmission

/-!
# Searching the queue

`remove(Object)` and `contains` look for an element that is, or equals, a given object.

The loop of `remove(Object)` goes through the queued elements to their end and so takes out the last
one that matches, and its copy fails once the array has been filled to its end.  It is what a queue
has to do only where these make no difference.

`contains` goes through the whole array instead.  It meets elements that have left the queue, and
cells that were never written: what it answers for a queued element depends on there being no such
cell before one that matches, and it denies an object only if the array has no empty cell and no
match anywhere.
-/

namespace LearnJava

namespace MyLinkedBlockingQueue

variable {α : Type} {q : MyLinkedBlockingQueue α} {o : Option (α → Bool)} {n : ℕ}

/-! ## The properties -/

/-- `toArray()` shows the elements `xs`. -/
def Shows (q : MyLinkedBlockingQueue α) (xs : List (Option α)) : Prop := toArray.run q = .ok xs q

/-- A cell's element is, or equals, the object `o`. -/
def isObject (o : Option (α → Bool)) : Option α → Bool
  | none => false
  | some x => matchesObject o x

/-- `remove(o)` takes out the first of the queued elements that is or equals `o`, and tells whether
there is one. -/
def RemovesFirst (q : MyLinkedBlockingQueue α) (o : Option (α → Bool)) : Prop :=
  ∀ xs, q.Shows xs → ∃ q', (removeObject o).run q = .ok (xs.any (isObject o)) q' ∧
    q'.Shows (xs.eraseP (isObject o))

/-- `contains(o)` tells whether one of the queued elements is or equals `o`. -/
def ContainsQueued (q : MyLinkedBlockingQueue α) (o : Option (α → Bool)) : Prop :=
  ∀ xs, q.Shows xs → ∃ q', (contains o).run q = .ok (xs.any (isObject o)) q'

/-- The array has an element that matches, and no empty cell before it. -/
def FoundFirst (cells : List (Option α)) (o : Option (α → Bool)) : Prop :=
  ∃ (k : ℕ) (x : α), cells[k]? = some (some x) ∧ matchesObject o x = true ∧
    ∀ j < k, cells[j]? ≠ some none

/-- The array has neither an empty cell nor an element that matches. -/
def Nowhere (cells : List (Option α)) (o : Option (α → Bool)) : Prop :=
  none ∉ cells ∧ ∀ x, some x ∈ cells → matchesObject o x = false

lemma shows_iff (hq : q.Valid) {xs : List (Option α)} : q.Shows xs ↔ xs = q.content := by
  rw [Shows, toArray_run hq]
  constructor
  · intro h
    cases h
    rfl
  · rintro rfl
    rfl

lemma any_isObject_iff : q.content.any (isObject o) = true ↔ q.HasMatch o := by
  rw [List.any_eq_true]
  constructor
  · rintro ⟨cell, hcell, hm⟩
    cases cell with
    | none => cases hm
    | some x => exact ⟨x, hcell, hm⟩
  · rintro ⟨x, hx, hm⟩
    exact ⟨some x, hx, hm⟩

lemma any_isObject_eq_false (h : ¬q.HasMatch o) : q.content.any (isObject o) = false := by
  rwa [← Bool.not_eq_true, any_isObject_iff]

/-! ## `remove(Object)` -/

/-- The last matching cell, as a place in the content. -/
lemma LastMatch.content {k : ℕ} (h : q.LastMatch o q.startIndex q.insertIndex k) :
    (∃ x, q.content[k - q.startIndex]? = some (some x) ∧ isObject o (some x) = true) ∧
      ∀ j cell, k - q.startIndex < j → q.content[j]? = some cell → isObject o cell = false := by
  have hle := h.le
  have hlt := h.lt
  constructor
  · obtain ⟨x, hx, hm⟩ := h.hit
    refine ⟨x, ?_, hm⟩
    rw [MyLinkedBlockingQueue.content, getElem?_window, Nat.add_sub_cancel' hle, if_pos hlt, hx]
  · intro j cell hj hcell
    rw [MyLinkedBlockingQueue.content, getElem?_window] at hcell
    split_ifs at hcell with hin
    cases cell with
    | none => rfl
    | some x => exact h.later _ x (by omega) hin hcell

/-- **Removal.**  `remove(o)` on a reachable queue takes out the first element that matches exactly
if none does, or the array is not filled to its end and all elements from the first match to the
last are the same. -/
theorem removesFirst_iff (h : Reachable n q) (hnn : q.NonNull) (o : Option (α → Bool)) :
    q.RemovesFirst o ↔
      ¬q.HasMatch o ∨ q.insertIndex < q.queueSize ∧ SameBetween (isObject o) q.content := by
  have hq := h.valid
  simp only [RemovesFirst, shows_iff hq, forall_eq]
  by_cases hm : q.HasMatch o
  · rw [any_isObject_iff.mpr hm]
    simp only [hm, not_true_eq_false, false_or]
    by_cases hroom : q.insertIndex < q.queueSize
    · obtain ⟨k, hlast, hrun⟩ := removeObject_run hq hnn hm hroom
      have hq' : (q.withoutCell k).Valid := hq.withoutCell hlast.le hlast.lt hroom
      obtain ⟨⟨x, hx, hmatch⟩, hlater⟩ := hlast.content
      rw [← eraseP_eq_eraseIdx_iff hx hmatch hlater,
        ← content_withoutCell hq hlast.le hlast.lt hroom, hrun]
      constructor
      · rintro ⟨q', hq'eq, hshows⟩
        cases hq'eq
        exact ⟨hroom, (shows_iff hq').mp hshows⟩
      · rintro ⟨-, hcontent⟩
        exact ⟨_, rfl, (shows_iff hq').mpr hcontent⟩
    · rw [removeObject_run_full hq hnn hm (hq.insert_le.antisymm (not_lt.mp hroom))]
      refine iff_of_false ?_ fun hall => hroom hall.1
      rintro ⟨q', hrun, -⟩
      cases hrun
  · have hnone := any_isObject_eq_false hm
    refine iff_of_true ⟨q, ?_, ?_⟩ (.inl hm)
    · rw [hnone, removeObject_run_absent hq hnn hm]
    · rw [shows_iff hq, List.eraseP_of_forall_not]
      rw [List.any_eq_false] at hnone
      exact hnone

/-- Two of three places are taken by the same element. -/
def twiceOfThree : MyLinkedBlockingQueue ℕ := (new 3).after [.offer (some 7), .offer (some 7)]

theorem removesFirst_iff_twiceOfThree :
    twiceOfThree.RemovesFirst (some (· == 7)) ↔ ¬twiceOfThree.HasMatch (some (· == 7)) ∨
      twiceOfThree.insertIndex < twiceOfThree.queueSize ∧
        SameBetween (isObject (some (· == 7))) twiceOfThree.content :=
  removesFirst_iff ((Reachable.new.call (.offer (some 7))).call (.offer (some 7)))
    (show ∀ x ∈ twiceOfThree.content, x ≠ none by decide) (some (· == 7))

/-- A matching element on either side of another one. -/
def twoOfFour : MyLinkedBlockingQueue ℕ :=
  (new 4).after [.offer (some 7), .offer (some 8), .offer (some 7)]

/-- A queue of one place, which is taken. -/
def fullOne : MyLinkedBlockingQueue ℕ := (new 1).after [.offer (some 7)]

/-- The last of two equal elements is taken out; and from an array that was filled to its end none
is. -/
theorem twoOfFour_removes_last :
    Reachable 4 twoOfFour ∧ ¬twoOfFour.RemovesFirst (some (· == 7)) ∧
      Reachable 1 fullOne ∧ ¬fullOne.RemovesFirst (some (· == 7)) := by
  refine ⟨((Reachable.new.call _).call _).call _, fun h => ?_, Reachable.new.call _, fun h => ?_⟩
  · obtain ⟨q', hrun, hshows⟩ := h [some 7, some 8, some 7] rfl
    cases hrun
    cases hshows
  · obtain ⟨q', hrun, -⟩ := h [some 7] rfl
    cases hrun

/-! ## `contains` -/

/-- The loop of `contains` answers `true` at a match that comes before an empty cell, and `false` if
there is neither.  At an empty cell it throws, unless it looks for `null`. -/
lemma containsFrom_cases (o : Option (α → Bool)) (cells : List (Option α)) :
    (FoundFirst cells o ∧ (containsFrom o cells).run q = .ok true q) ∨
      (Nowhere cells o ∧ (containsFrom o cells).run q = .ok false q) ∨
      (¬FoundFirst cells o ∧ ¬Nowhere cells o ∧
        ((containsFrom o cells).run q = .error .nullPointerException q ∨
          o = none ∧ (containsFrom o cells).run q = .ok true q)) := by
  induction cells with
  | nil => exact .inr (.inl ⟨⟨by simp, by simp⟩, rfl⟩)
  | cons cell cells ih =>
      cases cell with
      | none =>
          refine .inr (.inr ⟨?_, ?_, ?_⟩)
          · rintro ⟨k, x, hx, -, hbefore⟩
            cases k with
            | zero => cases hx
            | succ k => exact hbefore 0 k.succ_pos rfl
          · rintro ⟨hnone, -⟩
            exact hnone List.mem_cons_self
          · cases o with
            | none => exact .inr ⟨rfl, rfl⟩
            | some eq => exact .inl rfl
      | some x =>
          cases hm : matchesObject o x with
          | true =>
              refine .inl ⟨⟨0, x, rfl, hm, by simp⟩, ?_⟩
              simp [containsFrom, sameOrEqual_run, hm]
          | false =>
              have hrest : (containsFrom o (some x :: cells)).run q =
                  (containsFrom o cells).run q := by
                simp [containsFrom, sameOrEqual_run, hm]
              have hfound : FoundFirst (some x :: cells) o ↔ FoundFirst cells o := by
                constructor
                · rintro ⟨k, y, hy, hmatch, hbefore⟩
                  cases k with
                  | zero =>
                      obtain rfl : x = y := by simpa using hy
                      rw [hm] at hmatch
                      cases hmatch
                  | succ k => exact ⟨k, y, hy, hmatch, fun j hj => hbefore (j + 1) (by omega)⟩
                · rintro ⟨k, y, hy, hmatch, hbefore⟩
                  refine ⟨k + 1, y, hy, hmatch, fun j hj => ?_⟩
                  cases j with
                  | zero => simp
                  | succ j => exact hbefore j (by omega)
              have hnowhere : Nowhere (some x :: cells) o ↔ Nowhere cells o := by
                simp [Nowhere, hm]
              rw [hrest, hfound, hnowhere]
              exact ih

lemma FoundFirst.not_nowhere {cells : List (Option α)} (h : FoundFirst cells o) :
    ¬Nowhere cells o := by
  intro hnowhere
  obtain ⟨k, x, hx, hmatch, -⟩ := h
  rw [hnowhere.2 x (List.mem_of_getElem? hx)] at hmatch
  cases hmatch

/-- An object that is searched for by `equals`: the loop of `contains` answers `true` exactly at a
match before any empty cell. -/
lemma containsFrom_eq_true_iff {cells : List (Option α)} (ho : o ≠ none) :
    (∃ q', (containsFrom o cells).run q = .ok true q') ↔ FoundFirst cells o := by
  rcases containsFrom_cases (q := q) o cells with ⟨hfound, hrun⟩ | ⟨hnowhere, hrun⟩ |
    ⟨hfound, -, hrun | ⟨hnull, -⟩⟩
  · exact iff_of_true ⟨q, hrun⟩ hfound
  · rw [hrun]
    exact iff_of_false (by simp) fun hfound => hfound.not_nowhere hnowhere
  · rw [hrun]
    exact iff_of_false (by simp) hfound
  · exact absurd hnull ho

lemma containsFrom_eq_false_iff {cells : List (Option α)} :
    (∃ q', (containsFrom o cells).run q = .ok false q') ↔ Nowhere cells o := by
  rcases containsFrom_cases (q := q) o cells with ⟨hfound, hrun⟩ | ⟨hnowhere, hrun⟩ |
    ⟨-, hnowhere, hrun | ⟨-, hrun⟩⟩
  · rw [hrun]
    exact iff_of_false (by simp) hfound.not_nowhere
  · exact iff_of_true ⟨q, hrun⟩ hnowhere
  · rw [hrun]
    exact iff_of_false (by simp) hnowhere
  · rw [hrun]
    exact iff_of_false (by simp) hnowhere

/-- **Search.**  `contains(o)` on a reachable queue answers for the queued elements exactly if an
object that is queued matches in the array before any empty cell, and for any other object the array
has neither an empty cell nor a match. -/
theorem containsQueued_iff (h : Reachable n q) (o : Option (α → Bool)) :
    q.ContainsQueued o ↔
      (q.HasMatch o → FoundFirst q.elements o) ∧ (¬q.HasMatch o → Nowhere q.elements o) := by
  have hq := h.valid
  have hstate : (contains o).run q = (containsFrom o q.elements).run q := by
    simp [contains]
  simp only [ContainsQueued, shows_iff hq, forall_eq, hstate]
  by_cases hm : q.HasMatch o
  · have hobject : o ≠ none := by
      rintro rfl
      obtain ⟨x, -, hx⟩ := hm
      cases hx
    rw [any_isObject_iff.mpr hm, containsFrom_eq_true_iff hobject]
    simp only [hm, true_implies, not_true_eq_false, false_implies, and_true]
  · rw [any_isObject_eq_false hm, containsFrom_eq_false_iff]
    simp only [hm, false_implies, not_false_eq_true, true_implies, true_and]

theorem containsQueued_iff_twiceOfThree :
    twiceOfThree.ContainsQueued (some (· == 7)) ↔
      (twiceOfThree.HasMatch (some (· == 7)) →
          FoundFirst twiceOfThree.elements (some (· == 7))) ∧
        (¬twiceOfThree.HasMatch (some (· == 7)) →
          Nowhere twiceOfThree.elements (some (· == 7))) :=
  containsQueued_iff ((Reachable.new.call (.offer (some 7))).call (.offer (some 7)))
    (some (· == 7))

/-- An element of a queue of one place has been taken out. -/
def polledOne : MyLinkedBlockingQueue ℕ := (new 1).after [.offer (some 7), .poll]

/-- An element that has left the queue is still found; and an object that is not queued makes
`contains` throw while there are empty cells. -/
theorem polledOne_contains_stale :
    Reachable 1 polledOne ∧ ¬polledOne.ContainsQueued (some (· == 7)) ∧
      Reachable 3 twiceOfThree ∧ ¬twiceOfThree.ContainsQueued (some (· == 8)) := by
  refine ⟨(Reachable.new.call _).call _, fun h => ?_, (Reachable.new.call _).call _, fun h => ?_⟩
  · obtain ⟨q', hrun⟩ := h [] rfl
    cases hrun
  · obtain ⟨q', hrun⟩ := h [some 7, some 7] rfl
    cases hrun

end MyLinkedBlockingQueue

end LearnJava
