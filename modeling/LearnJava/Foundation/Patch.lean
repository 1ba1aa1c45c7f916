import Mathlib.Tactic

/-!
# Writing into a list that grows

`patch fill l pos bs` is `l` after `bs` was written at `pos`, as into a file: the list gets longer
if need be, with `fill` between its old end and what was written.  Writing nothing changes nothing.
`getElem?_patch` says what is at each place.
-/

namespace LearnJava

variable {β : Type*}

/-- The list after `bs` was written at `pos`. -/
def patch (fill : β) (l : List β) (pos : ℕ) (bs : List β) : List β :=
  if bs.isEmpty then l
  else l.take pos ++ List.replicate (pos - l.length) fill ++ bs ++ l.drop (pos + bs.length)

lemma patch_of_ne_nil {bs : List β} (h : bs ≠ []) (fill : β) (l : List β) (pos : ℕ) :
    patch fill l pos bs =
      l.take pos ++ List.replicate (pos - l.length) fill ++ bs ++ l.drop (pos + bs.length) := by
  rw [patch, if_neg]
  simpa using h

/-- At the beginning nothing has to be filled in. -/
lemma patch_zero (fill : β) (l bs : List β) : patch fill l 0 bs = bs ++ l.drop bs.length := by
  cases bs with
  | nil => rfl
  | cons b bs => simp [patch]

lemma getElem?_patch {bs : List β} (h : bs ≠ []) (fill : β) (l : List β) (pos i : ℕ) :
    (patch fill l pos bs)[i]? =
      if i < pos then (if i < l.length then l[i]? else some fill)
      else if i < pos + bs.length then bs[i - pos]? else l[i]? := by
  have hfront : (l.take pos ++ List.replicate (pos - l.length) fill).length = pos := by
    simp only [List.length_append, List.length_take, List.length_replicate]
    omega
  rw [patch_of_ne_nil h, List.append_assoc]
  by_cases hi : i < pos
  · rw [if_pos hi, List.getElem?_append_left (by omega)]
    by_cases hin : i < l.length
    · rw [if_pos hin, List.getElem?_append_left (by rw [List.length_take]; omega),
        List.getElem?_take_of_lt hi]
    · rw [if_neg hin, List.getElem?_append_right (by rw [List.length_take]; omega),
        List.getElem?_replicate, if_pos (by rw [List.length_take]; omega)]
  · rw [if_neg hi, List.getElem?_append_right (by omega), hfront]
    by_cases hin : i < pos + bs.length
    · rw [if_pos hin, List.getElem?_append_left (by omega)]
    · rw [if_neg hin, List.getElem?_append_right (by omega), List.getElem?_drop]
      congr 1
      omega

lemma getElem?_patch_zero (fill : β) (l bs : List β) (i : ℕ) :
    (patch fill l 0 bs)[i]? = if i < bs.length then bs[i]? else l[i]? := by
  rw [patch_zero]
  by_cases hi : i < bs.length
  · rw [if_pos hi, List.getElem?_append_left hi]
  · rw [if_neg hi, List.getElem?_append_right (not_lt.mp hi), List.getElem?_drop]
    congr 1
    omega

/-- One list begins with another one if it has the same at all places of it. -/
lemma prefix_iff_forall_lt {l₁ l₂ : List β} : l₁ <+: l₂ ↔ ∀ i < l₁.length, l₂[i]? = l₁[i]? := by
  rw [List.prefix_iff_getElem?]
  refine forall₂_congr fun i hi => ?_
  rw [List.getElem?_eq_getElem hi]

end LearnJava
