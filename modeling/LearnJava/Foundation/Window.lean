import Mathlib.Tactic

/-!
# Windows of a list

An array-backed container keeps its content in the cells between two indices.  `window l i j`
is that content as a list; the lemmas below say what writing a cell, moving an index and
copying a block do to it.

`overlay` is the effect of a block copy: `length` cells of `src` from `srcPos` replace those
of `dest` from `destPos`, as if they were read before any is written, so that it also describes
a copy of a list onto itself with overlapping blocks.
-/

namespace LearnJava

variable {β : Type*}

/-! ## The window between two indices -/

/-- The cells of `l` from index `i` up to, and without, index `j`. -/
def window (l : List β) (i j : ℕ) : List β := (l.drop i).take (j - i)

lemma getElem?_window (l : List β) (i j k : ℕ) :
    (window l i j)[k]? = if i + k < j then l[i + k]? else none := by
  unfold window
  by_cases h : i + k < j
  · rw [if_pos h, List.getElem?_take_of_lt (by omega), List.getElem?_drop]
  · rw [if_neg h, List.getElem?_take_eq_none (by omega)]

lemma length_window {l : List β} {i j : ℕ} (hj : j ≤ l.length) :
    (window l i j).length = j - i := by
  simp only [window, List.length_take, List.length_drop]
  omega

@[simp] lemma window_self (l : List β) (i : ℕ) : window l i i = [] := by simp [window]

lemma mem_window {l : List β} {i j : ℕ} {x : β} :
    x ∈ window l i j ↔ ∃ k, i ≤ k ∧ k < j ∧ l[k]? = some x := by
  rw [List.mem_iff_getElem?]
  constructor
  · rintro ⟨k, hk⟩
    rw [getElem?_window] at hk
    split_ifs at hk with hlt
    exact ⟨i + k, by omega, hlt, hk⟩
  · rintro ⟨k, hik, hkj, hk⟩
    refine ⟨k - i, ?_⟩
    rw [getElem?_window, Nat.add_sub_cancel' hik, if_pos hkj, hk]

/-- Writing at or after the end of a window does not change it. -/
lemma window_set_of_le {l : List β} {i j k : ℕ} (h : j ≤ k) (x : β) :
    window (l.set k x) i j = window l i j := by
  refine List.ext_getElem? fun m => ?_
  simp only [getElem?_window]
  split_ifs with hm
  · rw [List.getElem?_set_ne (by omega)]
  · rfl

lemma window_snoc {l : List β} {i j : ℕ} {x : β} (hij : i ≤ j) (hx : l[j]? = some x) :
    window l i (j + 1) = window l i j ++ [x] := by
  have hj : j < l.length := (List.getElem?_eq_some_iff.mp hx).1
  refine List.ext_getElem? fun m => ?_
  rw [List.getElem?_append, length_window hj.le, getElem?_window, getElem?_window]
  rcases Nat.lt_trichotomy (i + m) j with hlt | heq | hgt
  · rw [if_pos (by omega), if_pos (by omega), if_pos hlt]
  · rw [if_pos (by omega), if_neg (by omega), heq, hx, show m - (j - i) = 0 by omega]
    rfl
  · rw [if_neg (by omega), if_neg (by omega), List.getElem?_singleton, if_neg (by omega)]

lemma window_cons {l : List β} {i j : ℕ} {x : β} (hij : i < j) (hx : l[i]? = some x) :
    window l i j = x :: window l (i + 1) j := by
  refine List.ext_getElem? fun m => ?_
  cases m with
  | zero => simpa [getElem?_window, hij] using hx
  | succ m => simp only [List.getElem?_cons_succ, getElem?_window, Nat.add_assoc, Nat.add_comm 1 m]

lemma window_take {l : List β} {i j k : ℕ} (h : i + k ≤ j) :
    (window l i j).take k = window l i (i + k) := by
  rw [window, window, List.take_take, Nat.add_sub_cancel_left, min_eq_left (by omega)]

/-! ## Block copies -/

/-- `length` cells of `src` from `srcPos` laid over those of `dest` from `destPos`. -/
def overlay (src : List β) (srcPos : ℕ) (dest : List β) (destPos length : ℕ) : List β :=
  dest.take destPos ++ (src.drop srcPos).take length ++ dest.drop (destPos + length)

section Overlay

variable {src dest : List β} {srcPos destPos length : ℕ}

lemma length_overlay (hsrc : srcPos + length ≤ src.length)
    (hdest : destPos + length ≤ dest.length) :
    (overlay src srcPos dest destPos length).length = dest.length := by
  simp only [overlay, List.length_append, List.length_take, List.length_drop]
  omega

lemma getElem?_overlay (hsrc : srcPos + length ≤ src.length)
    (hdest : destPos + length ≤ dest.length) (k : ℕ) :
    (overlay src srcPos dest destPos length)[k]? =
      if destPos ≤ k ∧ k < destPos + length then src[srcPos + (k - destPos)]? else dest[k]? := by
  have htake : (dest.take destPos).length = destPos := by
    rw [List.length_take]; omega
  have hmid : ((src.drop srcPos).take length).length = length := by
    rw [List.length_take, List.length_drop]; omega
  unfold overlay
  rw [List.append_assoc, List.getElem?_append, htake]
  split_ifs with h₁ h₂ h₂
  · omega
  · rw [List.getElem?_take_of_lt h₁]
  · rw [List.getElem?_append, hmid, if_pos (by omega), List.getElem?_take_of_lt (by omega),
      List.getElem?_drop]
  · rw [List.getElem?_append, hmid, if_neg (by omega), List.getElem?_drop]
    congr 1
    omega

end Overlay

/-- Moving the cells from `s` on down to the front leaves the window from `s` as it was exactly
when the cells that are overwritten inside it repeat with period `s`.  For `s = 0` and for
`l.length ≤ 2 * s` there is no such cell. -/
lemma window_overlay_front_iff {l : List β} {s : ℕ} (hs : s ≤ l.length) :
    window (overlay l s l 0 (l.length - s)) s l.length = window l s l.length ↔
      ∀ j, s ≤ j → j + s < l.length → l[j + s]? = l[j]? := by
  have hget : ∀ k, (overlay l s l 0 (l.length - s))[k]? =
      if k < l.length - s then l[s + k]? else l[k]? := by
    intro k
    rw [getElem?_overlay (by omega) (by omega)]
    simp
  constructor
  · intro h j hsj hj
    have hcell := congrArg (fun w => w[j - s]?) h
    simp only [getElem?_window, Nat.add_sub_cancel' hsj, if_pos (show j < l.length by omega), hget,
      if_pos (show j < l.length - s by omega)] at hcell
    rwa [Nat.add_comm]
  · intro h
    refine List.ext_getElem? fun k => ?_
    simp only [getElem?_window, hget]
    split_ifs with hk hshift
    · rw [Nat.add_comm s (s + k)]
      exact h (s + k) (by omega) (by omega)
    · rfl
    · rfl

/-- Moving the `c` cells after `k` down by one removes the cell `k` from the window, if they
reach to its end. -/
lemma window_overlay_eraseIdx {l : List β} {s k e c : ℕ} (hsk : s ≤ k) (hke : k < e)
    (hc : e ≤ k + 1 + c) (hlen : k + 1 + c ≤ l.length) :
    window (overlay l (k + 1) l k c) s (e - 1) = (window l s e).eraseIdx (k - s) := by
  refine List.ext_getElem? fun m => ?_
  rw [getElem?_window, getElem?_overlay hlen (by omega), List.getElem?_eraseIdx]
  simp only [getElem?_window]
  split_ifs <;> first | rfl | omega | (congr 1; omega)

/-- The cell that is removed may have been overwritten before. -/
lemma eraseIdx_window_set (l : List β) (s k e : ℕ) (x : β) :
    (window (l.set k x) s e).eraseIdx (k - s) = (window l s e).eraseIdx (k - s) := by
  refine List.ext_getElem? fun m => ?_
  simp only [List.getElem?_eraseIdx, getElem?_window]
  split_ifs
  · rw [List.getElem?_set_ne (by omega)]
  · rfl
  · rw [List.getElem?_set_ne (by omega)]
  · rfl

/-! ## Which of several elements is deleted -/

/-- Deleting at two indices comes to the same exactly if all elements from one to the other are the
same. -/
lemma eraseIdx_eq_eraseIdx_iff {l : List β} {i j : ℕ} (hij : i ≤ j) :
    l.eraseIdx i = l.eraseIdx j ↔ ∀ k, i ≤ k → k ≤ j → l[k]? = l[i]? := by
  constructor
  · intro h k hik hkj
    induction k, hik using Nat.le_induction with
    | base => rfl
    | succ k hik ih =>
        have hcell := congrArg (fun l => l[k]?) h
        simp only [List.getElem?_eraseIdx, if_neg (Nat.not_lt.mpr hik),
          if_pos (Nat.lt_of_succ_le hkj)] at hcell
        rw [hcell]
        exact ih (Nat.le_of_succ_le hkj)
  · intro h
    refine List.ext_getElem? fun m => ?_
    simp only [List.getElem?_eraseIdx]
    split_ifs with hmi hmj hmj
    · rfl
    · omega
    · rw [h m (not_lt.mp hmi) hmj.le, h (m + 1) (by omega) hmj]
    · rfl

/-- Whatever lies between two elements that satisfy `p` is the same as they are. -/
def SameBetween (p : β → Bool) (l : List β) : Prop :=
  ∀ (i j k : ℕ) (x y : β), i ≤ j → j ≤ k → l[i]? = some x → l[k]? = some y →
    p x = true → p y = true → l[j]? = some x

/-- Deleting the last element that satisfies `p` is deleting the first one exactly if all elements
in between are the same. -/
lemma eraseP_eq_eraseIdx_iff {p : β → Bool} {l : List β} {k : ℕ} {x : β} (hk : l[k]? = some x)
    (hx : p x = true) (hlater : ∀ j y, k < j → l[j]? = some y → p y = false) :
    l.eraseP p = l.eraseIdx k ↔ SameBetween p l := by
  obtain ⟨i, hi⟩ : ∃ i, l.findIdx? p = some i := by
    rw [← Option.isSome_iff_exists, List.findIdx?_isSome, List.any_eq_true]
    exact ⟨x, List.mem_of_getElem? hk, hx⟩
  obtain ⟨hlt, hpi, hfirst⟩ := List.findIdx?_eq_some_iff_getElem.mp hi
  have hcell : l[i]? = some l[i] := List.getElem?_eq_getElem hlt
  have hik : i ≤ k := by
    by_contra hki
    rw [not_le] at hki
    rw [hlater i _ hki hcell] at hpi
    cases hpi
  rw [List.eraseP_eq_eraseIdx, hi]
  simp only
  rw [eraseIdx_eq_eraseIdx_iff hik]
  constructor
  · intro h a b c y z hab hbc hy hz hpy hpz
    have hck : c ≤ k := by
      by_contra hkc
      rw [hlater c z (not_le.mp hkc) hz] at hpz
      cases hpz
    have hia : i ≤ a := by
      by_contra hai
      rw [not_le] at hai
      obtain ⟨halt, rfl⟩ := List.getElem?_eq_some_iff.mp hy
      exact hfirst a hai hpy
    rw [h b (by omega) (by omega), ← h a hia (by omega), hy]
  · intro h j hij hjk
    rw [h i j k _ x hij hjk hcell hk hpi hx, hcell]

end LearnJava
