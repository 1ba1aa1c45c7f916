import Mathlib.Tactic

/-!
# The ledger of a first-in first-out container

What a FIFO container is for, without any representation: elements are accepted one after the
other, and they are handed out in the order in which they were accepted.  A `Ledger` records
both sequences, and its invariant — what was handed out is an initial part of what was
accepted — is a field, so that a ledger in which an element was lost, repeated or reordered
cannot be built.  `waiting` is what the container has to hold.
-/

namespace LearnJava

/-- The elements a FIFO container has accepted and those it has handed out. -/
structure Ledger (α : Type*) where
  accepted : List α
  handedOut : List α
  inOrder : handedOut <+: accepted

namespace Ledger

variable {α : Type*}

/-- The elements accepted and not yet handed out, in the order of their acceptance. -/
def waiting (L : Ledger α) : List α := L.accepted.drop L.handedOut.length

lemma handedOut_append_waiting (L : Ledger α) : L.handedOut ++ L.waiting = L.accepted := by
  obtain ⟨rest, hrest⟩ := L.inOrder
  simp [waiting, ← hrest]

/-- The ledger of a new container. -/
def empty : Ledger α := ⟨[], [], List.nil_prefix⟩

@[simp] lemma waiting_empty : (empty : Ledger α).waiting = [] := rfl

/-- One more element is accepted. -/
def accept (L : Ledger α) (x : α) : Ledger α where
  accepted := L.accepted ++ [x]
  handedOut := L.handedOut
  inOrder := L.inOrder.trans (List.prefix_append _ _)

@[simp] lemma waiting_accept (L : Ledger α) (x : α) : (L.accept x).waiting = L.waiting ++ [x] := by
  simp only [waiting, accept]
  exact List.drop_append_of_le_length L.inOrder.length_le

/-- The first waiting element is handed out. -/
def handOut (L : Ledger α) {x : α} {rest : List α} (h : L.waiting = x :: rest) : Ledger α where
  accepted := L.accepted
  handedOut := L.handedOut ++ [x]
  inOrder := ⟨rest, by rw [← L.handedOut_append_waiting, h]; simp⟩

@[simp] lemma waiting_handOut (L : Ledger α) {x : α} {rest : List α}
    (h : L.waiting = x :: rest) : (L.handOut h).waiting = rest := by
  have hdrop : L.accepted.drop (L.handedOut.length + 1) = rest := by
    rw [← List.drop_drop, ← waiting, h, List.drop_one, List.tail_cons]
  simpa [waiting, handOut] using hdrop

end Ledger

end LearnJava
