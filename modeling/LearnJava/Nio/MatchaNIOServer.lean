import LearnJava.Java.SelectLoop

/-!
# `MatchaNIOServer`

The loop of `startServer` over the selected keys (`LearnJava/Java/SelectLoop.lean`).  Its branch for
a readable key is empty, so that the loop spins from the first byte that arrives on an accepted
connection: the key stays ready, and every `select()` finds it again.
-/

namespace LearnJava

namespace MatchaNIOServer

open SelectLoop

variable {κ : Type}

/-- The branch of `startServer` for a readable key. -/
def readable (v : Unit) (_ : κ) (socketChannel : Inbox) (_ : ℕ) :
    Except Throwable (Handled Unit) := .ok ⟨v, socketChannel, false⟩

/-- The loop of `startServer()`. -/
def machine (κ : Type) [DecidableEq κ] : Machine (State κ Unit) (Act κ) :=
  SelectLoop.machine readable ()

lemma keeps_readable :
    Keeps (readable (κ := κ)) (fun _ => True) fun _ _ x => x.unread = x.arrived := by
  refine ⟨fun _ _ x e hx => ?_, fun _ _ x _ r _ hx h => ?_⟩
  · cases e with
    | arrive bytes => exact congrArg (· ++ bytes) hx
    | finish => exact hx
    | reset => exact hx
  · obtain rfl := Except.ok.inj h
    exact ⟨trivial, hx, fun _ _ _ hy => hy⟩

variable [DecidableEq κ] {ms : List (LoopMove κ Unit)} {s s' : State κ Unit}

/-- A channel that is ready stays so. -/
lemma isReady_step {a : Act κ} (hs : Inv s) (h : step readable s a = some s') {c : κ}
    (hready : s.IsReady (some c)) : s'.IsReady (some c) := by
  have hset : ∀ d (x : Conn), (d = c → x.phase = .registered ∧ x.inbox.IsReadable) →
      ((s.set d x).conn c).phase = .registered ∧ ((s.set d x).conn c).inbox.IsReadable := by
    intro d x hx
    by_cases hd : c = d
    · rw [hd, State.set_conn_self]
      exact hx hd.symm
    · rw [State.set_conn_of_ne hd]
      exact hready
  cases step_cases h with
  | @connected d hphase | @aborted d hphase =>
      refine hset d _ fun hd => ?_
      rw [hd] at hphase
      cases hphase.symm.trans hready.1
  | @changed d e hopen => exact hset d _ fun hd => ⟨hd ▸ hready.1, (hd ▸ hready.2 : _).after e⟩
  | @accepted _ d _ _ _ hbacklog =>
      refine hset d _ fun hd => ?_
      have hpending := (hs.mem_backlog d).mp (by simp [hbacklog])
      rw [hd] at hpending
      cases hpending.symm.trans hready.1
  | @handled _ d k r _ _ hhandler =>
      obtain rfl := Except.ok.inj hhandler
      exact hset d _ fun hd => ⟨rfl, hd ▸ hready.2⟩
  | selected | foundNone | acceptFailed => exact hready
  | failed _ _ hhandler => cases hhandler

/-- In every run of `startServer`, the network and any number of clients: nothing of what arrives is
ever read, no accepted channel is ever closed, and the server ends only when a connection has been
aborted before it is accepted or when `accept()` fails.  Once there is something to read on an
accepted connection, its key is ready in every later state, so that no later `select()` blocks. -/
theorem startServer_spins (h : (machine κ).Run ms s) :
    (∀ c, (s.conn c).inbox.unread = (s.conn c).inbox.arrived ∧ (s.conn c).phase ≠ .closed) ∧
      (∀ e, s.thrown = some e →
        (∃ m ∈ ms, m.label = .accept ∧ m.pre.backlog = [] ∧ e = .nullPointerException) ∨
        ∃ m ∈ ms, ∃ message, m.label = .acceptFails message ∧
          e = .runtimeException (.ioException message)) ∧
      ∀ m ∈ ms, ∀ c, m.post.IsReady (some c) →
        s.IsReady (some c) ∧ (s.thrown = none → ¬(machine κ).Quiet Act.IsOwn s) := by
  refine ⟨fun c => ⟨?_, fun hclosed => ?_⟩, fun e he => ?_, fun m hm c hready => ?_⟩
  · exact (keeps_of_run keeps_readable trivial (fun _ => rfl) h).2 c
  · refine closed_of_run (R := fun _ => False) keeps_readable trivial (fun _ => rfl)
      (fun _ _ _ _ r _ hhandler hcloses => ?_) h c hclosed
    obtain rfl := Except.ok.inj hhandler
    cases hcloses
  · cases cause_of_run h he with
    | @foundNone m hm hlabel hbacklog => exact .inl ⟨m, hm, hlabel, hbacklog, rfl⟩
    | @acceptFailed m message hm hlabel => exact .inr ⟨m, hm, message, hlabel, rfl⟩
    | failed _ _ _ hhandler => cases hhandler
  · have hnow : s.IsReady (some c) :=
      h.stable (I := Inv) (Q := fun s => s.IsReady (some c))
        (fun s hs => by
          obtain rfl : s = initial () := hs
          exact inv_initial)
        (fun s a s' hs hmove => inv_step hs (show step readable s a = some s' from hmove))
        (fun _ _ _ hs hmove => isReady_step hs hmove) hm hready
    exact ⟨hnow, fun hthrown hquiet => (of_quiet hquiet hthrown).2 c hnow.1 hnow.2⟩

/-- One byte arrives. -/
def spinningRun : List (Act Duo) :=
  [.connect .first, .select [none], .accept, .event .first (.arrive [72]), .select [some .first],
    .read 0, .select [some .first], .read 0]

theorem startServer_spins_spinningRun :
    (((machine Duo).play (initial ()) spinningRun).getD (initial ())).IsReady (some .first) ∧
      ∀ c, ((((machine Duo).play (initial ()) spinningRun).getD (initial ())).conn c).phase ≠
        .closed :=
  ⟨by decide +kernel, fun c => ((startServer_spins
    (Machine.run_getD_of_play _ rfl (by decide +kernel))).1 c).2⟩

end MatchaNIOServer

end LearnJava
