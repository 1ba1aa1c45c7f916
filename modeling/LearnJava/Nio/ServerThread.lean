import LearnJava.Java.SelectLoop

/-!
# `ServerThread`

The loop of `nio/test/app/ServerThread.java` over the selected keys
(`LearnJava/Java/SelectLoop.lean`).  All connections share one buffer of 128 bytes.  What arrives on
a connection is printed as it is read: nothing is lost, printed twice or printed for another
connection.  A character whose bytes do not come with one read is not put together again, since each
piece is decoded by itself; `printed` has the bytes.
-/

namespace LearnJava

namespace ServerThread

open SelectLoop

variable {κ : Type}

/-- The buffer, and what has been printed for whom. -/
structure Locals (κ : Type) where
  byteBuffer : ByteBuffer
  printed : List (κ × List Byte)

/-- The variables before the loop. -/
def Locals.initial : Locals κ := ⟨.allocate 128, []⟩

/-- The branch of `server` for a readable key. -/
def server (v : Locals κ) (c : κ) (socketChannel : Inbox) (k : ℕ) :
    Except Throwable (Handled (Locals κ)) := do
  let (readSize, byteBuffer, socketChannel) ← socketChannel.read v.byteBuffer k
  if readSize = -1 then
    return ⟨{ v with byteBuffer }, socketChannel, true⟩
  let byteBuffer := byteBuffer.flip
  let remaining := byteBuffer.remaining
  let (clientRequestBytes, byteBuffer) ← byteBuffer.get remaining
  return ⟨⟨byteBuffer.clear, v.printed ++ [(c, clientRequestBytes)]⟩, socketChannel, false⟩

/-- What is printed of a channel at once. -/
def piece (x : Inbox) (k : ℕ) : List Byte := x.unread.take (min (k + 1) 128)

section Server

variable {v : Locals κ} {c : κ} {x : Inbox} {k : ℕ}

lemma server_reset (hreset : x.reset = true) :
    server v c x k = .error (.ioException "Connection reset by peer") := by
  rw [server, Inbox.read_reset hreset]
  rfl

/-- At the end of its stream the channel is closed. -/
lemma server_ended (hv : v.byteBuffer.IsClear 128) (hreset : x.reset = false)
    (hunread : x.unread = []) (hended : x.ended = true) : server v c x k = .ok ⟨v, x, true⟩ := by
  rw [server, Inbox.read_ended hreset (by simp [hv.remaining]) hunread hended]
  rfl

/-- Everything else is printed, and the buffer is clear again. -/
lemma server_prints (hv : v.byteBuffer.IsClear 128) (hreset : x.reset = false)
    (hopen : x.unread = [] → x.ended = false) :
    ∃ byteBuffer, byteBuffer.IsClear 128 ∧ server v c x k =
      .ok ⟨⟨byteBuffer, v.printed ++ [(c, piece x k)]⟩,
        { x with unread := x.unread.drop (piece x k).length }, false⟩ := by
  have hroom : 0 < v.byteBuffer.remaining := by simp [hv.remaining]
  obtain ⟨b₁, hwritten, hlimit, hcapacity, hread⟩ := Inbox.read_ok (k := k) hreset hroom hopen
  rw [hv.remaining] at hwritten hread
  rw [hv.written, List.nil_append] at hwritten
  obtain ⟨b₂, hget, hcapacity₂⟩ := b₁.flip_get
  have hsize : ((piece x k).length : ℤ) ≠ -1 := by omega
  refine ⟨b₂.clear,
    ByteBuffer.isClear_clear (hcapacity₂.trans (hcapacity.trans hv.capacity)), ?_⟩
  rw [server, hread]
  change (if ((piece x k).length : ℤ) = -1 then
      .ok ⟨{ v with byteBuffer := b₁ },
        { x with unread := x.unread.drop (piece x k).length }, true⟩
    else b₁.flip.get b₁.position >>= _) = _
  rw [if_neg hsize, hget, hwritten]
  rfl

/-- What the branch can come to. -/
inductive Outcome (v : Locals κ) (c : κ) (x : Inbox) (k : ℕ) :
    Except Throwable (Handled (Locals κ)) → Prop
  | failed (hreset : x.reset = true) :
      Outcome v c x k (.error (.ioException "Connection reset by peer"))
  | closed (hunread : x.unread = []) (hended : x.ended = true) : Outcome v c x k (.ok ⟨v, x, true⟩)
  | printed {byteBuffer : ByteBuffer} (hreset : x.reset = false)
      (hopen : x.unread = [] → x.ended = false) (hclear : byteBuffer.IsClear 128) :
      Outcome v c x k (.ok ⟨⟨byteBuffer, v.printed ++ [(c, piece x k)]⟩,
        { x with unread := x.unread.drop (piece x k).length }, false⟩)

lemma server_outcome (hv : v.byteBuffer.IsClear 128) : Outcome v c x k (server v c x k) := by
  by_cases hreset : x.reset = true
  · rw [server_reset hreset]
    exact .failed hreset
  · replace hreset := eq_false_of_ne_true hreset
    by_cases hend : x.unread = [] ∧ x.ended = true
    · rw [server_ended hv hreset hend.1 hend.2]
      exact .closed hend.1 hend.2
    · have hopen : x.unread = [] → x.ended = false := fun hunread =>
        eq_false_of_ne_true fun hended => hend ⟨hunread, hended⟩
      obtain ⟨byteBuffer, hclear, hserver⟩ := server_prints (c := c) (k := k) hv hreset hopen
      rw [hserver]
      exact .printed hreset hopen hclear

end Server

/-! ## What is printed -/

variable [DecidableEq κ]

/-- What has been printed for a connection. -/
def Locals.printedFor (v : Locals κ) (c : κ) : List Byte :=
  v.printed.flatMap fun entry => if entry.1 = c then entry.2 else []

/-- The loop of `run()`. -/
def machine (κ : Type) [DecidableEq κ] : Machine (State κ (Locals κ)) (Act κ) :=
  SelectLoop.machine server .initial

/-- What holds of the local variables between two keys. -/
def Locals.IsTidy (v : Locals κ) : Prop :=
  v.byteBuffer.IsClear 128 ∧ ∀ entry ∈ v.printed, entry.2.length ≤ 128

/-- All that has arrived on a connection is printed or left to read, in its order. -/
def Conserved (v : Locals κ) (c : κ) (x : Inbox) : Prop := v.printedFor c ++ x.unread = x.arrived

lemma piece_append_drop (x : Inbox) (k : ℕ) :
    piece x k ++ x.unread.drop (piece x k).length = x.unread :=
  (List.prefix_append_drop (List.take_prefix (min (k + 1) 128) x.unread)).symm

omit [DecidableEq κ] in
lemma isTidy_initial : (Locals.initial : Locals κ).IsTidy :=
  ⟨ByteBuffer.isClear_allocate 128, by simp [Locals.initial]⟩

/-- **The branch keeps what is printed and what is left of every connection in balance.** -/
lemma keeps_server : Keeps (server (κ := κ)) Locals.IsTidy Conserved := by
  refine ⟨fun v c x e hx => ?_, fun v c x k r hv hx h => ?_⟩
  · cases e with
    | arrive bytes =>
        change v.printedFor c ++ (x.unread ++ bytes) = x.arrived ++ bytes
        rw [← List.append_assoc]
        exact congrArg (· ++ bytes) hx
    | finish => exact hx
    | reset => exact hx
  · obtain ⟨hclear, hpieces⟩ := hv
    have houtcome := server_outcome (c := c) (x := x) (k := k) hclear
    rw [h] at houtcome
    cases houtcome with
    | closed => exact ⟨⟨hclear, hpieces⟩, hx, fun _ _ _ hy => hy⟩
    | printed _ _ hclear' =>
        refine ⟨⟨hclear', fun entry hentry => ?_⟩, ?_, fun d hne y hy => ?_⟩
        · rw [List.mem_append, List.mem_singleton] at hentry
          obtain hold | rfl := hentry
          · exact hpieces entry hold
          · rw [piece, List.length_take]
            omega
        · rw [Conserved, Locals.printedFor]
          simp only [List.flatMap_append, List.flatMap_singleton, if_true, List.append_assoc,
            piece_append_drop]
          exact hx
        · rw [Conserved, Locals.printedFor]
          simp only [List.flatMap_append, List.flatMap_singleton, if_neg hne.symm, List.append_nil]
          exact hy

omit [DecidableEq κ] in
/-- The branch reads, or closes the channel. -/
lemma works_server : Works (server (κ := κ)) Locals.IsTidy := by
  intro v c x k r hv hreadable h
  have houtcome := server_outcome (c := c) (x := x) (k := k) hv.1
  rw [h] at houtcome
  cases houtcome with
  | closed => exact .inl rfl
  | printed hreset hopen =>
      have hunread : x.unread ≠ [] := fun hunread => by
        obtain hne | hended | hreset' := hreadable
        · exact hne hunread
        · cases (hopen hunread).symm.trans hended
        · cases hreset.symm.trans hreset'
      have hpos := List.length_pos_of_ne_nil hunread
      refine .inr ?_
      simp only [Inbox.weight, List.length_drop, piece, List.length_take]
      omega

section Runs

variable {ms : List (LoopMove κ (Locals κ))} {s : State κ (Locals κ)}

lemma conserved_nil (c : κ) : Conserved (Locals.initial : Locals κ) c .new := rfl

/-- A channel is closed when its client has ended its stream, and all of it is printed. -/
lemma printed_of_closed (h : (machine κ).Run ms s) {c : κ} (hclosed : (s.conn c).phase = .closed) :
    (s.conn c).inbox.ended = true ∧ s.locals.printedFor c = (s.conn c).inbox.arrived := by
  have hend := closed_of_run (R := fun x => x.ended = true ∧ x.unread = []) keeps_server
    isTidy_initial conserved_nil (fun v c x k r hv hserver hcloses => ?_) h c hclosed
  · have hconserved := (keeps_of_run keeps_server isTidy_initial conserved_nil h).2 c
    rw [Conserved, hend.2, List.append_nil] at hconserved
    exact ⟨hend.1, hconserved⟩
  · have houtcome := server_outcome (c := c) (x := x) (k := k) hv.1
    rw [hserver] at houtcome
    cases houtcome with
    | closed hunread hended => exact ⟨hended, hunread⟩
    | printed => cases hcloses

/-- What has ended the server. -/
inductive Ended (ms : List (LoopMove κ (Locals κ))) : Throwable → Prop
  | aborted {m : LoopMove κ (Locals κ)} (hm : m ∈ ms) (hlabel : m.label = .accept)
      (hbacklog : m.pre.backlog = []) : Ended ms .nullPointerException
  | acceptFailed {m : LoopMove κ (Locals κ)} {message : String} (hm : m ∈ ms)
      (hlabel : m.label = .acceptFails message) :
      Ended ms (.runtimeException (.ioException message))
  | reset {m : LoopMove κ (Locals κ)} {c : κ} (hm : m ∈ ms) (hready : m.pre.IsReady (some c))
      (hreset : (m.pre.conn c).inbox.reset = true) :
      Ended ms (.runtimeException (.ioException "Connection reset by peer"))

/-- What the server can be relied on for, in a run that has come to `s`. -/
structure Served (ms : List (LoopMove κ (Locals κ))) (s : State κ (Locals κ)) : Prop where
  isClear : s.locals.byteBuffer.IsClear 128
  conserved : ∀ c, s.locals.printedFor c ++ (s.conn c).inbox.unread = (s.conn c).inbox.arrived
  pieces : ∀ entry ∈ s.locals.printed, entry.2.length ≤ 128
  closed : ∀ c, (s.conn c).phase = .closed →
    (s.conn c).inbox.ended = true ∧ s.locals.printedFor c = (s.conn c).inbox.arrived
  ended : ∀ e, s.thrown = some e → Ended ms e

/-- However `ServerThread`, the network and any number of clients are interleaved, what has been
printed for a connection and what has not been read of it are together what has arrived on it, in
its order, although all connections share one buffer, which is clear whenever a key is taken; a
channel is closed only when the client has ended its stream and all of it is printed; and the server
ends only when a selected connection has been aborted before it is accepted, when `accept()` fails,
or when a connection is reset.  What is printed is kept as bytes here, each piece before it is
decoded. -/
theorem server_conserves (h : (machine κ).Run ms s) : Served ms s := by
  obtain ⟨⟨hclear, hpieces⟩, hconserved⟩ := keeps_of_run keeps_server isTidy_initial conserved_nil h
  refine ⟨hclear, hconserved, hpieces, fun c => printed_of_closed h, fun e he => ?_⟩
  cases cause_of_run h he with
  | foundNone hm hlabel hbacklog => exact .aborted hm hlabel hbacklog
  | acceptFailed hm hlabel => exact .acceptFailed hm hlabel
  | @failed m c k e' hm hlabel hready hserver =>
      obtain ⟨_, _, -, hrun, -⟩ := h.of_mem hm
      have hv := (keeps_of_run keeps_server isTidy_initial conserved_nil hrun).1
      have houtcome := server_outcome (c := c) (x := (m.pre.conn c).inbox) (k := k) hv.1
      rw [hserver] at houtcome
      cases houtcome with
      | failed hreset => exact .reset hm hready hreset

/-- Two clients, of which the second one resets its connection. -/
def resetRun : List (Act Duo) :=
  [.connect .first, .connect .second, .select [none], .accept, .event .first (.arrive [72, 105]),
    .select [some .first, none], .event .first (.arrive [33]), .read 1, .accept,
    .event .second (.arrive [72]), .event .first .finish, .select [some .second, some .first],
    .read 9, .read 9, .event .second .reset, .select [some .first, some .second], .read 0, .read 0]

theorem server_conserves_resetRun :
    ((machine Duo).play (initial .initial) resetRun).isSome ∧
      Served ((machine Duo).moves (initial .initial) resetRun)
        (((machine Duo).play (initial .initial) resetRun).getD (initial .initial)) :=
  ⟨by decide +kernel, server_conserves (Machine.run_getD_of_play _ rfl (by decide +kernel))⟩

/-- Finitely many clients of `ServerThread`: whatever has happened, the server makes no more moves
than it has to do if the network leaves it alone, and comes to an end of them.  When it has nothing
to do and has not ended, no client waits to be accepted, all that has arrived on an accepted
connection is printed, and the channels whose clients have ended their streams are closed. -/
theorem server_catches_up [Fintype κ] (h : (machine κ).Run ms s) :
    (∀ as s', (∀ a ∈ as, a.IsOwn) → (machine κ).play s as = some s' → as.length ≤ s.work) ∧
    (∃ ms' s', (machine κ).Run (ms ++ ms') s' ∧ (∀ m ∈ ms', m.label.IsOwn) ∧
      (machine κ).Quiet Act.IsOwn s') ∧
      ((machine κ).Quiet Act.IsOwn s → s.thrown = none → ∀ c,
        (s.conn c).phase ≠ .pending ∧
          ((s.conn c).phase = .registered → (s.conn c).inbox.ended = false) ∧
          ((s.conn c).phase = .registered ∨ (s.conn c).phase = .closed →
            s.locals.printedFor c = (s.conn c).inbox.arrived)) := by
  refine ⟨fun as s' hown hplay =>
      length_le_work keeps_server isTidy_initial conserved_nil works_server h hown hplay,
    exists_quiet keeps_server isTidy_initial conserved_nil works_server h,
    fun hquiet hthrown c => ?_⟩
  have hs := inv_of_run h
  obtain ⟨hbacklog, hnot⟩ := of_quiet hquiet hthrown
  have hconserved := (keeps_of_run keeps_server isTidy_initial conserved_nil h).2 c
  refine ⟨fun hpending => ?_, fun hregistered => ?_, fun hphase => ?_⟩
  · have hmem := (hs.mem_backlog c).mpr hpending
    rw [hbacklog] at hmem
    cases hmem
  · exact eq_false_of_ne_true fun hended => hnot c hregistered (.inr (.inl hended))
  · obtain hregistered | hclosed := hphase
    · have hunread : (s.conn c).inbox.unread = [] := by
        by_contra hunread
        exact hnot c hregistered (.inl hunread)
      rwa [Conserved, hunread, List.append_nil] at hconserved
    · exact (printed_of_closed h hclosed).2

/-- Two clients that the server has not come to yet. -/
def quietRun : List (Act Duo) :=
  [.connect .first, .event .first (.arrive [72, 105]), .event .first .finish, .connect .second]

/-- The state they leave the server in. -/
abbrev afterQuiet : State Duo (Locals Duo) :=
  ((machine Duo).play (initial .initial) quietRun).getD (initial .initial)

theorem server_catches_up_quietRun :
    (afterQuiet.backlog = [.first, .second] ∧ afterQuiet.work = 15) ∧
    (∀ as s', (∀ a ∈ as, a.IsOwn) → (machine Duo).play afterQuiet as = some s' →
      as.length ≤ afterQuiet.work) ∧
    ∃ ms' s', (machine Duo).Run ((machine Duo).moves (initial .initial) quietRun ++ ms') s' ∧
      (∀ m ∈ ms', m.label.IsOwn) ∧ (machine Duo).Quiet Act.IsOwn s' := by
  obtain ⟨hbound, hquiet, -⟩ := server_catches_up (s := afterQuiet)
    (Machine.run_getD_of_play (M := machine Duo) (initial .initial) rfl (by decide +kernel))
  exact ⟨by decide +kernel, hbound, hquiet⟩

end Runs

end ServerThread

end LearnJava
