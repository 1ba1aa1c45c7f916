import LearnJava.Foundation.Progress
import LearnJava.Java.ByteBuffer

/-!
# A loop over selected keys

A server with one thread: it selects the keys that are ready, takes them one after the other,
accepts a connection for the key of its `ServerSocketChannel`, and hands the channel of any other
key to a *handler*.  New channels are registered for reads.  The handler shares local variables
among all channels.

The network does what it does at any moment: clients connect, abort a connection that waits to be
accepted, send bytes, end their stream or reset the connection.  Which of the ready keys a `select`
finds, and how much a `read` gets at once, is left open.  An exception ends the loop; the selector
and the server's channel are closed then, the accepted channels are not.

`Keeps` is what a handler must keep for every channel; `keeps_of_run` is the rule for what holds in
every run.  `exists_quiet` is the rule for handlers that get on with every channel they are given.
-/

namespace LearnJava

namespace SelectLoop

/-- A connection as the server's end has it: what has arrived in all, what has not been read, and
whether it has been ended or reset by the client. -/
structure Inbox where
  arrived : List Byte
  unread : List Byte
  ended : Bool
  reset : Bool
  deriving DecidableEq, Repr

/-- Nothing has arrived. -/
def Inbox.new : Inbox := ⟨[], [], false, false⟩

/-- A read does not come back with nothing. -/
def Inbox.IsReadable (x : Inbox) : Prop := x.unread ≠ [] ∨ x.ended = true ∨ x.reset = true

instance : DecidablePred Inbox.IsReadable := fun x =>
  inferInstanceAs (Decidable (x.unread ≠ [] ∨ x.ended = true ∨ x.reset = true))

/-- `socketChannel.read(buffer)` on a channel that does not block: the number it returns, the buffer
and what is left.  It gets `k + 1` bytes at most, however many have arrived. -/
def Inbox.read (x : Inbox) (buffer : ByteBuffer) (k : ℕ) :
    Except Throwable (ℤ × ByteBuffer × Inbox) :=
  if x.reset then .error (.ioException "Connection reset by peer")
  else if buffer.remaining = 0 then .ok (0, buffer, x)
  else if x.unread = [] then .ok (if x.ended then -1 else 0, buffer, x)
  else
    let bytes := x.unread.take (min (k + 1) buffer.remaining)
    (buffer.put bytes).map fun buffer =>
      (bytes.length, buffer, { x with unread := x.unread.drop bytes.length })

namespace Inbox

variable {x : Inbox} {buffer : ByteBuffer} {k : ℕ}

lemma read_reset (hreset : x.reset = true) :
    x.read buffer k = .error (.ioException "Connection reset by peer") := by
  rw [read, if_pos hreset]

lemma read_ended (hreset : x.reset = false) (hroom : 0 < buffer.remaining) (hunread : x.unread = [])
    (hended : x.ended = true) : x.read buffer k = .ok (-1, buffer, x) := by
  simp [read, hreset, hroom.ne', hunread, hended]

/-- A read of a channel that goes on takes a first part of what has not been read. -/
lemma read_ok (hreset : x.reset = false) (hroom : 0 < buffer.remaining)
    (hopen : x.unread = [] → x.ended = false) :
    ∃ b', b'.written = buffer.written ++ x.unread.take (min (k + 1) buffer.remaining) ∧
      b'.limit = buffer.limit ∧ b'.capacity = buffer.capacity ∧
      x.read buffer k = .ok ((x.unread.take (min (k + 1) buffer.remaining)).length, b', { x with
        unread := x.unread.drop (x.unread.take (min (k + 1) buffer.remaining)).length }) := by
  by_cases hunread : x.unread = []
  · refine ⟨buffer, by simp [hunread], rfl, rfl, ?_⟩
    obtain ⟨arrived, unread, ended, reset⟩ := x
    obtain rfl : unread = [] := hunread
    obtain rfl : ended = false := hopen rfl
    obtain rfl : reset = false := hreset
    simp [read, hroom.ne']
  · have hlength : (x.unread.take (min (k + 1) buffer.remaining)).length ≤ buffer.remaining := by
      rw [List.length_take]
      omega
    obtain ⟨b', hput, hwritten, hlimit, hcapacity⟩ := buffer.put_written hlength
    refine ⟨b', hwritten, hlimit, hcapacity, ?_⟩
    rw [read, if_neg (by simp [hreset]), if_neg hroom.ne', if_neg hunread]
    change (buffer.put (x.unread.take (min (k + 1) buffer.remaining))).map _ = _
    rw [hput]
    rfl

end Inbox

/-- What has become of a connection. -/
inductive Phase
  | absent
  | pending
  | aborted
  | registered
  | closed
  deriving DecidableEq, Repr

/-- A connection. -/
structure Conn where
  phase : Phase
  inbox : Inbox
  deriving DecidableEq, Repr

/-- What a handler leaves: the local variables, what is left to read, and whether it has closed the
channel. -/
structure Handled (β : Type) where
  locals : β
  inbox : Inbox
  closes : Bool

/-- What the loop does with a readable key. -/
abbrev Handler (κ β : Type) := β → κ → Inbox → ℕ → Except Throwable (Handled β)

/-- The connections that wait to be accepted, the selected keys that are left, all connections, the
local variables of the loop, and the exception that has ended it.  The key of the server's own
channel is `none`. -/
structure State (κ β : Type) where
  backlog : List κ
  selected : List (Option κ)
  conn : κ → Conn
  locals : β
  thrown : Option Throwable

/-- What the network or the client does to a connection that is open. -/
inductive Event
  | arrive (bytes : List Byte)
  | finish
  | reset
  deriving DecidableEq, Repr

/-- What it makes of the server's end. -/
def Inbox.after (x : Inbox) : Event → Inbox
  | .arrive bytes => { x with arrived := x.arrived ++ bytes, unread := x.unread ++ bytes }
  | .finish => { x with ended := true }
  | .reset => { x with reset := true }

/-- The label of a move. -/
inductive Act (κ : Type)
  | connect (c : κ)
  | abort (c : κ)
  | event (c : κ) (e : Event)
  | select (keys : List (Option κ))
  | accept
  | acceptFails (message : String)
  | read (k : ℕ)
  deriving DecidableEq, Repr

/-- A move of the loop itself. -/
def Act.IsOwn {κ : Type} : Act κ → Prop
  | .select _ | .accept | .read _ => True
  | _ => False

/-- `catch (IOException e)` of the method with the loop -/
def rethrown : Throwable → Throwable
  | .ioException message => .runtimeException (.ioException message)
  | e => e

variable {κ β : Type}

/-- The key is ready. -/
def State.IsReady (s : State κ β) : Option κ → Prop
  | none => s.backlog ≠ []
  | some c => (s.conn c).phase = .registered ∧ (s.conn c).inbox.IsReadable

instance [DecidableEq κ] (s : State κ β) : DecidablePred s.IsReady := fun key => by
  cases key <;> unfold State.IsReady <;> infer_instance

/-- The client's end of the connection can still do something to it.  A reset after the client has
ended its stream is left out. -/
def Conn.IsOpen (x : Conn) : Prop :=
  (x.phase = .pending ∨ x.phase = .registered) ∧ x.inbox.ended = false ∧ x.inbox.reset = false

instance : DecidablePred Conn.IsOpen := fun x =>
  inferInstanceAs (Decidable ((x.phase = .pending ∨ x.phase = .registered) ∧
    x.inbox.ended = false ∧ x.inbox.reset = false))

variable [DecidableEq κ]

/-- One connection is changed. -/
def State.set (s : State κ β) (c : κ) (x : Conn) : State κ β :=
  { s with conn := Function.update s.conn c x }

/-- What is left of a key whose channel was handled. -/
def State.handled (s : State κ β) (c : κ) (selected : List (Option κ)) (r : Handled β) :
    State κ β :=
  { s.set c ⟨if r.closes then .closed else .registered, r.inbox⟩ with selected, locals := r.locals }

/-- One move. -/
def step (handler : Handler κ β) (s : State κ β) : Act κ → Option (State κ β)
  | .connect c =>
    if s.thrown = none ∧ (s.conn c).phase = .absent then
      some { s.set c { s.conn c with phase := .pending } with backlog := s.backlog ++ [c] }
    else none
  | .abort c =>
    if (s.conn c).phase = .pending then
      some { s.set c { s.conn c with phase := .aborted } with backlog := s.backlog.erase c }
    else none
  | .event c e =>
    if (s.conn c).IsOpen then
      some (s.set c { s.conn c with inbox := (s.conn c).inbox.after e })
    else none
  | .select keys =>
    if s.thrown = none ∧ s.selected = [] ∧ keys ≠ [] ∧ keys.Nodup ∧ ∀ key ∈ keys, s.IsReady key then
      some { s with selected := keys }
    else none
  | .accept =>
    match s.thrown, s.selected, s.backlog with
    | none, none :: selected, c :: backlog =>
      some { s.set c { s.conn c with phase := .registered } with selected, backlog }
    | none, none :: selected, [] =>
      some { s with selected, thrown := some .nullPointerException }
    | _, _, _ => none
  | .acceptFails message =>
    match s.thrown, s.selected with
    | none, none :: selected =>
      some { s with selected, thrown := some (rethrown (.ioException message)) }
    | _, _ => none
  | .read k =>
    match s.thrown, s.selected with
    | none, some c :: selected =>
      match handler s.locals c (s.conn c).inbox k with
      | .ok r => some (s.handled c selected r)
      | .error e => some { s with selected, thrown := some (rethrown e) }
    | _, _ => none

/-- The loop before its first client. -/
def initial (locals : β) : State κ β := ⟨[], [], fun _ => ⟨.absent, .new⟩, locals, none⟩

/-- The loop and the network, in any interleaving. -/
def machine (handler : Handler κ β) (locals : β) : Machine (State κ β) (Act κ) where
  init s := s = initial locals
  step := step handler

/-- A move of the loop or of the network. -/
abbrev LoopMove (κ β : Type) := Move (State κ β) (Act κ)

section Effects

variable {handler : Handler κ β} {s s' : State κ β} {c d : κ} {x : Conn}

@[simp] lemma State.set_conn_self : (s.set c x).conn c = x := Function.update_self ..

lemma State.set_conn_of_ne (h : d ≠ c) : (s.set c x).conn d = s.conn d := Function.update_of_ne h ..

/-- What holds of the changed connection and of every other one holds of all. -/
lemma State.forall_set {p : κ → Conn → Prop} (hself : p c x)
    (hother : ∀ d, d ≠ c → p d (s.conn d)) (d : κ) : p d ((s.set c x).conn d) := by
  by_cases h : d = c
  · rw [h, set_conn_self]
    exact hself
  · rw [set_conn_of_ne h]
    exact hother d h

/-- The effects of the moves. -/
inductive Effect (handler : Handler κ β) (s : State κ β) : Act κ → State κ β → Prop
  | connected {c : κ} (hphase : (s.conn c).phase = .absent) :
      Effect handler s (.connect c)
        { s.set c { s.conn c with phase := .pending } with backlog := s.backlog ++ [c] }
  | aborted {c : κ} (hphase : (s.conn c).phase = .pending) :
      Effect handler s (.abort c)
        { s.set c { s.conn c with phase := .aborted } with backlog := s.backlog.erase c }
  | changed {c : κ} {e : Event} (hopen : (s.conn c).IsOpen) :
      Effect handler s (.event c e)
        (s.set c { s.conn c with inbox := (s.conn c).inbox.after e })
  | selected {keys : List (Option κ)} (hthrown : s.thrown = none) (hnone : s.selected = [])
      (hne : keys ≠ []) (hnodup : keys.Nodup) (hready : ∀ key ∈ keys, s.IsReady key) :
      Effect handler s (.select keys) { s with selected := keys }
  | accepted {selected : List (Option κ)} {c : κ} {backlog : List κ} (hthrown : s.thrown = none)
      (hselected : s.selected = none :: selected) (hbacklog : s.backlog = c :: backlog) :
      Effect handler s .accept
        { s.set c { s.conn c with phase := .registered } with selected, backlog }
  | foundNone {selected : List (Option κ)} (hthrown : s.thrown = none)
      (hselected : s.selected = none :: selected) (hbacklog : s.backlog = []) :
      Effect handler s .accept { s with selected, thrown := some .nullPointerException }
  | acceptFailed {selected : List (Option κ)} {message : String} (hthrown : s.thrown = none)
      (hselected : s.selected = none :: selected) :
      Effect handler s (.acceptFails message)
        { s with selected, thrown := some (rethrown (.ioException message)) }
  | handled {selected : List (Option κ)} {c : κ} {k : ℕ} {r : Handled β} (hthrown : s.thrown = none)
      (hselected : s.selected = some c :: selected)
      (h : handler s.locals c (s.conn c).inbox k = .ok r) :
      Effect handler s (.read k) (s.handled c selected r)
  | failed {selected : List (Option κ)} {c : κ} {k : ℕ} {e : Throwable} (hthrown : s.thrown = none)
      (hselected : s.selected = some c :: selected)
      (h : handler s.locals c (s.conn c).inbox k = .error e) :
      Effect handler s (.read k) { s with selected, thrown := some (rethrown e) }

/-- Every move has one of the effects. -/
lemma step_cases {a : Act κ} (h : step handler s a = some s') : Effect handler s a s' := by
  cases a with
  | connect c =>
      simp only [step] at h
      split_ifs at h with hcond
      obtain rfl := Option.some.inj h
      exact .connected hcond.2
  | abort c =>
      simp only [step] at h
      split_ifs at h with hphase
      obtain rfl := Option.some.inj h
      exact .aborted hphase
  | event c e =>
      simp only [step] at h
      split_ifs at h with hopen
      obtain rfl := Option.some.inj h
      exact .changed hopen
  | select keys =>
      simp only [step] at h
      split_ifs at h with hcond
      obtain rfl := Option.some.inj h
      obtain ⟨hthrown, hnone, hne, hnodup, hready⟩ := hcond
      exact .selected hthrown hnone hne hnodup hready
  | accept =>
      simp only [step] at h
      split at h
      · rename_i hthrown hselected hbacklog
        obtain rfl := Option.some.inj h
        exact .accepted hthrown hselected hbacklog
      · rename_i hthrown hselected hbacklog
        obtain rfl := Option.some.inj h
        exact .foundNone hthrown hselected hbacklog
      · cases h
  | acceptFails message =>
      simp only [step] at h
      split at h
      · rename_i hthrown hselected
        obtain rfl := Option.some.inj h
        exact .acceptFailed hthrown hselected
      · cases h
  | read k =>
      simp only [step] at h
      split at h
      · rename_i hthrown hselected
        split at h <;> rename_i hhandler
        · obtain rfl := Option.some.inj h
          exact .handled hthrown hselected hhandler
        · obtain rfl := Option.some.inj h
          exact .failed hthrown hselected hhandler
      · cases h

end Effects

/-! ## The keys and the connections -/

/-- The invariant of the loop. -/
structure Inv (s : State κ β) : Prop where
  nodup_selected : s.selected.Nodup
  ready : ∀ c, some c ∈ s.selected → s.IsReady (some c)
  nodup_backlog : s.backlog.Nodup
  mem_backlog : ∀ c, c ∈ s.backlog ↔ (s.conn c).phase = .pending

section Invariant

variable {handler : Handler κ β} {locals : β} {s s' : State κ β} {a : Act κ}

omit [DecidableEq κ] in
lemma inv_initial : Inv (initial locals : State κ β) := by
  refine ⟨List.nodup_nil, fun c hc => ?_, List.nodup_nil, fun c => ?_⟩
  · cases hc
  · simp [initial]

omit [DecidableEq κ] in
/-- What an event leaves ready. -/
lemma Inbox.IsReadable.after {x : Inbox} (h : x.IsReadable) (e : Event) :
    (x.after e).IsReadable := by
  cases e with
  | arrive bytes =>
      obtain h | h := h
      · exact .inl (by simp [Inbox.after, h])
      · exact .inr h
  | finish => exact .inr (.inl rfl)
  | reset => exact .inr (.inr rfl)

/-- **Every move keeps the invariant.** -/
lemma inv_step (hs : Inv s) (h : step handler s a = some s') : Inv s' := by
  obtain ⟨hselected, hready, hbacklog, hmem⟩ := hs
  cases step_cases h with
  | @connected c hphase =>
      have hnot : c ∉ s.backlog := fun hc => by cases hphase.symm.trans ((hmem c).mp hc)
      refine ⟨hselected, fun d hd => ?_, ?_, State.forall_set
        (x := { s.conn c with phase := .pending })
        (p := fun d x => d ∈ s.backlog ++ [c] ↔ x.phase = .pending) (by simp) fun d hne => ?_⟩
      · have hne : d ≠ c := by
          rintro rfl
          cases hphase.symm.trans (hready d hd).1
        rw [State.IsReady, State.set_conn_of_ne hne]
        exact hready d hd
      · exact hbacklog.append (List.nodup_singleton c) (by simpa using hnot)
      · simpa [hne] using hmem d
  | @aborted c hphase =>
      refine ⟨hselected, fun d hd => ?_, hbacklog.erase c, State.forall_set
        (x := { s.conn c with phase := .aborted })
        (p := fun d x => d ∈ s.backlog.erase c ↔ x.phase = .pending) ?_ fun d hne => ?_⟩
      · have hne : d ≠ c := by
          rintro rfl
          cases hphase.symm.trans (hready d hd).1
        rw [State.IsReady, State.set_conn_of_ne hne]
        exact hready d hd
      · simp [hbacklog.mem_erase_iff]
      · simpa [hbacklog.mem_erase_iff, hne] using hmem d
  | @changed c e _ =>
      refine ⟨hselected, fun d => ?_, hbacklog, ?_⟩
      · refine State.forall_set (x := { s.conn c with inbox := (s.conn c).inbox.after e })
          (p := fun d x => some d ∈ s.selected → x.phase = .registered ∧ x.inbox.IsReadable)
          (fun hd => ⟨(hready c hd).1, (hready c hd).2.after e⟩) (fun d _ => hready d) d
      · exact State.forall_set (x := { s.conn c with inbox := (s.conn c).inbox.after e })
          (p := fun d x => d ∈ s.backlog ↔ x.phase = .pending) (hmem c) fun d _ => hmem d
  | selected _ _ _ hnodup hkeys => exact ⟨hnodup, fun c hc => hkeys _ hc, hbacklog, hmem⟩
  | @accepted selected c backlog _ hkeys hwaiting =>
      rw [hkeys] at hselected hready
      rw [hwaiting] at hbacklog hmem
      have hpending : (s.conn c).phase = .pending := (hmem c).mp (by simp)
      refine ⟨hselected.of_cons, fun d hd => ?_, hbacklog.of_cons, State.forall_set
        (x := { s.conn c with phase := .registered })
        (p := fun d x => d ∈ backlog ↔ x.phase = .pending) ?_ fun d hne => ?_⟩
      · have hkey := hready d (List.mem_cons_of_mem _ hd)
        have hne : d ≠ c := by
          rintro rfl
          cases hpending.symm.trans hkey.1
        rw [State.IsReady, State.set_conn_of_ne hne]
        exact hkey
      · simpa using (List.nodup_cons.mp hbacklog).1
      · simpa [hne] using hmem d
  | foundNone _ hkeys _ | acceptFailed _ hkeys | failed _ hkeys _ =>
      rw [hkeys] at hselected hready
      exact ⟨hselected.of_cons, fun d hd => hready d (List.mem_cons_of_mem _ hd), hbacklog, hmem⟩
  | @handled selected c k r _ hkeys _ =>
      rw [hkeys] at hselected hready
      refine ⟨hselected.of_cons, fun d hd => ?_, hbacklog, State.forall_set
        (p := fun d x => d ∈ s.backlog ↔ x.phase = .pending) ?_ fun d _ => hmem d⟩
      · have hne : d ≠ c := by
          rintro rfl
          exact (List.nodup_cons.mp hselected).1 hd
        have hkey := hready d (List.mem_cons_of_mem _ hd)
        rwa [State.IsReady, State.handled, State.set_conn_of_ne hne]
      · have hregistered := (hready c List.mem_cons_self).1
        rw [hmem c, hregistered]
        split_ifs <;> simp

end Invariant

section Runs

variable {handler : Handler κ β} {locals : β} {ms : List (LoopMove κ β)} {s : State κ β}

lemma inv_of_run (h : (machine handler locals).Run ms s) : Inv s :=
  h.invariant (fun s hs => by
    obtain rfl : s = initial locals := hs
    exact inv_initial) fun _ _ _ => inv_step

/-- What a handler keeps for every channel, `Q`, while it keeps `P` of the local variables. -/
structure Keeps (handler : Handler κ β) (P : β → Prop) (Q : β → κ → Inbox → Prop) : Prop where
  after : ∀ b c x e, Q b c x → Q b c (x.after e)
  handle : ∀ b c x k r, P b → Q b c x → handler b c x k = .ok r →
    P r.locals ∧ Q r.locals c r.inbox ∧ ∀ d, d ≠ c → ∀ y, Q b d y → Q r.locals d y

/-- **Rule of the loop.**  What the handler keeps holds in every state of every run. -/
theorem keeps_of_run {P : β → Prop} {Q : β → κ → Inbox → Prop} (hkeeps : Keeps handler P Q)
    (hlocals : P locals) (hnew : ∀ c, Q locals c .new) (h : (machine handler locals).Run ms s) :
    P s.locals ∧ ∀ c, Q s.locals c (s.conn c).inbox := by
  refine h.invariant (I := fun s => P s.locals ∧ ∀ c, Q s.locals c (s.conn c).inbox)
    (fun s hs => ?_) fun s a s' hI hmove => ?_
  · obtain rfl : s = initial locals := hs
    exact ⟨hlocals, hnew⟩
  · obtain ⟨hP, hQ⟩ := hI
    have hset : ∀ c (x : Conn), Q s.locals c x.inbox →
        ∀ d, Q s.locals d ((s.set c x).conn d).inbox := fun c x hx =>
      State.forall_set (p := fun d x => Q s.locals d x.inbox) hx fun d _ => hQ d
    cases step_cases hmove with
    | selected | foundNone | acceptFailed | failed => exact ⟨hP, hQ⟩
    | @connected c | @aborted c => exact ⟨hP, hset c _ (hQ c)⟩
    | @changed c e => exact ⟨hP, hset c _ (hkeeps.after _ c _ e (hQ c))⟩
    | @accepted _ c => exact ⟨hP, hset c _ (hQ c)⟩
    | @handled selected c k r _ _ hhandler =>
        obtain ⟨hlocals, hself, hother⟩ := hkeeps.handle _ c _ k r hP (hQ c) hhandler
        exact ⟨hlocals, State.forall_set (p := fun d x => Q r.locals d x.inbox) hself
          fun d hne => hother d hne _ (hQ d)⟩

/-- What holds of a channel that the handler closes holds of it for good. -/
theorem closed_of_run {P : β → Prop} {Q : β → κ → Inbox → Prop} {R : Inbox → Prop}
    (hkeeps : Keeps handler P Q) (hlocals : P locals) (hnew : ∀ c, Q locals c .new)
    (hcloses : ∀ b c x k r, P b → handler b c x k = .ok r → r.closes = true → R r.inbox)
    (h : (machine handler locals).Run ms s) (c : κ) (hclosed : (s.conn c).phase = .closed) :
    R (s.conn c).inbox := by
  refine (h.invariant (I := fun s => (∃ ms, (machine handler locals).Run ms s) ∧
      ∀ c, (s.conn c).phase = .closed → R (s.conn c).inbox) (fun s hs => ?_)
    fun s a s' hI hmove => ?_).2 c hclosed
  · refine ⟨⟨[], .start hs⟩, fun c hc => ?_⟩
    obtain rfl : s = initial locals := hs
    cases hc
  · obtain ⟨⟨ms, hrun⟩, hR⟩ := hI
    refine ⟨⟨_, hrun.snoc hmove⟩, ?_⟩
    have hset : ∀ c (x : Conn), (x.phase = .closed → R x.inbox) →
        ∀ d, ((s.set c x).conn d).phase = .closed → R ((s.set c x).conn d).inbox := fun c x hx =>
      State.forall_set (p := fun _ x => x.phase = .closed → R x.inbox) hx fun d _ => hR d
    cases step_cases hmove with
    | selected | foundNone | acceptFailed | failed => exact hR
    | @connected c | @aborted c | @accepted _ c => exact hset c _ fun h => by cases h
    | @changed c e hopen =>
        refine hset c _ fun h => ?_
        obtain hphase | hphase := hopen.1 <;> cases h.symm.trans hphase
    | @handled selected c k r _ _ hhandler =>
        refine hset c _ fun hphase => hcloses _ c _ k r (keeps_of_run hkeeps hlocals hnew hrun).1
          hhandler ?_
        by_contra hopen
        simp [hopen] at hphase

/-! ## How the loop ends -/

/-- What has ended the loop. -/
inductive Cause (handler : Handler κ β) (ms : List (LoopMove κ β)) : Throwable → Prop
  /-- `accept()` returns `null`: the connection has been aborted since it was selected. -/
  | foundNone {m : LoopMove κ β} (hm : m ∈ ms) (hlabel : m.label = .accept)
      (hbacklog : m.pre.backlog = []) : Cause handler ms .nullPointerException
  | acceptFailed {m : LoopMove κ β} {message : String} (hm : m ∈ ms)
      (hlabel : m.label = .acceptFails message) :
      Cause handler ms (.runtimeException (.ioException message))
  | failed {m : LoopMove κ β} {c : κ} {k : ℕ} {e : Throwable} (hm : m ∈ ms)
      (hlabel : m.label = .read k) (hready : m.pre.IsReady (some c))
      (h : handler m.pre.locals c (m.pre.conn c).inbox k = .error e) :
      Cause handler ms (rethrown e)

omit [DecidableEq κ] in
lemma Cause.append {e : Throwable} (h : Cause handler ms e) (ms' : List (LoopMove κ β)) :
    Cause handler (ms ++ ms') e := by
  cases h with
  | foundNone hm hlabel hbacklog =>
      exact .foundNone (List.mem_append_left _ hm) hlabel hbacklog
  | acceptFailed hm hlabel => exact .acceptFailed (List.mem_append_left _ hm) hlabel
  | failed hm hlabel hready h => exact .failed (List.mem_append_left _ hm) hlabel hready h

/-- An exception that has ended the loop has one of the causes. -/
lemma cause_of_run (h : (machine handler locals).Run ms s) {e : Throwable}
    (he : s.thrown = some e) : Cause handler ms e := by
  induction h with
  | start hinit =>
      obtain rfl : _ = initial locals := hinit
      cases he
  | @snoc ms s a s' hrun hmove ih =>
      have hlast : ∀ s'', (⟨s, a, s''⟩ : LoopMove κ β) ∈ ms ++ [⟨s, a, s''⟩] := by simp
      cases step_cases hmove with
      | connected | aborted | changed | selected => exact (ih he).append _
      | accepted hthrown | handled hthrown => exact (ih he).append _
      | foundNone _ _ hbacklog =>
          obtain rfl := Option.some.inj he
          exact .foundNone (hlast _) rfl hbacklog
      | acceptFailed =>
          obtain rfl := Option.some.inj he
          exact .acceptFailed (hlast _) rfl
      | failed _ hselected hhandler =>
          obtain rfl := Option.some.inj he
          have hready := (inv_of_run hrun).ready _ (hselected ▸ List.mem_cons_self)
          exact .failed (hlast _) rfl hready hhandler

end Runs

/-! ## When the loop has nothing to do -/

/-- What a channel still has for the loop. -/
def Inbox.weight (x : Inbox) : ℕ := x.unread.length + if x.ended ∨ x.reset then 1 else 0

lemma Inbox.IsReadable.weight_pos {x : Inbox} (h : x.IsReadable) : 0 < x.weight := by
  rw [Inbox.weight]
  obtain hunread | hflag := h
  · have hpos := List.length_pos_of_ne_nil hunread
    omega
  · rw [if_pos hflag]
    exact Nat.succ_pos _

lemma Inbox.weight_le (x : Inbox) : x.weight ≤ x.unread.length + 1 := by
  rw [Inbox.weight]
  split_ifs <;> omega

def Conn.weight (x : Conn) : ℕ :=
  match x.phase with
  | .pending => x.inbox.unread.length + 2
  | .registered => x.inbox.weight
  | _ => 0

/-- How much the loop has to do, for channels of the weight `n`. -/
def workOf (n : ℕ) (selected : List (Option κ)) (thrown : Option Throwable) : ℕ :=
  2 * n + (if selected = [] then 1 else 0) + if thrown.isNone then 2 else 0

omit [DecidableEq κ] in
lemma workOf_lt {n n' : ℕ} {selected : List (Option κ)} (key : Option κ)
    (thrown : Option Throwable) (h : n' < n) :
    workOf n' selected thrown < workOf n (key :: selected) thrown := by
  rw [workOf, workOf, if_neg (List.cons_ne_nil key selected)]
  split_ifs <;> omega

omit [DecidableEq κ] in
lemma workOf_thrown_lt (n : ℕ) {selected : List (Option κ)} (key : Option κ) (e : Throwable) :
    workOf n selected (some e) < workOf n (key :: selected) none := by
  rw [workOf, workOf, if_neg (List.cons_ne_nil key selected)]
  simp only [Option.isNone_some, Option.isNone_none, Bool.false_eq_true, if_false, if_true]
  split_ifs <;> omega

/-- How much the loop has to do: at most two moves for each byte, each connection and each end, and
three more. -/
def State.work [Fintype κ] (s : State κ β) : ℕ :=
  workOf (∑ c, (s.conn c).weight) s.selected s.thrown

/-- A handler that gets on with every channel it is given. -/
def Works (handler : Handler κ β) (P : β → Prop) : Prop :=
  ∀ b c x k r, P b → x.IsReadable → handler b c x k = .ok r →
    r.closes = true ∨ r.inbox.weight < x.weight

section Progress

variable [Fintype κ] {handler : Handler κ β} {locals : β} {P : β → Prop} {s s' : State κ β}
  {a : Act κ}

/-- The weight of all channels falls with that of one. -/
lemma sum_weight_set_lt (s : State κ β) {c : κ} {x : Conn} (h : x.weight < (s.conn c).weight) :
    ∑ d, ((s.set c x).conn d).weight < ∑ d, (s.conn d).weight := by
  have hsum : ∑ d, ((s.set c x).conn d).weight + (s.conn c).weight =
      ∑ d, (s.conn d).weight + x.weight := sum_update_add Conn.weight s.conn c x
  omega

/-- **Every move of the loop leaves it less to do.** -/
lemma work_lt (hs : Inv s) (hP : P s.locals) (hworks : Works handler P) (ha : a.IsOwn)
    (h : step handler s a = some s') : s'.work < s.work := by
  cases step_cases h with
  | connected | aborted | changed | acceptFailed => exact ha.elim
  | selected _ hnone hne => simp [State.work, workOf, hnone, hne]
  | @accepted selected c backlog hthrown hselected hbacklog =>
      have hpending : (s.conn c).phase = .pending := (hs.mem_backlog c).mp (by simp [hbacklog])
      have hle := (s.conn c).inbox.weight_le
      have hlt : ({ s.conn c with phase := .registered } : Conn).weight < (s.conn c).weight := by
        rw [Conn.weight, Conn.weight, hpending]
        exact Nat.lt_succ_of_le hle
      rw [State.work, State.work, hselected]
      exact workOf_lt none s.thrown (sum_weight_set_lt s hlt)
  | @foundNone selected hthrown hselected =>
      rw [State.work, State.work, hselected, hthrown]
      exact workOf_thrown_lt _ none _
  | @handled selected c k r hthrown hselected hhandler =>
      obtain ⟨hregistered, hreadable⟩ := hs.ready c (hselected ▸ List.mem_cons_self)
      have hlt : (⟨if r.closes then .closed else .registered, r.inbox⟩ : Conn).weight <
          (s.conn c).weight := by
        rw [Conn.weight, Conn.weight, hregistered]
        obtain hcloses | hless := hworks _ c _ k r hP hreadable hhandler
        · rw [hcloses]
          exact hreadable.weight_pos
        · cases hcloses : r.closes with
          | true => exact hreadable.weight_pos
          | false => exact hless
      rw [State.work, State.work, hselected]
      exact workOf_lt (some c) s.thrown (sum_weight_set_lt s hlt)
  | @failed selected c k e hthrown hselected hhandler =>
      rw [State.work, State.work, hselected, hthrown]
      exact workOf_thrown_lt _ (some c) _

variable {Q : β → κ → Inbox → Prop} {ms : List (LoopMove κ β)}

/-- In a state that is reached every move of the loop leaves it less to do. -/
lemma work_lt_of_run (hkeeps : Keeps handler P Q) (hlocals : P locals) (hnew : ∀ c, Q locals c .new)
    (hworks : Works handler P) (hreached : ∃ ms, (machine handler locals).Run ms s) (ha : a.IsOwn)
    (h : step handler s a = some s') : s'.work < s.work := by
  obtain ⟨ms, hrun⟩ := hreached
  exact work_lt (inv_of_run hrun) (keeps_of_run hkeeps hlocals hnew hrun).1 hworks ha h

/-- **Bound of the loop.**  If the handler gets on with every channel it is given, the loop makes no
more moves by itself than it has to do. -/
theorem length_le_work (hkeeps : Keeps handler P Q) (hlocals : P locals)
    (hnew : ∀ c, Q locals c .new) (hworks : Works handler P) (h : (machine handler locals).Run ms s)
    {as : List (Act κ)} (hown : ∀ a ∈ as, a.IsOwn)
    (hplay : (machine handler locals).play s as = some s') : as.length ≤ s.work := by
  have hlength := Machine.length_add_variant_le_of_play (M := machine handler locals)
    (I := fun s => ∃ ms, (machine handler locals).Run ms s) Act.IsOwn State.work
    (fun s a s' hs hmove => hs.elim fun ms hrun => ⟨_, hrun.snoc hmove⟩)
    (fun _ _ _ hs ha => work_lt_of_run hkeeps hlocals hnew hworks hs ha) ⟨ms, h⟩ hown hplay
  omega

/-- **Completion rule of the loop.**  The loop comes to an end of what it has to do, whatever has
happened before. -/
theorem exists_quiet (hkeeps : Keeps handler P Q) (hlocals : P locals) (hnew : ∀ c, Q locals c .new)
    (hworks : Works handler P) (h : (machine handler locals).Run ms s) :
    ∃ ms' s', (machine handler locals).Run (ms ++ ms') s' ∧ (∀ m ∈ ms', m.label.IsOwn) ∧
      (machine handler locals).Quiet Act.IsOwn s' :=
  h.exists_quiet Act.IsOwn State.work (I := fun s => ∃ ms, (machine handler locals).Run ms s)
    (fun _ hs => ⟨[], .start hs⟩)
    (fun _ _ _ hs hmove => hs.elim fun _ hrun => ⟨_, hrun.snoc hmove⟩)
    fun _ _ _ hs ha => work_lt_of_run hkeeps hlocals hnew hworks hs ha

end Progress

/-- When the loop has nothing to do and has not ended, no connection waits and no channel is ready.
-/
lemma of_quiet {handler : Handler κ β} {locals : β} {s : State κ β}
    (hquiet : (machine handler locals).Quiet Act.IsOwn s) (hthrown : s.thrown = none) :
    s.backlog = [] ∧ ∀ c, (s.conn c).phase = .registered → ¬(s.conn c).inbox.IsReadable := by
  have hselected : s.selected = [] := by
    cases hkeys : s.selected with
    | nil => rfl
    | cons key selected =>
        cases key with
        | none =>
            have haccept : step handler s .accept = none := hquiet .accept trivial
            cases hbacklog : s.backlog <;> simp [step, hthrown, hkeys, hbacklog] at haccept
        | some c =>
            have hread : step handler s (.read 0) = none := hquiet (.read 0) trivial
            cases hhandler : handler s.locals c (s.conn c).inbox 0 <;>
              simp [step, hthrown, hkeys, hhandler] at hread
  have hnot : ∀ key, ¬s.IsReady key := by
    intro key hready
    have hselect : step handler s (.select [key]) = none := hquiet (.select [key]) trivial
    simp [step, hthrown, hselected, hready] at hselect
  exact ⟨not_not.mp (hnot none), fun c hregistered hreadable =>
    hnot (some c) ⟨hregistered, hreadable⟩⟩

end SelectLoop

end LearnJava
