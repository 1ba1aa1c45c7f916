import LearnJava.Foundation.Run
import LearnJava.Java.FixedThreadPool
import LearnJava.TestServer.SimulateServlet

/-!
# `StartServer`

`main` accepts one connection after another and submits each to a pool of three threads
(`LearnJava/Java/FixedThreadPool.lean`), which answer them (`SimulateServlet.lean`).  Any number of
clients, the threads of the pool and `main` move in any order.  `accept()` may fail; then `main`
closes the server's socket and shuts the pool down, and what waits in the backlog or in the queue of
the pool is never answered.
-/

namespace LearnJava

namespace TestServer

/-- Where `main` is. -/
inductive MainPhase (κ : Type)
  /-- `serverSocket.accept()` -/
  | accepting
  /-- `threadPool.submit(new DispatchRequestRunnable(socket))` -/
  | submitting (socket : κ)
  | stopped
  deriving DecidableEq, Repr

/-- The connection that `main` has in its hands. -/
def MainPhase.hand {κ : Type} : MainPhase κ → List κ
  | .submitting socket => [socket]
  | _ => []

/-- `main`, the connections it has not accepted yet, the pool, and all connections. -/
structure State (κ : Type) where
  main : MainPhase κ
  backlog : List κ
  pool : FixedThreadPool κ
  conn : κ → Connection

/-- The label of a move. -/
inductive Act (κ : Type)
  | connect (c : κ)
  | client (c : κ) (a : ClientAct)
  | accept
  | acceptFails
  | submit
  | take
  | task (c : κ) (a : TaskAct)
  deriving DecidableEq, Repr

variable {κ : Type} [DecidableEq κ]

/-- One connection is changed. -/
def State.set (s : State κ) (c : κ) (x : Connection) : State κ :=
  { s with conn := Function.update s.conn c x }

/-- A thread of the pool begins with a connection. -/
def State.begin (s : State κ) (c : κ) : State κ := s.set c { s.conn c with task := .starting }

/-- One move. -/
def step (s : State κ) : Act κ → Option (State κ)
  | .connect c =>
    if s.main = .stopped then none
    else
      match (s.conn c).client with
      | .new =>
        some { s.set c { s.conn c with client := .writing } with backlog := s.backlog ++ [c] }
      | _ => none
  | .client c a => ((s.conn c).sendRequest a).map (s.set c)
  | .accept =>
    match s.main, s.backlog with
    | .accepting, c :: backlog => some { s with main := .submitting c, backlog }
    | _, _ => none
  | .acceptFails =>
    match s.main with
    | .accepting =>
      some { s with main := .stopped, backlog := [], pool := { s.pool with queue := [] } }
    | _ => none
  | .submit =>
    match s.main with
    | .submitting c =>
      some { (if s.pool.workers < 3 then s.begin c else s) with
        main := .accepting
        pool := s.pool.submit 3 c }
    | _ => none
  | .take => s.pool.take.map fun (c, pool) => { s.begin c with pool }
  | .task c a =>
    ((s.conn c).dispatchRequest a).map fun x =>
      { s.set c x with pool := if x.task.IsActive then s.pool else s.pool.finish c }

/-- The server before its first client. -/
def initial : State κ := ⟨.accepting, [], .new, fun _ => .initial⟩

/-- The server with its clients, in any interleaving. -/
def machine (κ : Type) [DecidableEq κ] : Machine (State κ) (Act κ) where
  init s := s = initial
  step := step

/-- A move of the server or of a client. -/
abbrev ServerMove (κ : Type) := Move (State κ) (Act κ)

section Lemmas

variable {s s' : State κ} {c d : κ} {x : Connection}

@[simp] lemma State.set_main : (s.set c x).main = s.main := rfl
@[simp] lemma State.set_backlog : (s.set c x).backlog = s.backlog := rfl
@[simp] lemma State.set_pool : (s.set c x).pool = s.pool := rfl
@[simp] lemma State.set_conn_self : (s.set c x).conn c = x := Function.update_self ..

lemma State.set_conn_of_ne (h : d ≠ c) : (s.set c x).conn d = s.conn d := Function.update_of_ne h ..

/-- What holds of the changed connection and of every other one holds of all. -/
lemma State.forall_set {p : κ → Connection → Prop} (hself : p c x)
    (hother : ∀ d, d ≠ c → p d (s.conn d)) (d : κ) : p d ((s.set c x).conn d) := by
  by_cases h : d = c
  · rw [h, set_conn_self]
    exact hself
  · rw [set_conn_of_ne h]
    exact hother d h

/-- The effects of the moves. -/
inductive Effect (s : State κ) : Act κ → State κ → Prop
  | connected {c : κ} (hmain : s.main ≠ .stopped) (hphase : (s.conn c).client = .new) :
      Effect s (.connect c)
        { s.set c { s.conn c with client := .writing } with backlog := s.backlog ++ [c] }
  | client {c : κ} {a : ClientAct} {x : Connection} (h : (s.conn c).sendRequest a = some x) :
      Effect s (.client c a) (s.set c x)
  | accepted {c : κ} {backlog : List κ} (hmain : s.main = .accepting)
      (hbacklog : s.backlog = c :: backlog) :
      Effect s .accept { s with main := .submitting c, backlog }
  | stopped (hmain : s.main = .accepting) :
      Effect s .acceptFails
        { s with main := .stopped, backlog := [], pool := { s.pool with queue := [] } }
  | begun {c : κ} (hmain : s.main = .submitting c) (hworkers : s.pool.workers < 3) :
      Effect s .submit { s.begin c with main := .accepting, pool := s.pool.submit 3 c }
  | queued {c : κ} (hmain : s.main = .submitting c) (hworkers : ¬s.pool.workers < 3) :
      Effect s .submit { s with main := .accepting, pool := s.pool.submit 3 c }
  | taken {c : κ} {pool : FixedThreadPool κ} (h : s.pool.take = some (c, pool)) :
      Effect s .take { s.begin c with pool }
  | task {c : κ} {a : TaskAct} {x : Connection} (h : (s.conn c).dispatchRequest a = some x) :
      Effect s (.task c a)
        { s.set c x with pool := if x.task.IsActive then s.pool else s.pool.finish c }

/-- Every move has one of the effects. -/
lemma step_cases {a : Act κ} (h : step s a = some s') : Effect s a s' := by
  cases a with
  | connect c =>
      simp only [step] at h
      by_cases hmain : s.main = .stopped
      case pos => simp [hmain] at h
      rw [if_neg hmain] at h
      split at h <;> rename_i hphase
      · obtain rfl := Option.some.inj h
        exact .connected hmain hphase
      · cases h
  | client c a =>
      obtain ⟨x, hx, rfl⟩ := Option.map_eq_some_iff.mp h
      exact .client hx
  | accept =>
      simp only [step] at h
      split at h
      · rename_i hmain hbacklog
        obtain rfl := Option.some.inj h
        exact .accepted hmain hbacklog
      · cases h
  | acceptFails =>
      simp only [step] at h
      split at h <;> rename_i hmain
      · obtain rfl := Option.some.inj h
        exact .stopped hmain
      · cases h
  | submit =>
      simp only [step] at h
      split at h <;> rename_i hmain
      · obtain rfl := Option.some.inj h
        by_cases hworkers : s.pool.workers < 3
        · rw [if_pos hworkers]
          exact .begun hmain hworkers
        · rw [if_neg hworkers]
          exact .queued hmain hworkers
      · cases h
  | take =>
      obtain ⟨⟨c, pool⟩, hpool, rfl⟩ := Option.map_eq_some_iff.mp h
      exact .taken hpool
  | task c a =>
      obtain ⟨x, hx, rfl⟩ := Option.map_eq_some_iff.mp h
      exact .task hx

end Lemmas

/-! ## Who has a connection -/

/-- The connections that wait: to be accepted, to be submitted, or for a thread of the pool. -/
def State.pending (s : State κ) : List κ := s.backlog ++ s.main.hand ++ s.pool.queue

/-- The invariant of the server. -/
structure Inv (s : State κ) : Prop where
  consistent : ∀ c, (s.conn c).Consistent
  pool : s.pool.Valid 3
  nodup_pending : s.pending.Nodup
  nodup_running : s.pool.running.Nodup
  active : ∀ c, (s.conn c).task.IsActive ↔ c ∈ s.pool.running
  waiting : ∀ c ∈ s.pending, (s.conn c).task = .waiting ∧ (s.conn c).client ≠ .new
  new : ∀ c, (s.conn c).client = .new → (s.conn c).task = .waiting

section Invariant

omit [DecidableEq κ] in
lemma inv_initial : Inv (initial : State κ) := by
  refine ⟨fun _ => Connection.consistent_initial, FixedThreadPool.valid_new 3, List.nodup_nil,
    List.nodup_nil, fun c => ?_, fun c hc => ?_, fun _ _ => rfl⟩
  · simp [initial, Connection.initial, TaskPhase.IsActive, FixedThreadPool.new]
  · simp [State.pending, initial, MainPhase.hand, FixedThreadPool.new] at hc

variable {s s' : State κ} {a : Act κ} {c : κ} {x x' : Connection}

/-! ### What the two ends leave of each other -/

lemma TaskEffect.isActive {a : TaskAct} (h : TaskEffect x a x') : x.task.IsActive := by
  cases h with
  | failed hphase => obtain hphase | hphase | hphase := hphase <;> simp [hphase, TaskPhase.IsActive]
  | noInstance hphase | hasInstance hphase | opened hphase | read hphase | wrote hphase
  | answered hphase | answeredPart hphase | closed hphase | notClosed hphase =>
      simp [hphase, TaskPhase.IsActive]

omit [DecidableEq κ] in
/-- A connection that waits is not one that a thread is at. -/
lemma Inv.not_active (hs : Inv s) (hc : c ∈ s.pending) : ¬(s.conn c).task.IsActive := by
  simp [(hs.waiting c hc).1, TaskPhase.IsActive]

omit [DecidableEq κ] in
lemma Inv.not_mem_running (hs : Inv s) (hc : c ∈ s.pending) : c ∉ s.pool.running :=
  fun hrunning => hs.not_active hc ((hs.active c).mpr hrunning)

/-! ### Connections that are handed on -/

/-- A thread of the pool begins with a connection that has waited. -/
lemma Inv.begin (hs : Inv s) (hc : c ∈ s.pending) {main : MainPhase κ} {pool : FixedThreadPool κ}
    (hpool : pool.Valid 3) (hrunning : pool.running = s.pool.running ++ [c])
    (hpending : s.pending.Perm (c :: (s.backlog ++ main.hand ++ pool.queue))) :
    Inv { s.begin c with main, pool } := by
  have hnodup := hpending.nodup_iff.mp hs.nodup_pending
  refine ⟨fun d => ?_, hpool, hnodup.of_cons, ?_, fun d => ?_, fun d hd => ?_, fun d => ?_⟩
  · refine State.forall_set (p := fun _ x => x.Consistent) ?_ (fun d _ => hs.consistent d) d
    obtain ⟨hrequest, hresponse, hunsent, hsilent, hserver, hclient⟩ := hs.consistent c
    refine ⟨hrequest, hresponse, hunsent, fun _ => hsilent ?_, hserver, hclient⟩
    simp [(hs.waiting c hc).1, TaskPhase.IsSilent]
  · change pool.running.Nodup
    rw [hrunning]
    exact hs.nodup_running.append (List.nodup_singleton c) (by simpa using hs.not_mem_running hc)
  · change ((s.begin c).conn d).task.IsActive ↔ d ∈ pool.running
    rw [hrunning]
    refine State.forall_set (p := fun d x => x.task.IsActive ↔ d ∈ s.pool.running ++ [c]) ?_
      (fun d hd => ?_) d
    · simp [TaskPhase.IsActive]
    · simpa [hd] using hs.active d
  · have hne : d ≠ c := by
      rintro rfl
      exact (List.nodup_cons.mp hnodup).1 hd
    have hconn : (s.begin c).conn d = s.conn d := State.set_conn_of_ne hne
    change ((s.begin c).conn d).task = .waiting ∧ ((s.begin c).conn d).client ≠ .new
    rw [hconn]
    exact hs.waiting d (hpending.mem_iff.mpr (List.mem_cons_of_mem c hd))
  · refine State.forall_set (p := fun _ x => x.client = .new → x.task = .waiting) (fun hnew => ?_)
      (fun d _ => hs.new d) d
    exact absurd hnew (hs.waiting c hc).2

omit [DecidableEq κ] in
/-- Connections that wait are handed on without a change of any of them. -/
lemma Inv.move (hs : Inv s) {main : MainPhase κ} {backlog : List κ} {pool : FixedThreadPool κ}
    (hpool : pool.Valid 3) (hrunning : pool.running = s.pool.running)
    (hpending : (backlog ++ main.hand ++ pool.queue).Nodup)
    (hsub : backlog ++ main.hand ++ pool.queue ⊆ s.pending) :
    Inv { s with main, backlog, pool } :=
  ⟨hs.consistent, hpool, hpending, hrunning ▸ hs.nodup_running,
    fun c => (hs.active c).trans (by rw [hrunning]), fun c hc => hs.waiting c (hsub hc), hs.new⟩

/-! ### Every move -/

lemma Inv.connect (hs : Inv s) (hphase : (s.conn c).client = .new) :
    Inv { s.set c { s.conn c with client := .writing } with backlog := s.backlog ++ [c] } := by
  have hnot : c ∉ s.pending := fun hc => (hs.waiting c hc).2 hphase
  have hwaiting := hs.new c hphase
  have hperm : (s.backlog ++ [c] ++ s.main.hand ++ s.pool.queue).Perm (c :: s.pending) := by
    simp only [State.pending, List.append_assoc, List.singleton_append]
    exact List.perm_middle
  refine ⟨fun d => ?_, hs.pool, hperm.nodup_iff.mpr (List.nodup_cons.mpr ⟨hnot, hs.nodup_pending⟩),
    hs.nodup_running, fun d => ?_, fun d hd => ?_, fun d => ?_⟩
  · refine State.forall_set (p := fun _ x => x.Consistent) ?_ (fun d _ => hs.consistent d) d
    obtain ⟨hrequest, hresponse, hunsent, hsilent, hserver, hclient⟩ := hs.consistent c
    exact ⟨hrequest, hresponse, fun _ => hunsent (.inl hphase), hsilent, hserver, hclient⟩
  · refine State.forall_set (x := { s.conn c with client := .writing })
      (p := fun d x => x.task.IsActive ↔ d ∈ s.pool.running) (hs.active c)
      (fun d _ => hs.active d) d
  · refine State.forall_set (x := { s.conn c with client := .writing })
      (p := fun d x => d ∈ c :: s.pending → x.task = .waiting ∧ x.client ≠ .new)
      (fun _ => ⟨hwaiting, by simp⟩) (fun d hne hd => ?_) d (hperm.mem_iff.mp hd)
    exact hs.waiting d ((List.mem_cons.mp hd).resolve_left hne)
  · exact State.forall_set (x := { s.conn c with client := .writing })
      (p := fun _ x => x.client = .new → x.task = .waiting) (fun _ => hwaiting)
      (fun d _ => hs.new d) d

lemma Inv.client (hs : Inv s) {a : ClientAct} (h : (s.conn c).sendRequest a = some x) :
    Inv (s.set c x) := by
  have heffect := sendRequest_cases h
  refine ⟨fun d => ?_, hs.pool, hs.nodup_pending, hs.nodup_running, fun d => ?_, fun d hd => ?_,
    fun d => ?_⟩
  · exact State.forall_set (p := fun _ x => x.Consistent) ((hs.consistent c).sendRequest h)
      (fun d _ => hs.consistent d) d
  · refine State.forall_set (p := fun d x => x.task.IsActive ↔ d ∈ s.pool.running) ?_
      (fun d _ => hs.active d) d
    rw [heffect.frame.1]
    exact hs.active c
  · refine State.forall_set
      (p := fun d x => d ∈ s.pending → x.task = .waiting ∧ x.client ≠ .new) (fun hc => ?_)
      (fun d _ => hs.waiting d) d hd
    exact ⟨heffect.frame.1.trans (hs.waiting c hc).1, heffect.client_ne⟩
  · exact State.forall_set (p := fun _ x => x.client = .new → x.task = .waiting)
      (fun hnew => absurd hnew heffect.client_ne) (fun d _ => hs.new d) d

lemma Inv.task (hs : Inv s) {a : TaskAct} (h : (s.conn c).dispatchRequest a = some x) :
    Inv { s.set c x with pool := if x.task.IsActive then s.pool else s.pool.finish c } := by
  have heffect := dispatchRequest_cases h
  have hrunning := (hs.active c).mp heffect.isActive
  have hnot : c ∉ s.pending := fun hc => hs.not_active hc heffect.isActive
  have hnew : (s.conn c).client ≠ .new := fun hnew => by
    have hactive := heffect.isActive
    simp [hs.new c hnew, TaskPhase.IsActive] at hactive
  have hqueue : (if x.task.IsActive then s.pool else s.pool.finish c).queue = s.pool.queue := by
    split_ifs <;> rfl
  have hmem : ∀ d, d ∈ (if x.task.IsActive then s.pool else s.pool.finish c).running ↔
      d ∈ s.pool.running ∧ (d = c → x.task.IsActive) := by
    intro d
    by_cases hactive : x.task.IsActive
    · simp [hactive]
    · simp [hactive, FixedThreadPool.finish, hs.nodup_running.mem_erase_iff, and_comm]
  refine ⟨fun d => ?_, ?_, ?_, ?_, fun d => ?_, fun d hd => ?_, fun d => ?_⟩
  · exact State.forall_set (p := fun _ x => x.Consistent) ((hs.consistent c).dispatchRequest h)
      (fun d _ => hs.consistent d) d
  · change FixedThreadPool.Valid 3 (if x.task.IsActive then s.pool else s.pool.finish c)
    split_ifs
    · exact hs.pool
    · exact hs.pool.finish c
  · change (s.backlog ++ s.main.hand ++ _).Nodup
    rw [hqueue]
    exact hs.nodup_pending
  · change (if x.task.IsActive then s.pool else s.pool.finish c).running.Nodup
    split_ifs
    · exact hs.nodup_running
    · exact hs.nodup_running.erase c
  · refine Iff.trans ?_ (hmem d).symm
    refine State.forall_set
      (p := fun d y => y.task.IsActive ↔ d ∈ s.pool.running ∧ (d = c → x.task.IsActive)) ?_
      (fun d hne => ?_) d
    · simp [hrunning]
    · simpa [hne] using hs.active d
  · replace hd : d ∈ s.backlog ++ s.main.hand ++ _ := hd
    rw [hqueue] at hd
    have hne : d ≠ c := by
      rintro rfl
      exact hnot hd
    have hconn : (s.set c x).conn d = s.conn d := State.set_conn_of_ne hne
    change ((s.set c x).conn d).task = .waiting ∧ ((s.set c x).conn d).client ≠ .new
    rw [hconn]
    exact hs.waiting d hd
  · refine State.forall_set (p := fun _ x => x.client = .new → x.task = .waiting) (fun h => ?_)
      (fun d _ => hs.new d) d
    exact absurd (heffect.frame.1.symm.trans h) hnew

/-- **Every move keeps the invariant.** -/
lemma inv_step (hs : Inv s) (h : step s a = some s') : Inv s' := by
  have hnodup := hs.nodup_pending
  cases step_cases h with
  | connected _ hphase => exact hs.connect hphase
  | client hclient => exact hs.client hclient
  | task htask => exact hs.task htask
  | @accepted c backlog hmain hbacklog =>
      have hperm : (backlog ++ (MainPhase.submitting c).hand ++ s.pool.queue).Perm s.pending := by
        simp only [State.pending, MainPhase.hand, hmain, hbacklog, List.append_assoc,
          List.nil_append, List.cons_append]
        exact List.perm_middle
      exact hs.move hs.pool rfl (hperm.nodup_iff.mpr hnodup) fun d hd => hperm.mem_iff.mp hd
  | stopped hmain =>
      refine hs.move ⟨hs.pool.running_le, hs.pool.workers_le, fun h => absurd rfl h⟩ rfl ?_ ?_
      · exact List.nodup_nil
      · exact List.nil_subset _
  | @begun c hmain hworkers =>
      have hqueue : (s.pool.submit 3 c).queue = s.pool.queue := by
        simp [FixedThreadPool.submit, hworkers]
      refine hs.begin ?_ (hs.pool.submit c) ?_ ?_
      · simp [State.pending, hmain, MainPhase.hand]
      · simp [FixedThreadPool.submit, hworkers]
      · rw [hqueue]
        simp only [State.pending, hmain, MainPhase.hand, List.append_assoc, List.singleton_append,
          List.nil_append]
        exact List.perm_middle
  | @queued c hmain hworkers =>
      have hperm : (s.backlog ++ (MainPhase.accepting : MainPhase κ).hand ++
          (s.pool.submit 3 c).queue).Perm s.pending := by
        simp only [State.pending, MainPhase.hand, hmain, FixedThreadPool.queue_submit,
          if_neg hworkers, List.append_assoc, List.nil_append]
        exact List.perm_append_comm.append_left s.backlog
      refine hs.move (hs.pool.submit c) ?_ (hperm.nodup_iff.mpr hnodup) fun d hd =>
        hperm.mem_iff.mp hd
      simp [FixedThreadPool.submit, hworkers]
  | @taken c pool htake =>
      have hpool := hs.pool.take htake
      obtain ⟨-, queue, hqueue, rfl⟩ := FixedThreadPool.take_eq_some.mp htake
      refine hs.begin ?_ hpool rfl ?_
      · simp [State.pending, hqueue]
      · simp only [State.pending, hqueue]
        exact List.perm_middle

/-! ## One connection -/

/-- What a move does to the connection `d`. -/
inductive ConnEffect (s : State κ) (a : Act κ) (d : κ) : Connection → Prop
  | same : ConnEffect s a d (s.conn d)
  | connected (ha : a = .connect d) (hphase : (s.conn d).client = .new) :
      ConnEffect s a d { s.conn d with client := .writing }
  | client {b : ClientAct} {x : Connection} (ha : a = .client d b)
      (h : (s.conn d).sendRequest b = some x) : ConnEffect s a d x
  | begun (hphase : (s.conn d).task = .waiting) (hconnected : (s.conn d).client ≠ .new) :
      ConnEffect s a d { s.conn d with task := .starting }
  | task {b : TaskAct} {x : Connection} (ha : a = .task d b)
      (h : (s.conn d).dispatchRequest b = some x) : ConnEffect s a d x

lemma ConnEffect.of_set {y : Connection} (h : ConnEffect s a c y) (d : κ) (x' : Connection)
    (hx' : x' = (s.set c y).conn d) : ConnEffect s a d x' := by
  rw [hx']
  by_cases hd : d = c
  · rw [hd, State.set_conn_self]
    exact h
  · rw [State.set_conn_of_ne hd]
    exact .same

/-- Every move has one of the effects on each connection. -/
lemma Inv.conn_cases (hs : Inv s) (h : step s a = some s') (d : κ) :
    ConnEffect s a d (s'.conn d) := by
  cases step_cases h with
  | connected _ hphase => exact ConnEffect.of_set (.connected rfl hphase) d _ rfl
  | client hclient => exact ConnEffect.of_set (.client rfl hclient) d _ rfl
  | accepted | stopped | queued => exact .same
  | @begun c hmain _ =>
      have hpending : c ∈ s.pending := by simp [State.pending, hmain, MainPhase.hand]
      obtain ⟨hphase, hconnected⟩ := hs.waiting c hpending
      exact ConnEffect.of_set (.begun hphase hconnected) d _ rfl
  | @taken c pool htake =>
      obtain ⟨-, queue, hqueue, -⟩ := FixedThreadPool.take_eq_some.mp htake
      have hpending : c ∈ s.pending := by simp [State.pending, hqueue]
      obtain ⟨hphase, hconnected⟩ := hs.waiting c hpending
      exact ConnEffect.of_set (.begun hphase hconnected) d _ rfl
  | task htask => exact ConnEffect.of_set (.task rfl htask) d _ rfl

end Invariant

section Runs

variable {ms : List (ServerMove κ)} {s : State κ}

lemma inv_of_run (h : (machine κ).Run ms s) : Inv s :=
  h.invariant (fun s hs => by
    obtain rfl : s = initial := hs
    exact inv_initial) fun _ _ _ => inv_step

/-- What holds of a connection before anything has happened, and is preserved by the moves that meet
a condition, holds of it in the runs whose moves all do. -/
lemma conn_of_run (h : (machine κ).Run ms s) (c : κ) {p : Connection → Prop}
    {C : State κ → Act κ → Prop} (hinit : p .initial)
    (hstep : ∀ s a x, Inv s → C s a → ConnEffect s a c x → p (s.conn c) → p x)
    (hC : ∀ m ∈ ms, C m.pre m.label) : p (s.conn c) := by
  refine (h.invariant_of_moves (I := fun s => Inv s ∧ p (s.conn c)) (fun s hs => ?_)
    (fun s a s' ⟨hs, hp⟩ hmove hcond => ⟨inv_step hs hmove, ?_⟩) hC).2
  · obtain rfl : s = initial := hs
    exact ⟨inv_initial, hinit⟩
  · exact hstep s a _ hs hcond (hs.conn_cases hmove c) hp

/-- None of the client's calls fails. -/
def ClientWorks (c : κ) (ms : List (ServerMove κ)) : Prop :=
  ∀ m ∈ ms, ∀ a, m.label = .client c a → ¬a.IsFailure

/-- None of the calls of the task for a connection fails. -/
def TaskWorks (c : κ) (ms : List (ServerMove κ)) : Prop :=
  ∀ m ∈ ms, ∀ a, m.label = .task c a → ¬a.IsFailure

/-- The thread that is given the connection does not see the servlet. -/
def FindsNoInstance (c : κ) (ms : List (ServerMove κ)) : Prop :=
  ∃ m ∈ ms, m.label = .task c (.getInstance true)

/-- The `close()` of the socket itself fails, after those of its streams. -/
def CloseFails (c : κ) (ms : List (ServerMove κ)) : Prop :=
  ∃ m ∈ ms, m.label = .task c .fail ∧ ∃ thrown, (m.pre.conn c).task = .closing .socket [] thrown

lemma sendsAll_of_run (h : (machine κ).Run ms s) (c : κ) (hworks : ClientWorks c ms) :
    (s.conn c).SendsAll := by
  refine conn_of_run h c (C := fun _ a => ∀ b, a = .client c b → ¬b.IsFailure) (.inl rfl)
    (fun s a x hs hC heffect hp => ?_) hworks
  cases heffect with
  | same => exact hp
  | begun => exact hp
  | connected => exact .inr (.inl rfl)
  | task _ htask =>
      obtain ⟨hclient, hrequest⟩ := (dispatchRequest_cases htask).frame
      rwa [Connection.SendsAll, hclient, hrequest]
  | @client b _ ha hclient => exact hp.sendRequest (hs.consistent c) hclient (hC b ha)

lemma answersAll_of_run (h : (machine κ).Run ms s) (c : κ) (hworks : TaskWorks c ms) :
    (s.conn c).AnswersAll := by
  refine conn_of_run h c (C := fun _ a => ∀ b, a = .task c b → ¬b.IsFailure) (.inl trivial)
    (fun s a x hs hC heffect hp => ?_) hworks
  cases heffect with
  | same => exact hp
  | connected => exact hp
  | begun => exact .inl trivial
  | client _ hclient =>
      obtain ⟨htask, hresponse⟩ := (sendRequest_cases hclient).frame
      rwa [Connection.AnswersAll, htask, hresponse]
  | @task b _ ha htask => exact hp.dispatchRequest (hs.consistent c) htask (hC b ha)

lemma closesSocket_of_run (h : (machine κ).Run ms s) (c : κ) (hinstance : ¬FindsNoInstance c ms)
    (hclose : ¬CloseFails c ms) : (s.conn c).ClosesSocket := by
  refine conn_of_run h c (C := fun s a => a ≠ .task c (.getInstance true) ∧
      (a = .task c .fail → ∀ thrown, (s.conn c).task ≠ .closing .socket [] thrown)) (.inr trivial)
    (fun s a x hs hC heffect hp => ?_) fun m hm => ⟨fun hm' => hinstance ⟨m, hm, hm'⟩,
      fun hfail thrown hphase => hclose ⟨m, hm, hfail, thrown, hphase⟩⟩
  cases heffect with
  | same => exact hp
  | connected => exact hp
  | begun => exact .inr trivial
  | client _ hclient =>
      obtain ⟨htask, hresponse⟩ := (sendRequest_cases hclient).frame
      rwa [Connection.ClosesSocket, htask, hresponse]
  | task ha htask =>
      exact hp.dispatchRequest htask (fun hb => hC.1 (hb ▸ ha)) fun hb => hC.2 (hb ▸ ha)

/-- The connections that have been accepted, in this order. -/
def accepted (ms : List (ServerMove κ)) : List κ :=
  ms.flatMap fun m => if m.label = .accept then m.post.main.hand else []

lemma accepted_snoc (ms : List (ServerMove κ)) (m : ServerMove κ) :
    accepted (ms ++ [m]) = accepted ms ++ if m.label = .accept then m.post.main.hand else [] := by
  simp [accepted]

/-- What waits for a thread are the connections that were accepted last. -/
lemma queue_suffix_of_run (h : (machine κ).Run ms s) :
    s.pool.queue ++ s.main.hand <:+ accepted ms := by
  induction h with
  | start hinit =>
      obtain rfl : _ = initial := hinit
      exact List.nil_suffix
  | @snoc ms s a s' hrun hmove ih =>
      have hs := inv_of_run hrun
      rw [accepted_snoc]
      cases step_cases hmove with
      | connected | client => simpa using ih
      | @task c _ x _ =>
          have hqueue : (if x.task.IsActive then s.pool else s.pool.finish c).queue =
              s.pool.queue := by
            split_ifs <;> rfl
          simpa [hqueue] using ih
      | stopped => exact List.nil_suffix
      | @accepted c backlog hmain _ =>
          have hnone : (MainPhase.accepting : MainPhase κ).hand = [] := rfl
          rw [hmain, hnone, List.append_nil] at ih
          obtain ⟨earlier, hearlier⟩ := ih
          exact ⟨earlier, by simp [MainPhase.hand, ← hearlier]⟩
      | @begun c hmain hworkers =>
          -- nothing waits while there are fewer than three workers
          have hqueue : s.pool.queue = [] := by
            by_contra hqueue
            have hall := hs.pool.workers_eq hqueue
            omega
          simp [FixedThreadPool.submit, hworkers, hqueue, MainPhase.hand]
      | @queued c hmain hworkers =>
          rw [hmain] at ih
          simpa [FixedThreadPool.submit, hworkers, MainPhase.hand] using ih
      | @taken c pool htake =>
          obtain ⟨-, queue, hqueue, rfl⟩ := FixedThreadPool.take_eq_some.mp htake
          rw [hqueue] at ih
          have htail : queue ++ s.main.hand <:+ c :: queue ++ s.main.hand := ⟨[c], by simp⟩
          simpa [State.begin] using htail.trans ih

/-- What the server and its clients can rely on, in a run that has come to `s`. -/
structure Served (malformed : List Byte → String) (ms : List (ServerMove κ)) (s : State κ) :
    Prop where
  /-- Three connections are served at a time, at most. -/
  three : ∀ cs : List κ, cs.Nodup → (∀ c ∈ cs, (s.conn c).task.IsActive) → cs.length ≤ 3
  /-- The others wait in the order in which they were accepted. -/
  inOrder : s.pool.queue ++ s.main.hand <:+ accepted ms
  /-- One answer is sent, or a part of one. -/
  part : ∀ c, IsPartOf backStrs (s.conn c).response.sent
  serverPrinted : ∀ c r, (s.conn c).serverPrinted = some r → ClientWorks c ms →
    ∃ line, r = some line ∧ newString malformed line ++ "\n" ∈ sendStrs
  clientPrinted : ∀ c r, (s.conn c).clientPrinted = some r → TaskWorks c ms →
    ∃ line, r = some line ∧ newString malformed line ++ "\n" ∈ backStrs
  closed : ∀ c thrown, (s.conn c).task = .finished thrown →
    (s.conn c).response.closed = true ∨ FindsNoInstance c ms ∨ CloseFails c ms

/-- However the server, its threads and any number of clients are interleaved, and whichever of
their calls fail: three connections at most are served at a time, the others wait in the order in
which they were accepted; each client is sent at most one of the answers, and prints a whole one if
no call of its task fails; the server prints whole requests of the clients whose calls do not fail;
and a socket is closed by the end of its task, whatever fails before, unless `getInstance` returned
`null` or the last `close()` fails. -/
theorem dispatchRequest_serves (malformed : List Byte → String) (h : (machine κ).Run ms s) :
    Served malformed ms s := by
  have hs := inv_of_run h
  refine ⟨fun cs hnodup hactive => ?_, queue_suffix_of_run h, fun c => (hs.consistent c).response,
    fun c r hr hworks => ?_, fun c r hr hworks => ?_, fun c thrown hfinished => ?_⟩
  · have hsub : cs ⊆ s.pool.running := fun c hc => (hs.active c).mp (hactive c hc)
    exact (hnodup.subperm hsub).length_le.trans hs.pool.length_running_le
  · obtain ⟨line, hline, htext⟩ := (sendsAll_of_run h c hworks).serverPrinted (hs.consistent c) hr
    exact ⟨line, hline, htext malformed⟩
  · obtain ⟨line, hline, htext⟩ := (answersAll_of_run h c hworks).clientPrinted (hs.consistent c) hr
    exact ⟨line, hline, htext malformed⟩
  · by_contra hno
    push Not at hno
    obtain ⟨hopen, hinstance, hclose⟩ := hno
    obtain hclosed | hphase := closesSocket_of_run h c hinstance hclose
    · exact hopen hclosed
    · rw [hfinished] at hphase
      exact hphase

/-- Two clients, of which the second one loses its connection while its answer is written. -/
def servingRun : List (Act Duo) :=
  [.connect .first, .connect .second, .accept, .submit, .accept, .submit,
    .client .first (.send "login\n"), .client .second (.send "注销\n"),
    .task .second (.getInstance false), .task .first (.getInstance false), .task .first .go,
    .task .first .go, .task .first .go, .task .first (.answer "hello!\n"), .task .second .go,
    .task .second .go, .task .second .go, .task .second (.answerFails "你好\n" 2),
    .client .first .read, .task .first .go, .task .first .go, .task .first .go,
    .client .first .close, .task .second .fail, .task .second .go, .task .second .fail,
    .client .second .read]

theorem dispatchRequest_serves_servingRun :
    ((machine Duo).play initial servingRun).isSome ∧
      Served (fun _ => "\uFFFD") ((machine Duo).moves initial servingRun)
        (((machine Duo).play initial servingRun).getD initial) :=
  ⟨by decide +kernel,
    dispatchRequest_serves _ (Machine.run_getD_of_play initial rfl (by decide +kernel))⟩

end Runs

end TestServer

end LearnJava
