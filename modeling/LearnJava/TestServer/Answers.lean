import LearnJava.Foundation.Progress
import LearnJava.TestServer.StartServer

/-!
# Every client of `TestServer` gets its answer

For any finite number of clients the moves of a run come to an end, whatever the order
(`distance_lt`).  Where no call fails, nothing is left then but clients that have printed a whole
answer, and, since the field `instance` of `SimulateServlet` is not `volatile`, clients that wait
for good: of those whose thread of the pool found no instance.
-/

namespace LearnJava

namespace TestServer

/-! ## The distance from the end -/

/-- How many moves of the client are left at most; connecting counts for the moves of `main`, too.
-/
def ClientPhase.distance : ClientPhase → ℕ
  | .new => 6
  | .writing => 3
  | .reading => 2
  | .closing _ => 1
  | .ended _ => 0

/-- How many moves of the task are left at most. -/
def TaskPhase.distance : TaskPhase → ℕ
  | .waiting => 9
  | .starting => 8
  | .opening => 7
  | .reading => 6
  | .answering => 5
  | .writing => 4
  | .closing _ rest _ => rest.length + 1
  | .finished _ => 0

def Connection.distance (x : Connection) : ℕ := x.client.distance + x.task.distance

lemma ClientEffect.distance_lt {x x' : Connection} {a : ClientAct} (h : ClientEffect x a x') :
    x'.distance < x.distance := by
  cases h with
  | sent hphase | sentPart hphase | read hphase | closed hphase | refused hphase | failed hphase
  | notClosed hphase => simp [Connection.distance, ClientPhase.distance, hphase]

lemma TaskEffect.distance_lt {x x' : Connection} {a : TaskAct} (h : TaskEffect x a x') :
    x'.distance < x.distance := by
  cases h with
  | noInstance hphase | hasInstance hphase | opened hphase | read hphase | wrote hphase
  | answered hphase | answeredPart hphase =>
      simp [Connection.distance, TaskPhase.distance, hphase]
  | failed hphase hopened =>
      obtain hphase | hphase | hphase := hphase <;> obtain ⟨-, rfl⟩ | ⟨-, rfl⟩ := hopened <;>
        simp [Connection.distance, TaskPhase.distance, hphase]
  | @closed first rest thrown hphase | @notClosed first rest thrown hphase =>
      cases rest with
      | nil => simp [Connection.distance, TaskPhase.distance, TaskPhase.afterClose, hphase]
      | cons second rest =>
          simp [Connection.distance, TaskPhase.distance, TaskPhase.afterClose, hphase]

/-- How many moves `main` is away from its next `accept()`, or from its end. -/
def MainPhase.distance {κ : Type} : MainPhase κ → ℕ
  | .submitting _ => 2
  | .accepting => 1
  | .stopped => 0

variable {κ : Type} [Fintype κ]

def connDistance (conn : κ → Connection) : ℕ := ∑ c, (conn c).distance

/-- How many moves are left at most. -/
def State.distance (s : State κ) : ℕ :=
  connDistance s.conn + (s.main.distance + 2 * s.backlog.length)

variable [DecidableEq κ]

lemma connDistance_set (s : State κ) (c : κ) (x : Connection) :
    connDistance (s.set c x).conn + (s.conn c).distance = connDistance s.conn + x.distance :=
  sum_update_add Connection.distance s.conn c x

variable {s s' : State κ} {a : Act κ}

/-- A connection that has waited is begun with. -/
lemma connDistance_begin (hs : Inv s) {c : κ} (hc : c ∈ s.pending) :
    connDistance (s.begin c).conn < connDistance s.conn := by
  have hsum := connDistance_set s c { s.conn c with task := .starting }
  have hlt : ({ s.conn c with task := .starting } : Connection).distance < (s.conn c).distance := by
    simp [Connection.distance, TaskPhase.distance, (hs.waiting c hc).1]
  change connDistance (s.set c { s.conn c with task := .starting }).conn < _
  omega

/-- **Every move leads nearer to the end.** -/
lemma distance_lt (hs : Inv s) (h : step s a = some s') : s'.distance < s.distance := by
  cases step_cases h with
  | @connected c _ hphase =>
      have hsum := connDistance_set s c { s.conn c with client := .writing }
      have hdrop : ({ s.conn c with client := .writing } : Connection).distance + 3 =
          (s.conn c).distance := by
        simp only [Connection.distance, ClientPhase.distance, hphase]
        omega
      change connDistance (s.set c { s.conn c with client := .writing }).conn +
        (s.main.distance + 2 * (s.backlog ++ [c]).length) < s.distance
      rw [State.distance, List.length_append, List.length_singleton]
      omega
  | @client c _ x hclient =>
      have hsum := connDistance_set s c x
      have hlt := (sendRequest_cases hclient).distance_lt
      change connDistance (s.set c x).conn + (s.main.distance + 2 * s.backlog.length) < s.distance
      rw [State.distance]
      omega
  | @accepted c backlog hmain hbacklog =>
      change connDistance s.conn + (2 + 2 * backlog.length) < s.distance
      rw [State.distance, hmain, hbacklog, List.length_cons, MainPhase.distance]
      omega
  | stopped hmain =>
      change connDistance s.conn + (0 + 2 * 0) < s.distance
      rw [State.distance, hmain, MainPhase.distance]
      omega
  | @begun c hmain =>
      have hlt := connDistance_begin hs (c := c) (by simp [State.pending, hmain, MainPhase.hand])
      change connDistance (s.begin c).conn + (1 + 2 * s.backlog.length) < s.distance
      rw [State.distance, hmain, MainPhase.distance]
      omega
  | queued hmain =>
      change connDistance s.conn + (1 + 2 * s.backlog.length) < s.distance
      rw [State.distance, hmain, MainPhase.distance]
      omega
  | @taken c pool htake =>
      obtain ⟨-, queue, hqueue, -⟩ := FixedThreadPool.take_eq_some.mp htake
      have hlt := connDistance_begin hs (c := c) (by simp [State.pending, hqueue])
      change connDistance (s.begin c).conn + (s.main.distance + 2 * s.backlog.length) < s.distance
      rw [State.distance]
      omega
  | @task c _ x htask =>
      have hsum := connDistance_set s c x
      have hlt := (dispatchRequest_cases htask).distance_lt
      change connDistance (s.set c x).conn + (s.main.distance + 2 * s.backlog.length) < s.distance
      rw [State.distance]
      omega

/-! ## What is left -/

/-- A move that neither fails nor is the client's decision to connect. -/
def Act.IsOwn {κ : Type} : Act κ → Prop
  | .connect _ | .acceptFails | .task _ (.getInstance true) => False
  | .client _ a => ¬a.IsFailure
  | .task _ a => ¬a.IsFailure
  | _ => True

/-- No call of the run fails. -/
def AllWork (ms : List (ServerMove κ)) : Prop :=
  (∀ m ∈ ms, m.label ≠ .acceptFails) ∧ ∀ c, ClientWorks c ms ∧ TaskWorks c ms

/-- Where a connection stands of which no call has failed. -/
structure Connection.Smooth (x : Connection) : Prop where
  client : ∀ thrown, x.client = .closing thrown ∨ x.client = .ended thrown →
    thrown = false ∧ x.clientPrinted ≠ none
  printed : x.task = .answering ∨ x.task = .writing → x.serverPrinted ≠ none
  closing : ∀ first rest thrown, x.task = .closing first rest thrown →
    thrown = false ∧ x.serverPrinted ≠ none
  finished : ∀ thrown, x.task = .finished thrown →
    (thrown = false ∧ x.serverPrinted ≠ none) ∧ x.response.closed = true ∨
      thrown = true ∧ x.response = .new

namespace Connection.Smooth

variable {x x' : Connection}

lemma initial : Connection.initial.Smooth := by
  refine ⟨?_, ?_, ?_, ?_⟩ <;> simp [Connection.initial]

lemma sendRequest {a : ClientAct} (hx : x.Smooth) (h : x.sendRequest a = some x')
    (ha : ¬a.IsFailure) : x'.Smooth := by
  obtain ⟨hclient, hprinted, hclosing, hfinished⟩ := hx
  cases sendRequest_cases h with
  | sent => exact ⟨by simp, hprinted, hclosing, hfinished⟩
  | read => exact ⟨by simp, hprinted, hclosing, hfinished⟩
  | @closed thrown hphase =>
      have hthrown := hclient thrown (.inl hphase)
      exact ⟨by simpa using hthrown, hprinted, hclosing, hfinished⟩
  | sentPart | refused | failed | notClosed => exact absurd trivial ha

lemma dispatchRequest {a : TaskAct} (hx : x.Smooth) (hconsistent : x.Consistent)
    (h : x.dispatchRequest a = some x') (ha : ¬a.IsFailure) : x'.Smooth := by
  obtain ⟨hclient, hprinted, hclosing, hfinished⟩ := hx
  cases dispatchRequest_cases h with
  | noInstance hphase =>
      have hnew := hconsistent.silent (by simp [hphase, TaskPhase.IsSilent])
      exact ⟨hclient, by simp, by simp, by simp [hnew]⟩
  | hasInstance | opened => exact ⟨hclient, by simp, by simp, by simp⟩
  | read => exact ⟨hclient, by simp, by simp, by simp⟩
  | wrote hphase =>
      exact ⟨hclient, fun _ => hprinted (.inl hphase), by simp, by simp⟩
  | answered hphase =>
      have hsome := hprinted (.inr hphase)
      exact ⟨hclient, by simp, by simpa using hsome, by simp⟩
  | @closed first rest thrown hphase =>
      have hsome := hclosing first rest thrown hphase
      cases rest with
      | nil =>
          refine ⟨hclient, by simp [TaskPhase.afterClose], by simp [TaskPhase.afterClose], ?_⟩
          rintro thrown' ⟨⟩
          exact .inl ⟨hsome, rfl⟩
      | cons second rest =>
          refine ⟨hclient, by simp [TaskPhase.afterClose], ?_, by simp [TaskPhase.afterClose]⟩
          rintro first' rest' thrown' ⟨⟩
          exact hsome
  | answeredPart | failed | notClosed => exact absurd trivial ha

end Connection.Smooth

section Runs

omit [Fintype κ]

variable {ms : List (ServerMove κ)}

lemma smooth_of_run (h : (machine κ).Run ms s) (hall : AllWork ms) (c : κ) :
    (s.conn c).Smooth := by
  refine conn_of_run h c (C := fun _ a => (∀ b, a = .client c b → ¬b.IsFailure) ∧
      ∀ b, a = .task c b → ¬b.IsFailure) .initial (fun s a x hs hC heffect hp => ?_)
    fun m hm => ⟨(hall.2 c).1 m hm, (hall.2 c).2 m hm⟩
  cases heffect with
  | same => exact hp
  | connected => exact ⟨by simp, hp.printed, hp.closing, hp.finished⟩
  | begun => exact ⟨hp.client, by simp, by simp, by simp⟩
  | @client b _ ha hclient => exact hp.sendRequest hclient (hC.1 b ha)
  | @task b _ ha htask => exact hp.dispatchRequest (hs.consistent c) htask (hC.2 b ha)

omit [DecidableEq κ] in
lemma mem_pending {c : κ} :
    c ∈ s.pending ↔ c ∈ s.backlog ∨ c ∈ s.main.hand ∨ c ∈ s.pool.queue := by
  simp [State.pending]

/-- The connections that wait for their turn are those of clients that have connected. -/
def NoneForgotten (s : State κ) : Prop :=
  s.main ≠ .stopped ∧ ∀ c, (s.conn c).client ≠ .new → (s.conn c).task = .waiting → c ∈ s.pending

lemma NoneForgotten.step (hall : NoneForgotten s) (h : step s a = some s')
    (haccept : a ≠ .acceptFails) (hclient : ∀ c b, a = .client c b → ¬b.IsFailure) :
    NoneForgotten s' := by
  obtain ⟨hmain, hpending⟩ := hall
  simp only [mem_pending] at hpending
  cases step_cases h with
  | @connected c =>
      refine ⟨hmain, State.forall_set (x := { s.conn c with client := .writing })
        (p := fun d x => x.client ≠ .new → x.task = .waiting → d ∈ State.pending _)
        (fun _ _ => by simp [mem_pending]) fun d _ hne hwaiting => ?_⟩
      obtain hback | hhand | hqueue := hpending d hne hwaiting
      · simp [mem_pending, hback]
      · simp [mem_pending, hhand]
      · simp [mem_pending, hqueue]
  | @client c b x hsend =>
      have hworks := hclient c b rfl
      have heffect := sendRequest_cases hsend
      refine ⟨hmain, State.forall_set
        (p := fun d x => x.client ≠ .new → x.task = .waiting → d ∈ State.pending _)
        (fun _ hwaiting => ?_) fun d _ hne hwaiting => mem_pending.mpr (hpending d hne hwaiting)⟩
      refine mem_pending.mpr (hpending c (fun hnew => ?_) (heffect.frame.1.symm.trans hwaiting))
      cases heffect with
      | refused | failed | notClosed | sentPart => exact hworks trivial
      | sent hphase | read hphase | closed hphase => cases hnew.symm.trans hphase
  | @accepted c backlog haccepting hbacklog =>
      refine ⟨by simp, fun d hne hwaiting => ?_⟩
      have hd := hpending d hne hwaiting
      rw [haccepting, hbacklog, List.mem_cons] at hd
      simp only [mem_pending, MainPhase.hand, List.mem_singleton]
      obtain (hd | hd) | hd | hd := hd
      · exact .inr (.inl hd)
      · exact .inl hd
      · exact absurd hd List.not_mem_nil
      · exact .inr (.inr hd)
  | stopped => exact absurd rfl haccept
  | @begun c hsubmitting hworkers =>
      refine ⟨by simp, State.forall_set (x := { s.conn c with task := .starting })
        (p := fun d x => x.client ≠ .new → x.task = .waiting → d ∈ State.pending _)
        (fun _ hwaiting => by cases hwaiting) fun d hd hne hwaiting => ?_⟩
      have hmem := hpending d hne hwaiting
      rw [hsubmitting, MainPhase.hand, List.mem_singleton] at hmem
      rw [mem_pending, FixedThreadPool.submit, if_pos hworkers]
      obtain hback | hdc | hqueue := hmem
      · exact .inl hback
      · exact absurd hdc hd
      · exact .inr (.inr hqueue)
  | @queued c hsubmitting hworkers =>
      refine ⟨by simp, fun d hne hwaiting => ?_⟩
      have hmem := hpending d hne hwaiting
      rw [hsubmitting, MainPhase.hand, List.mem_singleton] at hmem
      rw [mem_pending, FixedThreadPool.submit, if_neg hworkers]
      obtain hback | rfl | hqueue := hmem
      · exact .inl hback
      · exact .inr (.inr (by simp))
      · exact .inr (.inr (by simp [hqueue]))
  | @taken c pool htake =>
      obtain ⟨-, queue, hqueue, rfl⟩ := FixedThreadPool.take_eq_some.mp htake
      refine ⟨hmain, State.forall_set (x := { s.conn c with task := .starting })
        (p := fun d x => x.client ≠ .new → x.task = .waiting → d ∈ State.pending _)
        (fun _ hwaiting => by cases hwaiting) fun d hd hne hwaiting => ?_⟩
      have hmem := hpending d hne hwaiting
      rw [hqueue, List.mem_cons] at hmem
      rw [mem_pending]
      obtain hback | hhand | hdc | hrest := hmem
      · exact .inl hback
      · exact .inr (.inl hhand)
      · exact absurd hdc hd
      · exact .inr (.inr hrest)
  | @task c b x htask =>
      have hqueue : (if x.task.IsActive then s.pool else s.pool.finish c).queue = s.pool.queue := by
        split_ifs <;> rfl
      refine ⟨hmain, State.forall_set
        (p := fun d x => x.client ≠ .new → x.task = .waiting → d ∈ State.pending _)
        (fun _ hwaiting => ?_) fun d _ hne hwaiting => ?_⟩
      · exact absurd hwaiting (dispatchRequest_cases htask).task_ne
      · exact mem_pending.mpr (by simpa [hqueue] using hpending d hne hwaiting)

/-- As long as no call fails, no client is forgotten. -/
lemma noneForgotten_of_run (h : (machine κ).Run ms s) (hall : AllWork ms) : NoneForgotten s := by
  refine (h.invariant_of_moves (I := fun s => Inv s ∧ NoneForgotten s)
    (C := fun m => m.label ≠ .acceptFails ∧ ∀ c b, m.label = .client c b → ¬b.IsFailure)
    (fun s hs => ?_) (fun s a s' ⟨hs, hforgotten⟩ hmove hC =>
      ⟨inv_step hs hmove, hforgotten.step hmove hC.1 hC.2⟩)
    fun m hm => ⟨hall.1 m hm, fun c b hb => (hall.2 c).1 m hm b hb⟩).2
  obtain rfl : s = initial := hs
  exact ⟨inv_initial, by simp [initial], fun c hc => absurd rfl hc⟩

/-! ### Nothing can be done -/

/-- What a connection has come to when nothing more can be done. -/
inductive Outcome (malformed : List Byte → String) (x : Connection) (noInstance : Prop) : Prop
  | notConnected (hclient : x.client = .new)
  | answered {request response : List Byte} (hclient : x.client = .ended false)
      (htask : x.task = .finished false) (hclosed : x.response.closed = true)
      (hserver : x.serverPrinted = some (some request))
      (hrequest : newString malformed request ++ "\n" ∈ sendStrs)
      (hprinted : x.clientPrinted = some (some response))
      (hresponse : newString malformed response ++ "\n" ∈ backStrs)
  | waits (hclient : x.client = .reading) (htask : x.task = .finished true) (h : noInstance)

/-- The client cannot go on. -/
lemma client_of_quiet (hquiet : (machine κ).Quiet Act.IsOwn s) (c : κ) :
    (s.conn c).client = .new ∨ (s.conn c).client = .reading ∧ (s.conn c).response.readLine = none ∨
      ∃ thrown, (s.conn c).client = .ended thrown := by
  cases hphase : (s.conn c).client with
  | new => exact .inl rfl
  | writing =>
      have hsend := Option.map_eq_none_iff.mp (hquiet (.client c (.send "login\n")) id)
      rw [Connection.sendRequest, if_pos (by decide), hphase] at hsend
      cases hsend
  | reading =>
      have hread := Option.map_eq_none_iff.mp (hquiet (.client c .read) id)
      rw [Connection.sendRequest, hphase] at hread
      cases hline : (s.conn c).response.readLine with
      | none => exact .inr (.inl ⟨rfl, rfl⟩)
      | some readStr =>
          rw [hline] at hread
          cases hread
  | closing thrown =>
      have hclose := Option.map_eq_none_iff.mp (hquiet (.client c .close) id)
      rw [Connection.sendRequest, hphase] at hclose
      cases hclose
  | ended thrown => exact .inr (.inr ⟨thrown, rfl⟩)

/-- The task cannot go on. -/
lemma task_of_quiet (hquiet : (machine κ).Quiet Act.IsOwn s) (c : κ) :
    (s.conn c).task = .waiting ∨ (s.conn c).task = .reading ∧ (s.conn c).request.readLine = none ∨
      ∃ thrown, (s.conn c).task = .finished thrown := by
  have hgo := Option.map_eq_none_iff.mp (hquiet (.task c .go) id)
  cases hphase : (s.conn c).task with
  | waiting => exact .inl rfl
  | starting =>
      have hinstance := Option.map_eq_none_iff.mp (hquiet (.task c (.getInstance false)) id)
      rw [Connection.dispatchRequest, hphase] at hinstance
      cases hinstance
  | opening | answering | closing =>
      rw [Connection.dispatchRequest, hphase] at hgo
      cases hgo
  | reading =>
      rw [Connection.dispatchRequest, hphase] at hgo
      cases hline : (s.conn c).request.readLine with
      | none => exact .inr (.inl ⟨rfl, rfl⟩)
      | some readStr =>
          simp [hline] at hgo
  | writing =>
      have hanswer := Option.map_eq_none_iff.mp (hquiet (.task c (.answer "hello!\n")) id)
      rw [Connection.dispatchRequest, if_pos (by decide), hphase] at hanswer
      cases hanswer
  | finished thrown => exact .inr (.inr ⟨thrown, rfl⟩)

/-- No thread is at a task. -/
lemma not_isActive_of_quiet (h : (machine κ).Run ms s) (hall : AllWork ms)
    (hquiet : (machine κ).Quiet Act.IsOwn s) (c : κ) : ¬(s.conn c).task.IsActive := by
  intro hactive
  obtain hphase | ⟨hphase, hwaits⟩ | ⟨thrown, hphase⟩ := task_of_quiet hquiet c
  · simp [hphase, TaskPhase.IsActive] at hactive
  · -- the request that the task waits for has been sent
    have hnew : (s.conn c).client ≠ .new := fun hnew => by
      cases hphase.symm.trans ((inv_of_run h).new c hnew)
    have hsent : ∃ str ∈ sendStrs, (s.conn c).request.sent = getBytes str := by
      obtain hsends | hsends | hsent := sendsAll_of_run h c (hall.2 c).1
      · exact absurd hsends hnew
      · obtain hclient | ⟨hclient, -⟩ | ⟨thrown, hclient⟩ := client_of_quiet hquiet c <;>
          cases hsends.symm.trans hclient
      · exact hsent
    obtain ⟨str, hstr, hsent⟩ := hsent
    obtain ⟨line, hline, -⟩ := (isLine_of_mem_sendStrs hstr).readLine hsent
    cases hwaits.symm.trans hline
  · simp [hphase, TaskPhase.IsActive] at hactive

/-- No connection waits for its turn. -/
lemma pending_of_quiet (h : (machine κ).Run ms s) (hall : AllWork ms)
    (hquiet : (machine κ).Quiet Act.IsOwn s) : s.pending = [] := by
  have hs := inv_of_run h
  have haccept : step s .accept = none := hquiet .accept trivial
  have hsubmit : step s .submit = none := hquiet .submit trivial
  have htake : step s .take = none := hquiet .take trivial
  have hrunning : s.pool.running = [] := by
    refine List.eq_nil_iff_forall_not_mem.mpr fun c hc => ?_
    exact not_isActive_of_quiet h hall hquiet c ((hs.active c).mpr hc)
  have hqueue := hs.pool.of_take_eq_none (by decide) (Option.map_eq_none_iff.mp htake) hrunning
  cases hmain : s.main with
  | stopped => exact absurd hmain (noneForgotten_of_run h hall).1
  | submitting c => simp [step, hmain] at hsubmit
  | accepting =>
      cases hbacklog : s.backlog with
      | nil => simp [State.pending, hmain, hbacklog, hqueue, MainPhase.hand]
      | cons c backlog => simp [step, hmain, hbacklog] at haccept

/-- What is left of each connection when nothing can be done. -/
lemma outcome_of_quiet (malformed : List Byte → String) (h : (machine κ).Run ms s)
    (hall : AllWork ms) (hquiet : (machine κ).Quiet Act.IsOwn s) (c : κ) :
    Outcome malformed (s.conn c) (FindsNoInstance c ms) := by
  have hconsistent := (inv_of_run h).consistent c
  have hsmooth := smooth_of_run h hall c
  have hanswers := answersAll_of_run h c (hall.2 c).2
  by_cases hnew : (s.conn c).client = .new
  · exact .notConnected hnew
  have htask : ∃ thrown, (s.conn c).task = .finished thrown := by
    have hidle := not_isActive_of_quiet h hall hquiet c
    obtain hphase | ⟨hphase, -⟩ | hphase := task_of_quiet hquiet c
    · have hpending := (noneForgotten_of_run h hall).2 c hnew hphase
      simp [pending_of_quiet h hall hquiet] at hpending
    · simp [hphase, TaskPhase.IsActive] at hidle
    · exact hphase
  obtain ⟨thrown, htask⟩ := htask
  obtain hclient | ⟨hclient, hwaits⟩ | ⟨thrown', hclient⟩ := client_of_quiet hquiet c
  · exact absurd hclient hnew
  · obtain hsilent | ⟨str, hstr, hsent⟩ | ⟨hphase, hresponse⟩ := hanswers
    · simp [htask, TaskPhase.IsSilent] at hsilent
    · obtain ⟨line, hline, -⟩ := (isLine_of_mem_backStrs hstr).readLine hsent
      cases hwaits.symm.trans hline
    · refine .waits hclient hphase ?_
      by_contra hinstance
      have hclose : ¬CloseFails c ms := by
        rintro ⟨m, hm, hfail, -⟩
        exact (hall.2 c).2 m hm _ hfail trivial
      obtain hclosed | hnot := closesSocket_of_run h c hinstance hclose
      · simp [hresponse, LineStream.new] at hclosed
      · rw [hphase] at hnot
        exact hnot
  · obtain ⟨rfl, hprinted⟩ := hsmooth.client thrown' (.inr hclient)
    obtain ⟨r, hr⟩ := Option.ne_none_iff_exists'.mp hprinted
    obtain ⟨⟨rfl, hserver⟩, hclosed⟩ | ⟨-, hresponse⟩ := hsmooth.finished thrown htask
    · obtain ⟨q, hq⟩ := Option.ne_none_iff_exists'.mp hserver
      obtain ⟨response, rfl, hresponse⟩ := hanswers.clientPrinted hconsistent hr
      obtain ⟨request, rfl, hrequest⟩ :=
        (sendsAll_of_run h c (hall.2 c).1).serverPrinted hconsistent hq
      exact .answered hclient htask hclosed hq (hrequest malformed) hr (hresponse malformed)
    · have hread := hconsistent.clientPrinted r hr
      simp [hresponse] at hread

omit [DecidableEq κ] in
lemma distance_initial [Fintype κ] : (initial : State κ).distance = 15 * Fintype.card κ + 1 := by
  simp [State.distance, connDistance, initial, Connection.initial, Connection.distance,
    ClientPhase.distance, TaskPhase.distance, MainPhase.distance, mul_comm]

/-- Finitely many clients of `TestServer`: every run of the server and them is finite, with any
failures, and each can be carried on until nothing can be done.  If no call has failed until then,
each client that has connected has printed a whole answer, to a request that the server has printed
as a whole; only those for which `getInstance` returned `null` wait for good. -/
theorem sendRequest_completes [Fintype κ] (malformed : List Byte → String)
    (h : (machine κ).Run ms s) :
    ms.length ≤ 15 * Fintype.card κ + 1 ∧
      (∃ ms' s', (machine κ).Run (ms ++ ms') s' ∧ (∀ m ∈ ms', m.label.IsOwn) ∧
        (machine κ).Quiet Act.IsOwn s') ∧
      (AllWork ms → (machine κ).Quiet Act.IsOwn s → ∀ c,
        Outcome malformed (s.conn c) (FindsNoInstance c ms)) := by
  have hinit : ∀ s, (machine κ).init s → Inv s := by
    rintro s rfl
    exact inv_initial
  refine ⟨?_, h.exists_quiet Act.IsOwn State.distance hinit (fun _ _ _ => inv_step)
    fun _ _ _ hs _ => distance_lt hs, outcome_of_quiet malformed h⟩
  have hle := h.length_add_variant_le State.distance (n := 15 * Fintype.card κ + 1)
    (fun s hs => ⟨hinit s hs, ?_⟩) (fun _ _ _ => inv_step) fun _ _ _ => distance_lt
  · omega
  · obtain rfl : s = initial := hs
    exact distance_initial.le

/-- The thread of the second client finds no instance. -/
def forgottenRun : List (Act Duo) :=
  [.connect .first, .connect .second, .accept, .submit, .accept, .submit,
    .client .first (.send "login\n"), .client .second (.send "注销\n"),
    .task .second (.getInstance true), .task .first (.getInstance false), .task .first .go,
    .task .first .go, .task .first .go, .task .first (.answer "hello!\n"), .client .first .read,
    .task .first .go, .task .first .go, .task .first .go, .client .first .close]

theorem sendRequest_completes_forgottenRun :
    ((machine Duo).moves initial forgottenRun).length ≤ 31 ∧
      ((((machine Duo).play initial forgottenRun).getD initial).conn .second).client = .reading :=
  ⟨(sendRequest_completes (fun _ => "\uFFFD")
    (Machine.run_getD_of_play initial rfl (by decide +kernel))).1, by decide +kernel⟩

end Runs

end TestServer

end LearnJava
