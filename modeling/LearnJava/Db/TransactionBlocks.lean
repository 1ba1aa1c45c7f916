import LearnJava.Foundation.StraightLine
import LearnJava.Db.Transactions

/-!
# The `try` blocks of the transactions

What the `try` block of each of the three runnables throws, makes durable and leaves pending, read
off the answers of the driver:

* `prepare_quiet` (one for each runnable): the calls before the execution commit and execute
  nothing;
* `execute_worked`, `commit_worked`, `rollback_worked`: the calls that do;
* `Runnable.block_ends`: the whole block.
-/

namespace LearnJava

namespace Transactions

open StraightLine

variable {κ : Type} {env : Environment κ} {c : κ}

/-! ## Code that executes and commits nothing -/

/-- What the calls before the execution leave alone: everything but the variables for what is
opened, and the mode of the connection. -/
structure Frame.Keeps (f f' : Frame κ) : Prop where
  pool : f'.pool = f.pool
  connection : f'.connection = f.connection
  givenBack : f'.givenBack = f.givenBack
  durable : f'.database.durable = f.database.durable
  pending : ∀ d, (f'.database.session d).pending = (f.database.session d).pending
  others : ∀ d, f.connection ≠ some d → f'.database.session d = f.database.session d

instance : Std.Refl (Frame.Keeps (κ := κ)) :=
  ⟨fun _ => ⟨rfl, rfl, rfl, rfl, fun _ => rfl, fun _ _ => rfl⟩⟩

instance : IsTrans (Frame κ) Frame.Keeps where
  trans _ _ _ h h' :=
    { pool := h'.pool.trans h.pool
      connection := h'.connection.trans h.connection
      givenBack := h'.givenBack.trans h.givenBack
      durable := h'.durable.trans h.durable
      pending := fun d => (h'.pending d).trans (h.pending d)
      others := fun d hd => (h'.others d (h.connection ▸ hd)).trans (h.others d hd) }

/-- The code makes the calls and keeps what is kept. -/
abbrev Quiet (env : Environment κ) (calls : List Call) (P Q : Frame κ → Prop)
    (x : Method (Frame κ) Unit) : Prop :=
  Makes env.fails Frame.Keeps calls P Q x

/-- The connection is `c`. -/
def Connected (c : κ) (f : Frame κ) : Prop := f.connection = some c

/-- The connection is `c`, and it does not commit by itself. -/
structure Manual (c : κ) (f : Frame κ) : Prop where
  connected : Connected c f
  manual : (f.database.session c).autoCommit = false

/-- A statement is open, too. -/
structure Opened (c : κ) (p : OpenStatement → Prop) (f : Frame κ) : Prop extends Manual c f where
  statement : ∃ st, f.statement = some st ∧ p st

lemma callDriver_quiet {call : Call} {full : Frame κ → Frame κ} {partly : ℕ → Frame κ → Frame κ}
    {P Q : Frame κ → Prop} (hfull : ∀ f, P f → f.Keeps (full f) ∧ Q (full f))
    (hpartly : ∀ n f, P f → f.Keeps (partly n f)) :
    Quiet env [call] P Q (callDriver env call full partly) := by
  intro f hf
  simp only [List.findSome?_singleton, Environment.fails, callDriver]
  cases env.answer call with
  | done => exact ⟨full f, (hfull f hf).1, rfl, (hfull f hf).2⟩
  | fails failure progress => exact ⟨partly progress f, hpartly progress f hf, rfl⟩

/-- A call of a method of the connection, which is not `null`. -/
lemma onConnection_of_connected {f : Frame κ} (h : Connected c f) {call : Call}
    {full : κ → Database κ → Database κ} {partly : ℕ → κ → Database κ → Database κ} :
    (onConnection env call full partly).run f = (callDriver env call
      (fun f => { f with database := full c f.database })
      fun progress f => { f with database := partly progress c f.database }).run f := by
  unfold onConnection
  rw [get_bind_run, show f.connection = some c from h]

lemma onConnection_quiet {call : Call} {full : κ → Database κ → Database κ}
    {partly : ℕ → κ → Database κ → Database κ} {P Q : Frame κ → Prop}
    (hP : ∀ f, P f → Connected c f)
    (hfull : ∀ f, P f → f.Keeps { f with database := full c f.database } ∧
      Q { f with database := full c f.database })
    (hpartly : ∀ n f, P f → f.Keeps { f with database := partly n c f.database }) :
    Quiet env [call] P Q (onConnection env call full partly) := by
  intro f hf
  rw [onConnection_of_connected (hP f hf)]
  exact callDriver_quiet hfull hpartly f hf

lemma onStatement_quiet {call : Call} {full : OpenStatement → OpenStatement}
    {p q : OpenStatement → Prop} (h : ∀ st, p st → q (full st)) :
    Quiet env [call] (Opened c p) (Opened c q) (onStatement env call full) := by
  intro f hf
  obtain ⟨st, hst, hp⟩ := hf.statement
  have hrun : (onStatement env call full).run f = (callDriver env call
      (fun f => { f with statement := some (full st) }) fun _ f => f).run f := by
    unfold onStatement
    rw [get_bind_run, hst]
  rw [hrun]
  refine callDriver_quiet (P := fun f' => f' = f) ?_ (fun _ f' _ => refl f') f rfl
  rintro f rfl
  exact ⟨⟨rfl, rfl, rfl, rfl, fun _ => rfl, fun _ _ => rfl⟩,
    ⟨⟨hf.connected, hf.manual⟩, full st, rfl, h st hp⟩⟩

lemma setTransactionIsolation_quiet (level : ℤ) :
    Quiet env [.setTransactionIsolation level] (Connected c) (Connected c)
      (setTransactionIsolation env level) :=
  onConnection_quiet (fun _ h => h) (fun f h => ⟨refl f, h⟩) fun _ f _ => refl f

lemma openStatement_quiet (call : Call) :
    Quiet env [call] (Manual c) (Opened c fun st => st.batch = []) (openStatement env call) := by
  have hcall : Quiet env [call] (Manual c) (Manual c)
      (onConnection env call (fun _ db => db) fun _ _ db => db) :=
    onConnection_quiet (fun _ h => h.connected) (fun f h => ⟨refl f, h⟩) fun _ f _ => refl f
  have hopen : Quiet env [] (Manual c) (Opened c fun st => st.batch = [])
      (modify fun f => { f with statement := some ⟨0, [], [], []⟩ }) :=
    .modify fun f h => ⟨⟨rfl, rfl, rfl, rfl, fun _ => rfl, fun _ _ => rfl⟩,
      ⟨h.connected, h.manual⟩, _, rfl, rfl⟩
  exact hcall.bind hopen

variable [DecidableEq κ]

/-- Switching the mode keeps what is pending. -/
lemma keeps_setAutoCommit {f : Frame κ} (h : Connected c f) (autoCommit : Bool) :
    f.Keeps { f with database := f.database.setAutoCommit autoCommit c } := by
  refine ⟨rfl, rfl, rfl, rfl, fun d => ?_, fun d hd => ?_⟩
  · by_cases hdc : d = c
    · subst hdc
      simp [Database.setAutoCommit, Database.updateSession]
    · simp [Database.setAutoCommit, Database.updateSession, hdc]
  · have hdc : d ≠ c := fun heq => hd (by rw [heq]; exact h)
    simp [Database.setAutoCommit, Database.updateSession, hdc]

lemma setAutoCommit_quiet :
    Quiet env [.setAutoCommit] (Connected c) (Manual c) (setAutoCommit env) := by
  refine onConnection_quiet (fun _ h => h) (fun f h => ⟨keeps_setAutoCommit h false, h, ?_⟩)
    fun n f h => ?_
  · simp [Database.setAutoCommit, Database.updateSession]
  · by_cases hn : n = 0
    · simpa [hn] using refl f
    · simpa [hn] using keeps_setAutoCommit h false

/-! ## The part of each `try` block before the execution -/

namespace InsertTransactionIsolationRunnable

variable (r : InsertTransactionIsolationRunnable)

/-- The calls of one pass of the loop. -/
def rowCalls (index : ℕ) : List Call :=
  [.setLong index, .setString index 2, .setString index 3, .addBatch index]

def calls : List Call :=
  [.setTransactionIsolation r.transactionIsolation, .setAutoCommit, .prepareStatement] ++
    (List.range r.insertCount.toNat).flatMap rowCalls

/-- The rows of the batch. -/
def rows (env : Environment κ) : List Change := (List.range r.insertCount.toNat).map (r.row env)

omit [DecidableEq κ] in
lemma addRow_quiet (index : ℕ) (b : List Change) :
    Quiet env (rowCalls index) (Opened c fun st => st.batch = b)
      (Opened c fun st => st.batch = b ++ [r.row env index]) (r.addRow env index) := by
  let id := wrap64 (r.startId + index)
  let name := env.randomString index 2
  have hid : Quiet env [.setLong index] (Opened c fun st => st.batch = b)
      (Opened c fun st => st.batch = b ∧ st.FID = id)
      (onStatement env (.setLong index) fun st => { st with FID := id }) :=
    onStatement_quiet fun st h => ⟨h, rfl⟩
  have hname : Quiet env [.setString index 2] (Opened c fun st => st.batch = b ∧ st.FID = id)
      (Opened c fun st => st.batch = b ∧ st.FID = id ∧ st.FNAME = name)
      (onStatement env (.setString index 2) fun st => { st with FNAME := name }) :=
    onStatement_quiet fun st h => ⟨h.1, h.2, rfl⟩
  have hnumber : Quiet env [.setString index 3]
      (Opened c fun st => st.batch = b ∧ st.FID = id ∧ st.FNAME = name)
      (Opened c fun st => st.batch = b ∧ .row st.FID st.FNAME st.FNUMBER = r.row env index)
      (onStatement env (.setString index 3) fun st =>
        { st with FNUMBER := env.randomString index 3 }) :=
    onStatement_quiet fun st h => ⟨h.1, by rw [h.2.1, h.2.2]; rfl⟩
  have hadd : Quiet env [.addBatch index]
      (Opened c fun st => st.batch = b ∧ .row st.FID st.FNAME st.FNUMBER = r.row env index)
      (Opened c fun st => st.batch = b ++ [r.row env index])
      (onStatement env (.addBatch index) fun st =>
        { st with batch := st.batch ++ [.row st.FID st.FNAME st.FNUMBER] }) :=
    onStatement_quiet fun st h => by rw [h.1, h.2]
  exact hid.bind (hname.bind (hnumber.bind hadd))

lemma prepare_quiet :
    Quiet env r.calls (Connected c) (Opened c fun st => st.batch = r.rows env)
      (r.prepare env) := by
  have hloop : Quiet env ((List.range r.insertCount.toNat).flatMap rowCalls)
      (Opened c fun st => st.batch = []) (Opened c fun st => st.batch = r.rows env)
      ((List.range r.insertCount.toNat).forM (r.addRow env)) := by
    refine Makes.forM (I := fun done => Opened c fun st => st.batch = done.map (r.row env)) _
      (fun done i => ?_) []
    rw [List.map_append]
    exact r.addRow_quiet i _
  exact (setTransactionIsolation_quiet _).bind
    (setAutoCommit_quiet.bind ((openStatement_quiet _).bind hloop))

end InsertTransactionIsolationRunnable

namespace UpdateTransactionIsolationRunnable

variable (r : UpdateTransactionIsolationRunnable)

def calls : List Call :=
  [.setTransactionIsolation r.transactionIsolation, .setAutoCommit, .createStatement]

lemma prepare_quiet :
    Quiet env r.calls (Connected c) (Opened c fun st => st.batch = []) (r.prepare env) :=
  (setTransactionIsolation_quiet _).bind (setAutoCommit_quiet.bind (openStatement_quiet _))

end UpdateTransactionIsolationRunnable

namespace QueryTransactionIsolationRunnable

variable (r : QueryTransactionIsolationRunnable)

/-- The calls of one pass of the loop. -/
def rowCalls (row : ℕ) : List Call :=
  [.next row, .getLong row, .getString row "testName", .getString row "testNumber"]

def calls (env : Environment κ) : List Call :=
  [.setTransactionIsolation r.transactionIsolation, .setAutoCommit, .createStatement,
    .executeQuery] ++ ((List.range env.rows).flatMap rowCalls ++ [.next env.rows])

lemma prepare_quiet :
    Quiet env (r.calls env) (Connected c) (Opened c fun st => st.batch = []) (r.prepare env) := by
  let p : Frame κ → Prop := Opened c fun st => st.batch = []
  have hcall : ∀ call, Quiet env [call] p p (onStatement env call id) :=
    fun call => onStatement_quiet fun st h => h
  have hresult : Quiet env [] p p (modify fun f => { f with resultSet := true }) :=
    .modify fun f h => ⟨⟨rfl, rfl, rfl, rfl, fun _ => rfl, fun _ _ => rfl⟩,
      ⟨h.connected, h.manual⟩, h.statement⟩
  have hloop : Quiet env ((List.range env.rows).flatMap rowCalls) p p
      ((List.range env.rows).forM (readRow env)) :=
    Makes.forM (I := fun _ => p) _
      (fun _ i => (hcall _).bind ((hcall _).bind ((hcall _).bind (hcall _)))) []
  exact (setTransactionIsolation_quiet _).bind (setAutoCommit_quiet.bind
    ((openStatement_quiet _).bind (((hcall _).bind hresult).bind (hloop.bind (hcall _)))))

end QueryTransactionIsolationRunnable

/-! ## What a `try` block leaves behind -/

/-- A failed `commit` or `rollback` may have taken effect. -/
def Environment.takesEffect (env : Environment κ) (call : Call) : Bool :=
  match env.answer call with
  | .done => true
  | .fails _ progress => progress ≠ 0

/-- The changes of an execution that were made. -/
def Environment.executed (env : Environment κ) (call : Call) (work : List Change) : List Change :=
  match env.answer call with
  | .done => work
  | .fails _ progress => work.take progress

/-- Everything of `f'` that later matters, after work on the connection `c`: `gained` became
durable, and `left` is pending. -/
structure Frame.Worked (c : κ) (gained left : List Change) (f f' : Frame κ) : Prop where
  pool : f'.pool = f.pool
  connection : f'.connection = f.connection
  givenBack : f'.givenBack = f.givenBack
  durable : f'.database.durable = f.database.durable ++ gained
  pending : (f'.database.session c).pending = left
  others : ∀ d, d ≠ c → f'.database.session d = f.database.session d

omit [DecidableEq κ] in
lemma Frame.Keeps.worked {f f' : Frame κ} (h : f.Keeps f') (hc : Connected c f) :
    f.Worked c [] (f.database.session c).pending f' :=
  ⟨h.pool, h.connection, h.givenBack, by rw [h.durable, List.append_nil], h.pending c,
    fun d hd => h.others d fun heq => hd (Option.some.inj (heq.symm.trans hc))⟩

omit [DecidableEq κ] in
lemma Frame.Worked.trans {f f' f'' : Frame κ} {gained gained' left left' : List Change}
    (h : f.Worked c gained left f') (h' : f'.Worked c gained' left' f'') :
    f.Worked c (gained ++ gained') left' f'' :=
  ⟨h'.pool.trans h.pool, h'.connection.trans h.connection, h'.givenBack.trans h.givenBack,
    by rw [h'.durable, h.durable, List.append_assoc], h'.pending,
    fun d hd => (h'.others d hd).trans (h.others d hd)⟩

variable (env) in
omit [DecidableEq κ] in
lemma onConnection_run {f : Frame κ} (h : Connected c f) (call : Call)
    (full : κ → Database κ → Database κ) (partly : ℕ → κ → Database κ → Database κ) :
    (onConnection env call full partly).thrown f = env.fails call ∧
      (onConnection env call full partly).after f =
        (match env.answer call with
        | .done => { f with database := full c f.database }
        | .fails _ progress => { f with database := partly progress c f.database }) := by
  simp only [Method.thrown, Method.after, onConnection_of_connected h, callDriver,
    Environment.fails]
  cases env.answer call <;> exact ⟨rfl, rfl⟩

variable (env) in
/-- Executed changes are pending. -/
lemma execute_worked {f : Frame κ} (h : Manual c f) (call : Call) (work : List Change) :
    (execute env call work).thrown f = env.fails call ∧
      f.Worked c [] ((f.database.session c).pending ++ env.executed call work)
        ((execute env call work).after f) ∧
      ((execute env call work).after f).statement = f.statement := by
  obtain ⟨hthrown, hafter⟩ := onConnection_run env h.connected call
    (Database.execute work) fun progress => Database.execute (work.take progress)
  have heffect : ∀ changes, f.Worked c [] ((f.database.session c).pending ++ changes)
      { f with database := f.database.execute changes c } := by
    intro changes
    simp only [Database.execute, h.manual, Bool.false_eq_true, if_false, Database.updateSession]
    exact ⟨rfl, rfl, rfl, (List.append_nil _).symm, by simp,
      fun d hd => Function.update_of_ne hd _ _⟩
  refine ⟨hthrown, ?_⟩
  rw [execute, hafter, Environment.executed]
  cases env.answer call with
  | done => exact ⟨heffect work, rfl⟩
  | fails _ progress => exact ⟨heffect (work.take progress), rfl⟩

omit [DecidableEq κ] in
lemma worked_self {f : Frame κ} : f.Worked c [] (f.database.session c).pending f :=
  ⟨rfl, rfl, rfl, (List.append_nil _).symm, rfl, fun _ _ => rfl⟩

/-- Taking away what is pending. -/
lemma rollback_database (f : Frame κ) :
    f.Worked c [] [] { f with database := f.database.rollback c } := by
  simp only [Database.rollback, Database.updateSession]
  exact ⟨rfl, rfl, rfl, (List.append_nil _).symm, by simp,
    fun d hd => Function.update_of_ne hd _ _⟩

/-- Making durable what is pending. -/
lemma commit_database (f : Frame κ) :
    f.Worked c (f.database.session c).pending [] { f with database := f.database.commit c } := by
  have hsession := rollback_database (c := c) f
  exact ⟨rfl, rfl, rfl, rfl, hsession.pending, hsession.others⟩

variable (env) in
/-- `commit` makes what is pending durable, or changes nothing. -/
lemma commit_worked {f : Frame κ} (h : Connected c f) :
    (commit env).thrown f = env.fails .commit ∧
      f.Worked c (if env.takesEffect .commit then (f.database.session c).pending else [])
        (if env.takesEffect .commit then [] else (f.database.session c).pending)
        ((commit env).after f) := by
  obtain ⟨hthrown, hafter⟩ := onConnection_run env h .commit Database.commit
    fun progress => if progress = 0 then fun _ db => db else Database.commit
  refine ⟨hthrown, ?_⟩
  rw [commit, hafter, Environment.takesEffect]
  cases env.answer .commit with
  | done => exact commit_database f
  | fails _ progress =>
      by_cases hprogress : progress = 0
      · simpa [hprogress] using worked_self
      · simpa [hprogress] using commit_database f

lemma commit_statement {f : Frame κ} (h : Connected c f) :
    ((commit env).after f).statement = f.statement := by
  rw [commit, (onConnection_run env h .commit _ _).2]
  cases env.answer .commit <;> rfl

variable (env) in
/-- `rollback` takes what is pending away, or changes nothing. -/
lemma rollback_worked {f : Frame κ} (h : Connected c f) :
    f.Worked c [] (if env.takesEffect .rollback then [] else (f.database.session c).pending)
        ((rollback env).after f) ∧
      ((rollback env).after f).statement = f.statement ∧
      ((rollback env).after f).resultSet = f.resultSet := by
  obtain ⟨-, hafter⟩ := onConnection_run env h .rollback Database.rollback
    fun progress => if progress = 0 then fun _ db => db else Database.rollback
  rw [rollback, hafter, Environment.takesEffect]
  cases env.answer .rollback with
  | done => exact ⟨rollback_database f, rfl, rfl⟩
  | fails _ progress =>
      by_cases hprogress : progress = 0
      · simpa [hprogress] using worked_self
      · simpa [hprogress] using rollback_database f

/-! ## The `try` blocks -/

/-- The `try` block after `getConnection`. -/
def Runnable.block (env : Environment κ) : Runnable → Method (Frame κ) Unit
  | insert r => do
    r.prepare env
    InsertTransactionIsolationRunnable.executeBatch env
    commit env
  | update r => do
    r.prepare env
    r.executeUpdate env
    commit env
  | query r => do
    r.prepare env
    commit env

/-- What the `finally` block closes. -/
def Runnable.close (env : Environment κ) : Runnable → Method (Frame κ) Unit
  | insert _ | update _ => closeStatement env
  | query _ => do
    closeResultSet env
    closeStatement env

lemma Runnable.run_eq (r : Runnable) :
    r.run env = transaction env (getConnection env >>= fun _ => r.block env) (r.close env) := by
  cases r <;> rfl

section Inputs

variable (env : Environment κ)

/-- The calls before the execution. -/
def Runnable.calls : Runnable → List Call
  | insert r => r.calls
  | update r => r.calls
  | query r => r.calls env

/-- The call that executes the changes. -/
def Runnable.executeCall : Runnable → Option Call
  | insert _ => some .executeBatch
  | update _ => some .executeUpdate
  | query _ => none

/-- The changes of the run. -/
def Runnable.work : Runnable → List Change
  | insert r => r.rows env
  | update r => [.statement (r.sql env.locale)]
  | query _ => []

/-- The exception the `try` block ends with, once it has a connection. -/
def Runnable.thrown (r : Runnable) : Option Throwable :=
  (r.calls env ++ (r.executeCall.toList ++ [Call.commit])).findSome? env.fails

/-- The changes that are executed and not committed when a block ends. -/
def Environment.leftOf (calls : List Call) (executeCall : Option Call) (work : List Change) :
    List Change :=
  match calls.findSome? env.fails, executeCall with
  | none, some call =>
    if (env.fails call).isSome then env.executed call work
    else if env.takesEffect .commit then [] else work
  | _, _ => []

/-- The changes the `try` block leaves pending. -/
def Runnable.left (r : Runnable) : List Change :=
  env.leftOf (r.calls env) r.executeCall (r.work env)

end Inputs

omit [DecidableEq κ] in
/-- Quiet code, by what it throws and the frame it leaves. -/
lemma Quiet.ends {calls : List Call} {P Q : Frame κ → Prop} {x : Method (Frame κ) Unit}
    (h : Quiet env calls P Q x) {f : Frame κ} (hf : P f) :
    x.thrown f = calls.findSome? env.fails ∧ f.Keeps (x.after f) ∧
      (calls.findSome? env.fails = none → Q (x.after f)) := by
  obtain ⟨f', hkeeps, hrun⟩ := h f hf
  cases hfirst : calls.findSome? env.fails with
  | none =>
      rw [hfirst] at hrun
      rw [thrown_of_run hrun.1, after_of_run hrun.1]
      exact ⟨rfl, hkeeps, fun _ => hrun.2⟩
  | some e =>
      rw [hfirst] at hrun
      rw [thrown_of_throw hrun, after_of_throw hrun]
      exact ⟨rfl, hkeeps, by simp⟩

omit [DecidableEq κ] in
lemma executed_of_done {call : Call} (h : env.fails call = none) (work : List Change) :
    env.executed call work = work := by
  cases hanswer : env.answer call with
  | done => rw [Environment.executed, hanswer]
  | fails failure progress =>
      rw [Environment.fails, hanswer] at h
      cases h

variable (env) in
/-- Work and `commit`, after the code before them. -/
lemma execute_commit_ends (call : Call) (work : List Change) {f : Frame κ} (hf : Manual c f)
    (hclean : (f.database.session c).pending = []) :
    let x := execute env call work >>= fun _ => commit env
    x.thrown f = [call, .commit].findSome? env.fails ∧
      (∃ gained, (gained = [] ∨ gained = work) ∧ f.Worked c gained
        (if (env.fails call).isSome then env.executed call work
          else if env.takesEffect .commit then [] else work) (x.after f)) ∧
      (x.after f).statement = f.statement := by
  intro x
  obtain ⟨hthrown, hworked, hstatement⟩ := execute_worked env hf call work
  rw [hclean, List.nil_append] at hworked
  cases hfails : env.fails call with
  | some e =>
      rw [hfails] at hthrown
      have hrun := bind_of_thrown_some hthrown fun _ => commit env
      rw [thrown_of_throw hrun, after_of_throw hrun]
      exact ⟨by simp [hfails], ⟨[], .inl rfl, by simpa using hworked⟩, hstatement⟩
  | none =>
      rw [hfails] at hthrown
      rw [executed_of_done hfails] at hworked
      have hrun := bind_of_thrown_none hthrown fun _ => commit env
      have hconnected : Connected c ((execute env call work).after f) :=
        hworked.connection.trans hf.connected
      obtain ⟨hthrown', hworked'⟩ := commit_worked env hconnected
      have hstatement' : ((commit env).after ((execute env call work).after f)).statement =
          ((execute env call work).after f).statement := commit_statement hconnected
      obtain ⟨hx, hafter⟩ : x.thrown f = _ ∧ x.after f = _ := ends_congr hrun
      rw [hworked.pending] at hworked'
      rw [hx, hafter, hthrown']
      refine ⟨by simp [hfails], ⟨_, ?_, hworked.trans hworked'⟩, hstatement'.trans hstatement⟩
      split_ifs
      · exact .inr rfl
      · exact .inl rfl

/-- **A block that prepares, executes and commits.** -/
lemma block_ends {calls : List Call} {call : Call} {work : List Change}
    {p : OpenStatement → Prop} {prepare exec : Method (Frame κ) Unit}
    (hprepare : Quiet env calls (Connected c) (Opened c p) prepare)
    (hexec : ∀ f, Opened c p f → exec.run f = (execute env call work).run f) {f : Frame κ}
    (hf : Connected c f) (hclean : (f.database.session c).pending = []) :
    let x := do
      prepare
      exec
      commit env
    x.thrown f = (calls ++ ([call] ++ [Call.commit])).findSome? env.fails ∧
      (∃ gained, (gained = [] ∨ gained = work) ∧
        f.Worked c gained (env.leftOf calls (some call) work) (x.after f)) ∧
      (env.leftOf calls (some call) work ≠ [] → (x.after f).statement.isSome) := by
  intro x
  obtain ⟨hthrown, hkeeps, hopened⟩ := Quiet.ends hprepare hf
  have hworked := hkeeps.worked hf
  rw [hclean] at hworked
  rw [List.findSome?_append]
  unfold Environment.leftOf
  cases hfirst : calls.findSome? env.fails with
  | some e =>
      rw [hfirst] at hthrown
      have hrun : x.run f = _ := bind_of_thrown_some hthrown _
      rw [thrown_of_throw hrun, after_of_throw hrun]
      exact ⟨rfl, ⟨[], .inl rfl, hworked⟩, fun h => absurd rfl h⟩
  | none =>
      rw [hfirst] at hthrown
      have hready := hopened hfirst
      have hrun : x.run f = (execute env call work >>= fun _ => commit env).run
          (prepare.after f) := by
        rw [show x.run f = _ from bind_of_thrown_none hthrown _, EStateM.run_bind,
          hexec _ hready, EStateM.run_bind]
      obtain ⟨hthrown', ⟨gained, hgained, hworked'⟩, hstatement⟩ :=
        execute_commit_ends env call work hready.toManual
          hworked.pending
      obtain ⟨hx, hafter⟩ := ends_congr hrun
      rw [hx, hafter, hthrown', Option.none_or]
      refine ⟨rfl, ⟨gained, hgained, hworked.trans hworked'⟩, fun _ => ?_⟩
      obtain ⟨st, hst, -⟩ := hready.statement
      rw [hstatement, hst]
      rfl

/-- **The `try` blocks.**  Each throws the first failure of its calls; its changes became durable
all or not at all, and what was executed and not committed is pending. -/
lemma Runnable.block_ends (r : Runnable) {f : Frame κ} (hf : Connected c f)
    (hclean : (f.database.session c).pending = []) :
    (r.block env).thrown f = r.thrown env ∧
      (∃ gained, (gained = [] ∨ gained = r.work env) ∧
        f.Worked c gained (r.left env) ((r.block env).after f)) ∧
      (r.left env ≠ [] → ((r.block env).after f).statement.isSome) := by
  cases r with
  | insert r =>
      have hexec : ∀ f, Opened c (fun st => st.batch = r.rows env) f →
          (InsertTransactionIsolationRunnable.executeBatch env).run f =
            (execute env .executeBatch (r.rows env)).run f := by
        intro f hf
        obtain ⟨st, hst, hbatch⟩ := hf.statement
        unfold InsertTransactionIsolationRunnable.executeBatch
        rw [get_bind_run, hst, ← hbatch]
      exact Transactions.block_ends r.prepare_quiet hexec hf hclean
  | update r => exact Transactions.block_ends r.prepare_quiet (fun _ _ => rfl) hf hclean
  | query r =>
      have hleft : (query r).left env = [] := by
        unfold left Environment.leftOf
        split
        · rename_i hcall
          cases hcall
        · rfl
      have hquiet : Quiet env (calls env (query r)) (Connected c) (Opened c fun st => st.batch = [])
          (r.prepare env) := r.prepare_quiet
      obtain ⟨hthrown, hkeeps, -⟩ := hquiet.ends hf
      have hworked := hkeeps.worked hf
      rw [hclean] at hworked
      obtain ⟨hthrown', hworked'⟩ := commit_worked env (hworked.connection.trans hf)
      simp only [hworked.pending, ite_self] at hworked'
      rw [hleft, thrown, List.findSome?_append]
      cases hfirst : (calls env (query r)).findSome? env.fails with
      | some e =>
          have hrun := bind_of_thrown_some (hthrown.trans hfirst) fun _ => commit env
          obtain ⟨hx, hafter⟩ : (block env (query r)).thrown f = _ ∧ _ = _ :=
            ⟨thrown_of_throw hrun, after_of_throw hrun⟩
          exact ⟨hx, ⟨[], .inl rfl, hafter ▸ hworked⟩, fun h => absurd rfl h⟩
      | none =>
          have hrun := bind_of_thrown_none (hthrown.trans hfirst) fun _ => commit env
          obtain ⟨hx, hafter⟩ : (block env (query r)).thrown f = _ ∧ _ = _ := ends_congr hrun
          refine ⟨by rw [hx, hthrown']; simp [executeCall], ⟨[], .inl rfl, ?_⟩,
            fun h => absurd rfl h⟩
          rw [hafter]
          exact hworked.trans hworked'

end Transactions

end LearnJava
