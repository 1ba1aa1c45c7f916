import LearnJava.Db.TransactionBlocks

/-!
# Which transactions are all-or-nothing

A run of one of the three runnables gets a connection, makes the calls of its `try` block until one
fails, rolls back where the failure is an `SQLException`, closes what it opened and gives the
connection back.  `transaction_after` and `finallyBlock_after` are about the `catch` and the
`finally` block, and `Runnable.run_effect` about a whole run.

`transactions_all_or_none_iff` is the result for sequences of runs.  Its invariant `Frame.Clean` is
that no free connection has anything pending; a run keeps it exactly when it does not give back a
connection with pending changes.
-/

namespace LearnJava

namespace Transactions

open ConnectionPool (Pool)

variable {κ : Type} {env : Environment κ} {c : κ} [DecidableEq κ]

/-! ## The blocks around them -/

/-- What `catch (SQLException e)` with an empty block lets through. -/
def uncaught : Option Throwable → Option Throwable
  | some .sqlException => none
  | t => t

lemma tryCatch_sql {σ : Type} (x : Method σ Unit) (s : σ) :
    let y : Method σ Unit := tryCatch x fun
      | .sqlException => pure ()
      | e => throw e
    y.thrown s = uncaught (x.thrown s) ∧ y.after s = x.after s := by
  intro y
  cases hthrown : x.thrown s with
  | none =>
      have hrun : y.run s = _ := tryCatch_of_thrown_none hthrown _
      exact ⟨thrown_of_run hrun, after_of_run hrun⟩
  | some e =>
      obtain ⟨hy, hafter⟩ : y.thrown s = _ ∧ y.after s = _ :=
        ends_congr (tryCatch_of_thrown_some hthrown _)
      rw [hy, hafter]
      unfold uncaught
      split
      · exact ⟨rfl, rfl⟩
      · rename_i hne
        split
        · rename_i heq
          exact absurd (Option.some.inj heq) hne
        · exact ⟨rfl, rfl⟩

variable (env) in
omit [DecidableEq κ] in
/-- Closing changes nothing that is kept here. -/
lemma closeQuietly_ends (opened : Frame κ → Bool) (call : Call) (f : Frame κ) :
    (closeQuietly env opened call).thrown f =
        (if opened f then uncaught (env.fails call) else none) ∧
      (closeQuietly env opened call).after f = f := by
  let x : Method (Frame κ) Unit := do
    if opened (← get) then
      callDriver env call id fun _ f => f
  obtain ⟨hthrown, hafter⟩ := tryCatch_sql x f
  have hrun : x.run f = (if opened f then callDriver env call id fun _ f => f else pure ()).run f :=
    rfl
  rw [(ends_congr hrun).1] at hthrown
  rw [(ends_congr hrun).2] at hafter
  refine ⟨hthrown.trans ?_, hafter.trans ?_⟩ <;> split_ifs
  · unfold callDriver Environment.fails
    cases env.answer call <;> rfl
  · rfl
  · unfold callDriver
    cases env.answer call <;> rfl
  · rfl

/-- The `finally` block. -/
def finallyBlock (close : Method (Frame κ) Unit) : Method (Frame κ) Unit := do
  close
  match (← get).connection with
  | none => pure ()
  | some c => releaseConnection c

/-- The frame the `finally` block starts with. -/
def afterCatch (env : Environment κ) (f : Frame κ) : Option Throwable → Frame κ
  | some .sqlException => if f.connection.isSome then (rollback env).after f else f
  | _ => f

lemma transaction_after (x close : Method (Frame κ) Unit) (f : Frame κ) :
    (transaction env x close).after f =
      (finallyBlock close).after (afterCatch env (x.after f) (x.thrown f)) := by
  unfold transaction
  rw [tryFinally_after]
  apply congrArg (finallyBlock close).after
  cases hthrown : x.thrown f with
  | none => rw [after_of_run (tryCatch_of_thrown_none hthrown _)]; rfl
  | some e =>
      rw [(ends_congr (tryCatch_of_thrown_some hthrown _)).2]
      unfold afterCatch
      split
      · let y : Method (Frame κ) Unit := do
          if (← get).connection.isSome then
            rollback env
        have hrun : y.run (x.after f) =
            (if (x.after f).connection.isSome then rollback env else pure ()).run (x.after f) := rfl
        rw [bind_after fun _ _ => rfl]
        apply ((tryCatch_sql y _).2.trans (ends_congr hrun).2).trans
        split_ifs <;> rfl
      · rename_i hne
        split
        · rename_i heq
          exact absurd (Option.some.inj heq) hne
        · rfl

lemma releaseConnection_after (c : κ) (f : Frame κ) :
    (releaseConnection c).after f =
      { f with pool := (f.pool.releaseConnection c).2, givenBack := f.givenBack ++ [c] } := by
  unfold Method.after releaseConnection
  rw [get_bind_run]
  obtain ⟨reply, pool⟩ := f.pool.releaseConnection c
  cases reply <;> rfl

lemma finallyBlock_after {close : Method (Frame κ) Unit} {f : Frame κ} (h : close.after f = f) :
    (finallyBlock close).after f =
      match close.thrown f, f.connection with
      | none, some c =>
        { f with pool := (f.pool.releaseConnection c).2, givenBack := f.givenBack ++ [c] }
      | _, _ => f := by
  unfold finallyBlock
  cases hthrown : close.thrown f with
  | some e => rw [after_of_throw (bind_of_thrown_some hthrown _), h]
  | none =>
      rw [(ends_congr (bind_of_thrown_none hthrown _)).2, h]
      have hrun : ∀ y : Frame κ → Method (Frame κ) Unit, (get >>= y).after f = (y f).after f :=
        fun _ => rfl
      rw [hrun]
      rcases Option.eq_none_or_eq_some f.connection with hc | ⟨c, hc⟩
      · rw [hc]
        rfl
      · rw [hc]
        exact (releaseConnection_after c f).trans (by rw [hc])

omit [DecidableEq κ] in
lemma Runnable.close_after (r : Runnable) (f : Frame κ) : (r.close env).after f = f := by
  have hstatement : (closeStatement env).after f = f := (closeQuietly_ends _ _ _ f).2
  cases r with
  | insert r => exact hstatement
  | update r => exact hstatement
  | query r =>
      obtain ⟨-, hafter⟩ := closeQuietly_ends env Frame.resultSet .closeResultSet f
      cases hthrown : (closeResultSet env).thrown f with
      | none =>
          have hrun := bind_of_thrown_none hthrown fun _ => closeStatement env
          rw [show (closeResultSet env).after f = f from hafter] at hrun
          exact (ends_congr hrun).2.trans hstatement
      | some e =>
          have hrun := bind_of_thrown_some hthrown fun _ => closeStatement env
          exact (after_of_throw hrun).trans hafter

/-- Whether the run gets a connection. -/
def Environment.Connects (env : Environment κ) (p : Pool κ) : Prop :=
  env.interrupted = false ∧ (p.freeConnectionQueue ≠ [] ∨ ∃ c, env.driver = .ok c)

/-- The pool's answer to the run. -/
def Environment.poolReply (env : Environment κ) (p : Pool κ) : Except Throwable κ × Pool κ :=
  p.getConnection (env.driver.mapError Failure.exception)

omit [DecidableEq κ] in
lemma mapError_eq_ok {driver : Except Failure κ} {c : κ}
    (h : driver.mapError Failure.exception = .ok c) : driver = .ok c := by
  cases driver with
  | ok c' => simpa [Except.mapError] using h
  | error e => cases h

variable (env) in
/-- **How a run gets its connection.** -/
lemma getConnection_ends (f : Frame κ) :
    (∃ c pool, env.Connects f.pool ∧ env.poolReply f.pool = (.ok c, pool) ∧
        (getConnection env).run f = .ok () { f with pool, connection := some c }) ∨
      ¬env.Connects f.pool ∧ ((getConnection env).run f = .ok () f ∨
        ∃ pool e, pool.freeConnectionQueue = f.pool.freeConnectionQueue ∧
          pool.created = f.pool.created ∧ e ≠ .sqlException ∧
          (getConnection env).run f = .error e { f with pool }) := by
  cases hinterrupted : env.interrupted with
  | true =>
      refine .inr ⟨fun h => by simp [h.1] at hinterrupted, .inl ?_⟩
      unfold getConnection
      rw [hinterrupted]
      rfl
  | false =>
      cases hreply : env.poolReply f.pool with
      | mk reply pool =>
          have hcall : f.pool.getConnection (env.driver.mapError Failure.exception) =
              (reply, pool) := hreply
          unfold getConnection
          rw [hinterrupted, if_neg Bool.false_ne_true, get_bind_run, hcall]
          cases reply with
          | error e =>
              obtain ⟨⟨hfree, e', hdriver⟩, hsame, hcreated, he⟩ :=
                ConnectionPool.getConnection_error hreply
              refine .inr ⟨fun h => ?_, .inr ⟨pool, e, hsame, hcreated, he, rfl⟩⟩
              obtain hne | ⟨c, hc⟩ := h.2
              · exact hne hfree
              · rw [hc] at hdriver
                cases hdriver
          | ok c =>
              refine .inl ⟨c, pool, ⟨hinterrupted, ?_⟩, rfl, rfl⟩
              obtain ⟨hfree, -⟩ | ⟨-, -, hdriver, -⟩ := ConnectionPool.getConnection_ok hreply
              · exact .inl (by simp [hfree])
              · exact .inr ⟨c, mapError_eq_ok hdriver⟩

/-- Without a connection the first call on it is a `NullPointerException`. -/
lemma Runnable.block_unconnected (r : Runnable) {f : Frame κ} (h : f.connection = none) :
    (r.block env).run f = .error .nullPointerException f := by
  obtain ⟨pool, database, connection, statement, resultSet, givenBack⟩ := f
  obtain rfl : connection = none := h
  cases r <;> rfl

omit [DecidableEq κ] in
/-- Only work of a run that opened a statement can be left pending. -/
lemma Runnable.close_thrown (r : Runnable) (hleft : r.left env ≠ []) {f : Frame κ}
    (hf : f.statement.isSome) :
    (r.close env).thrown f = uncaught (env.fails .closeStatement) := by
  have hstatement : (closeStatement env).thrown f = uncaught (env.fails .closeStatement) := by
    rw [closeStatement, (closeQuietly_ends _ _ _ f).1, if_pos hf]
  cases r with
  | insert r => exact hstatement
  | update r => exact hstatement
  | query r =>
      refine absurd ?_ hleft
      unfold left Environment.leftOf
      split
      · rename_i hcall
        cases hcall
      · rfl

/-- The executed changes that are still pending after the `catch` block. -/
def Runnable.remains (env : Environment κ) (r : Runnable) : List Change :=
  match r.thrown env with
  | some .sqlException => if env.takesEffect .rollback then [] else r.left env
  | _ => r.left env

lemma afterCatch_worked (r : Runnable) {f : Frame κ} (hf : Connected c f)
    (hpending : (f.database.session c).pending = r.left env) :
    f.Worked c [] (r.remains env) (afterCatch env f (r.thrown env)) ∧
      (afterCatch env f (r.thrown env)).statement = f.statement := by
  unfold afterCatch Runnable.remains
  split
  · obtain ⟨hworked, hstatement, -⟩ := rollback_worked env hf
    rw [hpending] at hworked
    have hsome : f.connection.isSome = true := by
      rw [show f.connection = some c from hf]
      rfl
    simp only [hsome, if_true]
    exact ⟨hworked, hstatement⟩
  · exact ⟨hpending ▸ worked_self, rfl⟩

/-- What a run does to the pool and to the database. -/
inductive Runnable.Effect (env : Environment κ) (r : Runnable) (f f' : Frame κ) : Prop
  | unconnected (h : ¬env.Connects f.pool) (database : f'.database = f.database)
      (givenBack : f'.givenBack = [])
      (free : f'.pool.freeConnectionQueue = f.pool.freeConnectionQueue)
      (created : f'.pool.created = f.pool.created)
  | connected {c : κ} {pool : Pool κ} {gained : List Change} (h : env.Connects f.pool)
      (reply : env.poolReply f.pool = (.ok c, pool))
      (all_or_none : gained = [] ∨ gained = r.work env)
      (durable : f'.database.durable = f.database.durable ++ gained)
      (pending : (f'.database.session c).pending = r.remains env)
      (others : ∀ d, d ≠ c → f'.database.session d = f.database.session d)
      (back : (f'.givenBack = [] ∧ f'.pool = pool) ∨
        f'.givenBack = [c] ∧ f'.pool = (pool.releaseConnection c).2)
      (closed : r.left env ≠ [] →
        (f'.givenBack = [c] ↔ uncaught (env.fails .closeStatement) = none))

/-- A run that gets a connection with nothing pending. -/
lemma Runnable.run_connected (r : Runnable) {f : Frame κ} {pool : Pool κ}
    (hconnects : env.Connects f.pool) (hreply : env.poolReply f.pool = (.ok c, pool))
    (hget : (getConnection env).run f.enter = .ok () { f.enter with pool, connection := some c })
    (hclean : (f.database.session c).pending = []) :
    r.Effect env f ((r.run env).after f.enter) := by
  let f₁ : Frame κ := { f.enter with pool, connection := some c }
  obtain ⟨hthrown, ⟨gained, hgained, hworked⟩, hstatement⟩ :=
    Runnable.block_ends (f := f₁) r rfl hclean
  have hrun : (getConnection env >>= fun _ => r.block env).run f.enter = (r.block env).run f₁ :=
    bind_of_run hget _
  rw [r.run_eq, transaction_after, (ends_congr hrun).1, (ends_congr hrun).2, hthrown]
  have hconnected : Connected c ((r.block env).after f₁) := hworked.connection
  obtain ⟨hcatch, hstatement'⟩ := afterCatch_worked r hconnected hworked.pending
  have hall := hworked.trans hcatch
  have hconnected' := hcatch.connection.trans hconnected
  have hclosed : r.left env ≠ [] →
      (r.close env).thrown (afterCatch env ((r.block env).after f₁) (r.thrown env)) =
        uncaught (env.fails .closeStatement) :=
    fun hleft => r.close_thrown hleft (by rw [hstatement']; exact hstatement hleft)
  have hdurable : (afterCatch env ((r.block env).after f₁) (r.thrown env)).database.durable =
      f.database.durable ++ gained := by
    rw [hall.durable, List.append_nil]
    rfl
  rw [finallyBlock_after (r.close_after _), hconnected']
  cases hclose : (r.close env).thrown
      (afterCatch env ((r.block env).after f₁) (r.thrown env)) with
  | none =>
      refine .connected hconnects hreply hgained hdurable hall.pending hall.others
        (.inr ⟨?_, ?_⟩) fun hleft => ?_
      · exact congrArg (· ++ [c]) hall.givenBack
      · exact congrArg (fun p => (Pool.releaseConnection p c).2) hall.pool
      · exact iff_of_true (congrArg (· ++ [c]) hall.givenBack) ((hclosed hleft).symm.trans hclose)
  | some e =>
      refine .connected hconnects hreply hgained hdurable hall.pending hall.others
        (.inl ⟨hall.givenBack, hall.pool⟩) fun hleft => ?_
      rw [← hclosed hleft, hclose, hall.givenBack]
      exact iff_of_false (List.cons_ne_nil c []).symm (by simp)

/-- A run that gets no connection: what it throws is no `SQLException`, so that nothing is rolled
back, and nothing is given back. -/
lemma Runnable.run_unconnected (r : Runnable) {f f₀ : Frame κ} {e : Throwable}
    (hconnects : ¬env.Connects f.pool) (he : e ≠ .sqlException)
    (hrun : (getConnection env >>= fun _ => r.block env).run f.enter = .error e f₀)
    (hconnection : f₀.connection = none) (hdatabase : f₀.database = f.database)
    (hback : f₀.givenBack = [])
    (hfree : f₀.pool.freeConnectionQueue = f.pool.freeConnectionQueue)
    (hcreated : f₀.pool.created = f.pool.created) :
    r.Effect env f ((r.run env).after f.enter) := by
  have hcatch : afterCatch env f₀ (some e) = f₀ := by
    unfold afterCatch
    split
    · rename_i heq
      exact absurd (Option.some.inj heq) he
    · rfl
  rw [r.run_eq, transaction_after, thrown_of_throw hrun, after_of_throw hrun, hcatch,
    finallyBlock_after (r.close_after f₀), hconnection]
  cases (r.close env).thrown f₀ with
  | none => exact .unconnected hconnects hdatabase hback hfree hcreated
  | some e => exact .unconnected hconnects hdatabase hback hfree hcreated

/-- **One run**, when the connection it gets has nothing pending. -/
lemma Runnable.run_effect (r : Runnable) {f : Frame κ}
    (hclean : ∀ c pool, env.poolReply f.pool = (.ok c, pool) →
      (f.database.session c).pending = []) :
    r.Effect env f ((r.run env).after f.enter) := by
  obtain ⟨c, pool, hconnects, hreply, hget⟩ | ⟨hconnects, hget | hget⟩ :=
    getConnection_ends env f.enter
  · exact r.run_connected hconnects hreply hget (hclean c pool hreply)
  · -- `getConnection` returned `null`, and the first call on it throws
    have hrun : (getConnection env >>= fun _ => r.block env).run f.enter =
        .error .nullPointerException f.enter :=
      (bind_of_run hget _).trans (r.block_unconnected rfl)
    exact r.run_unconnected hconnects (by simp) hrun rfl rfl rfl rfl rfl
  · obtain ⟨pool, e, hfree, hcreated, he, hget⟩ := hget
    have hrun : (getConnection env >>= fun _ => r.block env).run f.enter =
        .error e { f.enter with pool } := bind_of_throw hget _
    exact r.run_unconnected hconnects he hrun rfl rfl rfl hfree hcreated

/-! ## Sequences of runs -/

/-- One run in a sequence of them. -/
abbrev RunMove (κ : Type) := Move (Frame κ) (Runnable × Environment κ)

/-- The changes of the run became durable all or not at all, and a connection it gave back has
nothing pending. -/
structure AllOrNone (m : RunMove κ) : Prop where
  durable : m.post.database.durable = m.pre.database.durable ∨
    m.post.database.durable = m.pre.database.durable ++ m.label.1.work m.label.2
  givenBack : ∀ c ∈ m.post.givenBack, (m.post.database.session c).pending = []

instance : DecidablePred (AllOrNone (κ := κ)) := fun m =>
  decidable_of_iff ((m.post.database.durable = m.pre.database.durable ∨
      m.post.database.durable = m.pre.database.durable ++ m.label.1.work m.label.2) ∧
      ∀ c ∈ m.post.givenBack, (m.post.database.session c).pending = [])
    ⟨fun h => ⟨h.1, h.2⟩, fun h => ⟨h.1, h.2⟩⟩

/-- The run gets no connection, or leaves no executed change pending after its `catch` block, or
does not give the connection back because `statement.close()` throws an unchecked exception. -/
def LeavesNothing (m : RunMove κ) : Prop :=
  m.label.2.Connects m.pre.pool → m.label.1.remains m.label.2 ≠ [] →
    uncaught (m.label.2.fails .closeStatement) ≠ none

/-- Between two runs: the free connections are different ones that the pool created, and have
nothing pending. -/
structure Frame.Clean (f : Frame κ) : Prop where
  idle : ∀ d ∈ f.pool.freeConnectionQueue, (f.database.session d).pending = []
  created : ∀ d ∈ f.pool.freeConnectionQueue, d ∈ f.pool.created
  nodup : f.pool.freeConnectionQueue.Nodup
  unopened : ∀ d, d ∉ f.pool.created → f.database.session d = Session.opened

omit [DecidableEq κ] in
lemma Runnable.remains_of_left (r : Runnable) (h : r.left env = []) : r.remains env = [] := by
  unfold remains
  split
  · rw [h, ite_self]
  · exact h

/-- The connection a run gets in a clean frame, and those that stay with the pool. -/
structure Given (f : Frame κ) (c : κ) (pool : Pool κ) : Prop where
  pending : (f.database.session c).pending = []
  free : ∀ d ∈ pool.freeConnectionQueue, d ∈ f.pool.freeConnectionQueue ∧ d ≠ c
  nodup : pool.freeConnectionQueue.Nodup
  created : ∀ d, d ∈ pool.created ↔ d ∈ f.pool.created ∨ d = c

lemma Frame.Clean.given {f : Frame κ} (h : f.Clean)
    (hfresh : ∀ c, env.driver = .ok c → c ∉ f.pool.created) {pool : Pool κ}
    (hreply : env.poolReply f.pool = (.ok c, pool)) : Given f c pool := by
  obtain ⟨hfree, hcreated⟩ | ⟨-, hfree, hdriver, hcreated⟩ := ConnectionPool.getConnection_ok hreply
  · have hmem : c ∈ f.pool.freeConnectionQueue := hfree ▸ List.mem_cons_self
    have hnodup := h.nodup
    rw [hfree, List.nodup_cons] at hnodup
    refine ⟨h.idle c hmem, fun d hd => ⟨hfree ▸ List.mem_cons_of_mem c hd, ?_⟩, hnodup.2,
      fun d => ?_⟩
    · rintro rfl
      exact hnodup.1 hd
    · rw [hcreated, iff_self_or]
      rintro rfl
      exact h.created d hmem
  · have hnew := hfresh c (mapError_eq_ok hdriver)
    refine ⟨by rw [h.unopened c hnew]; rfl, ?_, ?_, fun d => ?_⟩
    · simp [hfree]
    · simp [hfree]
    · simp [hcreated]

lemma allOrNone_iff {r : Runnable} {f f' : Frame κ} (h : r.Effect env f f') :
    AllOrNone ⟨f, (r, env), f'⟩ ↔ LeavesNothing ⟨f, (r, env), f'⟩ := by
  cases h with
  | unconnected hno hdatabase hback _ _ =>
      refine iff_of_true ⟨.inl (by rw [hdatabase]), ?_⟩ fun h => absurd h hno
      simp [hback]
  | @connected c pool gained hconnects _ hgained hdurable hpending _ hback hclosed =>
      constructor
      · rintro ⟨-, hclean⟩ - hremains hclose
        have hleft : r.left env ≠ [] := fun h => hremains (r.remains_of_left h)
        have hgiven := (hclosed hleft).mpr hclose
        exact hremains (hpending ▸ hclean c (by simp [hgiven]))
      · intro hsafe
        refine ⟨?_, fun d hd => ?_⟩
        · obtain rfl | rfl := hgained
          · exact .inl (by rw [hdurable, List.append_nil])
          · exact .inr hdurable
        · obtain ⟨hnone, -⟩ | ⟨hgiven, -⟩ := hback
          · simp [hnone] at hd
          · obtain rfl : d = c := by simpa [hgiven] using hd
            rw [hpending]
            by_contra hremains
            have hleft : r.left env ≠ [] := fun h => hremains (r.remains_of_left h)
            exact hsafe hconnects hremains ((hclosed hleft).mp hgiven)

/-- A run that gives back a connection with nothing pending keeps the connections clean. -/
lemma Frame.Clean.after {r : Runnable} {f f' : Frame κ} (hf : f.Clean)
    (hfresh : ∀ c, env.driver = .ok c → c ∉ f.pool.created) (h : r.Effect env f f')
    (hback' : ∀ c ∈ f'.givenBack, (f'.database.session c).pending = []) : f'.Clean := by
  cases h with
  | unconnected _ hdatabase _ hfree hcreated =>
      refine ⟨?_, ?_, ?_, ?_⟩ <;> simp only [hdatabase, hfree, hcreated]
      · exact hf.idle
      · exact hf.created
      · exact hf.nodup
      · exact hf.unopened
  | @connected c pool gained _ hreply _ _ _ hothers hback _ =>
      have hgiven := hf.given hfresh hreply
      have hidle : ∀ d ∈ pool.freeConnectionQueue, (f'.database.session d).pending = [] := by
        intro d hd
        rw [hothers d (hgiven.free d hd).2]
        exact hf.idle d (hgiven.free d hd).1
      have hcreated : ∀ d ∈ pool.freeConnectionQueue, d ∈ pool.created :=
        fun d hd => (hgiven.created d).mpr (.inl (hf.created d (hgiven.free d hd).1))
      have hunopened : ∀ d, d ∉ pool.created → f'.database.session d = Session.opened := by
        intro d hd
        rw [hgiven.created, not_or] at hd
        rw [hothers d hd.2]
        exact hf.unopened d hd.1
      obtain ⟨-, hpool⟩ | ⟨hgave, hpool⟩ := hback
      · exact ⟨hpool ▸ hidle, hpool ▸ hcreated, hpool ▸ hgiven.nodup, hpool ▸ hunopened⟩
      · have hcreated' := ConnectionPool.releaseConnection_created pool c
        rw [← hpool] at hcreated'
        obtain hsame | hadded := ConnectionPool.releaseConnection_free pool c
        · rw [← hpool] at hsame
          refine ⟨?_, ?_, ?_, ?_⟩ <;> simp only [hsame, hcreated']
          · exact hidle
          · exact hcreated
          · exact hgiven.nodup
          · exact hunopened
        · rw [← hpool] at hadded
          refine ⟨?_, ?_, ?_, ?_⟩ <;> simp only [hadded, hcreated']
          · intro d hd
            obtain hd | hd := List.mem_append.mp hd
            · exact hidle d hd
            · exact hback' d (hgave ▸ hd)
          · intro d hd
            obtain hd | hd := List.mem_append.mp hd
            · exact hcreated d hd
            · exact (hgiven.created d).mpr (.inr (List.mem_singleton.mp hd))
          · rw [List.nodup_append_comm, List.singleton_append, List.nodup_cons]
            exact ⟨fun hc => (hgiven.free c hc).2 rfl, hgiven.nodup⟩
          · exact hunopened

lemma step_cases {f f' : Frame κ} {l : Runnable × Environment κ} {n : ℕ}
    (h : (machine κ n).step f l = some f') :
    (∀ c, l.2.driver = .ok c → c ∉ f.pool.created) ∧ f' = (l.1.run l.2).after f.enter := by
  simp only [machine] at h
  split_ifs at h with hfresh
  refine ⟨fun c hc hmem => hfresh ⟨c, hmem, by rw [hc]; rfl⟩, (Option.some.inj h).symm⟩

lemma clean_init {f : Frame κ} {n : ℕ} (h : (machine κ n).init f) : f.Clean := by
  obtain ⟨hpool, hsession⟩ := h
  refine ⟨?_, ?_, ?_, fun d _ => by rw [hsession]⟩ <;> simp [hpool, Pool.new]

/-- A step from a clean frame is one run. -/
lemma effect_of_step {f f' : Frame κ} {l : Runnable × Environment κ} {n : ℕ} (hf : f.Clean)
    (h : (machine κ n).step f l = some f') : l.1.Effect l.2 f f' := by
  obtain ⟨hfresh, rfl⟩ := step_cases h
  exact l.1.run_effect fun c pool hreply => (hf.given hfresh hreply).pending

/-- **Transactions are all-or-nothing exactly while no run gives back a connection with executed
changes pending.**  This happens when the `try` block is left after the execution by an unchecked
exception, or by an `SQLException` with a `rollback` that does not take effect. -/
theorem transactions_all_or_none_iff {n : ℕ} {τ : List (RunMove κ)} {f : Frame κ}
    (h : (machine κ n).Run τ f) : (∀ m ∈ τ, AllOrNone m) ↔ ∀ m ∈ τ, LeavesNothing m := by
  refine h.moves_iff (I := Frame.Clean) (fun _ => clean_init) (fun f l f' hf hstep hsafe => ?_)
    fun f l f' hf hstep => allOrNone_iff (effect_of_step hf hstep)
  have heffect := effect_of_step hf hstep
  exact hf.after (step_cases hstep).1 heffect ((allOrNone_iff heffect).mpr hsafe).givenBack

/-! ## An insert that is broken off, and an update after it -/

/-- A new pool over an empty table. -/
def emptyTable : Frame ℕ := ⟨Pool.new 5, ⟨fun _ => Session.opened, []⟩, none, none, false, []⟩

lemma init_emptyTable : (machine ℕ 5).init emptyTable := ⟨rfl, rfl⟩

/-- Surroundings in which the calls end as `answer` says. -/
def surroundings (fresh : ℕ) (answer : Call → Answer) : Environment ℕ :=
  ⟨false, .ok fresh, answer, fun _ _ => text "A", 0, .root⟩

/-- `executeBatch` ends in an unchecked exception after the first row. -/
def brokenOff (call : Call) : Answer :=
  if call = .executeBatch then .fails ⟨.runtimeException .sqlException, .inr rfl⟩ 1 else .done

/-- Two rows are inserted, which is broken off after the first, and then a name is updated. -/
def insertThenUpdate : List (Runnable × Environment ℕ) :=
  [(.insert ⟨4, 2, 1⟩, surroundings 0 brokenOff),
    (.update ⟨4, 1, some (text "B")⟩, surroundings 1 fun _ => .done)]

/-- The commit of the update makes the first row of the failed insert durable. -/
theorem update_commits_failed_insert :
    (((machine ℕ 5).play emptyTable insertThenUpdate).map fun f => f.database.durable) =
        some [.row 1 (text "A") (text "A"),
          .statement (text "UPDATE T_TEST SET FNAME = 'B' WHERE FID = 1")] ∧
      ¬∀ m ∈ (machine ℕ 5).moves emptyTable insertThenUpdate, AllOrNone m := by
  decide +kernel

/-- The equivalence, for these two runs. -/
theorem transactions_all_or_none_iff_insertThenUpdate :
    (∀ m ∈ (machine ℕ 5).moves emptyTable insertThenUpdate, AllOrNone m) ↔
      ∀ m ∈ (machine ℕ 5).moves emptyTable insertThenUpdate, LeavesNothing m := by
  obtain ⟨f, hf⟩ : ∃ f, (machine ℕ 5).play emptyTable insertThenUpdate = some f :=
    Option.isSome_iff_exists.mp (by decide +kernel)
  exact transactions_all_or_none_iff (Machine.run_of_play init_emptyTable hf)

end Transactions

end LearnJava
