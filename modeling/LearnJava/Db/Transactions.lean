import LearnJava.Db.PoolCalls
import LearnJava.Java.Text

/-!
# The transactions of `db/thread`

`run` of `InsertTransactionIsolationRunnable`, `UpdateTransactionIsolationRunnable` and
`QueryTransactionIsolationRunnable` over one `ConnectionPool` and one database, one run after the
other.  The three bodies are written call by call; what is around them — `rollback` in the
`catch` block, closing and `releaseConnection` in the `finally` block — is the same text but for
what is closed, and is `transaction` here.

The database keeps, for each connection, whether it commits by itself and which executed changes
are pending.  Every call of the driver may be done, or end in an `SQLException` or an unchecked
exception; an `Environment` answers each call of a run.  A failed call may have done part of its
work: `progress` counts the statements of a batch that were executed, and is positive where a
failed `commit` or `rollback` took effect all the same.  The isolation level does not change which
work is pending, and is left out of the database.

`catch (SQLException e)` is a match on the exception; `finally` is Lean's.
-/

namespace LearnJava

namespace Transactions

open ConnectionPool (Pool)

/-! ## The database -/

/-- A change of `T_TEST` that an executed statement makes: a row of a batch, or what an `UPDATE`
text says. -/
inductive Change
  | row (FID : ℤ) (FNAME FNUMBER : Text)
  | statement (sql : Text)
  deriving DecidableEq, Repr

/-- A connection, as the database sees it. -/
structure Session where
  autoCommit : Bool
  pending : List Change
  deriving DecidableEq, Repr

/-- A connection that was just opened. -/
def Session.opened : Session := ⟨true, []⟩

/-- The connections and the changes that are durable, in the order in which they became so. -/
structure Database (κ : Type) where
  session : κ → Session
  durable : List Change

namespace Database

variable {κ : Type} [DecidableEq κ]

def updateSession (db : Database κ) (c : κ) (f : Session → Session) : Database κ :=
  { db with session := Function.update db.session c (f (db.session c)) }

def setAutoCommit (autoCommit : Bool) (c : κ) (db : Database κ) : Database κ :=
  db.updateSession c fun s => { s with autoCommit }

/-- Executed statements are pending until the next commit or rollback, or durable at once. -/
def execute (changes : List Change) (c : κ) (db : Database κ) : Database κ :=
  if (db.session c).autoCommit then { db with durable := db.durable ++ changes }
  else db.updateSession c fun s => { s with pending := s.pending ++ changes }

def rollback (c : κ) (db : Database κ) : Database κ :=
  db.updateSession c fun s => { s with pending := [] }

def commit (c : κ) (db : Database κ) : Database κ :=
  { db.rollback c with durable := db.durable ++ (db.session c).pending }

end Database

/-! ## The calls of the driver -/

/-- A call of the driver, told apart from the other calls of the run by its place in the loop. -/
inductive Call
  | setTransactionIsolation (level : ℤ)
  | setAutoCommit
  | prepareStatement
  | createStatement
  | setLong (index : ℕ)
  | setString (index parameterIndex : ℕ)
  | addBatch (index : ℕ)
  | executeBatch
  | executeUpdate
  | executeQuery
  | next (row : ℕ)
  | getLong (row : ℕ)
  | getString (row : ℕ) (columnLabel : String)
  | commit
  | rollback
  | closeResultSet
  | closeStatement
  deriving DecidableEq, Repr

/-- What the driver may throw. -/
structure Failure where
  exception : Throwable
  thrown : exception = .sqlException ∨ exception.isUnchecked = true

/-- How a call ends. -/
inductive Answer
  | done
  | fails (f : Failure) (progress : ℕ)

/-- What surrounds one run: whether its thread is interrupted when it asks for a connection, what
the driver answers, the random strings, the number of rows a query finds, and the default locale. -/
structure Environment (κ : Type) where
  interrupted : Bool
  driver : Except Failure κ
  answer : Call → Answer
  randomString : ℕ → ℕ → Text
  rows : ℕ
  locale : Locale

/-- The exception a call ends with. -/
def Environment.fails {κ : Type} (env : Environment κ) (call : Call) : Option Throwable :=
  match env.answer call with
  | .done => none
  | .fails f _ => some f.exception

/-- An open statement: the parameters that are set and the rows of the batch. -/
structure OpenStatement where
  FID : ℤ
  FNAME : Text
  FNUMBER : Text
  batch : List Change

/-- The pool, the database and the local variables of a run; `givenBack` records what was passed to
`releaseConnection`. -/
structure Frame (κ : Type) where
  pool : Pool κ
  database : Database κ
  connection : Option κ
  statement : Option OpenStatement
  resultSet : Bool
  givenBack : List κ

section Code

variable {κ : Type} [DecidableEq κ] (env : Environment κ)

/-- A call of the driver: `full` is what it does, and `partly` what it has done when it fails. -/
def callDriver (call : Call) (full : Frame κ → Frame κ) (partly : ℕ → Frame κ → Frame κ) :
    Method (Frame κ) Unit :=
  match env.answer call with
  | .done => modify full
  | .fails f progress => do
    modify (partly progress)
    throw f.exception

/-- A call of a method of `connection`. -/
def onConnection (call : Call) (full : κ → Database κ → Database κ)
    (partly : ℕ → κ → Database κ → Database κ) : Method (Frame κ) Unit := do
  match (← get).connection with
  | none => throw .nullPointerException
  | some c =>
    callDriver env call (fun f => { f with database := full c f.database })
      fun progress f => { f with database := partly progress c f.database }

/-- A call of a method of `statement`. -/
def onStatement (call : Call) (full : OpenStatement → OpenStatement) : Method (Frame κ) Unit := do
  match (← get).statement with
  | none => throw .nullPointerException
  | some st => callDriver env call (fun f => { f with statement := some (full st) }) fun _ f => f

/-- `connection = connectionPool.getConnection()`; the interrupt is caught there, and `null` is
returned. -/
def getConnection : Method (Frame κ) Unit := do
  if env.interrupted then
    return
  let f ← get
  match f.pool.getConnection (env.driver.mapError Failure.exception) with
  | (.ok c, pool) => set { f with pool, connection := some c }
  | (.error e, pool) =>
    set { f with pool }
    throw e

/-- `connectionPool.releaseConnection(connection)`. -/
def releaseConnection (c : κ) : Method (Frame κ) Unit := do
  let f ← get
  match f.pool.releaseConnection c with
  | (.ok _, pool) => set { f with pool, givenBack := f.givenBack ++ [c] }
  | (.error e, pool) =>
    set { f with pool, givenBack := f.givenBack ++ [c] }
    throw e

def setTransactionIsolation (level : ℤ) : Method (Frame κ) Unit :=
  onConnection env (.setTransactionIsolation level) (fun _ db => db) fun _ _ db => db

/-- `connection.setAutoCommit(false)`. -/
def setAutoCommit : Method (Frame κ) Unit :=
  onConnection env .setAutoCommit (Database.setAutoCommit false) fun progress =>
    if progress = 0 then fun _ db => db else Database.setAutoCommit false

def commit : Method (Frame κ) Unit :=
  onConnection env .commit Database.commit fun progress =>
    if progress = 0 then fun _ db => db else Database.commit

def rollback : Method (Frame κ) Unit :=
  onConnection env .rollback Database.rollback fun progress =>
    if progress = 0 then fun _ db => db else Database.rollback

/-- `statement = connection.createStatement()`, or the same for a prepared statement. -/
def openStatement (call : Call) : Method (Frame κ) Unit := do
  onConnection env call (fun _ db => db) fun _ _ db => db
  modify fun f => { f with statement := some ⟨0, [], [], []⟩ }

/-- Execute the changes `changes` of a statement. -/
def execute (call : Call) (changes : List Change) : Method (Frame κ) Unit :=
  onConnection env call (Database.execute changes) fun progress =>
    Database.execute (changes.take progress)

/-- The `try` statement of the three `run` methods. -/
def transaction (body close : Method (Frame κ) Unit) : Method (Frame κ) Unit := do
  try
    body
  catch
  | .sqlException =>
    try
      if (← get).connection.isSome then
        rollback env
    catch
    | .sqlException => pure ()
    | e => throw e
    throw (.runtimeException .sqlException)
  | e => throw e
  finally
    close
    match (← get).connection with
    | none => pure ()
    | some c => releaseConnection c

/-- Close something, if it was opened, and do not mind an `SQLException`. -/
def closeQuietly (opened : Frame κ → Bool) (call : Call) : Method (Frame κ) Unit := do
  try
    if opened (← get) then
      callDriver env call id fun _ f => f
  catch
  | .sqlException => pure ()
  | e => throw e

/-- `statement.close()`. -/
def closeStatement : Method (Frame κ) Unit :=
  closeQuietly env (fun f => f.statement.isSome) .closeStatement

/-- `resultSet.close()`. -/
def closeResultSet : Method (Frame κ) Unit := closeQuietly env Frame.resultSet .closeResultSet

end Code

/-! ## The three runnables -/

structure InsertTransactionIsolationRunnable where
  transactionIsolation : ℤ
  insertCount : ℤ
  startId : ℤ

structure UpdateTransactionIsolationRunnable where
  transactionIsolation : ℤ
  updateDataId : ℤ
  updateName : Option Text

structure QueryTransactionIsolationRunnable where
  transactionIsolation : ℤ

variable {κ : Type} [DecidableEq κ]

namespace InsertTransactionIsolationRunnable

variable (r : InsertTransactionIsolationRunnable) (env : Environment κ)

/-- The row of the pass `index`. -/
def row (index : ℕ) : Change :=
  .row (wrap64 (r.startId + index)) (env.randomString index 2) (env.randomString index 3)

/-- One pass of the loop. -/
def addRow (index : ℕ) : Method (Frame κ) Unit := do
  onStatement env (.setLong index) fun st => { st with FID := wrap64 (r.startId + index) }
  onStatement env (.setString index 2) fun st => { st with FNAME := env.randomString index 2 }
  onStatement env (.setString index 3) fun st => { st with FNUMBER := env.randomString index 3 }
  onStatement env (.addBatch index) fun st =>
    { st with batch := st.batch ++ [.row st.FID st.FNAME st.FNUMBER] }

/-- The `try` block from `setTransactionIsolation` up to `executeBatch`. -/
def prepare : Method (Frame κ) Unit := do
  setTransactionIsolation env r.transactionIsolation
  setAutoCommit env
  openStatement env .prepareStatement
  (List.range r.insertCount.toNat).forM (r.addRow env)

def executeBatch : Method (Frame κ) Unit := do
  match (← get).statement with
  | none => throw .nullPointerException
  | some st => execute env .executeBatch st.batch

def run : Method (Frame κ) Unit :=
  transaction env
    (do
      getConnection env
      r.prepare env
      executeBatch env
      commit env)
    (closeStatement env)

end InsertTransactionIsolationRunnable

namespace UpdateTransactionIsolationRunnable

variable (r : UpdateTransactionIsolationRunnable) (env : Environment κ)

def sql (l : Locale) : Text :=
  text "UPDATE T_TEST SET FNAME = '" ++ formatString r.updateName ++ text "' WHERE FID = " ++
    formatDecimal l r.updateDataId

/-- The `try` block from `setTransactionIsolation` up to `executeUpdate`. -/
def prepare : Method (Frame κ) Unit := do
  setTransactionIsolation env r.transactionIsolation
  setAutoCommit env
  openStatement env .createStatement

def executeUpdate : Method (Frame κ) Unit :=
  execute env .executeUpdate [.statement (r.sql env.locale)]

def run : Method (Frame κ) Unit :=
  transaction env
    (do
      getConnection env
      r.prepare env
      r.executeUpdate env
      commit env)
    (closeStatement env)

end UpdateTransactionIsolationRunnable

namespace QueryTransactionIsolationRunnable

variable (r : QueryTransactionIsolationRunnable) (env : Environment κ)

/-- `resultSet = statement.executeQuery(…)`. -/
def executeQuery : Method (Frame κ) Unit := do
  onStatement env .executeQuery id
  modify fun f => { f with resultSet := true }

/-- One pass of the loop, with the call of `next()` that allows it. -/
def readRow (row : ℕ) : Method (Frame κ) Unit := do
  onStatement env (.next row) id
  onStatement env (.getLong row) id
  onStatement env (.getString row "testName") id
  onStatement env (.getString row "testNumber") id

/-- The `try` block from `setTransactionIsolation` up to `commit`. -/
def prepare : Method (Frame κ) Unit := do
  setTransactionIsolation env r.transactionIsolation
  setAutoCommit env
  openStatement env .createStatement
  executeQuery env
  (List.range env.rows).forM (readRow env)
  onStatement env (.next env.rows) id

def run : Method (Frame κ) Unit :=
  transaction env
    (do
      getConnection env
      r.prepare env
      commit env)
    (do
      closeResultSet env
      closeStatement env)

end QueryTransactionIsolationRunnable

/-! ## Runs one after the other -/

/-- A runnable and what surrounds its run. -/
inductive Runnable
  | insert (r : InsertTransactionIsolationRunnable)
  | update (r : UpdateTransactionIsolationRunnable)
  | query (r : QueryTransactionIsolationRunnable)

def Runnable.run (env : Environment κ) : Runnable → Method (Frame κ) Unit
  | insert r => r.run env
  | update r => r.run env
  | query r => r.run env

/-- The frame a run starts with. -/
def Frame.enter (f : Frame κ) : Frame κ :=
  { f with connection := none, statement := none, resultSet := false, givenBack := [] }

/-- Any sequence of runs on one new pool: a connection the driver opens is a new one. -/
def machine (κ : Type) [DecidableEq κ] (maxConnectionCount : ℕ) :
    Machine (Frame κ) (Runnable × Environment κ) where
  init f := f.pool = Pool.new maxConnectionCount ∧ f.database.session = fun _ => Session.opened
  step f l :=
    if ∃ c ∈ f.pool.created, l.2.driver.toOption = some c then none
    else some ((l.1.run l.2).after f.enter)

end Transactions

end LearnJava
