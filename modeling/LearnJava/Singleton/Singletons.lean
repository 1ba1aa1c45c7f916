import LearnJava.Java.LazyInstance

/-!
# The classes with one instance

Nine classes create their instance when `getInstance` is first called, by the same code
(`LearnJava/Java/LazyInstance.lean`).  They differ in three points: the field `instance` of `Cache`
and of `SimulateServlet` is not `volatile`; `createInstance` of `ReadWriteThreadFacotry` and of
`SimulateConnectionPool` is `public`; and the constructor of `UserPasswordDB` throws when it does
not get its keys or its ciphers.
-/

namespace LearnJava

open LazyInstance

/-- `lock/app/Cache.java` -/
def Cache.pattern : Pattern := ⟨false, false, false⟩

/-- `lock/factory/DefaultThreadFacotry.java` -/
def DefaultThreadFacotry.pattern : Pattern := ⟨true, false, false⟩

/-- `lock/factory/ReadWriteThreadFacotry.java` -/
def ReadWriteThreadFacotry.pattern : Pattern := ⟨true, true, false⟩

/-- `semaphore/app/SimulateConnectionPool.java` -/
def SimulateConnectionPool.pattern : Pattern := ⟨true, true, false⟩

/-- `security/app/FibService.java` -/
def FibService.pattern : Pattern := ⟨true, false, false⟩

/-- `security/context/login/LoginManager.java` -/
def LoginManager.pattern : Pattern := ⟨true, false, false⟩

/-- `security/context/login/db/UserPasswordDB.java` -/
def UserPasswordDB.pattern : Pattern := ⟨true, false, true⟩

/-- `security/context/ContextManager.java` -/
def ContextManager.pattern : Pattern := ⟨true, false, false⟩

/-- `SimulateServlet.java` of `TestServer` -/
def SimulateServlet.pattern : Pattern := ⟨false, false, false⟩

/-- The classes. -/
inductive SingletonClass
  | cache
  | defaultThreadFacotry
  | readWriteThreadFacotry
  | simulateConnectionPool
  | fibService
  | loginManager
  | userPasswordDB
  | contextManager
  | simulateServlet
  deriving DecidableEq, Repr

namespace SingletonClass

def pattern : SingletonClass → Pattern
  | cache => Cache.pattern
  | defaultThreadFacotry => DefaultThreadFacotry.pattern
  | readWriteThreadFacotry => ReadWriteThreadFacotry.pattern
  | simulateConnectionPool => SimulateConnectionPool.pattern
  | fibService => FibService.pattern
  | loginManager => LoginManager.pattern
  | userPasswordDB => UserPasswordDB.pattern
  | contextManager => ContextManager.pattern
  | simulateServlet => SimulateServlet.pattern

/-- A call of `getInstance` returns `null` in some interleaving of two threads. -/
def MayReturnNull (P : Pattern) : Prop :=
  ∃ ms s, (machine Duo P).Run ms s ∧ ∃ m ∈ ms, ∃ t, (m.post.thread t).phase = .returned none

/-- The second thread finds the new instance in its test, and `null` when it reads again. -/
def staleRead : List (Duo × Act) :=
  [(.first, .getInstance), (.first, .find none), (.first, .go), (.first, .go), (.first, .go),
    (.first, .go), (.second, .getInstance), (.second, .find (some 0)), (.second, .find none)]

lemma mayReturnNull_of_plain : MayReturnNull ⟨false, false, false⟩ := by
  have hnull : ∃ m ∈ (machine Duo ⟨false, false, false⟩).moves (initial Duo) staleRead,
      (m.post.thread .second).phase = .returned none := by
    decide +kernel
  obtain ⟨m, hm, hphase⟩ := hnull
  exact ⟨_, _, Machine.run_getD_of_play (initial Duo) (init_initial Duo _) (by decide +kernel), m,
    hm, _, hphase⟩

/-- For each of the nine classes, any number of threads that call `getInstance`, or `createInstance`
where it is `public`, and any interleaving: the constructor ends for one object at most, and all
calls that return an object return this one.  In the seven classes whose field is `volatile` no call
returns `null`, and every caller sees the object as its constructor left it; in `Cache` and in
`SimulateServlet` a call can return `null`. -/
theorem one_instance (c : SingletonClass) :
    (∀ (τ : Type) [DecidableEq τ] (ms : List (InstanceMove τ)) (s : InstanceState τ),
      (machine τ c.pattern).Run ms s → OneInstance c.pattern ms s) ∧
      (MayReturnNull c.pattern ↔ c = cache ∨ c = simulateServlet) := by
  refine ⟨fun τ _ ms s h => oneInstance_of_run h, fun ⟨ms, s, hrun, m, hm, t, ht⟩ => ?_, ?_⟩
  · have hplain := ((oneInstance_of_run hrun).notNull m hm t ht).1
    cases c with
    | cache => exact .inl rfl
    | simulateServlet => exact .inr rfl
    | defaultThreadFacotry | readWriteThreadFacotry | simulateConnectionPool | fibService
    | loginManager | userPasswordDB | contextManager => cases hplain
  · rintro (rfl | rfl)
    · exact mayReturnNull_of_plain
    · exact mayReturnNull_of_plain

end SingletonClass

end LearnJava
