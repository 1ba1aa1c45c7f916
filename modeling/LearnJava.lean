import LearnJava.Lock.QueueFifo
import LearnJava.Lock.QueueBlocking
import LearnJava.Lock.QueueWakeup
import LearnJava.Lock.TwinsLockPermits
import LearnJava.Lock.TwinsLockFairness
import LearnJava.Db.PoolOwnership
import LearnJava.Db.PoolPermits
import LearnJava.Db.PoolBounds
import LearnJava.Db.PoolKeys
import LearnJava.Db.TransactionAtomicity
import LearnJava.Nio.SessionLocks
import LearnJava.Semaphore.HandlerOwnership
import LearnJava.Semaphore.RunnablePermits
import LearnJava.Security.SessionIsolation
import LearnJava.Security.RequestDecoding
import LearnJava.Generic.ListRefinement
import LearnJava.Security.ResponseFraming
import LearnJava.Nio.DatagramFraming
import LearnJava.Externalizable.SubNormalSerializable
import LearnJava.Concurrent.OfferPollCounts
import LearnJava.ThreadTest.CustomerSums
import LearnJava.Lock.FactoryLatches
import LearnJava.Lock.FactoryReleases
import LearnJava.Lock.QueueAdmission
import LearnJava.Lock.QueueDrain
import LearnJava.Lock.QueueSentinel
import LearnJava.ForkJoin.CountTaskSums
import LearnJava.Security.PasswordCleanup
import LearnJava.Security.PermissionEquality
import LearnJava.Security.CallbackLines
import LearnJava.Db.UpdateStatement
import LearnJava.Security.ServerContainment
import LearnJava.Nio.DatagramMalformed
import LearnJava.Externalizable.SubNormalIndices
import LearnJava.Generic.ArrayAdd
import LearnJava.Generic.ArraySlots
import LearnJava.Closure.TestClosure
import LearnJava.ThreadTest.MatchaThreadPool
import LearnJava.Lock.Cache
import LearnJava.Security.FibService
import LearnJava.Lock.QueueBounds
import LearnJava.Io.ReadTestCounts
import LearnJava.Nio.WriteFileThread
import LearnJava.Nio.ReadFileThread
import LearnJava.ClassLoader.OwnClassLoader
import LearnJava.ClassLoader.OwnClassLoader2
import LearnJava.Search.Searcher
import LearnJava.CyclicBarrier.CountHelperSums
import LearnJava.Singleton.Singletons
import LearnJava.TestServer.Answers
import LearnJava.Nio.ServerThread
import LearnJava.Nio.MatchaNIOServer
import LearnJava.Nio.TestPipe
import LearnJava.Lock.TestTwinsLockEnds
import LearnJava.ThreadTest.ProviderEnds
import LearnJava.Nio.SessionFreeze
import LearnJava.Security.ClientServer
import LearnJava.ThreadTest.ThreadGroupTest2
import LearnJava.Lock.ReentrantLockCallable
import LearnJava.Lock.TestLockInterruptibly
