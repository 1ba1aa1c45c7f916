import LearnJava.Foundation.Run
import LearnJava.Java.ByteBuffer

/-!
# `Server`

The loop of `security/app/Server.java` over the keys that a selector has found ready, with
`security/app/FibService.java` behind it.  All connections share two buffers, an array and what has
been collected of a request's context.  `decode` is the readable branch up to the calls of
`readContext` and `dispatchFig`, and `readable` and `writable` are the two branches.

What the network does is left open: an acceptable key comes with or without a connection, a readable
branch with what its successive `read`s find, and a writable one with how many bytes `write` takes.
`readObject` is the deserialization of what follows the header of an object stream.  An exception
that leaves a branch ends `start`.
-/

namespace LearnJava

namespace Server

/-! ## Channels -/

/-- What has arrived on a connection when it is read: bytes, or none, the end of the stream, or
its reset. -/
inductive Arrival
  | bytes (bs : List Byte)
  | endOfStream
  | reset
  deriving DecidableEq

/-- What the next reads of a connection find; after that there is nothing more for now. -/
abbrev Channel := List Arrival

/-- `socketChannel.read(buffer)`: the number it returns, and the buffer and the channel after it.
What does not fit into the buffer stays for the next read, and nothing is read into a full
buffer. -/
def read (channel : Channel) (buffer : ByteBuffer) :
    Except Throwable (ℤ × ByteBuffer × Channel) :=
  if buffer.remaining = 0 then .ok (0, buffer, channel)
  else
    match channel with
    | [] => .ok (0, buffer, channel)
    | .reset :: _ => .error (.ioException "Connection reset by peer")
    | .endOfStream :: _ => .ok (-1, buffer, channel)
    | .bytes bs :: rest =>
      if bs.length ≤ buffer.remaining then
        (buffer.put bs).map fun buffer => (bs.length, buffer, rest)
      else
        (buffer.put (bs.take buffer.remaining)).map fun b =>
          (buffer.remaining, b, .bytes (bs.drop buffer.remaining) :: rest)

/-! ## The variables of `start` -/

/-- The variables that the branches share, with the channel of the key they are at. -/
structure Buffers where
  argIntBuffer : ByteBuffer
  argCtxBuffer : ByteBuffer
  readBytes : List Byte
  argCtxBytes : Option (List Byte)
  socketChannel : Channel

/-- The variables before the loop. -/
def Buffers.initial : Buffers :=
  ⟨.allocate (4 * 8), .allocate 1024, List.replicate 1024 0, none, []⟩

/-- `socketChannel.read(argIntBuffer)` -/
def readArgInt : Method Buffers ℤ := do
  let v ← get
  let (n, argIntBuffer, socketChannel) ← ofExcept (read v.socketChannel v.argIntBuffer)
  set { v with argIntBuffer, socketChannel }
  return n

/-- `argIntBuffer.getInt()` -/
def getArgInt : Method Buffers ℤ := do
  let v ← get
  let (argInt, argIntBuffer) ← ofExcept v.argIntBuffer.getInt
  set { v with argIntBuffer }
  return argInt

/-- `socketChannel.read(argCtxBuffer)` -/
def readArgCtx : Method Buffers ℤ := do
  let v ← get
  let (n, argCtxBuffer, socketChannel) ← ofExcept (read v.socketChannel v.argCtxBuffer)
  set { v with argCtxBuffer, socketChannel }
  return n

/-- The body of the `while` loop of the readable branch. -/
def collect : Method Buffers PUnit := do
  let v ← get
  let remaining := v.argCtxBuffer.remaining
  let (readBytes, argCtxBuffer) ← ofExcept (v.argCtxBuffer.get v.readBytes.length)
  set { v with readBytes, argCtxBuffer }
  let argCtxBytes ← match v.argCtxBytes with
    | none => pure (copyOfBytes readBytes remaining)
    | some old =>
      arraycopy readBytes 0 (copyOfBytes old (old.length + remaining)) old.length remaining
  modify fun v => { v with argCtxBytes := some argCtxBytes }

/-- The loop.  Every pass takes `readBytes.length` bytes from a buffer that is not filled again, so
that `fuel` need not be more than the bytes in it. -/
def collectAll : ℕ → Method Buffers PUnit
  | 0 => pure ⟨⟩
  | fuel + 1 => do
    let n ← readArgCtx
    if n ≠ 0 then
      collect
      collectAll fuel

/-- The readable branch between its first read and `readContext`: the arguments of `dispatchFig` and
of `readContext`. -/
def decodeArguments : Method Buffers (ℤ × Option (List Byte)) := do
  modify fun v => { v with argIntBuffer := v.argIntBuffer.flip }
  let argInt ← getArgInt
  modify fun v => { v with argCtxBuffer := v.argCtxBuffer.clear }
  let v ← get
  collectAll (v.argCtxBuffer.remaining + 1)
  let v ← get
  return (argInt, v.argCtxBytes)

/-- The readable branch up to `readContext`; none at the end of the stream. -/
def decode : Method Buffers (Option (ℤ × Option (List Byte))) := do
  modify fun v => { v with argIntBuffer := v.argIntBuffer.clear }
  let startValue ← readArgInt
  if startValue = -1 then return none
  let arguments ← decodeArguments
  return some arguments

/-! ## The service -/

/-- `fib(argInt)` of `FibService`, for an argument that is not negative. -/
def fibOf : ℕ → ℤ
  | 0 => 0
  | 1 => 1
  | n + 2 => wrap32 (fibOf (n + 1) + fibOf n)

/-- `fib(argInt)` -/
def fib (argInt : ℤ) : Except Throwable ℤ :=
  if argInt < 0 then .error .illegalArgumentException else .ok (fibOf argInt.toNat)

section Service

variable {κ : Type} (readObject : List Byte → Except Throwable κ)

/-- `dispatchFig(argInt, argCtx)`: `doPrivileged` runs the action. -/
def dispatchFig (argInt : ℤ) (_ : κ) : Except Throwable ℤ := fib argInt

/-- The magic number and the version at the beginning of an object stream. -/
def streamHeader : List Byte := [0xAC, 0xED, 0x00, 0x05]

/-- `new ObjectInputStream(…).readObject()`: the header is read first. -/
def deserialize (argCtxBytes : List Byte) : Except Throwable κ :=
  if argCtxBytes.take 4 = streamHeader then readObject (argCtxBytes.drop 4)
  else .error (.ioException "invalid stream header")

/-- `readContext(argCtxBytes)` -/
def readContext : Option (List Byte) → Except Throwable κ
  | none => .error .nullPointerException
  | some argCtxBytes =>
    match deserialize readObject argCtxBytes with
    | .error (.ioException message) => .error (.runtimeException (.ioException message))
    | .error .classNotFoundException => .error (.runtimeException .classNotFoundException)
    | r => r

/-! ## The loop -/

/-- A selection key: its attachment, and whether it is interested in `OP_WRITE`. -/
structure SelectionKey where
  attachment : Option ℤ
  opWrite : Bool
  deriving DecidableEq

/-- The readable branch: the key after it, or none if it was cancelled. -/
def readable (key : SelectionKey) : Method Buffers (Option SelectionKey) := do
  match ← decode with
  | none => return none
  | some (argInt, argCtxBytes) =>
    let argCtx ← ofExcept (readContext readObject argCtxBytes)
    let result ← ofExcept (dispatchFig argInt argCtx)
    return some { key with attachment := some result, opWrite := true }

end Service

/-- The writable branch: the key after it, and the bytes that `write` took. -/
def writable (key : SelectionKey) (taken : ℕ) : Method Buffers (SelectionKey × List Byte) := do
  let result ← ofExcept (deref key.attachment)
  let v ← get
  let argIntBuffer ← ofExcept (v.argIntBuffer.putInt result)
  let (written, argIntBuffer) ←
    ofExcept (argIntBuffer.flip.get (min taken argIntBuffer.flip.remaining))
  set { v with argIntBuffer }
  return ({ key with attachment := none, opWrite := false }, written)

/-- The server: its variables, the keys of the connections, what was written to each, and what ended
`start`. -/
structure ServerState (ι : Type) where
  buffers : Buffers
  keys : ι → Option SelectionKey
  written : ι → List Byte
  ended : Option Throwable

/-- A ready key: a connection that is accepted, one that can be read or one that can be written.
`accept` may also return `null`, or throw an exception with a message, as may the two calls behind
it. -/
inductive Event
  | accept
  | acceptFails (message : Option String)
  | readable (channel : Channel)
  | writable (taken : ℕ)
  deriving DecidableEq

/-- What `start` throws for an exception that leaves a branch. -/
def thrownByStart : Throwable → Throwable
  | .ioException message => .runtimeException (.ioException message)
  | e => e

/-- What the branch throws when `accept` has failed. -/
def acceptException : Option String → Throwable
  | none => .nullPointerException
  | some message => .ioException message

section Machine

variable {κ ι : Type} [DecidableEq ι] (readObject : List Byte → Except Throwable κ)

/-- One ready key. -/
def handle (s : ServerState ι) : ι × Event → Option (ServerState ι)
  | (c, .accept) =>
    if s.ended = none ∧ s.keys c = none then
      some { s with keys := Function.update s.keys c (some ⟨none, false⟩) }
    else none
  | (_, .acceptFails message) =>
    if s.ended = none then
      some { s with ended := some (thrownByStart (acceptException message)) }
    else none
  | (c, .readable channel) =>
    match s.ended, s.keys c with
    | none, some key =>
      match (readable readObject key).run { s.buffers with socketChannel := channel } with
      | .ok key' buffers => some { s with buffers, keys := Function.update s.keys c key' }
      | .error e buffers => some { s with buffers, ended := some (thrownByStart e) }
    | _, _ => none
  | (c, .writable taken) =>
    match s.ended, s.keys c with
    | none, some key =>
      if key.opWrite then
        match (writable key taken).run s.buffers with
        | .ok (key', bytes) buffers => some { s with
            buffers
            keys := Function.update s.keys c (some key')
            written := Function.update s.written c (s.written c ++ bytes) }
        | .error e buffers => some { s with buffers, ended := some (thrownByStart e) }
      else none
    | _, _ => none

/-- `start()` with an open port and no connection. -/
def ServerState.initial (ι : Type) : ServerState ι :=
  ⟨.initial, fun _ => none, fun _ => [], none⟩

/-- Any sequence of ready keys. -/
def machine (ι : Type) [DecidableEq ι] : Machine (ServerState ι) (ι × Event) where
  init s := s = .initial ι
  step := handle readObject

/-- A ready key that is handled. -/
abbrev ServerMove (ι : Type) := Move (ServerState ι) (ι × Event)

end Machine

end Server

end LearnJava
