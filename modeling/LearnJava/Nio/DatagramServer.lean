import LearnJava.Foundation.Run
import LearnJava.Java.Charset

/-!
# `StartDatagramSocketServer`

The receive loops of `nio/server/main/StartDatagramSocketServer.java`, with the old and the new
kind of socket, over `nio/DatagramWrapper.java`.  A session is kept twice: in the static field
`connectedClientAddress` and as the peer of the wrapped socket.

A datagram comes from any sender, with any bytes, whatever the socket is connected to; its label
also says what the JDK's `connect` or `disconnect` throws if `server` calls it.  An exception that
leaves `server` ends the loop.
-/

namespace LearnJava

/-! ## `DatagramSocketServerMehod` -/

namespace DatagramSocketServerMehod

def CONNECT : ℤ := 0x00000001
def PRINT : ℤ := 0x00000002
def DISCONNECT : ℤ := 0x00000004

end DatagramSocketServerMehod

/-! ## Sockets -/

variable {α : Type}

/-- A `DatagramChannel` or a `DatagramSocket`: the peer it is connected to. -/
structure Socket (α : Type) where
  peer : Option α
  deriving DecidableEq

namespace Socket

/-- `isConnected()` -/
def isConnected (s : Socket α) : Bool := s.peer.isSome

/-- `connect(addr)` and `disconnect()`, which may throw and then change nothing. -/
def connect (fails : Option Throwable) (addr : α) (_ : Socket α) : Except Throwable (Socket α) :=
  match fails with
  | none => .ok ⟨some addr⟩
  | some e => .error e

def disconnect (fails : Option Throwable) (_ : Socket α) : Except Throwable (Socket α) :=
  match fails with
  | none => .ok ⟨none⟩
  | some e => .error e

end Socket

/-- The fields of `DatagramWrapper`; one of them is `null`. -/
structure DatagramWrapper (α : Type) where
  datagramChannel : Option (Socket α)
  datagramSocket : Option (Socket α)
  deriving DecidableEq

namespace DatagramWrapper

/-- The constructors, for a socket of one of the two kinds that is not connected. -/
def new (oldSocket : Bool) : DatagramWrapper α :=
  if oldSocket then ⟨none, some ⟨none⟩⟩ else ⟨some ⟨none⟩, none⟩

def connect (fails : Option Throwable) (socketAddress : α) (w : DatagramWrapper α) :
    Except Throwable (DatagramWrapper α) := do
  let datagramChannel ← w.datagramChannel.mapM (Socket.connect fails socketAddress)
  let datagramSocket ← w.datagramSocket.mapM (Socket.connect fails socketAddress)
  return ⟨datagramChannel, datagramSocket⟩

def disconnect (fails : Option Throwable) (w : DatagramWrapper α) :
    Except Throwable (DatagramWrapper α) := do
  let datagramChannel ← w.datagramChannel.mapM (Socket.disconnect fails)
  let datagramSocket ← w.datagramSocket.mapM (Socket.disconnect fails)
  return ⟨datagramChannel, datagramSocket⟩

def isConnected (w : DatagramWrapper α) : Bool :=
  match w.datagramChannel, w.datagramSocket with
  | some datagramChannel, _ => datagramChannel.isConnected
  | none, some datagramSocket => datagramSocket.isConnected
  | none, none => true

end DatagramWrapper

/-- A `DatagramPacket` that is received into again and again: `length` is that of the datagram
received last, and `bufferLength` how many bytes it takes at most. -/
structure DatagramPacket where
  data : List Byte
  length : ℕ
  bufferLength : ℕ
  length_le : length ≤ data.length
  bufferLength_le : bufferLength ≤ data.length

namespace DatagramPacket

/-- `new DatagramPacket(data, data.length)` -/
def new (data : List Byte) : DatagramPacket := ⟨data, data.length, data.length, le_rfl, le_rfl⟩

/-- What `datagramSocket.receive(packet)` makes of the packet. -/
def receive (p : DatagramPacket) (datagram : List Byte) : DatagramPacket where
  data := datagram.take p.bufferLength ++ p.data.drop (datagram.take p.bufferLength).length
  length := (datagram.take p.bufferLength).length
  bufferLength := p.bufferLength
  length_le := by
    rw [List.length_append]
    exact Nat.le_add_right _ _
  bufferLength_le := by
    have hle := p.bufferLength_le
    rw [List.length_append, List.length_drop, List.length_take]
    omega

end DatagramPacket

/-! ## The server -/

namespace DatagramServer

open DatagramSocketServerMehod

/-- What `server` reads and writes: the static field, the wrapped socket, and the lines printed. -/
structure Session (α : Type) where
  connectedClientAddress : Option α
  datagramWrapper : DatagramWrapper α
  out : List String
  deriving DecidableEq

/-- `System.out.println(line)` -/
def println (line : String) : Method (Session α) PUnit :=
  modify fun s => { s with out := s.out ++ [line] }

variable [ToString α]

/-- What string concatenation makes of an address that may be `null`. -/
def addressString : Option α → String
  | some address => toString address
  | none => "null"

variable [DecidableEq α] (malformed : List Byte → String)

/-- The `switch` of `server`, for a buffer that has been read up to the payload. -/
def switchMethod (fails : Option Throwable) (method : ℤ) (clientDataBuffer : ByteBuffer)
    (clientAddress : α) : Method (Session α) PUnit := do
  let s ← get
  if method = CONNECT then
    if s.datagramWrapper.isConnected then
      return
    let datagramWrapper ← ofExcept (s.datagramWrapper.connect fails clientAddress)
    modify fun s => { s with datagramWrapper }
    modify fun s => { s with connectedClientAddress := some clientAddress }
    println ("Connect : " ++ addressString (some clientAddress))
  else if method = PRINT then
    if !clientDataBuffer.hasRemaining then
      return
    let (clientDataCharBytes, _) ← ofExcept (clientDataBuffer.get clientDataBuffer.remaining)
    println (newString malformed clientDataCharBytes)
  else
    -- `DISCONNECT` falls through to the default
    println ("Disconnect : " ++ addressString s.connectedClientAddress)
    modify fun s => { s with connectedClientAddress := none }
    let datagramWrapper ← ofExcept (s.datagramWrapper.disconnect fails)
    modify fun s => { s with datagramWrapper }

/-- `server(clientDataBuffer, clientAddress, datagramWrapper)` -/
def server (fails : Option Throwable) (clientDataBuffer : ByteBuffer) (clientAddress : α) :
    Method (Session α) PUnit := do
  let s ← get
  if s.connectedClientAddress ≠ none ∧ s.connectedClientAddress ≠ some clientAddress then
    return
  if !clientDataBuffer.hasRemaining then
    return
  let (method, clientDataBuffer) ← ofExcept clientDataBuffer.getInt
  switchMethod malformed fails method clientDataBuffer clientAddress

/-- The variables of the loop of either kind, and what ended it. -/
structure ServerState (α : Type) where
  session : Session α
  dataByteBuffer : ByteBuffer
  datagramPacket : DatagramPacket
  ended : Option Throwable

/-- A datagram that is received, and what a call of `connect` or `disconnect` throws. -/
structure Datagram (α : Type) where
  clientAddress : α
  bytes : List Byte
  fails : Option Throwable

/-- The buffer the loop hands to `server`.  In the loop of `newSocket` it is the one that
`datagramChannel.receive` writes to, where bytes for which there is no room are lost; in that of
`oldSocket` it is wrapped around the array of the packet. -/
def clientDataBuffer (oldSocket : Bool) (s : ServerState α) (bytes : List Byte) :
    Except Throwable ByteBuffer :=
  if oldSocket then
    let datagramPacket := s.datagramPacket.receive bytes
    .ok (.wrap datagramPacket.data datagramPacket.length datagramPacket.length_le)
  else
    (s.dataByteBuffer.put (bytes.take s.dataByteBuffer.remaining)).map ByteBuffer.flip

/-- The variables when the next datagram is received: `newSocket` clears its buffer. -/
def nextBuffers (oldSocket : Bool) (s : ServerState α) (d : Datagram α) (buffer : ByteBuffer) :
    ServerState α :=
  if oldSocket then { s with datagramPacket := s.datagramPacket.receive d.bytes }
  else { s with dataByteBuffer := buffer.clear }

/-- What `newSocket` and `oldSocket` throw for an exception that leaves their loop. -/
def thrownByLoop : Throwable → Throwable
  | .ioException message => .runtimeException (.ioException message)
  | e => e

/-- The body of the loop of `oldSocket` or `newSocket`. -/
def body (oldSocket : Bool) (s : ServerState α) (d : Datagram α) : ServerState α :=
  match clientDataBuffer oldSocket s d.bytes with
  | .error e => { s with ended := some (thrownByLoop e) }
  | .ok buffer =>
    match (server malformed d.fails buffer d.clientAddress).run s.session with
    | .ok _ session => { nextBuffers oldSocket s d buffer with session }
    | .error e session => { s with session, ended := some (thrownByLoop e) }

/-- The variables before the loop. -/
def initial (oldSocket : Bool) : ServerState α where
  session := ⟨none, .new oldSocket, []⟩
  dataByteBuffer := .allocate 128
  datagramPacket := .new (List.replicate 128 0)
  ended := none

/-- Any sequence of datagrams from any senders. -/
def machine (α : Type) [ToString α] [DecidableEq α] (malformed : List Byte → String)
    (oldSocket : Bool) : Machine (ServerState α) (Datagram α) where
  init s := s = initial oldSocket
  step s d := if s.ended = none then some (body malformed oldSocket s d) else none

/-- A datagram that is received. -/
abbrev ServerMove (α : Type) := Move (ServerState α) (Datagram α)

/-! ## What is handed to `server` -/

section Buffers

omit [ToString α] [DecidableEq α]

variable {oldSocket : Bool} {s : ServerState α}

/-- The buffers when a datagram is received: they take 128 bytes. -/
structure Ready (s : ServerState α) : Prop where
  position : s.dataByteBuffer.position = 0
  limit : s.dataByteBuffer.limit = 128
  capacity : s.dataByteBuffer.capacity = 128
  bufferLength : s.datagramPacket.bufferLength = 128

lemma ready_initial (oldSocket : Bool) : Ready (initial oldSocket : ServerState α) :=
  ⟨rfl, rfl, rfl, List.length_replicate⟩

@[simp] lemma ended_nextBuffers (s : ServerState α) (d : Datagram α) (buffer : ByteBuffer) :
    (nextBuffers oldSocket s d buffer).ended = s.ended := by
  unfold nextBuffers
  split <;> rfl

variable (oldSocket) in
/-- What is handed to `server` are the bytes of the datagram, as far as there is room for them: none
of an earlier one, in either loop. -/
lemma clientDataBuffer_content (hs : Ready s) (bytes : List Byte) :
    ∃ buffer, clientDataBuffer oldSocket s bytes = .ok buffer ∧ buffer.content = bytes.take 128 ∧
      ∀ d : Datagram α, Ready (nextBuffers oldSocket s d buffer) := by
  cases oldSocket with
  | true =>
      refine ⟨_, rfl, ?_, ?_⟩
      · rw [ByteBuffer.content_wrap]
        simp only [DatagramPacket.receive, hs.bufferLength]
        exact List.take_left
      · intro d
        exact ⟨hs.position, hs.limit, hs.capacity, hs.bufferLength⟩
  | false =>
      have hremaining : s.dataByteBuffer.remaining = 128 := by
        rw [ByteBuffer.remaining, hs.position, hs.limit]
      have hwritten : s.dataByteBuffer.written = [] := by
        rw [← List.length_eq_zero_iff, ByteBuffer.length_written, hs.position]
      have hroom : (bytes.take 128).length ≤ s.dataByteBuffer.remaining := by
        rw [hremaining, List.length_take]
        exact min_le_left _ _
      obtain ⟨b, hput, hb, -, hcapacity⟩ := s.dataByteBuffer.put_written hroom
      refine ⟨b.flip, ?_, ?_, ?_⟩
      · simp only [clientDataBuffer, hremaining, hput]
        rfl
      · rw [ByteBuffer.content_flip, hb, hwritten, List.nil_append]
      · refine fun d => ⟨rfl, ?_, ?_, hs.bufferLength⟩
        · exact hcapacity.trans hs.capacity
        · exact hcapacity.trans hs.capacity

end Buffers

section Step

variable {malformed} {oldSocket : Bool} {s s' : ServerState α} {d : Datagram α}

/-- A datagram that is received: `server` runs on its bytes, and the loop goes on if it returns. -/
lemma step_cases (hs : s.ended = none → Ready s)
    (h : (machine α malformed oldSocket).step s d = some s') :
    s.ended = none ∧ ∃ buffer, clientDataBuffer oldSocket s d.bytes = .ok buffer ∧
      buffer.content = d.bytes.take 128 ∧
      (((server malformed d.fails buffer d.clientAddress).run s.session = .ok ⟨⟩ s'.session ∧
          s'.ended = none ∧ Ready s') ∨
        ∃ e, (server malformed d.fails buffer d.clientAddress).run s.session =
          .error e s'.session ∧ s'.ended = some (thrownByLoop e)) := by
  simp only [machine] at h
  split_ifs at h with hended
  obtain rfl := Option.some.inj h
  obtain ⟨buffer, hbuffer, hcontent, hready⟩ :=
    clientDataBuffer_content oldSocket (hs hended) d.bytes
  refine ⟨hended, buffer, hbuffer, hcontent, ?_⟩
  simp only [body, hbuffer]
  cases hrun : (server malformed d.fails buffer d.clientAddress).run s.session with
  | ok r session =>
      refine .inl ⟨rfl, (ended_nextBuffers s d buffer).trans hended, ?_⟩
      obtain ⟨hposition, hlimit, hcapacity, hlength⟩ := hready d
      exact ⟨hposition, hlimit, hcapacity, hlength⟩
  | error e session => exact .inr ⟨e, rfl, rfl⟩

lemma ready_init (h : (machine α malformed oldSocket).init s) : s.ended = none → Ready s := by
  obtain rfl : s = initial oldSocket := h
  intro _
  exact ready_initial oldSocket

end Step

end DatagramServer

end LearnJava
