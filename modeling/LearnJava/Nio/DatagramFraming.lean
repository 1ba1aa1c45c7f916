import LearnJava.Nio.DatagramSession

/-!
# From the datagram client to the server

`nio/client/StartDatagramSocketClient.java` puts every message into the same buffer, and the server
receives every datagram into the same buffer or packet.  What the server decodes is nevertheless
what the client was given, message by message and for both kinds of sockets on either side: both
buffers are read up to their limit, and both are cleared.
-/

namespace LearnJava

/-! ## `StartDatagramSocketClient` -/

namespace DatagramWrapper

variable {α : Type}

/-- `send(datagramPacket)`: the datagrams that go out. -/
def sendPacket (w : DatagramWrapper α) (datagramPacket : Option (List Byte)) :
    Except Throwable (List (List Byte)) :=
  match w.datagramSocket with
  | some _ => (deref datagramPacket).map fun datagram => [datagram]
  | none => .ok []

/-- `send(dataBuffer, socketAddress)`: the datagrams that go out, and the buffer after it. -/
def sendBuffer (w : DatagramWrapper α) (dataBuffer : ByteBuffer) :
    Except Throwable (List (List Byte) × ByteBuffer) :=
  match w.datagramChannel with
  | some _ => (dataBuffer.get dataBuffer.remaining).map fun r => ([r.1], r.2)
  | none => .ok ([], dataBuffer)

end DatagramWrapper

namespace DatagramClient

variable {α : Type}

/-- A message: its method, and its payload. -/
structure Message where
  method : ℤ
  payload : String
  method_range : -2 ^ 31 ≤ method ∧ method < 2 ^ 31
  payload_le : (getBytes payload).length ≤ 124

/-- The bytes of a message. -/
def Message.frame (m : Message) : List Byte := intBytes m.method ++ getBytes m.payload

/-- The wrapper that `oldSocket` or `newSocket` sends by. -/
def clientWrapper (oldSocket : Bool) (serverAddress : α) : DatagramWrapper α :=
  if oldSocket then ⟨none, some ⟨none⟩⟩ else ⟨some ⟨some serverAddress⟩, none⟩

/-- `prepareDatagramPacket(serverAddress, sendDataBuffer)`: the bytes of the packet. -/
def prepareDatagramPacket (sendDataBuffer : ByteBuffer) :
    Except Throwable (Option (List Byte) × ByteBuffer) :=
  if !sendDataBuffer.hasRemaining then .ok (none, sendDataBuffer)
  else (sendDataBuffer.get sendDataBuffer.remaining).map fun r => (some r.1, r.2)

/-- `sendMessage(sendDataBuffer, serverAddress, datagramWrapper)` -/
def sendMessage (oldSocket : Bool) (datagramWrapper : DatagramWrapper α)
    (sendDataBuffer : ByteBuffer) : Except Throwable (List (List Byte) × ByteBuffer) := do
  let sendDataBuffer := sendDataBuffer.flip
  if oldSocket then
    let (datagramPacket, sendDataBuffer) ← prepareDatagramPacket sendDataBuffer
    let datagrams ← datagramWrapper.sendPacket datagramPacket
    return (datagrams, sendDataBuffer.clear)
  else
    let (datagrams, sendDataBuffer) ← datagramWrapper.sendBuffer sendDataBuffer
    return (datagrams, sendDataBuffer.clear)

/-- `sendMessage(socketAddress, datagramWrapper)` with any messages in place of its four: the
datagrams that go out, and the buffer after them. -/
def sendMessages (oldSocket : Bool) (datagramWrapper : DatagramWrapper α) :
    List Message → ByteBuffer → Except Throwable (List (List Byte) × ByteBuffer)
  | [], sendDataBuffer => .ok ([], sendDataBuffer)
  | message :: messages, sendDataBuffer => do
    let sendDataBuffer ← sendDataBuffer.putInt message.method
    let sendDataBuffer ← sendDataBuffer.put (getBytes message.payload)
    let (datagrams, sendDataBuffer) ← sendMessage oldSocket datagramWrapper sendDataBuffer
    let (rest, sendDataBuffer) ← sendMessages oldSocket datagramWrapper messages sendDataBuffer
    return (datagrams ++ rest, sendDataBuffer)

/-! ## What goes out -/

section Send

variable {oldSocket : Bool} {serverAddress : α} {b : ByteBuffer}

variable (oldSocket serverAddress) in
/-- What has been written to the buffer goes out as one datagram, and the buffer is cleared. -/
lemma sendMessage_written (h : b.written ≠ []) :
    ∃ b', sendMessage oldSocket (clientWrapper oldSocket serverAddress) b =
      .ok ([b.written], b') ∧
        b'.position = 0 ∧ b'.limit = b.capacity ∧ b'.capacity = b.capacity := by
  obtain ⟨b', hget, hcapacity⟩ := b.flip_get
  refine ⟨b'.clear, ?_, rfl, hcapacity, hcapacity⟩
  cases oldSocket with
  | true =>
      have hremaining : b.flip.hasRemaining = true := by
        rw [ByteBuffer.hasRemaining_eq, ByteBuffer.content_flip]
        simpa using h
      simp [sendMessage, prepareDatagramPacket, hremaining, hget, clientWrapper,
        DatagramWrapper.sendPacket, deref, Except.map, bind, Except.bind, pure, Except.pure]
  | false =>
      simp [sendMessage, hget, clientWrapper, DatagramWrapper.sendBuffer, Except.map, bind,
        Except.bind, pure, Except.pure]

/-- Every message goes out as its own bytes. -/
lemma sendMessages_run (messages : List Message) (hposition : b.position = 0)
    (hlimit : b.limit = 128) (hcapacity : b.capacity = 128) :
    ∃ b', sendMessages oldSocket (clientWrapper oldSocket serverAddress) messages b =
      .ok (messages.map Message.frame, b') := by
  induction messages generalizing b with
  | nil => exact ⟨b, rfl⟩
  | cons message messages ih =>
      have hempty : b.written = [] := by
        rw [← List.length_eq_zero_iff, ByteBuffer.length_written, hposition]
      have hroom : b.remaining = 128 := by rw [ByteBuffer.remaining, hposition, hlimit]
      obtain ⟨b₁, hputInt, hwritten₁, hlimit₁, hcapacity₁⟩ :=
        b.putInt_written message.method (by omega)
      have hroom₁ : (getBytes message.payload).length ≤ b₁.remaining := by
        have hposition₁ := b₁.length_written
        have hpayload := message.payload_le
        rw [hwritten₁, hempty, List.nil_append, length_intBytes] at hposition₁
        rw [ByteBuffer.remaining, hlimit₁, hlimit, ← hposition₁]
        omega
      obtain ⟨b₂, hput, hwritten₂, -, hcapacity₂⟩ := b₁.put_written hroom₁
      have hframe : b₂.written = message.frame := by
        rw [hwritten₂, hwritten₁, hempty, List.nil_append, Message.frame]
      have hne : b₂.written ≠ [] := by
        rw [hframe, Message.frame]
        simp [intBytes]
      obtain ⟨b₃, hsend, hposition₃, hlimit₃, hcapacity₃⟩ :=
        sendMessage_written oldSocket serverAddress hne
      obtain ⟨b', hrest⟩ := ih (b := b₃) hposition₃ (by omega) (by omega)
      refine ⟨b', ?_⟩
      simp [sendMessages, hputInt, hput, hsend, hrest, hframe, bind, Except.bind, pure, Except.pure]

end Send

end DatagramClient

/-! ## What the server decodes -/

namespace DatagramServer

open DatagramClient DatagramSocketServerMehod

variable {α : Type} [ToString α] [DecidableEq α]

/-- The lines that a decoded message prints: a `PRINT` its payload, if there is one. -/
def linesOf (message : Message) (clientAddress : α) (fails : Option Throwable)
    (s : Session α) : List String :=
  if message.method = CONNECT then
    if s.datagramWrapper.isConnected ∨ fails ≠ none then []
    else ["Connect : " ++ addressString (some clientAddress)]
  else if message.method = PRINT then
    if message.payload = "" then [] else [message.payload]
  else ["Disconnect : " ++ addressString s.connectedClientAddress]

/-- The client to whom the session belongs after a decoded message. -/
def ownerAfter (message : Message) (clientAddress : α) (fails : Option Throwable)
    (s : Session α) : Option α :=
  if message.method = CONNECT then
    if s.datagramWrapper.isConnected ∨ fails ≠ none then s.connectedClientAddress
    else some clientAddress
  else if message.method = PRINT then s.connectedClientAddress
  else none

/-- The server reads the method of the message from the datagram and has the payload's bytes before
it, and does what this method and this payload ask for: what it prints and whose the session is
depend on nothing else in the datagram. -/
structure Decodes (oldSocket : Bool) (m : ServerMove α) (message : Message) : Prop where
  read : ∃ buffer rest, clientDataBuffer oldSocket m.pre m.label.bytes = .ok buffer ∧
    buffer.getInt = .ok (message.method, rest) ∧ rest.content = getBytes message.payload
  out : m.post.session.out =
    m.pre.session.out ++ linesOf message m.label.clientAddress m.label.fails m.pre.session
  connectedClientAddress : m.post.session.connectedClientAddress =
    ownerAfter message m.label.clientAddress m.label.fails m.pre.session

section Decode

variable {malformed : List Byte → String} {oldSocket : Bool} {a : α} {s s' : ServerState α}
  {d : Datagram α}

/-- Between two datagrams of one client the session is this client's, or there is none. -/
def Owned (a : α) (s : Session α) : Prop :=
  s.connectedClientAddress = none ∨ s.connectedClientAddress = some a

omit [ToString α] [DecidableEq α] in
lemma Owned.passes {reason : Prop} {s s' : Session α} (hs : Owned a s)
    (h : Passes a reason s s') : Owned a s' := by
  rcases h with hsame | ⟨-, hbegun⟩ | ⟨hgiven, -⟩
  · unfold Owned
    rw [hsame]
    exact hs
  · exact .inr hbegun
  · exact .inl hgiven

variable (malformed) in
/-- `server` decodes a message of the owner of the session. -/
lemma server_run_frame (fails : Option Throwable) {s : Session α} (hs : Owned a s)
    {message : Message} {buffer : ByteBuffer} (hframe : buffer.content = message.frame) :
    ∃ rest, buffer.getInt = .ok (message.method, rest) ∧
      rest.content = getBytes message.payload ∧
      (server malformed fails buffer a).run s =
        (switchMethod malformed fails message.method rest a).run s := by
  obtain ⟨rest, hget, hrest⟩ := ByteBuffer.getInt_content message.method_range hframe
  have howner : ¬(s.connectedClientAddress ≠ none ∧ s.connectedClientAddress ≠ some a) := by
    rintro ⟨hsome, hother⟩
    exact hs.elim hsome hother
  have hremaining : buffer.hasRemaining = true := by
    rw [ByteBuffer.hasRemaining_eq, hframe]
    simp [Message.frame, intBytes]
  refine ⟨rest, hget, hrest, ?_⟩
  rw [server, get_bind_run, if_neg howner, hremaining, if_neg (by simp),
    bind_of_run (ofExcept_run_ok hget s)]

variable (malformed) in
omit [DecidableEq α] in
/-- The `switch` does what the message asks for, whether it returns or throws. -/
lemma switchMethod_run (fails : Option Throwable) {s : Session α} (hs : Whole oldSocket s)
    {message : Message} {rest : ByteBuffer} (hrest : rest.content = getBytes message.payload) :
    ∃ s', ((switchMethod malformed fails message.method rest a).run s = .ok ⟨⟩ s' ∨
        ∃ e, (switchMethod malformed fails message.method rest a).run s = .error e s') ∧
      s'.out = s.out ++ linesOf message a fails s ∧
      s'.connectedClientAddress = ownerAfter message a fails s := by
  have hwrapper : s.datagramWrapper = around oldSocket s.connectedClientAddress := hs
  unfold switchMethod linesOf ownerAfter
  rw [get_bind_run]
  by_cases hconnect : message.method = CONNECT
  · simp only [if_pos hconnect]
    cases hconnected : s.datagramWrapper.isConnected with
    | true => exact ⟨s, .inl rfl, by simp, by simp⟩
    | false =>
        rw [if_neg (by simp), hwrapper]
        cases fails with
        | none =>
            rw [bind_of_run (ofExcept_run_ok (connect_around _) s)]
            exact ⟨_, .inl rfl, by simp, by simp⟩
        | some e =>
            exact ⟨s, .inr ⟨e, bind_of_throw (ofExcept_run_error (connect_around_fails _ e) s) _⟩,
              by simp, by simp⟩
  simp only [if_neg hconnect]
  by_cases hprint : message.method = PRINT
  · simp only [if_pos hprint]
    by_cases hempty : message.payload = ""
    · have hnone : rest.hasRemaining = false := by
        rw [ByteBuffer.hasRemaining_eq, hrest, hempty]
        rfl
      rw [hnone]
      exact ⟨s, .inl rfl, by simp [hempty], rfl⟩
    · have hsome : rest.hasRemaining = true := by
        rw [ByteBuffer.hasRemaining_eq, hrest]
        simpa using mt getBytes_eq_nil_iff.mp hempty
      obtain ⟨b, hget, -⟩ := rest.get_content le_rfl
      rw [List.take_of_length_le (by rw [ByteBuffer.length_content]), hrest] at hget
      rw [hsome, if_neg (by simp), bind_of_run (ofExcept_run_ok hget s), newString_getBytes]
      exact ⟨_, .inl rfl, by rw [if_neg hempty], rfl⟩
  · simp only [if_neg hprint]
    rw [hwrapper, println, modify_bind_run, modify_bind_run]
    cases fails with
    | none =>
        rw [bind_of_run (ofExcept_run_ok (disconnect_around _) _)]
        exact ⟨_, .inl rfl, rfl, rfl⟩
    | some e =>
        exact ⟨_, .inr ⟨e, bind_of_throw (ofExcept_run_error (disconnect_around_fails _ e) _) _⟩,
          rfl, rfl⟩

/-- What is handed to `server` for a message. -/
lemma frame_take (message : Message) : message.frame.take 128 = message.frame := by
  have hpayload := message.payload_le
  refine List.take_of_length_le ?_
  rw [Message.frame, List.length_append, length_intBytes]
  omega

/-- A datagram with the bytes of a message is decoded as this message. -/
lemma decodes_of_step (hs : s.ended = none → Inv oldSocket s) (howned : Owned a s.session)
    (h : (machine α malformed oldSocket).step s d = some s') (ha : d.clientAddress = a)
    {message : Message} (hbytes : d.bytes = message.frame) :
    Decodes oldSocket ⟨s, d, s'⟩ message := by
  subst ha
  obtain ⟨hended, buffer, hbuffer, hcontent, hrun⟩ :=
    step_cases (fun hended => (hs hended).ready) h
  rw [hbytes, frame_take] at hcontent
  obtain ⟨rest, hget, hrest, hserver⟩ := server_run_frame malformed d.fails howned hcontent
  obtain ⟨session, hswitch, hout, howner⟩ :=
    switchMethod_run malformed d.fails (hs hended).whole hrest
  have hsame : s'.session = session := by
    rw [hserver] at hrun
    obtain ⟨hreturns, -⟩ | ⟨e, hthrows, -⟩ := hrun <;> obtain hok | ⟨e', herror⟩ := hswitch
    · exact (EStateM.Result.ok.inj (hreturns.symm.trans hok)).2
    · rw [hreturns] at herror
      cases herror
    · rw [hthrows] at hok
      cases hok
    · exact (EStateM.Result.error.inj (hthrows.symm.trans herror)).2
  exact ⟨⟨buffer, rest, hbuffer, hget, hrest⟩, hsame ▸ hout, hsame ▸ howner⟩

/-- The loop is not ended by a message, unless `connect` or `disconnect` throws. -/
lemma goes_on_of_step (hs : s.ended = none → Inv oldSocket s) (howned : Owned a s.session)
    (h : (machine α malformed oldSocket).step s d = some s') (ha : d.clientAddress = a)
    {message : Message} (hbytes : d.bytes = message.frame) (hfails : d.fails = none) :
    s'.ended = none := by
  subst ha
  obtain ⟨hended, buffer, -, hcontent, ⟨-, hgoes, -⟩ | ⟨e, hrun, -⟩⟩ :=
    step_cases (fun hended => (hs hended).ready) h
  · exact hgoes
  · rw [hbytes, frame_take] at hcontent
    obtain ⟨rest, -, -, hserver⟩ := server_run_frame malformed d.fails howned hcontent
    rw [hrun] at hserver
    obtain ⟨s₁, hswitch, -⟩ | ⟨e', s₁, hthrows, -⟩ :=
      switchMethod_cases malformed d.fails d.clientAddress rest message.method (hs hended).whole
    · rw [← hserver] at hswitch
      cases hswitch
    · rw [hfails] at hthrows
      cases hthrows

end Decode

section Loop

variable {malformed : List Byte → String} {a : α} {s : ServerState α}

/-- As long as all datagrams come from one client, the session is its own. -/
lemma owned_init {serverOld : Bool} (h : (machine α malformed serverOld).init s) :
    (s.ended = none → Inv serverOld s) ∧ Owned a s.session := by
  refine ⟨inv_init h, ?_⟩
  obtain rfl : s = initial serverOld := h
  exact .inl rfl

lemma owned_step {serverOld : Bool} {s' : ServerState α} {d : Datagram α}
    (hs : (s.ended = none → Inv serverOld s) ∧ Owned a s.session)
    (h : (machine α malformed serverOld).step s d = some s') (ha : d.clientAddress = a) :
    (s'.ended = none → Inv serverOld s') ∧ Owned a s'.session := by
  subst ha
  obtain ⟨hpass, hinv⟩ := loop_cases hs.1 h
  exact ⟨hinv, hs.2.passes hpass⟩

omit [ToString α] [DecidableEq α] in
/-- The datagrams received so far are those of the messages in their places. -/
lemma map_bytes_eq {ms : List (ServerMove α)} {messages : List Message}
    (hsent : ms.map (fun m => m.label.bytes) <+: messages.map Message.frame) :
    ms.map (fun m => m.label.bytes) = (messages.take ms.length).map Message.frame := by
  have htake := List.prefix_iff_eq_take.mp hsent
  rwa [List.length_map, ← List.map_take] at htake

omit [ToString α] [DecidableEq α] in
lemma forall₂_frame {ms : List (ServerMove α)} {messages : List Message}
    (h : ms.map (fun m => m.label.bytes) = messages.map Message.frame) :
    List.Forall₂ (fun (m : ServerMove α) message => m.label.bytes = message.frame) ms messages := by
  rw [← List.forall₂_map_left_iff (R := fun bs message => bs = Message.frame message),
    ← List.forall₂_map_right_iff (R := Eq), h]
  exact List.forall₂_refl _

/-- Whatever is sent, in either way, arrives in either loop as it was sent: each datagram of the
client is decoded as the message in its place, with the payload of a `PRINT` on the output as it was
sent, and the loop goes on as long as `connect` and `disconnect` do not throw. -/
theorem messages_decoded (clientOld serverOld : Bool) (serverAddress : α)
    (messages : List Message) :
    (∃ b, sendMessages clientOld (clientWrapper clientOld serverAddress) messages
        (.allocate 128) = .ok (messages.map Message.frame, b)) ∧
      ∀ {ms : List (ServerMove α)}, (machine α malformed serverOld).Run ms s →
        (∀ m ∈ ms, m.label.clientAddress = a) →
        ms.map (fun m => m.label.bytes) <+: messages.map Message.frame →
        List.Forall₂ (Decodes serverOld) ms (messages.take ms.length) ∧
          ((∀ m ∈ ms, m.label.fails = none) → s.ended = none) := by
  refine ⟨sendMessages_run messages rfl rfl rfl, ?_⟩
  intro ms hrun hclient hsent
  have hframes := map_bytes_eq hsent
  constructor
  · have hzip := forall₂_frame hframes
    rw [List.forall₂_iff_zip] at hzip ⊢
    refine ⟨hzip.1, ?_⟩
    intro m message hmem
    have hm := (List.of_mem_zip hmem).1
    obtain ⟨⟨hinv, howned⟩, hmove, -⟩ := hrun.move_of_mem (fun _ => owned_init)
      (fun _ _ _ => owned_step) hclient hm
    exact decodes_of_step hinv howned hmove (hclient m hm) (hzip.2 hmem)
  · intro hfails
    have hmessage : ∀ m ∈ ms, ∃ message : Message, m.label.bytes = message.frame := by
      intro m hm
      have hbytes := List.mem_map_of_mem (f := fun m : ServerMove α => m.label.bytes) hm
      rw [hframes] at hbytes
      obtain ⟨message, -, hframe⟩ := List.mem_map.mp hbytes
      exact ⟨message, hframe.symm⟩
    refine (hrun.invariant_of_moves
      (I := fun s => s.ended = none ∧ (s.ended = none → Inv serverOld s) ∧ Owned a s.session)
      (C := fun m => m.label.clientAddress = a ∧ m.label.fails = none ∧
        ∃ message : Message, m.label.bytes = message.frame) ?_ ?_
      fun m hm => ⟨hclient m hm, hfails m hm, hmessage m hm⟩).1
    · intro s hs
      have howned := owned_init (a := a) hs
      obtain rfl : s = initial serverOld := hs
      exact ⟨rfl, howned⟩
    · rintro s d s' ⟨-, hs⟩ h ⟨hd, hnone, message, hframe⟩
      exact ⟨goes_on_of_step hs.1 hs.2 h hd hframe hnone, owned_step hs h hd⟩

/-- The four messages of the client. -/
def fourMessages : List Message :=
  [⟨CONNECT, "", by decide, by decide⟩,
    ⟨PRINT, "Hello!!! I'm LiSA!!!", by decide, by decide +kernel⟩,
    ⟨PRINT, "欢迎收看LiSA TV!!!", by decide, by decide +kernel⟩,
    ⟨DISCONNECT, "", by decide, by decide⟩]

/-- They are received by the loop of `newSocket`. -/
def fourReceived : List (ServerMove String) :=
  (machine String (fun _ => "?") false).moves (initial false)
    (fourMessages.map fun message => ⟨"a", message.frame, none⟩)

theorem messages_decoded_fourReceived :
    List.Forall₂ (Decodes false) fourReceived fourMessages ∧
      fourReceived.getLast?.map (fun m => m.post.session.out) =
        some ["Connect : a", "Hello!!! I'm LiSA!!!", "欢迎收看LiSA TV!!!", "Disconnect : a"] := by
  have hrun : (machine String (fun _ => "?") false).Run fourReceived _ :=
    Machine.run_of_play rfl rfl
  have hclient : ∀ m ∈ fourReceived, m.label.clientAddress = "a" := by decide
  exact ⟨((messages_decoded true false "server" fourMessages).2 hrun hclient ⟨[], rfl⟩).1,
    by decide +kernel⟩

end Loop

end DatagramServer

end LearnJava
