import LearnJava.Security.ServerContainment

/-!
# `Client`, and the server with its clients

`security/client/Client.java` reads ints from the standard input and asks the server for each:
`askServer` opens a connection, serializes its context, puts the int and the context into two
buffers, writes both and reads the answer.  Between them stands `argCtxBuffer.put(argCtxBuffer)`,
and a buffer refuses to be put into itself: whatever the network does and whatever the object stream
makes of the context, the call ends there at the latest, with the connection closed and nothing
written.

The second half puts any number of clients and the server together.  A connection is known by its
client and its number there, and what the server can read from it is what its client has written.
-/

namespace LearnJava

namespace Client

/-! ## The code -/

/-- A token of the standard input: an `int`, or something else. -/
inductive Token
  | int (n : ℤ)
  | other
  deriving DecidableEq, Repr

/-- A connection: what was written to it, and whether it is closed. -/
structure Connection where
  sent : List Byte
  closed : Bool
  deriving DecidableEq, Repr

/-- A client: the input it has not read, its connections in the order they were opened, what it has
printed, and what ended `startClient`. -/
structure ClientState where
  input : List Token
  connections : List Connection
  out : List ℤ
  ended : Option Throwable

/-- How the calls of others in `askServer` turn out: `open`, the object stream, the bytes that
`write` takes and those that `read` finds, and `close`. -/
structure Outcomes where
  opened : Except Throwable PUnit
  written : Except Throwable (List Byte)
  taken : ℕ
  answer : Except Throwable (List Byte)
  closed : Except Throwable PUnit

/-- `buffer.put(src)`, where `src` is `none` if it is the buffer itself. -/
def putBuffer (buffer : ByteBuffer) : Option ByteBuffer → Except Throwable ByteBuffer
  | none => .error .illegalArgumentException
  | some src => buffer.put src.content

/-- `catch (IOException e)` that throws a `RuntimeException`. -/
def wrapIOException {α : Type} (x : Method ClientState α) : Method ClientState α :=
  tryCatch x fun
    | .ioException message => throw (.runtimeException (.ioException message))
    | e => throw e

/-- The last connection. -/
def changeLast (f : Connection → Connection) (s : ClientState) : ClientState :=
  { s with connections := s.connections.modify (s.connections.length - 1) f }

/-- `SocketChannel.open(new InetSocketAddress(serverPort))` -/
def openChannel (o : Outcomes) : Method ClientState PUnit := do
  ofExcept o.opened
  modify fun s => { s with connections := s.connections ++ [⟨[], false⟩] }

/-- The end of the `try` block: the channel is closed, and what `close` throws is suppressed if the
block has thrown. -/
def closing {α : Type} (o : Outcomes) (body : Method ClientState α) : Method ClientState α :=
  fun s =>
    let close := changeLast fun k => { k with closed := true }
    match body.run s with
    | .ok a s' =>
      match o.closed with
      | .ok _ => .ok a (close s')
      | .error e => .error e (close s')
    | .error e s' => .error e (close s')

/-- `writeContext()` -/
def writeContext (o : Outcomes) : Method ClientState (List Byte) :=
  wrapIOException (ofExcept o.written)

/-- `socketChannel.write(buffers)` -/
def write (o : Outcomes) (buffers : List ByteBuffer) : Method ClientState PUnit :=
  modify (changeLast fun k =>
    { k with sent := k.sent ++ (buffers.map ByteBuffer.content).flatten.take o.taken })

/-- The `try` block of `askServer`. -/
def exchange (o : Outcomes) (argInt : ℤ) : Method ClientState ℤ := do
  let argCtxBytes ← writeContext o
  let argIntBuffer := ByteBuffer.allocate (4 * 8)
  let argCtxBuffer := ByteBuffer.allocate argCtxBytes.length
  let argIntBuffer ← ofExcept (argIntBuffer.putInt argInt)
  let argCtxBuffer ← ofExcept (putBuffer argCtxBuffer none)
  let argIntBuffer := argIntBuffer.flip
  let argCtxBuffer := argCtxBuffer.flip
  write o [argIntBuffer, argCtxBuffer]
  let argIntBuffer := argIntBuffer.clear
  let answer ← ofExcept o.answer
  let argIntBuffer ← ofExcept (argIntBuffer.put (answer.take argIntBuffer.remaining))
  let (result, _) ← ofExcept argIntBuffer.flip.getInt
  return result

/-- `askServer(argInt)` -/
def askServer (o : Outcomes) (argInt : ℤ) : Method ClientState ℤ :=
  wrapIOException do
    openChannel o
    closing o (exchange o argInt)

/-- One pass of the loop of `startClient`.  A token that is no `int` is never read, nor is there one
at the end of the input: the loop goes on without doing anything. -/
def pass (o : Outcomes) (s : ClientState) : Option ClientState :=
  match s.ended, s.input with
  | none, .int nextInt :: input =>
    match (askServer o nextInt).run { s with input } with
    | .ok result s' => some { s' with out := s'.out ++ [result] }
    | .error e s' => some { s' with ended := some e }
  | none, _ => some s
  | some _, _ => none

/-- `startClient()` on some input. -/
def ClientState.initial (input : List Token) : ClientState := ⟨input, [], [], none⟩

/-! ## A call of `askServer` -/

section Calls

variable {α β : Type} {s : ClientState} {o : Outcomes}

/-- The connection at the end of the list is the one that is changed. -/
lemma changeLast_append (f : Connection → Connection) (l : List Connection) (k : Connection) :
    changeLast f { s with connections := l ++ [k] } = { s with connections := l ++ [f k] } := by
  have hmodify : (l ++ [k]).modify l.length f = l ++ [f k] := by
    induction l with
    | nil => rfl
    | cons x l ih => rw [List.cons_append, List.length_cons, List.modify_succ_cons, ih]; rfl
  simp only [changeLast, List.length_append, List.length_singleton, Nat.add_sub_cancel, hmodify]

lemma wrapIOException_run (x : Method ClientState α) (s : ClientState) :
    (∃ a s', x.run s = .ok a s' ∧ (wrapIOException x).run s = .ok a s') ∨
      ∃ e e' s', x.run s = .error e s' ∧ (wrapIOException x).run s = .error e' s' := by
  unfold wrapIOException
  rw [tryCatch_run]
  cases hx : x.run s with
  | ok a s' => exact .inl ⟨a, s', rfl, rfl⟩
  | error e s' =>
      refine .inr ⟨e, ?_⟩
      cases e with
      | ioException message => exact ⟨_, s', rfl, rfl⟩
      | _ => exact ⟨_, s', rfl, rfl⟩

lemma ofExcept_run_cases (r : Except Throwable α) (s : ClientState) :
    (∃ a, r = .ok a ∧ (ofExcept r : Method ClientState α).run s = .ok a s) ∨
      ∃ e, r = .error e ∧ (ofExcept r : Method ClientState α).run s = .error e s := by
  cases r with
  | ok a => exact .inl ⟨a, rfl, rfl⟩
  | error e => exact .inr ⟨e, rfl, rfl⟩

lemma writeContext_run (o : Outcomes) (s : ClientState) :
    (∃ bs, (writeContext o).run s = .ok bs s) ∨ ∃ e, (writeContext o).run s = .error e s := by
  obtain ⟨bs, s', hx, hrun⟩ | ⟨e, e', s', hx, hrun⟩ := wrapIOException_run (ofExcept o.written) s
  · obtain ⟨-, rfl⟩ := eq_ok_of_ofExcept_run hx
    exact .inl ⟨bs, hrun⟩
  · obtain ⟨a, -, ha⟩ | ⟨e₀, -, he⟩ := ofExcept_run_cases o.written s
    · rw [ha] at hx
      cases hx
    · rw [he] at hx
      obtain ⟨-, rfl⟩ := EStateM.Result.error.inj hx
      exact .inr ⟨e', hrun⟩

/-- The block never comes to its `write`. -/
lemma exchange_throws (o : Outcomes) (argInt : ℤ) (s : ClientState) :
    ∃ e, (exchange o argInt).run s = .error e s := by
  obtain ⟨bs, hbs⟩ | ⟨e, he⟩ := writeContext_run o s
  · refine ⟨.illegalArgumentException, ?_⟩
    have hroom : (intBytes argInt).length ≤ (ByteBuffer.allocate (4 * 8)).remaining := by
      rw [length_intBytes]
      decide
    obtain ⟨b, hb, -⟩ := ByteBuffer.put_ok hroom
    have hint : (ByteBuffer.allocate (4 * 8)).putInt argInt = .ok b := hb
    unfold exchange
    rw [bind_of_run hbs]
    dsimp only
    rw [bind_of_run (ofExcept_run_ok hint s)]
    exact bind_of_throw (ofExcept_run_error rfl s) _
  · exact ⟨e, bind_of_throw he _⟩

/-- **`askServer` never returns.**  It ends with at most one more connection, to which nothing was
written and which is closed. -/
lemma askServer_throws (o : Outcomes) (argInt : ℤ) (s : ClientState) :
    ∃ e s', (askServer o argInt).run s = .error e s' ∧ s'.input = s.input ∧ s'.out = s.out ∧
      s'.ended = s.ended ∧
      (s'.connections = s.connections ∨ s'.connections = s.connections ++ [⟨[], true⟩]) := by
  have hblock : ∃ e s', (do openChannel o; closing o (exchange o argInt) : Method ClientState ℤ).run
      s = .error e s' ∧ s'.input = s.input ∧ s'.out = s.out ∧ s'.ended = s.ended ∧
      (s'.connections = s.connections ∨ s'.connections = s.connections ++ [⟨[], true⟩]) := by
    obtain ⟨a, hok, -⟩ | ⟨e, he, -⟩ := ofExcept_run_cases o.opened s
    · -- the channel is open, and `close` finds the connection at the end of the list
      let s₁ : ClientState := { s with connections := s.connections ++ [⟨[], false⟩] }
      have hopen : (openChannel o).run s = .ok ⟨⟩ s₁ := by
        unfold openChannel
        rw [bind_of_run (ofExcept_run_ok hok s)]
        rfl
      obtain ⟨e, he⟩ := exchange_throws o argInt s₁
      refine ⟨e, changeLast (fun k => { k with closed := true }) s₁, ?_, rfl, rfl, rfl, .inr ?_⟩
      · rw [bind_of_run hopen]
        simp only [EStateM.run, closing] at he ⊢
        rw [he]
      · rw [changeLast_append]
    · refine ⟨e, s, ?_, rfl, rfl, rfl, .inl rfl⟩
      exact bind_of_throw (bind_of_throw (ofExcept_run_error he s) _) _
  obtain ⟨e, s', hrun, hrest⟩ := hblock
  obtain ⟨a, s'', hx, -⟩ | ⟨e', e'', s'', hx, hwrapped⟩ := wrapIOException_run _ s
  · rw [hrun] at hx
    cases hx
  · rw [hrun] at hx
    obtain ⟨rfl, rfl⟩ := EStateM.Result.error.inj hx
    exact ⟨e'', s', hwrapped, hrest⟩

/-- **One pass.** -/
lemma pass_cases {s' : ClientState} (h : pass o s = some s') :
    (s' = s ∧ ∀ n rest, s.input ≠ .int n :: rest) ∨
      s.ended = none ∧ s'.ended ≠ none ∧ s'.out = s.out ∧
        (s'.connections = s.connections ∨ s'.connections = s.connections ++ [⟨[], true⟩]) := by
  unfold pass at h
  split at h
  · rename_i nextInt input hended hinput
    obtain ⟨e, s₁, hrun, -, hout, -, hconnections⟩ := askServer_throws o nextInt { s with input }
    rw [hrun] at h
    obtain rfl := Option.some.inj h
    exact .inr ⟨hended, Option.some_ne_none e, hout, hconnections⟩
  · rename_i hinput
    exact .inl ⟨(Option.some.inj h).symm, hinput⟩
  · cases h

end Calls

end Client

end LearnJava
