import LearnJava.Nio.DatagramServer

/-!
# The session of the datagram server

`connectedClientAddress` and the wrapped socket are changed in different branches, one after the
other.  Where the loop waits for the next datagram they agree: both are at rest, or both hold the
same address.  As long as they hold one, only its owner is heard, and only a request to disconnect,
or one with an unknown method, gives it up.
-/

namespace LearnJava

namespace DatagramServer

open DatagramSocketServerMehod

variable {α : Type} [ToString α] [DecidableEq α] {malformed : List Byte → String}
  {oldSocket : Bool} {fails : Option Throwable} {a A : α} {buffer : ByteBuffer}

/-! ## The property -/

/-- The peer of the wrapped socket. -/
def wrappedPeer (w : DatagramWrapper α) : Option α :=
  (w.datagramChannel <|> w.datagramSocket).bind Socket.peer

/-- Both records of the session agree. -/
structure Agrees (s : Session α) : Prop where
  connected : s.connectedClientAddress = none ↔ s.datagramWrapper.isConnected = false
  peer : ∀ A, s.connectedClientAddress = some A → wrappedPeer s.datagramWrapper = some A

/-- The datagram requests to disconnect, or its method is unknown. -/
def RequestsEnd (bytes : List Byte) : Prop :=
  4 ≤ bytes.length ∧ intOfBytes (bytes.take 4) ≠ CONNECT ∧ intOfBytes (bytes.take 4) ≠ PRINT

/-- While the session belongs to a client, a datagram of another one changes nothing, and it stays
with the client until this client gives it up. -/
structure Isolated (m : ServerMove α) : Prop where
  others : ∀ A, m.pre.session.connectedClientAddress = some A → m.label.clientAddress ≠ A →
    m.post.session = m.pre.session ∧ m.post.ended = none
  until_end : ∀ A, m.pre.session.connectedClientAddress = some A →
    m.post.session.connectedClientAddress = some A ∨
      m.label.clientAddress = A ∧ RequestsEnd m.label.bytes

/-! ## The wrapped socket -/

/-- A wrapper around a socket of one of the two kinds with this peer. -/
def around (oldSocket : Bool) (peer : Option α) : DatagramWrapper α :=
  if oldSocket then ⟨none, some ⟨peer⟩⟩ else ⟨some ⟨peer⟩, none⟩

omit [ToString α] [DecidableEq α] in
@[simp] lemma isConnected_around (peer : Option α) :
    (around oldSocket peer).isConnected = peer.isSome := by
  cases oldSocket <;> rfl

omit [ToString α] [DecidableEq α] in
@[simp] lemma wrappedPeer_around (peer : Option α) :
    wrappedPeer (around oldSocket peer) = peer := by
  cases oldSocket <;> rfl

omit [ToString α] [DecidableEq α] in
@[simp] lemma connect_around (peer : Option α) :
    (around oldSocket peer).connect none a = .ok (around oldSocket (some a)) := by
  cases oldSocket <;> rfl

omit [ToString α] [DecidableEq α] in
@[simp] lemma connect_around_fails (peer : Option α) (e : Throwable) :
    (around oldSocket peer).connect (some e) a = .error e := by
  cases oldSocket <;> rfl

omit [ToString α] [DecidableEq α] in
@[simp] lemma disconnect_around (peer : Option α) :
    (around oldSocket peer).disconnect none = .ok (around oldSocket none) := by
  cases oldSocket <;> rfl

omit [ToString α] [DecidableEq α] in
@[simp] lemma disconnect_around_fails (peer : Option α) (e : Throwable) :
    (around oldSocket peer).disconnect (some e) = .error e := by
  cases oldSocket <;> rfl

/-- The wrapped socket has the peer that the static field says. -/
def Whole (oldSocket : Bool) (s : Session α) : Prop :=
  s.datagramWrapper = around oldSocket s.connectedClientAddress

omit [ToString α] [DecidableEq α] in
lemma Whole.agrees {s : Session α} (hs : Whole oldSocket s) : Agrees s := by
  unfold Whole at hs
  refine ⟨?_, ?_⟩
  · rw [hs, isConnected_around]
    simp
  · rintro A hA
    rw [hs, wrappedPeer_around, hA]

/-! ## One datagram -/

section Server

variable {s : Session α} {method : ℤ}

/-- What becomes of the session by a datagram of `a`: it is left as it was, or begun by `a`, or
given up for a reason. -/
def Passes (a : α) (reason : Prop) (s s' : Session α) : Prop :=
  s'.connectedClientAddress = s.connectedClientAddress ∨
    (s.connectedClientAddress = none ∧ s'.connectedClientAddress = some a) ∨
    s'.connectedClientAddress = none ∧ reason

variable (malformed fails a buffer method) in
omit [DecidableEq α] in
/-- The `switch` returns with both records changed, or throws what `connect` or `disconnect` has
thrown, maybe after the first is changed. -/
lemma switchMethod_cases (hs : Whole oldSocket s) :
    (∃ s', (switchMethod malformed fails method buffer a).run s = .ok ⟨⟩ s' ∧
        Whole oldSocket s' ∧ Passes a (method ≠ CONNECT ∧ method ≠ PRINT) s s') ∨
      ∃ e s', fails = some e ∧
        (switchMethod malformed fails method buffer a).run s = .error e s' ∧
        Passes a (method ≠ CONNECT ∧ method ≠ PRINT) s s' := by
  have hwrapper : s.datagramWrapper = around oldSocket s.connectedClientAddress := hs
  unfold switchMethod
  rw [get_bind_run]
  by_cases hconnect : method = CONNECT
  · rw [if_pos hconnect, hwrapper, isConnected_around]
    cases hpeer : s.connectedClientAddress with
    | some A => exact .inl ⟨s, rfl, hs, .inl rfl⟩
    | none =>
        rw [if_neg (by simp)]
        cases fails with
        | none =>
            rw [bind_of_run (ofExcept_run_ok (connect_around none) s)]
            exact .inl ⟨_, rfl, rfl, .inr (.inl ⟨hpeer, rfl⟩)⟩
        | some e =>
            exact .inr ⟨e, s, rfl,
              bind_of_throw (ofExcept_run_error (connect_around_fails none e) s) _, .inl rfl⟩
  rw [if_neg hconnect]
  by_cases hprint : method = PRINT
  · rw [if_pos hprint]
    cases buffer.hasRemaining with
    | false => exact .inl ⟨s, rfl, hs, .inl rfl⟩
    | true =>
        obtain ⟨b, hget, -⟩ := buffer.get_content le_rfl
        rw [if_neg (by simp), bind_of_run (ofExcept_run_ok hget s)]
        exact .inl ⟨_, rfl, hs, .inl rfl⟩
  · rw [if_neg hprint, hwrapper, println, modify_bind_run, modify_bind_run]
    have hreason : method ≠ CONNECT ∧ method ≠ PRINT := ⟨hconnect, hprint⟩
    cases fails with
    | none =>
        rw [bind_of_run (ofExcept_run_ok (disconnect_around _) _)]
        exact .inl ⟨_, rfl, rfl, .inr (.inr ⟨rfl, hreason⟩)⟩
    | some e =>
        exact .inr ⟨e, _, rfl, bind_of_throw (ofExcept_run_error (disconnect_around_fails _ e) _) _,
          .inr (.inr ⟨rfl, hreason⟩)⟩

/-- `server` returns at once for another sender. -/
lemma server_run_other (hA : s.connectedClientAddress = some A) (ha : a ≠ A) :
    (server malformed fails buffer a).run s = .ok ⟨⟩ s := by
  have hother : s.connectedClientAddress ≠ none ∧ s.connectedClientAddress ≠ some a := by
    rw [hA]
    exact ⟨Option.some_ne_none A, fun h => ha (Option.some.inj h).symm⟩
  unfold server
  rw [get_bind_run, if_pos hother]
  rfl

variable (malformed fails a) in
/-- `server` for the bytes of a datagram: a session that is there is only given up by them. -/
lemma server_cases (hs : Whole oldSocket s) {bytes : List Byte}
    (hbytes : buffer.content = bytes.take 128) :
    (∃ s', (server malformed fails buffer a).run s = .ok ⟨⟩ s' ∧ Whole oldSocket s' ∧
        Passes a (RequestsEnd bytes) s s') ∨
      ∃ e s', (server malformed fails buffer a).run s = .error e s' ∧
        Passes a (RequestsEnd bytes) s s' := by
  unfold server
  rw [get_bind_run]
  by_cases hother : s.connectedClientAddress ≠ none ∧ s.connectedClientAddress ≠ some a
  · rw [if_pos hother]
    exact .inl ⟨s, rfl, hs, .inl rfl⟩
  rw [if_neg hother]
  cases hremaining : buffer.hasRemaining with
  | false => exact .inl ⟨s, rfl, hs, .inl rfl⟩
  | true =>
      rw [if_neg (by simp)]
      by_cases hfour : 4 ≤ buffer.remaining
      · obtain ⟨b, hget, -⟩ := buffer.getInt_take hfour
        have hlength : 4 ≤ bytes.length := by
          rw [← buffer.length_content, hbytes, List.length_take] at hfour
          omega
        have hmethod : buffer.content.take 4 = bytes.take 4 := by
          rw [hbytes, List.take_take]
          rfl
        rw [hmethod] at hget
        have hpasses : ∀ s' : Session α,
            Passes a
              (intOfBytes (bytes.take 4) ≠ CONNECT ∧ intOfBytes (bytes.take 4) ≠ PRINT) s s' →
            Passes a (RequestsEnd bytes) s s' :=
          fun s' => Or.imp_right (Or.imp_right fun h => ⟨h.1, hlength, h.2⟩)
        rw [bind_of_run (ofExcept_run_ok hget s)]
        obtain ⟨s', hrun, hwhole, hpass⟩ | ⟨e, s', -, hrun, hpass⟩ :=
          switchMethod_cases malformed fails a b (intOfBytes (bytes.take 4)) hs
        · exact .inl ⟨s', hrun, hwhole, hpasses s' hpass⟩
        · exact .inr ⟨e, s', hrun, hpasses s' hpass⟩
      · have hget := ByteBuffer.getInt_error (not_le.mp hfour)
        exact .inr ⟨_, s, bind_of_throw (ofExcept_run_error hget s) _, .inl rfl⟩

end Server

/-! ## The loop -/

section Loop

variable {s s' : ServerState α} {d : Datagram α}

/-- Between two datagrams the buffers are ready and both records of the session agree. -/
structure Inv (oldSocket : Bool) (s : ServerState α) : Prop where
  ready : Ready s
  whole : Whole oldSocket s.session

lemma inv_init (h : (machine α malformed oldSocket).init s) : s.ended = none → Inv oldSocket s := by
  intro hended
  refine ⟨ready_init h hended, ?_⟩
  obtain rfl : s = initial oldSocket := h
  cases oldSocket <;> rfl

/-- One datagram: the session passes on, and the loop goes on with records that agree. -/
lemma loop_cases (hs : s.ended = none → Inv oldSocket s)
    (h : (machine α malformed oldSocket).step s d = some s') :
    Passes d.clientAddress (RequestsEnd d.bytes) s.session s'.session ∧
      (s'.ended = none → Inv oldSocket s') := by
  obtain ⟨hended, buffer, -, hbytes, hcases⟩ := step_cases (fun hended => (hs hended).ready) h
  obtain ⟨session, hrun', hwhole, hpass⟩ | ⟨e, session, hrun', hpass⟩ :=
    server_cases malformed d.fails d.clientAddress (hs hended).whole hbytes
  · rcases hcases with ⟨hrun, -, hready⟩ | ⟨e, hrun, -⟩
    · rw [hrun] at hrun'
      obtain rfl := (EStateM.Result.ok.inj hrun').2
      exact ⟨hpass, fun _ => ⟨hready, hwhole⟩⟩
    · rw [hrun] at hrun'
      cases hrun'
  · rcases hcases with ⟨hrun, -⟩ | ⟨e', hrun, hthrown⟩
    · rw [hrun] at hrun'
      cases hrun'
    · rw [hrun] at hrun'
      obtain rfl := (EStateM.Result.error.inj hrun').2
      refine ⟨hpass, fun hgoes => ?_⟩
      rw [hthrown] at hgoes
      cases hgoes

lemma isolated_of_step (hs : s.ended = none → Inv oldSocket s)
    (h : (machine α malformed oldSocket).step s d = some s') : Isolated ⟨s, d, s'⟩ := by
  have hothers : ∀ A, s.session.connectedClientAddress = some A → d.clientAddress ≠ A →
      s'.session = s.session ∧ s'.ended = none := by
    intro A hA ha
    obtain ⟨-, buffer, -, -, ⟨hrun, hgoes, -⟩ | ⟨e, hrun, -⟩⟩ :=
      step_cases (fun hended => (hs hended).ready) h
    · rw [server_run_other hA ha] at hrun
      exact ⟨(EStateM.Result.ok.inj hrun).2.symm, hgoes⟩
    · rw [server_run_other hA ha] at hrun
      cases hrun
  refine ⟨hothers, ?_⟩
  intro A hA
  by_cases ha : d.clientAddress = A
  · rcases (loop_cases hs h).1 with hsame | ⟨hnone, -⟩ | ⟨-, hends⟩
    · exact .inl (hsame.trans hA)
    · rw [hA] at hnone
      cases hnone
    · exact .inr ⟨ha, hends⟩
  · exact .inl (by rw [(hothers A hA ha).1, hA])

/-- In every state in which the loop waits for a datagram both records of the session agree, and
every datagram before it has left the session to its owner. -/
theorem session_agrees_and_isolated {ms : List (ServerMove α)}
    (h : (machine α malformed oldSocket).Run ms s) :
    (s.ended = none → Agrees s.session) ∧ ∀ m ∈ ms, Isolated m := by
  refine ⟨fun hended => ?_, fun m hm => ?_⟩
  · exact (h.invariant (I := fun s => s.ended = none → Inv oldSocket s) (fun _ => inv_init)
      (fun _ _ _ hs hstep => (loop_cases hs hstep).2) hended).whole.agrees
  · obtain ⟨hpre, hstep, -⟩ := h.invariant_of_mem (I := fun s => s.ended = none → Inv oldSocket s)
      (fun _ => inv_init) (fun _ _ _ hs hstep => (loop_cases hs hstep).2) hm
    exact isolated_of_step hpre hstep

/-- A client connects, another one asks to disconnect, and the first one prints and disconnects. -/
def fourDatagrams : List (Datagram String) :=
  [⟨"a", intBytes CONNECT, none⟩, ⟨"b", intBytes DISCONNECT, none⟩,
    ⟨"a", intBytes PRINT ++ [0x68, 0x69], none⟩, ⟨"a", intBytes DISCONNECT, none⟩]

def twoClients : List (ServerMove String) :=
  (machine String (fun _ => "?") false).moves (initial false) fourDatagrams

theorem session_agrees_and_isolated_twoClients :
    ∃ s, (machine String (fun _ => "?") false).Run twoClients s ∧
      (s.ended = none → Agrees s.session) ∧ ∀ m ∈ twoClients, Isolated m :=
  have hrun : (machine String (fun _ => "?") false).Run twoClients _ :=
    Machine.run_of_play rfl rfl
  ⟨_, hrun, session_agrees_and_isolated hrun⟩

end Loop

end DatagramServer

end LearnJava
