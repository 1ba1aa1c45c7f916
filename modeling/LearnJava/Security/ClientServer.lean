import LearnJava.Security.Client
import LearnJava.Foundation.Progress

/-!
# The clients of `Client` and the server

Any number of clients and one server.  A connection is known by its client and its number there; it
waits in the order of its opening until the server accepts it, and what the server can read from it
is what its client has written to it and it has not read, and then the end of the stream.

No client writes anything, so each one that asks ends by an exception and none ever prints a
result.  To the server such a connection is one that ends before a byte has arrived, which is the
only kind that does not end `start`: it accepts them all, cancels the key of each and goes on
(`server_lets_go`), unless the network resets one of them or an `accept` fails.
-/

namespace LearnJava

namespace ClientServer

open Client

/-! ## The system -/

/-- The clients, the connections that wait to be accepted, how much the server has read of each,
and the server. -/
structure Installation (ι : Type) where
  clients : ι → ClientState
  backlog : List (ι × ℕ)
  taken : ι × ℕ → ℕ
  server : Server.ServerState (ι × ℕ)

/-- A client goes through its loop, or the server handles a ready key. -/
inductive Action (ι : Type)
  | ask (i : ι) (o : Outcomes)
  | serve (c : ι × ℕ) (event : Server.Event)

/-- The bytes that arrive. -/
def bytesOf : Server.Channel → List Byte
  | [] => []
  | .bytes bs :: rest => bs ++ bytesOf rest
  | _ :: rest => bytesOf rest

/-- What reads can find on a connection of which some bytes are unread: a part of them, in pieces,
and the end of the stream after all of them if it is closed, or its reset. -/
def offers (unread : List Byte) (closed : Bool) : Server.Channel → Bool
  | [] => true
  | .bytes bs :: rest =>
    !bs.isEmpty && bs.isPrefixOf unread && offers (unread.drop bs.length) closed rest
  | .endOfStream :: rest => closed && unread.isEmpty && rest.isEmpty
  | .reset :: rest => rest.isEmpty

section Machine

variable {κ ι : Type} [DecidableEq ι] (readObject : List Byte → Except Throwable κ)

/-- The connection, as its client has left it. -/
def Installation.connection (s : Installation ι) (c : ι × ℕ) : Connection :=
  ((s.clients c.1).connections[c.2]?).getD ⟨[], false⟩

/-- A client that has read an `int` asks for it; its passes without one change nothing. -/
def ask (s : Installation ι) (i : ι) (o : Outcomes) : Option (Installation ι) :=
  match (s.clients i).input with
  | .int _ :: _ => (Client.pass o (s.clients i)).map fun client =>
    let known := (s.clients i).connections.length
    { s with
      clients := Function.update s.clients i client
      backlog := s.backlog ++
        (List.range' known (client.connections.length - known)).map fun n => (i, n) }
  | _ => none

/-- The server finds a key ready. -/
def serve (s : Installation ι) (c : ι × ℕ) : Server.Event → Option (Installation ι)
  | .accept =>
    if s.backlog.head? = some c then
      (Server.handle readObject s.server (c, .accept)).map fun server =>
        { s with backlog := s.backlog.tail, server }
    else none
  | .acceptFails message =>
    if s.backlog.head? = some c then
      (Server.handle readObject s.server (c, .acceptFails message)).map fun server =>
        { s with backlog := s.backlog.tail, server }
    else none
  | .readable channel =>
    let k := s.connection c
    if channel ≠ [] ∧ offers (k.sent.drop (s.taken c)) k.closed channel then
      (Server.handle readObject s.server (c, .readable channel)).map fun server => { s with
        taken := Function.update s.taken c (s.taken c +
          ((bytesOf channel).length - (bytesOf server.buffers.socketChannel).length))
        server }
    else none
  | .writable taken =>
    (Server.handle readObject s.server (c, .writable taken)).map fun server => { s with server }

/-- The clients with what will be typed for each, and the server without a connection. -/
def Installation.initial (input : ι → List Token) : Installation ι :=
  ⟨fun i => .initial (input i), [], fun _ => 0, .initial (ι × ℕ)⟩

/-- The clients and the server, in any order. -/
def machine (input : ι → List Token) : Machine (Installation ι) (Action ι) where
  init s := s = .initial input
  step s
    | .ask i o => ask s i o
    | .serve c event => serve readObject s c event

/-- The network resets a connection, or `accept` fails. -/
def Breaks : Action ι → Prop
  | .serve _ (.readable (.reset :: _)) => True
  | .serve _ (.acceptFails _) => True
  | _ => False

end Machine

/-! ## The server's part -/

section Serve

variable {κ ι : Type} [DecidableEq ι] {readObject : List Byte → Except Throwable κ}
  {s s' : Server.ServerState ι} {c : ι}

/-- A connection that ends before a byte has arrived. -/
lemma handle_endOfStream (hs : Server.Inv s) {rest : Server.Channel}
    (h : Server.handle readObject s (c, .readable (.endOfStream :: rest)) = some s') :
    s.ended = none ∧ s.keys c ≠ none ∧
      ∃ buffers, s' = { s with buffers, keys := Function.update s.keys c none } := by
  simp only [Server.handle] at h
  split at h
  · rename_i key hended hkey
    obtain ⟨hint, hctx, hcells, hbytes, hnone⟩ := hs.fresh hended
    have hfresh : Server.Fresh { s.buffers with socketChannel := .endOfStream :: rest } :=
      ⟨hint, hctx, hcells, hbytes, hnone⟩
    obtain ⟨w, hrun⟩ := Server.readable_endOfStream readObject key hfresh rfl
    rw [hrun] at h
    refine ⟨hended, ?_, w, (Option.some.inj h).symm⟩
    rw [hkey]
    exact Option.some_ne_none key
  · cases h

/-- The branch finds that the connection was reset. -/
lemma readable_reset (readObject : List Byte → Except Throwable κ) (key : Server.SelectionKey)
    {v : Server.Buffers} {rest : Server.Channel} (hroom : v.argIntBuffer.capacity ≠ 0)
    (hchannel : v.socketChannel = .reset :: rest) :
    ∃ e w, (Server.readable readObject key).run v = .error e w := by
  let w : Server.Buffers := { v with argIntBuffer := v.argIntBuffer.clear }
  have hread : Server.readArgInt.run w =
      .error (.ioException "Connection reset by peer") w := by
    rw [Server.readArgInt_run]
    simp only [Server.read, w, hchannel, ByteBuffer.clear_remaining, if_neg hroom]
  refine ⟨.ioException "Connection reset by peer", w, ?_⟩
  unfold Server.readable Server.decode
  rw [bind_assoc, modify_bind_run, bind_assoc]
  exact bind_of_throw hread _

/-- A connection that is reset. -/
lemma handle_reset (hs : Server.Inv s) {rest : Server.Channel}
    (h : Server.handle readObject s (c, .readable (.reset :: rest)) = some s') :
    s.ended = none ∧ s'.ended ≠ none ∧ s'.keys = s.keys ∧ s'.written = s.written := by
  simp only [Server.handle] at h
  split at h
  · rename_i key hended hkey
    have hcapacity : s.buffers.argIntBuffer.capacity ≠ 0 := by
      rw [(hs.fresh hended).int_capacity]
      decide
    obtain ⟨e, w, hrun⟩ := readable_reset readObject key
      (v := { s.buffers with socketChannel := .reset :: rest }) hcapacity rfl
    rw [hrun] at h
    obtain rfl := Option.some.inj h
    exact ⟨hended, Option.some_ne_none _, rfl, rfl⟩
  · cases h

/-- A connection that is accepted. -/
lemma handle_accept (h : Server.handle readObject s (c, .accept) = some s') :
    s.ended = none ∧ s.keys c = none ∧
      s' = { s with keys := Function.update s.keys c (some ⟨none, false⟩) } := by
  simp only [Server.handle] at h
  split_ifs at h with hnew
  exact ⟨hnew.1, hnew.2, (Option.some.inj h).symm⟩

/-- An `accept` that fails. -/
lemma handle_acceptFails {message : Option String}
    (h : Server.handle readObject s (c, .acceptFails message) = some s') :
    s.ended = none ∧ s'.ended ≠ none ∧ s'.keys = s.keys ∧ s'.written = s.written := by
  simp only [Server.handle] at h
  split_ifs at h with hended
  obtain rfl := Option.some.inj h
  exact ⟨hended, Option.some_ne_none _, rfl, rfl⟩

end Serve

/-! ## What one action does -/

section Steps

variable {κ ι : Type} [DecidableEq ι] {readObject : List Byte → Except Throwable κ}
  {input : ι → List Token} {s s' : Installation ι} {a : Action ι}

/-- What holds at any time: whoever asks ends by it, with a closed connection at most, and the
server has found nothing to answer. -/
structure Inv (s : Installation ι) : Prop where
  clients : ∀ i, (s.clients i).out = [] ∧
    ((s.clients i).connections = [] ∨
      (s.clients i).connections = [⟨[], true⟩] ∧ (s.clients i).ended ≠ none)
  server : Server.Inv s.server
  written : ∀ c, s.server.written c = []
  keys : ∀ c key, s.server.keys c = some key →
    key = ⟨none, false⟩ ∧ s.connection c = ⟨[], true⟩ ∧ c ∉ s.backlog
  backlog : ∀ c ∈ s.backlog, s.connection c = ⟨[], true⟩
  nodup : s.backlog.Nodup

omit [DecidableEq ι] in
lemma Inv.connections_nil (hs : Inv s) {i : ι} (hi : (s.clients i).ended = none) :
    (s.clients i).connections = [] := by
  obtain ⟨-, hnone | ⟨-, hended⟩⟩ := hs.clients i
  · exact hnone
  · exact absurd hi hended

omit [DecidableEq ι] in
lemma Inv.connection_cases (hs : Inv s) (c : ι × ℕ) :
    s.connection c = ⟨[], false⟩ ∨ s.connection c = ⟨[], true⟩ := by
  obtain ⟨i, n⟩ := c
  obtain ⟨-, hnone | ⟨hone, -⟩⟩ := hs.clients i
  · simp [Installation.connection, hnone]
  · cases n <;> simp [Installation.connection, hone]

/-- The connections that there are have nothing to do with a client that has none yet. -/
lemma connection_update (hs : Inv s) {i : ι} (hi : (s.clients i).ended = none) (x : ClientState)
    (l : List (ι × ℕ)) {c : ι × ℕ} (hc : s.connection c = ⟨[], true⟩) :
    c.1 ≠ i ∧ Installation.connection
      { s with clients := Function.update s.clients i x, backlog := l } c = ⟨[], true⟩ := by
  have hother : c.1 ≠ i := by
    rintro rfl
    simp [Installation.connection, hs.connections_nil hi] at hc
  refine ⟨hother, ?_⟩
  simpa [Installation.connection, Function.update_of_ne hother] using hc

/-- One action, as far as it matters. -/
inductive Effect (s : Installation ι) : Action ι → Installation ι → Prop
  /-- The client gets no connection. -/
  | fail (i : ι) (o : Outcomes) (client : ClientState)
      (hinput : ∃ n rest, (s.clients i).input = .int n :: rest)
      (hended : (s.clients i).ended = none) (hended' : client.ended ≠ none) (hout : client.out = [])
      (hconnections : client.connections = []) :
      Effect s (.ask i o) { s with clients := Function.update s.clients i client }
  /-- The client closes its connection without having written anything. -/
  | connect (i : ι) (o : Outcomes) (client : ClientState)
      (hinput : ∃ n rest, (s.clients i).input = .int n :: rest)
      (hended : (s.clients i).ended = none) (hended' : client.ended ≠ none) (hout : client.out = [])
      (hconnections : client.connections = [⟨[], true⟩]) :
      Effect s (.ask i o) { s with
        clients := Function.update s.clients i client, backlog := s.backlog ++ [(i, 0)] }
  | accept (c : ι × ℕ) (rest : List (ι × ℕ)) (hbacklog : s.backlog = c :: rest)
      (hkey : s.server.keys c = none) :
      Effect s (.serve c .accept) { s with
        backlog := rest
        server := { s.server with keys := Function.update s.server.keys c (some ⟨none, false⟩) } }
  | acceptFails (c : ι × ℕ) (message : Option String) (rest : List (ι × ℕ))
      (server : Server.ServerState (ι × ℕ)) (hbacklog : s.backlog = c :: rest)
      (hended : s.server.ended = none) (hended' : server.ended ≠ none)
      (hkeys : server.keys = s.server.keys) (hwritten : server.written = s.server.written) :
      Effect s (.serve c (.acceptFails message)) { s with backlog := rest, server }
  | cancel (c : ι × ℕ) (rest : Server.Channel) (taken : ι × ℕ → ℕ) (buffers : Server.Buffers)
      (hended : s.server.ended = none) (hkey : s.server.keys c ≠ none) :
      Effect s (.serve c (.readable (.endOfStream :: rest))) { s with
        taken
        server := { s.server with buffers, keys := Function.update s.server.keys c none } }
  | reset (c : ι × ℕ) (rest : Server.Channel) (taken : ι × ℕ → ℕ)
      (server : Server.ServerState (ι × ℕ)) (hended : s.server.ended = none)
      (hended' : server.ended ≠ none) (hkeys : server.keys = s.server.keys)
      (hwritten : server.written = s.server.written) :
      Effect s (.serve c (.readable (.reset :: rest))) { s with taken, server }

lemma step_cases (hs : Inv s) (h : (machine readObject input).step s a = some s') :
    Effect s a s' := by
  cases a with
  | ask i o =>
      simp only [machine, ask] at h
      split at h
      · rename_i n rest hinput
        obtain ⟨client, hpass, rfl⟩ := Option.map_eq_some_iff.mp h
        obtain ⟨hout, hconnections⟩ := hs.clients i
        obtain ⟨-, hidle⟩ | ⟨hended, hended', hout', hconnections'⟩ := pass_cases hpass
        · exact absurd hinput (hidle n rest)
        · obtain hnone | ⟨-, hnot⟩ := hconnections
          · rw [hnone, List.nil_append] at hconnections'
            rw [hnone]
            obtain hno | hone := hconnections'
            · rw [hno]
              simpa using Effect.fail (s := s) i o client ⟨n, rest, hinput⟩ hended hended'
                (hout'.trans hout) hno
            · rw [hone]
              exact .connect i o client ⟨n, rest, hinput⟩ hended hended' (hout'.trans hout) hone
          · exact absurd hended hnot
      · cases h
  | serve c event =>
      cases event with
      | accept =>
          simp only [machine, serve] at h
          split_ifs at h with hhead
          obtain ⟨server, hserver, rfl⟩ := Option.map_eq_some_iff.mp h
          obtain ⟨-, hkey, rfl⟩ := handle_accept hserver
          obtain ⟨rest, hbacklog⟩ := List.head?_eq_some_iff.mp hhead
          rw [hbacklog]
          exact .accept c rest hbacklog hkey
      | acceptFails message =>
          simp only [machine, serve] at h
          split_ifs at h with hhead
          obtain ⟨server, hserver, rfl⟩ := Option.map_eq_some_iff.mp h
          obtain ⟨hended, hended', hkeys, hwritten⟩ := handle_acceptFails hserver
          obtain ⟨rest, hbacklog⟩ := List.head?_eq_some_iff.mp hhead
          rw [hbacklog]
          exact .acceptFails c message rest server hbacklog hended hended' hkeys hwritten
      | readable channel =>
          simp only [machine, serve] at h
          split_ifs at h with hchannel
          obtain ⟨hne, hoffers⟩ := hchannel
          obtain ⟨server, hserver, rfl⟩ := Option.map_eq_some_iff.mp h
          have hempty : (s.connection c).sent = [] := by
            obtain hconnection | hconnection := hs.connection_cases c <;> rw [hconnection]
          rw [hempty, List.drop_nil] at hoffers
          cases channel with
          | nil => exact absurd rfl hne
          | cons arrival rest =>
              cases arrival with
              | bytes bs => cases bs <;> simp [offers] at hoffers
              | endOfStream =>
                  obtain ⟨hended, hkey, buffers, rfl⟩ := handle_endOfStream hs.server hserver
                  exact .cancel c rest _ buffers hended hkey
              | reset =>
                  obtain ⟨hended, hended', hkeys, hwritten⟩ := handle_reset hs.server hserver
                  exact .reset c rest _ server hended hended' hkeys hwritten
      | writable taken =>
          simp only [machine, serve] at h
          obtain ⟨server, hserver, -⟩ := Option.map_eq_some_iff.mp h
          have hnone : (Server.machine readObject (ι × ℕ)).step s.server (c, .writable taken) =
              none := Server.not_writable hs.server
          rw [show Server.handle readObject s.server (c, .writable taken) = none from hnone]
            at hserver
          cases hserver

/-- The server does in the system what it does alone. -/
lemma handle_of_serve {c : ι × ℕ} {event : Server.Event}
    (h : serve readObject s c event = some s') :
    (Server.machine readObject (ι × ℕ)).step s.server (c, event) = some s'.server := by
  cases event with
  | accept | acceptFails message | readable channel =>
      simp only [serve] at h
      split_ifs at h
      obtain ⟨server, hserver, rfl⟩ := Option.map_eq_some_iff.mp h
      exact hserver
  | writable taken =>
      obtain ⟨server, hserver, rfl⟩ := Option.map_eq_some_iff.mp h
      exact hserver

/-- **Every action keeps the invariant.** -/
lemma inv_step (hs : Inv s) (h : (machine readObject input).step s a = some s') : Inv s' := by
  have heffect := step_cases hs h
  have hserver : Server.Inv s'.server := by
    cases a with
    | ask i o => cases heffect <;> exact hs.server
    | serve c event => exact Server.inv_step hs.server (handle_of_serve h)
  cases heffect with
  | fail i o client hinput hended hended' hout hconnections =>
      have hkept := fun c => connection_update hs hended client s.backlog (c := c)
      refine ⟨fun j => ?_, hserver, hs.written, fun c key hkey => ?_, fun c hc => ?_, hs.nodup⟩
      · rcases eq_or_ne j i with rfl | hj
        · simp [hout, hconnections]
        · simpa [hj] using hs.clients j
      · obtain ⟨hkey', hconnection, hnot⟩ := hs.keys c key hkey
        exact ⟨hkey', (hkept c hconnection).2, hnot⟩
      · exact (hkept c (hs.backlog c hc)).2
  | connect i o client hinput hended hended' hout hconnections =>
      have hkept := fun c =>
        connection_update hs hended client (s.backlog ++ [(i, 0)]) (c := c)
      refine ⟨fun j => ?_, hserver, hs.written, fun c key hkey => ?_, fun c hc => ?_, ?_⟩
      · rcases eq_or_ne j i with rfl | hj
        · simp [hout, hconnections, hended']
        · simpa [hj] using hs.clients j
      · obtain ⟨hkey', hconnection, hnot⟩ := hs.keys c key hkey
        obtain ⟨hother, hconnection'⟩ := hkept c hconnection
        refine ⟨hkey', hconnection', ?_⟩
        rw [List.mem_append, List.mem_singleton]
        rintro (hold | rfl)
        · exact hnot hold
        · exact hother rfl
      · obtain hold | hnew := List.mem_append.mp hc
        · exact (hkept c (hs.backlog c hold)).2
        · obtain rfl := List.mem_singleton.mp hnew
          simp [Installation.connection, hconnections]
      · refine hs.nodup.append (List.nodup_singleton _) ?_
        rw [List.disjoint_singleton]
        intro hold
        exact (hkept _ (hs.backlog _ hold)).1 rfl
  | accept c rest hbacklog hkey =>
      have hnodup := hs.nodup
      rw [hbacklog, List.nodup_cons] at hnodup
      have hin : ∀ d ∈ rest, s.connection d = ⟨[], true⟩ := fun d hd =>
        hs.backlog d (by rw [hbacklog]; exact List.mem_cons_of_mem _ hd)
      refine ⟨hs.clients, hserver, hs.written, fun d key hd => ?_, hin, hnodup.2⟩
      dsimp only at hd
      rcases eq_or_ne d c with rfl | hne
      · rw [Function.update_self] at hd
        refine ⟨(Option.some.inj hd).symm, hs.backlog d ?_, hnodup.1⟩
        rw [hbacklog]
        exact List.mem_cons_self
      · rw [Function.update_of_ne hne] at hd
        obtain ⟨hkey', hconnection, hnot⟩ := hs.keys d key hd
        refine ⟨hkey', hconnection, fun hmem => hnot ?_⟩
        rw [hbacklog]
        exact List.mem_cons_of_mem _ hmem
  | acceptFails c message rest server hbacklog hended hended' hkeys hwritten =>
      have hnodup := hs.nodup
      rw [hbacklog, List.nodup_cons] at hnodup
      have hin : ∀ d ∈ rest, d ∈ s.backlog := fun d hd => by
        rw [hbacklog]
        exact List.mem_cons_of_mem _ hd
      refine ⟨hs.clients, hserver, fun d => ?_, fun d key hd => ?_,
        fun d hd => hs.backlog d (hin d hd), hnodup.2⟩
      · rw [hwritten]
        exact hs.written d
      · rw [hkeys] at hd
        obtain ⟨hkey, hconnection, hnot⟩ := hs.keys d key hd
        exact ⟨hkey, hconnection, fun hmem => hnot (hin d hmem)⟩
  | cancel c rest taken buffers hended hkey =>
      refine ⟨hs.clients, hserver, hs.written, fun d key hd => ?_, hs.backlog, hs.nodup⟩
      dsimp only at hd
      rcases eq_or_ne d c with rfl | hne
      · rw [Function.update_self] at hd
        cases hd
      · rw [Function.update_of_ne hne] at hd
        exact hs.keys d key hd
  | reset c rest taken server hended hended' hkeys hwritten =>
      refine ⟨hs.clients, hserver, fun d => ?_, fun d key hd => ?_, hs.backlog, hs.nodup⟩
      · rw [hwritten]
        exact hs.written d
      · rw [hkeys] at hd
        exact hs.keys d key hd

lemma inv_init (h : (machine readObject input).init s) : Inv s := by
  obtain rfl : s = .initial input := h
  have hserver : (Server.machine readObject (ι × ℕ)).init (.initial (ι × ℕ)) := rfl
  refine ⟨fun i => ⟨rfl, .inl rfl⟩, Server.inv_init hserver, fun _ => rfl, ?_, ?_, List.nodup_nil⟩
  · rintro c key ⟨⟩
  · rintro c ⟨⟩

/-- A client that has not ended has its input before it, and one that has ended has asked for an
`int`. -/
def Typed (input : ι → List Token) (s : Installation ι) : Prop :=
  ∀ i, if (s.clients i).ended = none then (s.clients i).input = input i
    else ∃ n rest, input i = .int n :: rest

lemma typed_step (hs : Inv s) (ht : Typed input s)
    (h : (machine readObject input).step s a = some s') : Typed input s' := by
  have hupdate : ∀ (j : ι) (client : ClientState), (s.clients j).ended = none →
      (∃ n rest, (s.clients j).input = .int n :: rest) → client.ended ≠ none → ∀ i,
      if (Function.update s.clients j client i).ended = none then
        (Function.update s.clients j client i).input = input i
      else ∃ n rest, input i = .int n :: rest := by
    intro j client hended hinput hended' i
    rcases eq_or_ne i j with rfl | hne
    · rw [Function.update_self, if_neg hended']
      have htyped := ht i
      rw [if_pos hended] at htyped
      rwa [htyped] at hinput
    · rw [Function.update_of_ne hne]
      exact ht i
  cases step_cases hs h with
  | fail j o client hinput hended hended' => exact hupdate j client hended hinput hended'
  | connect j o client hinput hended hended' => exact hupdate j client hended hinput hended'
  | _ => exact ht

lemma typed_init (h : (machine readObject input).init s) : Typed input s := by
  obtain rfl : s = .initial input := h
  intro i
  exact if_pos rfl ▸ rfl

end Steps

/-! ## How it ends -/

section Ends

variable {κ ι : Type} [DecidableEq ι] {readObject : List Byte → Except Throwable κ}
  {input : ι → List Token} {s s' : Installation ι} {a : Action ι}

omit [DecidableEq ι] in
/-- A client has its first connection only. -/
lemma Inv.first (hs : Inv s) {c : ι × ℕ} (hc : s.connection c = ⟨[], true⟩) : c = (c.1, 0) := by
  obtain ⟨i, n⟩ := c
  obtain ⟨-, hnone | ⟨hone, -⟩⟩ := hs.clients i
  · simp [Installation.connection, hnone] at hc
  · cases n with
    | zero => rfl
    | succ n => simp [Installation.connection, hone] at hc

/-- A client that has not ended may still open a connection, which is then accepted and
cancelled. -/
def clientWeight (client : ClientState) : ℕ := 3 * client.ended.isNone.toNat

/-- How much is left to do. -/
def remaining [Fintype ι] (s : Installation ι) : ℕ :=
  ∑ i, clientWeight (s.clients i) + 2 * s.backlog.length +
    ∑ i, (s.server.keys (i, 0)).isSome.toNat + s.server.ended.isNone.toNat

lemma clientWeight_none {client : ClientState} (h : client.ended = none) :
    clientWeight client = 3 := by
  rw [clientWeight, h]
  rfl

lemma clientWeight_some {client : ClientState} (h : client.ended ≠ none) :
    clientWeight client = 0 := by
  rw [clientWeight, Option.isNone_eq_false_iff.mpr (Option.isSome_iff_ne_none.mpr h)]
  rfl

/-- The keys of the first connections when one of them changes. -/
lemma sum_keys_update [Fintype ι] (keys : ι × ℕ → Option Server.SelectionKey) (i : ι)
    (key : Option Server.SelectionKey) :
    ∑ j, (Function.update keys (i, 0) key (j, 0)).isSome.toNat + (keys (i, 0)).isSome.toNat =
      ∑ j, (keys (j, 0)).isSome.toNat + key.isSome.toNat := by
  have hupdate : (fun j => Function.update keys (i, 0) key (j, 0)) =
      Function.update (fun j => keys (j, 0)) i key := by
    funext j
    rcases eq_or_ne j i with rfl | hj
    · simp
    · simp [hj]
  have hsum := sum_update_add (fun k : Option Server.SelectionKey => k.isSome.toNat)
    (fun j => keys (j, 0)) i key
  rw [← hupdate] at hsum
  exact hsum

/-- **Every action brings the end nearer.** -/
lemma remaining_lt [Fintype ι] (hs : Inv s)
    (h : (machine readObject input).step s a = some s') : remaining s' < remaining s := by
  cases step_cases hs h with
  | fail i o client _ hended hended' =>
      have hsum := sum_update_add clientWeight s.clients i client
      rw [clientWeight_none hended, clientWeight_some hended'] at hsum
      simp only [remaining]
      omega
  | connect i o client _ hended hended' =>
      have hsum := sum_update_add clientWeight s.clients i client
      rw [clientWeight_none hended, clientWeight_some hended'] at hsum
      simp only [remaining, List.length_append, List.length_singleton]
      omega
  | accept c rest hbacklog hkey =>
      have hfirst := hs.first (hs.backlog c (by rw [hbacklog]; exact List.mem_cons_self))
      rw [hfirst] at hkey ⊢
      have hsum := sum_keys_update s.server.keys c.1 (some ⟨none, false⟩)
      rw [hkey] at hsum
      simp only [remaining, hbacklog, List.length_cons]
      simp only [Option.isSome_none, Option.isSome_some, Bool.toNat_false, Bool.toNat_true] at hsum
      omega
  | acceptFails c message rest server hbacklog hended hended' hkeys =>
      have hnot : server.ended.isNone = false :=
        Option.isNone_eq_false_iff.mpr (Option.isSome_iff_ne_none.mpr hended')
      simp only [remaining, hkeys, hbacklog, hended, hnot, List.length_cons, Option.isNone_none,
        Bool.toNat_true, Bool.toNat_false]
      omega
  | cancel c rest taken buffers hended hkey =>
      obtain ⟨key, hsome⟩ := Option.ne_none_iff_exists'.mp hkey
      have hfirst := hs.first (hs.keys c key hsome).2.1
      rw [hfirst] at hsome ⊢
      have hsum := sum_keys_update s.server.keys c.1 none
      rw [hsome] at hsum
      simp only [remaining]
      simp only [Option.isSome_none, Option.isSome_some, Bool.toNat_false, Bool.toNat_true] at hsum
      omega
  | reset c rest taken server hended hended' hkeys =>
      have hnot : server.ended.isNone = false :=
        Option.isNone_eq_false_iff.mpr (Option.isSome_iff_ne_none.mpr hended')
      simp only [remaining, hkeys, hended, hnot, Option.isNone_none, Bool.toNat_true,
        Bool.toNat_false]
      omega

/-- What the server can do when it has not ended. -/
lemma serve_of_key (hs : Inv s) {c : ι × ℕ} {key : Server.SelectionKey}
    (hended : s.server.ended = none) (hkey : s.server.keys c = some key) :
    (machine readObject input).step s (.serve c (.readable [.endOfStream])) ≠ none := by
  obtain ⟨-, hconnection, -⟩ := hs.keys c key hkey
  have hhandle : Server.handle readObject s.server (c, .readable [.endOfStream]) ≠ none := by
    simp only [Server.handle, hended, hkey]
    split
    · exact Option.some_ne_none _
    · exact Option.some_ne_none _
  simp only [machine, serve]
  rw [if_pos (by simp [hconnection, offers])]
  simpa using hhandle

lemma accept_of_backlog (hs : Inv s) (hended : s.server.ended = none) {c : ι × ℕ}
    {rest : List (ι × ℕ)} (hbacklog : s.backlog = c :: rest) :
    (machine readObject input).step s (.serve c .accept) ≠ none := by
  have hkey : s.server.keys c = none := by
    by_contra hsome
    obtain ⟨key, hkey⟩ := Option.ne_none_iff_exists'.mp hsome
    refine (hs.keys c key hkey).2.2 ?_
    rw [hbacklog]
    exact List.mem_cons_self
  simp [machine, serve, hbacklog, Server.handle, hended, hkey]

lemma ask_of_int {i : ι} {n : ℤ} {rest : List Token} (o : Outcomes)
    (hended : (s.clients i).ended = none) (hinput : (s.clients i).input = .int n :: rest) :
    (machine readObject input).step s (.ask i o) ≠ none := by
  have hpass : Client.pass o (s.clients i) ≠ none := by
    simp only [Client.pass, hended, hinput]
    split
    · exact Option.some_ne_none _
    · exact Option.some_ne_none _
  simp only [machine, ask, hinput]
  simpa using hpass

/-- **The server lets all of them go.**  With finitely many clients a run has at most three actions
for each, and the break that ends the server; without a further break it can be carried on until
exactly those clients have ended whose input begins with an `int`, and a server that has not ended
has accepted every connection and cancelled every key. -/
theorem server_lets_go [Fintype ι] {ms : List (Move (Installation ι) (Action ι))}
    (h : (machine readObject input).Run ms s) :
    ms.length ≤ 3 * Fintype.card ι + 1 ∧
    ∃ ms' s', (machine readObject input).Run (ms ++ ms') s' ∧ (∀ m ∈ ms', ¬Breaks m.label) ∧
      (∀ i, (s'.clients i).ended ≠ none ↔ ∃ n rest, input i = .int n :: rest) ∧
      (s'.server.ended = none → s'.backlog = [] ∧ ∀ c, s'.server.keys c = none) := by
  refine ⟨?_, ?_⟩
  · have hlength := h.length_add_variant_le (I := Inv) remaining (n := 3 * Fintype.card ι + 1)
      (fun s hs => ⟨inv_init hs, ?_⟩) (fun _ _ _ => inv_step) fun _ _ _ => remaining_lt
    · omega
    · obtain rfl : s = .initial input := hs
      simp [remaining, Installation.initial, ClientState.initial, clientWeight,
        Server.ServerState.initial, mul_comm]
  · obtain ⟨ms', s', hrun, hown, hquiet⟩ := h.exists_quiet (I := Inv) (fun a => ¬Breaks a)
      remaining (fun _ => inv_init) (fun _ _ _ => inv_step) fun _ _ _ hs _ => remaining_lt hs
    obtain ⟨hs', htyped⟩ := hrun.invariant (I := fun s => Inv s ∧ Typed input s)
      (fun _ hinit => ⟨inv_init hinit, typed_init hinit⟩)
      fun _ _ _ hs hstep => ⟨inv_step hs.1 hstep, typed_step hs.1 hs.2 hstep⟩
    refine ⟨ms', s', hrun, hown, fun i => ⟨fun hended => ?_, ?_⟩, fun hended => ⟨?_, fun c => ?_⟩⟩
    · have hi := htyped i
      rwa [if_neg hended] at hi
    · rintro ⟨n, rest, hinput⟩ hended
      have hi := htyped i
      rw [if_pos hended, hinput] at hi
      have o : Outcomes := ⟨.ok ⟨⟩, .ok [], 0, .ok [], .ok ⟨⟩⟩
      exact ask_of_int o hended hi (hquiet (.ask i o) id)
    · cases hbacklog : s'.backlog with
      | nil => rfl
      | cons c rest =>
          exact absurd (hquiet (.serve c .accept) id) (accept_of_backlog hs' hended hbacklog)
    · by_contra hsome
      obtain ⟨key, hkey⟩ := Option.ne_none_iff_exists'.mp hsome
      exact serve_of_key hs' hended hkey (hquiet (.serve c (.readable [.endOfStream])) id)

end Ends

/-! ## A run -/

section Runs

/-- What is typed for each of two clients. -/
def typed : Duo → List Token
  | .first => [.int 5, .int 6]
  | .second => [.other, .int 7]

/-- The first client asks and finds the server, which accepts it and finds that it has gone. -/
def askingRun : List (Action Duo) :=
  [.ask .first ⟨.ok ⟨⟩, .ok [0xAC, 0xED], 0, .ok [], .ok ⟨⟩⟩, .serve (.first, 0) .accept,
    .serve (.first, 0) (.readable [.endOfStream])]

/-- The system they come from. -/
abbrev duo : Machine (Installation Duo) (Action Duo) := machine (fun _ => .ok ()) typed

/-- The state they come to. -/
abbrev afterAsking : Installation Duo := (duo.play (.initial typed) askingRun).getD (.initial typed)

theorem server_lets_go_askingRun :
    afterAsking.backlog = [] ∧ (afterAsking.clients .first).connections = [⟨[], true⟩] ∧
      (duo.moves (.initial typed) askingRun).length ≤ 7 ∧
      ∃ ms' s', duo.Run (duo.moves (.initial typed) askingRun ++ ms') s' ∧
        (s'.clients .first).ended ≠ none ∧ (s'.clients .second).ended = none := by
  obtain ⟨hlength, ms', s', hrun, -, hended, -⟩ := server_lets_go (s := afterAsking)
    (Machine.run_getD_of_play (M := duo) (.initial typed) rfl (by decide +kernel))
  refine ⟨by decide +kernel, by decide +kernel, hlength, ms', s', hrun,
    (hended .first).mpr ⟨5, [.int 6], rfl⟩, ?_⟩
  by_contra hsecond
  obtain ⟨n, rest, hinput⟩ := (hended .second).mp hsecond
  cases hinput

end Runs

end ClientServer

end LearnJava
