import LearnJava.Nio.DatagramSession

/-!
# Datagrams that are too short for a method

`server` returns for a datagram without bytes, and reads four bytes of any other one.  A datagram of
one, two or three bytes passes the test and underflows the buffer, and the exception ends the loop
for all clients.
-/

namespace LearnJava

namespace DatagramServer

variable {α : Type} [ToString α] [DecidableEq α] {malformed : List Byte → String}
  {oldSocket : Bool} {a : α} {buffer : ByteBuffer}

/-- `server` goes beyond the check of the sender. -/
def Heard (s : Session α) (clientAddress : α) : Prop :=
  s.connectedClientAddress = none ∨ s.connectedClientAddress = some clientAddress

instance (s : Session α) (clientAddress : α) : Decidable (Heard s clientAddress) :=
  inferInstanceAs (Decidable (_ ∨ _))

/-- There are bytes, but not those of an `int`. -/
def TooShort (bytes : List Byte) : Prop := 0 < bytes.length ∧ bytes.length < 4

instance (bytes : List Byte) : Decidable (TooShort bytes) := inferInstanceAs (Decidable (_ ∧ _))

/-- A datagram whose sender is heard is not too short. -/
def ReadsMethod (m : ServerMove α) : Prop :=
  Heard m.pre.session m.label.clientAddress → ¬TooShort m.label.bytes

omit [ToString α] [DecidableEq α] in
lemma heard_iff {s : Session α} :
    Heard s a ↔ ¬(s.connectedClientAddress ≠ none ∧ s.connectedClientAddress ≠ some a) := by
  rw [not_and_or, not_not, not_not]
  rfl

/-! ## One datagram -/

section Server

variable {s : Session α}

omit [DecidableEq α] in
/-- The `switch` returns if `connect` and `disconnect` do. -/
lemma switchMethod_returns (hs : Whole oldSocket s) (method : ℤ) :
    ∃ s', (switchMethod malformed none method buffer a).run s = .ok ⟨⟩ s' := by
  obtain ⟨s', hrun, -⟩ | ⟨e, -, hfails, -⟩ :=
    switchMethod_cases malformed none a buffer method hs
  · exact ⟨s', hrun⟩
  · cases hfails

/-- `server` for the bytes of a datagram that is heard and has some. -/
lemma server_run_heard (hheard : Heard s a) (hbytes : buffer.content ≠ []) :
    (server malformed none buffer a).run s =
      (ofExcept buffer.getInt >>= fun r => switchMethod malformed none r.1 r.2 a).run s := by
  have hremaining : buffer.hasRemaining = true := by
    rw [buffer.hasRemaining_eq, Bool.not_eq_true', List.isEmpty_eq_false_iff]
    exact hbytes
  unfold server
  rw [get_bind_run, if_neg (heard_iff.mp hheard), hremaining]
  rfl

variable (malformed) in
/-- `server` returns from a datagram unless it is heard and too short. -/
lemma server_returns_iff (hs : Whole oldSocket s) {bytes : List Byte}
    (hbytes : buffer.content = bytes.take 128) :
    (∃ s', (server malformed none buffer a).run s = .ok ⟨⟩ s') ↔
      (Heard s a → ¬TooShort bytes) := by
  have hlength : buffer.remaining = min 128 bytes.length := by
    rw [← buffer.length_content, hbytes, List.length_take]
  by_cases hheard : Heard s a
  · rw [forall_prop_of_true hheard]
    by_cases hshort : TooShort bytes
    · obtain ⟨hpos, hlt⟩ := hshort
      have hne : buffer.content ≠ [] := by
        rw [← List.length_pos_iff, buffer.length_content]
        omega
      have hget := buffer.getInt_error (by omega)
      rw [server_run_heard hheard hne, bind_of_throw (ofExcept_run_error hget s)]
      exact iff_of_false (by rintro ⟨s', ⟨⟩⟩) (not_not_intro ⟨hpos, hlt⟩)
    · refine iff_of_true ?_ hshort
      by_cases hempty : buffer.content = []
      · have hremaining : buffer.hasRemaining = false := by
          rw [buffer.hasRemaining_eq, hempty]
          rfl
        refine ⟨s, ?_⟩
        unfold server
        rw [get_bind_run, if_neg (heard_iff.mp hheard), hremaining]
        rfl
      · have hpos : 0 < buffer.remaining := by
          rwa [← buffer.length_content, List.length_pos_iff]
        have hfour : 4 ≤ buffer.remaining := by
          unfold TooShort at hshort
          omega
        obtain ⟨b, hget, -⟩ := buffer.getInt_take hfour
        rw [server_run_heard hheard hempty, bind_of_run (ofExcept_run_ok hget s)]
        exact switchMethod_returns hs _
  · refine iff_of_true ⟨s, ?_⟩ fun h => absurd h hheard
    unfold server
    rw [get_bind_run, if_pos (not_not.mp (mt heard_iff.mpr hheard))]
    rfl

end Server

/-! ## The loop -/

section Loop

variable {s s' : ServerState α} {d : Datagram α}

/-- If `connect` and `disconnect` do not fail, the loop goes on exactly after a datagram that is not
heard or not too short. -/
lemma goes_on_iff (hs : s.ended = none → Inv oldSocket s)
    (h : (machine α malformed oldSocket).step s d = some s') (hfails : d.fails = none) :
    s'.ended = none ↔ ReadsMethod ⟨s, d, s'⟩ := by
  obtain ⟨hended, buffer, -, hbytes, hcases⟩ := step_cases (fun hended => (hs hended).ready) h
  have hiff := server_returns_iff malformed (a := d.clientAddress) (hs hended).whole hbytes
  rw [hfails] at hcases
  rcases hcases with ⟨hrun, hgoes, -⟩ | ⟨e, hrun, hthrown⟩
  · exact iff_of_true hgoes (hiff.mp ⟨_, hrun⟩)
  · rw [hthrown]
    refine iff_of_false (Option.some_ne_none _) fun hreads => ?_
    obtain ⟨session, hok⟩ := hiff.mpr hreads
    rw [hrun] at hok
    cases hok

/-- **When the loop survives every datagram.**  In both loops, and whatever the senders send, if
`connect` and `disconnect` do not fail: `server` returns from every datagram exactly if none that
is heard has one, two or three bytes. -/
theorem server_returns_from_all_iff {ms : List (ServerMove α)}
    (h : (machine α malformed oldSocket).Run ms s) (hfails : ∀ m ∈ ms, m.label.fails = none) :
    (∀ m ∈ ms, m.post.ended = none) ↔ ∀ m ∈ ms, ReadsMethod m := by
  have hiff := h.moves_iff (I := fun s => s.ended = none → Inv oldSocket s)
    (P := fun m => m.label.fails = none → m.post.ended = none)
    (C := fun m => m.label.fails = none → ReadsMethod m) (fun _ => inv_init)
    (fun _ _ _ hs hstep _ => (loop_cases hs hstep).2)
    (fun s d s' hs hstep => imp_congr_right fun hnone => goes_on_iff hs hstep hnone)
  constructor
  · exact fun hgoes m hm => hiff.mp (fun m hm _ => hgoes m hm) m hm (hfails m hm)
  · exact fun hreads m hm => hiff.mpr (fun m hm _ => hreads m hm) m hm (hfails m hm)

/-- A client connects and sends nothing, another one sends two bytes and is not heard, and the
client sends two bytes. -/
def shortDatagrams : List (Datagram String) :=
  [⟨"a", intBytes DatagramSocketServerMehod.CONNECT, none⟩, ⟨"a", [], none⟩,
    ⟨"b", [0x00, 0x01], none⟩, ⟨"a", [0x00, 0x01], none⟩]

def shortReceived (oldSocket : Bool) : List (ServerMove String) :=
  (machine String (fun _ => "?") oldSocket).moves (initial oldSocket) shortDatagrams

theorem server_returns_from_all_iff_shortReceived :
    ∃ s, (machine String (fun _ => "?") false).Run (shortReceived false) s ∧
      ((∀ m ∈ shortReceived false, m.post.ended = none) ↔
        ∀ m ∈ shortReceived false, ReadsMethod m) := by
  have hrun : (machine String (fun _ => "?") false).Run (shortReceived false) _ :=
    Machine.run_of_play rfl rfl
  refine ⟨_, hrun, server_returns_from_all_iff hrun fun m hm => ?_⟩
  have hlabel := Machine.label_mem_of_mem_moves hm
  simp only [shortDatagrams, List.mem_cons, List.not_mem_nil, or_false] at hlabel
  rcases hlabel with h | h | h | h <;> rw [h]

set_option maxRecDepth 4096 in
/-- Two bytes of the owner of the session end the loop of either kind. -/
theorem two_bytes_end_the_loop :
    (∃ s, (machine String (fun _ => "?") false).Run (shortReceived false) s ∧
      s.ended = some .bufferUnderflowException) ∧
    ∃ s, (machine String (fun _ => "?") true).Run (shortReceived true) s ∧
      s.ended = some .bufferUnderflowException :=
  ⟨⟨_, Machine.run_of_play rfl rfl, rfl⟩, ⟨_, Machine.run_of_play rfl rfl, rfl⟩⟩

end Loop

end DatagramServer

end LearnJava
