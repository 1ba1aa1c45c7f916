import LearnJava.Security.RequestDecoding

/-!
# What a client can do to the other ones

One loop serves all connections, and nothing in it catches what a readable branch throws.  The only
connection that the loop survives is one that ends before a byte of it has arrived: `read` returns
-1 then, and the key is cancelled.  Everything else that a branch can find ends `start`, since the
branch underflows a buffer, or `readContext` throws for a context that is `null` or was never sent.
An `accept` that fails ends it as well.
-/

namespace LearnJava

namespace Server

/-- The event of a connection does not end `start`, and the other connections keep their keys. -/
structure Contained {ι : Type} (m : ServerMove ι) : Prop where
  goes_on : m.post.ended = none
  others : ∀ c, c ≠ m.label.1 → m.post.keys c = m.pre.keys c

/-- If the event is that a connection can be read, the first thing to be found is its end. -/
def ClosedUnread {ι : Type} (m : ServerMove ι) : Prop :=
  ∀ channel, m.label.2 = .readable channel → ∃ rest, channel = .endOfStream :: rest

/-- The event is an `accept` that fails. -/
def AcceptFails {ι : Type} (m : ServerMove ι) : Prop := ∃ message, m.label.2 = .acceptFails message

section Branch

variable {κ : Type} {v : Buffers} {rest : Channel}

lemma read_endOfStream {b : ByteBuffer} (hroom : b.remaining ≠ 0) :
    read (.endOfStream :: rest) b = .ok (-1, b, .endOfStream :: rest) := by
  unfold read
  rw [if_neg hroom]

/-- The key of a connection that has ended is cancelled. -/
lemma readable_endOfStream (readObject : List Byte → Except Throwable κ) (key : SelectionKey)
    (hv : Fresh v) (hchannel : v.socketChannel = .endOfStream :: rest) :
    ∃ w, (readable readObject key).run v = .ok none w := by
  obtain ⟨argIntBuffer, argCtxBuffer, readBytes, argCtxBytes, channel⟩ := v
  obtain rfl : channel = .endOfStream :: rest := hchannel
  have hroom : argIntBuffer.clear.remaining ≠ 0 := by
    rw [ByteBuffer.clear_remaining, show argIntBuffer.capacity = 32 from hv.int_capacity]
    decide
  let w : Buffers :=
    ⟨argIntBuffer.clear, argCtxBuffer, readBytes, argCtxBytes, .endOfStream :: rest⟩
  have hread : readArgInt.run w = .ok (-1) w := by
    rw [readArgInt_run, read_endOfStream hroom]
  refine ⟨w, ?_⟩
  unfold readable decode
  rw [bind_assoc, modify_bind_run, bind_assoc, bind_of_run hread]
  rfl

end Branch

section Machine

variable {κ ι : Type} [DecidableEq ι] {readObject : List Byte → Except Throwable κ}
  {s s' : ServerState ι} {a : ι × Event}

/-- The end of a stream does not end `start`. -/
lemma goes_on_of_endOfStream (hs : Inv s) {c : ι} {rest : Channel}
    (h : (machine readObject ι).step s (c, .readable (.endOfStream :: rest)) = some s') :
    s'.ended = none := by
  have hended := ended_of_step h
  simp only [machine, handle] at h
  split at h
  · rename_i key _ hkey
    have hfresh : Fresh { s.buffers with socketChannel := .endOfStream :: rest } := by
      obtain ⟨hint, hctx, hcells, hbytes, hnone⟩ := hs.fresh hended
      exact ⟨hint, hctx, hcells, hbytes, hnone⟩
    obtain ⟨w, hrun⟩ := readable_endOfStream readObject key hfresh rfl
    rw [hrun] at h
    obtain rfl := Option.some.inj h
    exact hended
  · cases h

/-- Nor does a connection that is accepted. -/
lemma goes_on_of_accept {c : ι} (h : (machine readObject ι).step s (c, .accept) = some s') :
    s'.ended = none := by
  have hended := ended_of_step h
  simp only [machine, handle] at h
  split_ifs at h
  obtain rfl := Option.some.inj h
  exact hended

/-- **One event.**  A connection that is read ends `start` unless it has ended itself. -/
lemma contained_iff (hs : Inv s) (h : (machine readObject ι).step s a = some s') :
    Contained ⟨s, a, s'⟩ ↔ ClosedUnread ⟨s, a, s'⟩ ∧ ¬AcceptFails ⟨s, a, s'⟩ := by
  have hothers : ∀ k : Option SelectionKey, s'.keys = Function.update s.keys a.1 k →
      ∀ c, c ≠ a.1 → s'.keys c = s.keys c := by
    intro k hkeys c hc
    rw [hkeys, Function.update_of_ne hc]
  obtain ⟨haccept, -, -, hkeys⟩ | ⟨rest, hread, -, hkeys⟩ | ⟨hended, -⟩ := step_cases hs h
  · obtain ⟨c, event⟩ := a
    obtain rfl : event = .accept := haccept
    refine iff_of_true ⟨goes_on_of_accept h, hothers _ hkeys⟩ ⟨?_, ?_⟩
    · rintro channel ⟨⟩
    · rintro ⟨message, ⟨⟩⟩
  · obtain ⟨c, event⟩ := a
    obtain rfl : event = .readable (.endOfStream :: rest) := hread
    refine iff_of_true ⟨goes_on_of_endOfStream hs h, hothers _ hkeys⟩ ⟨?_, ?_⟩
    · intro channel hlabel
      exact ⟨rest, (Event.readable.inj hlabel).symm⟩
    · rintro ⟨message, ⟨⟩⟩
  · refine iff_of_false (fun hcontained => hended hcontained.goes_on) fun ⟨hclosed, haccepts⟩ => ?_
    obtain ⟨c, event⟩ := a
    cases event with
    | accept => exact hended (goes_on_of_accept h)
    | acceptFails message => exact haccepts ⟨message, rfl⟩
    | readable channel =>
        obtain ⟨rest, rfl⟩ := hclosed channel rfl
        exact hended (goes_on_of_endOfStream hs h)
    | writable taken =>
        rw [not_writable hs] at h
        cases h

/-- **When `start` survives its clients.**  In every run, whatever the clients send and whenever
they close their connections: no event ends `start` exactly if every connection that can be read is
found to have ended before a byte of it was read, and no `accept` fails. -/
theorem all_contained_iff {ms : List (ServerMove ι)} (h : (machine readObject ι).Run ms s) :
    (∀ m ∈ ms, Contained m) ↔ ∀ m ∈ ms, ClosedUnread m ∧ ¬AcceptFails m :=
  h.moves_iff (I := Inv) (fun _ => inv_init) (fun _ _ _ hs hstep _ => inv_step hs hstep)
    (fun _ _ _ hs hstep => contained_iff hs hstep)

/-- Two connections; one is closed, and over the other one three bytes arrive. -/
def threeBytes : List (ServerMove Duo) :=
  (machine (fun _ => .ok ()) Duo).moves (.initial Duo)
    [(.first, .accept), (.second, .accept), (.first, .readable [.endOfStream]),
      (.second, .readable [.bytes [0x00, 0x00, 0x05]])]

theorem all_contained_iff_threeBytes :
    (∀ m ∈ threeBytes, Contained m) ↔ ∀ m ∈ threeBytes, ClosedUnread m ∧ ¬AcceptFails m :=
  all_contained_iff (Machine.run_of_play (M := machine (fun _ => .ok ()) Duo) rfl rfl)

/-- A client that sends three bytes ends `start`, and so does one whose `int` is negative. -/
theorem three_bytes_end_start :
    (∃ s, (machine (fun _ => .ok ()) Duo).Run threeBytes s ∧
      s.ended = some .bufferUnderflowException) ∧
    ∃ s, (machine (fun _ => .ok ()) Duo).Run
        ((machine (fun _ => .ok ()) Duo).moves (.initial Duo)
          [(.first, .accept), (.first, .readable [.bytes (layout (-1) streamHeader)])]) s ∧
      s.ended = some .nullPointerException :=
  ⟨⟨_, Machine.run_of_play (M := machine (fun _ => .ok ()) Duo) rfl rfl, rfl⟩,
    ⟨_, Machine.run_of_play (M := machine (fun _ => .ok ()) Duo) rfl rfl, rfl⟩⟩

end Machine

end Server

end LearnJava
