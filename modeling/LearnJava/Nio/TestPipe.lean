import LearnJava.Foundation.Progress
import LearnJava.Java.Charset

/-!
# `TestPipe`

A thread writes the strings `strs` to a pipe, each of them through a buffer of 128 bytes; `main`
copies what it reads from the pipe to `System.out`, through a buffer of its own, until the thread
closes its end. The pipe holds up to `capacity` bytes: a `write` waits while it is full, and a
`read` while it is empty. How many bytes go through at once is left open.

`strs` is a parameter, with the bytes of the strings in the default charset.  A string of more than
128 bytes overflows the buffer; then the thread ends without closing the pipe, and `main` waits for
good.
-/

namespace LearnJava

namespace TestPipe

/-- `strs` -/
def strs : List String := ["#测试#", "†LiSA†", "√蓝井艾露√", "∫ユリカ∫", "πさユりπ"]

/-- Where the thread is. -/
inductive WriterPhase
  /-- `writeByteBuffer.put(strs[i].getBytes())`, or `sinkChannel.close()` at the end -/
  | putting
  /-- `sinkChannel.write(writeByteBuffer)` -/
  | writing
  | ended
  | thrown (e : Throwable)
  deriving DecidableEq

/-- The two threads, the strings that are left, the pipe and `System.out`. -/
structure State where
  writer : WriterPhase
  writeByteBuffer : ByteBuffer
  todo : List (List Byte)
  pipe : List Byte
  sinkClosed : Bool
  mainEnded : Bool
  readByteBuffer : ByteBuffer
  out : List Byte

/-- A step of either thread; `k` limits how many bytes go through. -/
inductive Act
  | write (k : ℕ)
  | read (k : ℕ)
  deriving DecidableEq, Repr

/-- A step of the thread. -/
def State.write (capacity : ℕ) (s : State) (k : ℕ) : Option State :=
  match s.writer with
  | .putting =>
    match s.todo with
    | str :: todo =>
      match s.writeByteBuffer.put str with
      | .ok writeByteBuffer =>
        some { s with writer := .writing, writeByteBuffer := writeByteBuffer.flip, todo }
      | .error e => some { s with writer := .thrown e }
    | [] => some { s with writer := .ended, sinkClosed := true }
  | .writing =>
    if s.writeByteBuffer.remaining = 0 then
      some { s with writer := .putting, writeByteBuffer := s.writeByteBuffer.clear }
    else
      match s.writeByteBuffer.get
          (min (k + 1) (min s.writeByteBuffer.remaining (capacity - s.pipe.length))) with
      | .ok (bytes, writeByteBuffer) =>
        if bytes = [] then none else some { s with writeByteBuffer, pipe := s.pipe ++ bytes }
      | .error e => some { s with writer := .thrown e }
  | _ => none

/-- A pass of the loop of `main`. -/
def State.read (s : State) (k : ℕ) : Option State :=
  if s.mainEnded then none
  else if s.pipe = [] then if s.sinkClosed then some { s with mainEnded := true } else none
  else
    let bytes := s.pipe.take (min (k + 1) s.readByteBuffer.remaining)
    match s.readByteBuffer.put bytes with
    | .ok readByteBuffer =>
      some { s with
        pipe := s.pipe.drop bytes.length
        out := s.out ++ readByteBuffer.flip.content
        readByteBuffer := readByteBuffer.flip.clear }
    | .error _ => none

/-- One step. -/
def step (capacity : ℕ) (s : State) : Act → Option State
  | .write k => s.write capacity k
  | .read k => s.read k

/-- Before the first string. -/
def initial (strs : List (List Byte)) : State :=
  ⟨.putting, .allocate 128, strs, [], false, false, .allocate 128, []⟩

/-- The two threads, in any interleaving. -/
def machine (capacity : ℕ) (strs : List (List Byte)) : Machine State Act where
  init s := s = initial strs
  step := step capacity

/-! ## What a step does -/

/-- The bytes that the thread has put and not written yet. -/
def State.pending (s : State) : List Byte :=
  match s.writer with
  | .writing => s.writeByteBuffer.content
  | _ => []

/-- The buffers between the steps. -/
structure State.Tidy (s : State) : Prop where
  putting : s.writer = .putting → s.writeByteBuffer.IsClear 128
  capacity : s.writeByteBuffer.capacity = 128
  reading : s.readByteBuffer.IsClear 128

/-- The effects of the steps. -/
inductive Effect (capacity : ℕ) (s : State) : State → Prop
  | put {str : List Byte} {todo : List (List Byte)} {b : ByteBuffer} (hphase : s.writer = .putting)
      (htodo : s.todo = str :: todo) (hroom : str.length ≤ 128) (hcontent : b.content = str)
      (hcapacity : b.capacity = 128) :
      Effect capacity s { s with writer := .writing, writeByteBuffer := b, todo }
  | overflowed {str : List Byte} {todo : List (List Byte)} (hphase : s.writer = .putting)
      (htodo : s.todo = str :: todo) (hroom : 128 < str.length) :
      Effect capacity s { s with writer := .thrown .bufferOverflowException }
  | closed (hphase : s.writer = .putting) (htodo : s.todo = []) :
      Effect capacity s { s with writer := .ended, sinkClosed := true }
  | written {b : ByteBuffer} (hphase : s.writer = .writing)
      (hcontent : s.writeByteBuffer.content = []) (hclear : b.IsClear 128) :
      Effect capacity s { s with writer := .putting, writeByteBuffer := b }
  | wrote {b : ByteBuffer} {bytes : List Byte} (hphase : s.writer = .writing) (hne : bytes ≠ [])
      (hcontent : s.writeByteBuffer.content = bytes ++ b.content) (hcapacity : b.capacity = 128)
      (hfits : s.pipe.length + bytes.length ≤ capacity) :
      Effect capacity s { s with writeByteBuffer := b, pipe := s.pipe ++ bytes }
  | read {b : ByteBuffer} {bytes rest : List Byte} (hmain : s.mainEnded = false) (hne : bytes ≠ [])
      (hpipe : s.pipe = bytes ++ rest) (hclear : b.IsClear 128) :
      Effect capacity s
        { s with pipe := rest, out := s.out ++ bytes, readByteBuffer := b }
  | ended (hmain : s.mainEnded = false) (hpipe : s.pipe = []) (hclosed : s.sinkClosed = true) :
      Effect capacity s { s with mainEnded := true }

section Steps

variable {capacity : ℕ} {s s' : State} {k : ℕ}

/-- Every step of the thread has one of the effects. -/
lemma write_cases (hs : s.Tidy) (h : s.write capacity k = some s') : Effect capacity s s' := by
  rw [State.write] at h
  split at h
  · rename_i hphase
    have hclear := hs.putting hphase
    split at h
    · rename_i str todo htodo
      by_cases hroom : str.length ≤ 128
      · obtain ⟨b, hput, hwritten, -, hcapacity⟩ :=
          s.writeByteBuffer.put_written (hroom.trans hclear.remaining.ge)
        rw [hput] at h
        obtain rfl := Option.some.inj h
        refine .put hphase htodo hroom ?_ (hcapacity.trans hclear.capacity)
        rw [ByteBuffer.content_flip, hwritten, hclear.written, List.nil_append]
      · have hfull : s.writeByteBuffer.remaining < str.length := by
          rw [hclear.remaining]
          exact not_le.mp hroom
        rw [ByteBuffer.put_error hfull] at h
        obtain rfl := Option.some.inj h
        exact .overflowed hphase htodo (not_le.mp hroom)
    · rename_i htodo
      obtain rfl := Option.some.inj h
      exact .closed hphase htodo
  · rename_i hphase
    by_cases hremaining : s.writeByteBuffer.remaining = 0
    · rw [if_pos hremaining] at h
      obtain rfl := Option.some.inj h
      refine .written hphase ?_ (ByteBuffer.isClear_clear hs.capacity)
      exact List.length_eq_zero_iff.mp ((ByteBuffer.length_content _).trans hremaining)
    · rw [if_neg hremaining] at h
      obtain ⟨b, hget, hcontent, -, -, hcapacity⟩ := s.writeByteBuffer.get_content
        (n := min (k + 1) (min s.writeByteBuffer.remaining (capacity - s.pipe.length))) (by omega)
      rw [hget] at h
      by_cases hbytes : s.writeByteBuffer.content.take
          (min (k + 1) (min s.writeByteBuffer.remaining (capacity - s.pipe.length))) = []
      · simp [hbytes] at h
      · simp only [hbytes, if_false] at h
        obtain rfl := Option.some.inj h
        refine .wrote hphase hbytes ?_ (hcapacity.trans hs.capacity) ?_
        · rw [hcontent, List.take_append_drop]
        · have hpos := List.length_pos_of_ne_nil hbytes
          rw [List.length_take] at hpos ⊢
          omega
  · cases h

/-- Every step of `main` has one of the effects. -/
lemma read_cases (hs : s.Tidy) (h : s.read k = some s') : Effect capacity s s' := by
  rw [State.read] at h
  by_cases hended : s.mainEnded = true
  · simp [hended] at h
  · have hmain := eq_false_of_ne_true hended
    rw [if_neg hended] at h
    by_cases hpipe : s.pipe = []
    · rw [if_pos hpipe] at h
      split_ifs at h with hclosed
      obtain rfl := Option.some.inj h
      exact .ended hmain hpipe hclosed
    · rw [if_neg hpipe] at h
      have hpos := List.length_pos_of_ne_nil hpipe
      have hroom : (s.pipe.take (min (k + 1) s.readByteBuffer.remaining)).length ≤
          s.readByteBuffer.remaining := by
        rw [List.length_take]
        omega
      have hne : s.pipe.take (min (k + 1) s.readByteBuffer.remaining) ≠ [] := by
        refine List.ne_nil_of_length_pos ?_
        rw [List.length_take, hs.reading.remaining]
        omega
      obtain ⟨b, hput, hwritten, -, hcapacity⟩ := s.readByteBuffer.put_written hroom
      rw [hs.reading.written, List.nil_append] at hwritten
      simp only [hput, ByteBuffer.content_flip, hwritten] at h
      obtain rfl := Option.some.inj h
      exact .read hmain hne (List.prefix_append_drop (List.take_prefix _ _))
        (ByteBuffer.isClear_clear (b := b.flip) (hcapacity.trans hs.reading.capacity))

lemma step_cases {a : Act} (hs : s.Tidy) (h : step capacity s a = some s') :
    Effect capacity s s' := by
  cases a with
  | write k => exact write_cases hs h
  | read k => exact read_cases hs h

end Steps

/-! ## What goes through the pipe -/

/-- The invariant of the two threads. -/
structure Inv (capacity : ℕ) (strs : List (List Byte)) (s : State) : Prop where
  tidy : s.Tidy
  /-- Every byte is on `System.out`, in the pipe, in the buffer of the thread or still to be put. -/
  conserved : s.out ++ s.pipe ++ s.pending ++ s.todo.flatten = strs.flatten
  done : ∃ done, strs = done ++ s.todo ∧ ∀ str ∈ done, str.length ≤ 128
  fits : s.pipe.length ≤ capacity
  ended : s.writer = .ended → s.todo = []
  closed : s.sinkClosed = true ↔ s.writer = .ended
  thrown : ∀ e, s.writer = .thrown e → e = .bufferOverflowException ∧
    ∃ str todo, s.todo = str :: todo ∧ 128 < str.length
  mainEnded : s.mainEnded = true → s.pipe = [] ∧ s.writer = .ended

section Invariant

variable {capacity : ℕ} {strs : List (List Byte)} {s s' : State}

lemma inv_initial : Inv capacity strs (initial strs) where
  tidy := ⟨fun _ => ByteBuffer.isClear_allocate 128, rfl, ByteBuffer.isClear_allocate 128⟩
  conserved := rfl
  done := ⟨[], rfl, by simp⟩
  fits := Nat.zero_le capacity
  ended := by simp [initial]
  closed := by simp [initial]
  thrown := by simp [initial]
  mainEnded := by simp [initial]

lemma State.pending_of_ne (h : s.writer ≠ .writing) : s.pending = [] := by
  rw [pending]
  split
  · rename_i hphase
    exact absurd hphase h
  · rfl

lemma State.pending_of_writing (h : s.writer = .writing) :
    s.pending = s.writeByteBuffer.content := by
  rw [pending, h]

/-- **Every step keeps the invariant.** -/
lemma inv_step {a : Act} (hs : Inv capacity strs s) (h : step capacity s a = some s') :
    Inv capacity strs s' := by
  obtain ⟨htidy, hconserved, ⟨done, hdone, hshort⟩, hfits, hended, hclosed, hthrown, hmain⟩ := hs
  cases step_cases htidy h with
  | @put str todo b hphase htodo hroom hcontent hcapacity =>
      have hopen : s.sinkClosed ≠ true := fun hc => by cases hphase.symm.trans (hclosed.mp hc)
      have hrunning : s.mainEnded ≠ true := fun hm => by cases hphase.symm.trans (hmain hm).2
      rw [State.pending_of_ne (by simp [hphase]), htodo, List.append_nil, List.flatten_cons]
        at hconserved
      refine ⟨⟨by simp, hcapacity, htidy.reading⟩, ?_, ⟨done ++ [str], ?_, ?_⟩, hfits, by simp,
        by simpa using hopen, by simp, fun hm => absurd hm hrunning⟩
      · rw [State.pending_of_writing rfl]
        simpa [hcontent] using hconserved
      · rw [hdone, htodo]
        simp
      · intro t ht
        rw [List.mem_append, List.mem_singleton] at ht
        obtain ht | rfl := ht
        · exact hshort t ht
        · exact hroom
  | @overflowed str todo hphase htodo hroom =>
      have hopen : s.sinkClosed ≠ true := fun hc => by cases hphase.symm.trans (hclosed.mp hc)
      have hrunning : s.mainEnded ≠ true := fun hm => by cases hphase.symm.trans (hmain hm).2
      rw [State.pending_of_ne (by simp [hphase])] at hconserved
      refine ⟨⟨by simp, htidy.capacity, htidy.reading⟩, ?_, ⟨done, hdone, hshort⟩, hfits, by simp,
        by simpa using hopen, ?_, fun hm => absurd hm hrunning⟩
      · rw [State.pending_of_ne (by simp)]
        exact hconserved
      · rintro e ⟨⟩
        exact ⟨rfl, str, todo, htodo, hroom⟩
  | closed hphase htodo =>
      have hrunning : s.mainEnded ≠ true := fun hm => by cases hphase.symm.trans (hmain hm).2
      rw [State.pending_of_ne (by simp [hphase])] at hconserved
      refine ⟨⟨by simp, htidy.capacity, htidy.reading⟩, ?_, ⟨done, hdone, hshort⟩, hfits,
        fun _ => htodo, by simp, by simp, fun hm => absurd hm hrunning⟩
      rw [State.pending_of_ne (by simp)]
      exact hconserved
  | @written b hphase hcontent hclear =>
      have hopen : s.sinkClosed ≠ true := fun hc => by cases hphase.symm.trans (hclosed.mp hc)
      have hrunning : s.mainEnded ≠ true := fun hm => by cases hphase.symm.trans (hmain hm).2
      rw [State.pending_of_writing hphase, hcontent] at hconserved
      refine ⟨⟨fun _ => hclear, hclear.capacity, htidy.reading⟩, ?_, ⟨done, hdone, hshort⟩, hfits,
        by simp, by simpa using hopen, by simp, fun hm => absurd hm hrunning⟩
      rw [State.pending_of_ne (by simp)]
      exact hconserved
  | @wrote b bytes hphase _ hcontent hcapacity hroom =>
      have hrunning : s.mainEnded ≠ true := fun hm => by cases hphase.symm.trans (hmain hm).2
      rw [State.pending_of_writing hphase, hcontent] at hconserved
      refine ⟨⟨fun hputting => ?_, hcapacity, htidy.reading⟩, ?_, ⟨done, hdone, hshort⟩,
        by simpa using hroom, hended, hclosed, hthrown, fun hm => absurd hm hrunning⟩
      · cases hphase.symm.trans hputting
      · rw [State.pending_of_writing (s := { s with writeByteBuffer := b, pipe := s.pipe ++ bytes })
          hphase]
        simpa using hconserved
  | @read b bytes rest hopen _ hpipe hclear =>
      rw [hpipe] at hconserved hfits
      refine ⟨⟨htidy.putting, htidy.capacity, hclear⟩, ?_, ⟨done, hdone, hshort⟩, ?_, hended,
        hclosed, hthrown, fun hm => by cases hopen.symm.trans hm⟩
      · change s.out ++ bytes ++ rest ++ s.pending ++ s.todo.flatten = _
        simpa using hconserved
      · rw [List.length_append] at hfits
        exact (Nat.le_add_left _ _).trans hfits
  | ended _ hpipe hsink =>
      exact ⟨⟨htidy.putting, htidy.capacity, htidy.reading⟩, hconserved, ⟨done, hdone, hshort⟩,
        hfits, hended, hclosed, hthrown, fun _ => ⟨hpipe, hclosed.mp hsink⟩⟩

end Invariant

/-! ## The end of the two threads -/

/-- How many steps are left at most. -/
def State.distance (s : State) : ℕ :=
  (s.todo.map fun str => 2 * str.length + 3).sum +
    (match s.writer with
      | .writing => 2 * s.writeByteBuffer.content.length + 2
      | .putting => 1
      | _ => 0) +
    s.pipe.length + if s.mainEnded then 0 else 1

section Runs

variable {capacity : ℕ} {strs : List (List Byte)} {s s' : State} {ms : List (Move State Act)}

/-- **Every step leads nearer to the end.** -/
lemma distance_lt {a : Act} (hs : s.Tidy) (h : step capacity s a = some s') :
    s'.distance < s.distance := by
  cases step_cases hs h with
  | put hphase htodo _ hcontent =>
      simp only [State.distance, hphase, htodo, hcontent, List.map_cons, List.sum_cons]
      omega
  | overflowed hphase | closed hphase =>
      simp only [State.distance, hphase]
      omega
  | written hphase hcontent =>
      simp only [State.distance, hphase, hcontent, List.length_nil]
      omega
  | wrote hphase hne hcontent =>
      have hpos := List.length_pos_of_ne_nil hne
      simp only [State.distance, hphase, hcontent, List.length_append]
      omega
  | read _ hne hpipe =>
      have hpos := List.length_pos_of_ne_nil hne
      simp only [State.distance, hpipe, List.length_append]
      omega
  | ended hmain => simp [State.distance, hmain]

lemma inv_of_run (h : (machine capacity strs).Run ms s) : Inv capacity strs s :=
  h.invariant (fun s hs => by
    obtain rfl : s = initial strs := hs
    exact inv_initial) fun _ _ _ => inv_step

/-- What the two threads come to. -/
inductive Outcome (strs : List (List Byte)) (s : State) : Prop
  /-- Both have ended, and all strings are on `System.out`. -/
  | copied (hshort : ∀ str ∈ strs, str.length ≤ 128) (hwriter : s.writer = .ended)
      (hmain : s.mainEnded = true) (hout : s.out = strs.flatten)
  /-- A string has overflowed the buffer, and `main` waits for good. -/
  | waits {before after : List (List Byte)} {str : List Byte}
      (hstrs : strs = before ++ str :: after) (hshort : ∀ str ∈ before, str.length ≤ 128)
      (hlong : 128 < str.length)
      (hwriter : s.writer = .thrown .bufferOverflowException) (hmain : s.mainEnded = false)
      (hout : s.out = before.flatten)

/-- `main` only waits while the pipe is empty and open. -/
lemma of_read_eq_none (h : s.read 0 = none) (hmain : s.mainEnded = false) :
    s.pipe = [] ∧ s.sinkClosed = false := by
  rw [State.read, hmain, if_neg Bool.false_ne_true] at h
  by_cases hpipe : s.pipe = []
  · rw [if_pos hpipe] at h
    exact ⟨hpipe, eq_false_of_ne_true fun hclosed => by simp [hclosed] at h⟩
  · rw [if_neg hpipe] at h
    have hroom : (s.pipe.take (min (0 + 1) s.readByteBuffer.remaining)).length ≤
        s.readByteBuffer.remaining := by
      rw [List.length_take]
      omega
    obtain ⟨b, hput, -⟩ := s.readByteBuffer.put_written hroom
    simp [hput] at h

/-- The thread only waits while the pipe is full. -/
lemma of_write_eq_none (h : s.write capacity 0 = none) (hroom : s.pipe.length < capacity) :
    s.writer = .ended ∨ ∃ e, s.writer = .thrown e := by
  cases hphase : s.writer with
  | putting =>
      rw [State.write, hphase] at h
      cases htodo : s.todo with
      | nil => simp [htodo] at h
      | cons str todo => cases hput : s.writeByteBuffer.put str <;> simp [htodo, hput] at h
  | writing =>
      rw [State.write, hphase] at h
      by_cases hremaining : s.writeByteBuffer.remaining = 0
      · simp [hremaining] at h
      · have hone :
            min (0 + 1) (min s.writeByteBuffer.remaining (capacity - s.pipe.length)) = 1 := by
          omega
        obtain ⟨b, hget, -⟩ := s.writeByteBuffer.get_content (n := 1) (by omega)
        have hne : s.writeByteBuffer.content.take 1 ≠ [] := by
          refine List.ne_nil_of_length_pos ?_
          rw [List.length_take, ByteBuffer.length_content]
          omega
        simp only [hremaining, if_false, hone, hget] at h
        rw [if_neg hne] at h
        cases h
  | ended => exact .inl rfl
  | thrown e => exact .inr ⟨e, rfl⟩

/-- When no thread can go on. -/
lemma outcome_of_quiet (hcapacity : 0 < capacity) (hs : Inv capacity strs s)
    (hquiet : (machine capacity strs).Quiet (fun _ => True) s) : Outcome strs s := by
  have hread : s.read 0 = none := hquiet (.read 0) trivial
  have hpipe : s.pipe = [] := by
    cases hmain : s.mainEnded with
    | true => exact (hs.mainEnded hmain).1
    | false => exact (of_read_eq_none hread hmain).1
  have hwriter : s.writer = .ended ∨ ∃ e, s.writer = .thrown e :=
    of_write_eq_none (hquiet (.write 0) trivial) (by simpa [hpipe] using hcapacity)
  obtain ⟨done, hdone, hshort⟩ := hs.done
  have hconserved := hs.conserved
  rw [hpipe, State.pending_of_ne (by obtain h | ⟨e, h⟩ := hwriter <;> simp [h]), List.append_nil,
    List.append_nil] at hconserved
  obtain hended | ⟨e, hthrown⟩ := hwriter
  · have htodo := hs.ended hended
    rw [htodo, List.append_nil] at hdone
    rw [htodo, List.flatten_nil, List.append_nil] at hconserved
    refine .copied (hdone ▸ hshort) hended ?_ hconserved
    by_contra hmain
    have hopen := (of_read_eq_none hread (eq_false_of_ne_true hmain)).2
    cases hopen.symm.trans (hs.closed.mpr hended)
  · obtain ⟨rfl, str, todo, htodo, hlong⟩ := hs.thrown e hthrown
    rw [htodo] at hdone
    refine .waits hdone hshort hlong hthrown (eq_false_of_ne_true fun hmain => ?_) ?_
    · cases hthrown.symm.trans (hs.mainEnded hmain).2
    · rw [hdone, htodo, List.flatten_append] at hconserved
      exact List.append_cancel_right hconserved

/-- `TestPipe` with any strings, however its two threads are interleaved and the bytes are cut on
their way: what has come to `System.out` is always a first part of all strings; every run is finite,
and each can be carried on until no thread can go on.  Then all strings have been copied and both
threads have ended, if none of them has more than 128 bytes; otherwise those before the first one
that has more have been copied, the thread has ended by a `BufferOverflowException`, and `main`
waits for good. -/
theorem pipe_copies (hcapacity : 0 < capacity) (h : (machine capacity strs).Run ms s) :
    s.out <+: strs.flatten ∧ s.pipe.length ≤ capacity ∧ ms.length ≤ (initial strs).distance ∧
      (∃ ms' s', (machine capacity strs).Run (ms ++ ms') s' ∧
        (machine capacity strs).Quiet (fun _ => True) s') ∧
      ((machine capacity strs).Quiet (fun _ => True) s → Outcome strs s) := by
  have hs := inv_of_run h
  have hinit : ∀ s, (machine capacity strs).init s → Inv capacity strs s := by
    rintro s rfl
    exact inv_initial
  refine ⟨⟨s.pipe ++ s.pending ++ s.todo.flatten, by simpa using hs.conserved⟩, hs.fits, ?_, ?_,
    outcome_of_quiet hcapacity hs⟩
  · have hle := h.length_add_variant_le State.distance (n := (initial strs).distance)
      (fun s hs => ⟨hinit s hs, by rw [show s = initial strs from hs]⟩) (fun _ _ _ => inv_step)
      fun _ _ _ hs => distance_lt hs.tidy
    omega
  · obtain ⟨ms', s', hrun, -, hquiet⟩ := h.exists_quiet (fun _ => True) State.distance hinit
      (fun _ _ _ => inv_step) fun _ _ _ hs _ => distance_lt hs.tidy
    exact ⟨ms', s', hrun, hquiet⟩

/-- The strings of the program fit into the buffer. -/
example : ∀ str ∈ TestPipe.strs.map getBytes, str.length ≤ 128 := by decide +kernel

/-- A pipe of four bytes. -/
def copyingRun : List Act :=
  [.write 0, .write 9, .read 1, .read 0, .write 0, .write 0, .write 1, .read 9]

theorem pipe_copies_copyingRun :
    ((machine 4 [[1, 2, 3], [4, 5]]).play (initial [[1, 2, 3], [4, 5]]) copyingRun).isSome ∧
      (((machine 4 [[1, 2, 3], [4, 5]]).play (initial [[1, 2, 3], [4, 5]]) copyingRun).getD
        (initial [[1, 2, 3], [4, 5]])).out <+: [1, 2, 3, 4, 5] :=
  ⟨by decide +kernel, (pipe_copies (by decide)
    (Machine.run_getD_of_play _ rfl (by decide +kernel))).1⟩

end Runs

end TestPipe

end LearnJava
