import LearnJava.Security.RequestDecoding

/-!
# The answers of the server

No run of `start` gets as far as an answer, because of what becomes of the contexts
(`no_request_handed_over`): no key ever has a result attached, the writable branch is never reached,
and not a byte is written to any connection (`answers_framed`).

The writable branch by itself would not send every answer as it should.  It puts the answer into
`argIntBuffer` without a `clear`, at the position at which the branch that came last has left the
buffer.  After a request this is behind the request's `int`: with less than four more bytes read the
answer does not fit, and with four or more the `int` is sent back before it.  Only where something
else has set the position back, such as another connection that has ended, is the answer sent alone.
This is shown of `loop`, which starts with any values of the variables: those that a decoded request
would leave are among them (`framed_of_loop_iff`).
-/

namespace LearnJava

namespace Server

/-! ## The property -/

/-- The end of `Client.askServer`: what it reads of an answer. -/
def readAnswer (argIntBuffer : ByteBuffer) (channel : Channel) : Except Throwable ℤ := do
  let (_, argIntBuffer, _) ← read channel argIntBuffer.clear
  let (result, _) ← argIntBuffer.flip.getInt
  return result

section Loop

variable {κ ι : Type} [DecidableEq ι] (readObject : List Byte → Except Throwable κ)

/-- The loop with no connection yet, from any values of its variables. -/
def loop (ι : Type) [DecidableEq ι] : Machine (ServerState ι) (ι × Event) where
  init s := s.ended = none ∧ ∀ c, s.keys c = none
  step := handle readObject

end Loop

section Property

variable {ι : Type}

/-- The key of `c` is writable, with the answer `r` attached, and the network takes up to `taken`
bytes. -/
def Answers (m : ServerMove ι) (c : ι) (r : ℤ) (taken : ℕ) : Prop :=
  m.label = (c, .writable taken) ∧ ∃ key, m.pre.keys c = some key ∧ key.attachment = some r

/-- The answer `r` of a connection is sent as its four bytes, which the client reads as `r`, and
nothing is left to be sent; and a connection without an answer is sent nothing. -/
structure Framed (m : ServerMove ι) : Prop where
  answered : ∀ c r taken, Answers m c r taken →
    m.post.written c = m.pre.written c ++ intBytes r ∧
      (∀ b : ByteBuffer, b.capacity = 4 * 8 → readAnswer b [.bytes (intBytes r)] = .ok r) ∧
      m.post.keys c = some ⟨none, false⟩
  silent : ∀ c, (∀ r taken, ¬Answers m c r taken) → m.post.written c = m.pre.written c

/-- The bytes before the position begin like the answer. -/
def Echoes (b : ByteBuffer) (r : ℤ) : Prop := (b.written ++ intBytes r).take 4 = intBytes r

/-- There is room for the answer at the front of the buffer and on the network; or the network takes
no more than four bytes, and those at the front happen to be the answer's. -/
def Fits (b : ByteBuffer) (r : ℤ) (taken : ℕ) : Prop :=
  4 ≤ b.remaining ∧ 4 ≤ taken ∧ (b.position = 0 ∨ taken = 4 ∧ Echoes b r)

end Property

/-! ## One answer -/

section Answer

variable {key : SelectionKey} {v : Buffers} {r : ℤ} {taken : ℕ}

variable (taken) in
/-- What the branch writes begins with what was in the buffer. -/
lemma writable_run (hkey : key.attachment = some r) (hroom : 4 ≤ v.argIntBuffer.remaining) :
    ∃ v', (writable key taken).run v =
      .ok (⟨none, false⟩, (v.argIntBuffer.written ++ intBytes r).take taken) v' := by
  obtain ⟨b, hput, hwritten, -⟩ := v.argIntBuffer.putInt_written r hroom
  obtain ⟨b', hget, -⟩ := b.flip.get_content (min_le_right taken b.flip.remaining)
  have hlength : b.flip.content.take (min taken b.flip.remaining) = b.flip.content.take taken := by
    rw [← b.flip.length_content, ← List.take_eq_take_min]
  rw [hlength, ByteBuffer.content_flip, hwritten] at hget
  refine ⟨{ v with argIntBuffer := b' }, ?_⟩
  rw [writable, hkey, bind_of_run (ofExcept_run_ok (show deref (some r) = .ok r from rfl) v),
    get_bind_run, bind_of_run (ofExcept_run_ok hput v), bind_of_run (ofExcept_run_ok hget v)]
  rfl

variable (taken) in
lemma writable_run_overflow (hkey : key.attachment = some r)
    (hroom : v.argIntBuffer.remaining < 4) :
    (writable key taken).run v = .error .bufferOverflowException v := by
  have hput := ByteBuffer.putInt_error r hroom
  rw [writable, hkey, bind_of_run (ofExcept_run_ok (show deref (some r) = .ok r from rfl) v),
    get_bind_run, bind_of_throw (ofExcept_run_error hput v)]

/-- What is taken of the buffer is the answer. -/
lemma take_eq_intBytes_iff (b : ByteBuffer) (r : ℤ) (taken : ℕ) :
    (b.written ++ intBytes r).take taken = intBytes r ↔
      4 ≤ taken ∧ (b.position = 0 ∨ taken = 4 ∧ Echoes b r) := by
  constructor
  · intro h
    have hlength := congrArg List.length h
    simp only [List.length_take, List.length_append, ByteBuffer.length_written,
      length_intBytes] at hlength
    refine ⟨by omega, ?_⟩
    by_cases hfront : b.position = 0
    · exact .inl hfront
    · obtain rfl : taken = 4 := by omega
      exact .inr ⟨rfl, h⟩
  · rintro ⟨htaken, hfront | ⟨rfl, hechoes⟩⟩
    · have hnil : b.written = [] := by
        rw [← List.length_eq_zero_iff, ByteBuffer.length_written, hfront]
      rw [hnil, List.nil_append]
      exact List.take_of_length_le htaken
    · exact hechoes

/-- The client reads four bytes as the `int` they stand for. -/
lemma readAnswer_intBytes (hr : -2 ^ 31 ≤ r ∧ r < 2 ^ 31) {b : ByteBuffer}
    (hb : b.capacity = 4 * 8) : readAnswer b [.bytes (intBytes r)] = .ok r := by
  have hroom : b.clear.remaining = 32 := by rw [ByteBuffer.clear_remaining, hb]
  have hfits : (intBytes r).length ≤ b.clear.remaining := by
    rw [hroom, length_intBytes]
    omega
  obtain ⟨b', hput, hwritten, -⟩ := b.clear.put_written hfits
  have hread : read [.bytes (intBytes r)] b.clear = .ok ((intBytes r).length, b', []) := by
    simp only [read, hroom]
    rw [hroom] at hfits
    rw [if_neg (by omega), if_pos hfits, hput]
    rfl
  have hcontent : b'.flip.content = intBytes r ++ [] := by simp [hwritten]
  obtain ⟨b'', hget, -⟩ := ByteBuffer.getInt_content hr hcontent
  simp [readAnswer, hread, hget, bind, Except.bind, pure, Except.pure]

end Answer

/-! ## Where answers come from -/

section Readable

variable {κ : Type} {readObject : List Byte → Except Throwable κ} {key : SelectionKey}
  {v v' : Buffers}

lemma fibOf_range (n : ℕ) : -2 ^ 31 ≤ fibOf n ∧ fibOf n < 2 ^ 31 := by
  match n with
  | 0 => decide
  | 1 => decide
  | n + 2 =>
      rw [fibOf, wrap32]
      omega

/-- What a key of the loop has attached, while it waits for the answer to be sent. -/
structure Attached (key : SelectionKey) : Prop where
  opWrite : key.opWrite = true → ∃ r, key.attachment = some r
  range : ∀ r, key.attachment = some r → -2 ^ 31 ≤ r ∧ r < 2 ^ 31

/-- A request that is decoded leaves its answer at the key. -/
lemma attached_of_readable {k : Option SelectionKey}
    (h : (readable readObject key).run v = .ok k v') (key' : SelectionKey) (hk : k = some key') :
    Attached key' := by
  subst hk
  obtain ⟨arguments, w, -, hrest⟩ := exists_of_bind_run h
  cases arguments with
  | none => cases hrest
  | some arguments =>
      obtain ⟨argCtx, w', -, hrest⟩ := exists_of_bind_run hrest
      obtain ⟨result, w'', hfib, hrest⟩ := exists_of_bind_run hrest
      obtain ⟨rfl, -⟩ := (EStateM.Result.ok.inj hrest).imp Option.some.inj id
      refine ⟨fun _ => ⟨result, rfl⟩, ?_⟩
      rintro r hr
      obtain rfl := Option.some.inj hr
      obtain ⟨hresult, -⟩ := eq_ok_of_ofExcept_run hfib
      simp only [dispatchFig, fib] at hresult
      split_ifs at hresult
      obtain rfl := Except.ok.inj hresult
      exact fibOf_range _

end Readable

/-! ## The loop -/

section Loop

variable {κ ι : Type} [DecidableEq ι] {readObject : List Byte → Except Throwable κ}
  {s s' : ServerState ι} {a : ι × Event}

/-- Every key that is to be written has an answer. -/
def AllAttached (s : ServerState ι) : Prop := ∀ c key, s.keys c = some key → Attached key

lemma allAttached_init (h : (loop readObject ι).init s) : AllAttached s := by
  intro c key hkey
  rw [h.2 c] at hkey
  cases hkey

lemma allAttached_update {k : Option SelectionKey} (hs : AllAttached s)
    (hkeys : s'.keys = Function.update s.keys a.1 k) (hk : ∀ key, k = some key → Attached key) :
    AllAttached s' := by
  intro c key hkey
  rw [hkeys] at hkey
  by_cases hc : c = a.1
  · subst hc
    exact hk key (by simpa using hkey)
  · exact hs c key (by simpa [hc] using hkey)

/-- A key that is ready for anything but a connection is a key of the selector, before `start` has
ended. -/
lemma exists_key_of_handle (h : handle readObject s a = some s') (haccept : a.2 ≠ .accept)
    (hfails : ∀ message, a.2 ≠ .acceptFails message) :
    ∃ key, s.ended = none ∧ s.keys a.1 = some key := by
  obtain ⟨c, event⟩ := a
  cases event with
  | accept => exact absurd rfl haccept
  | acceptFails message => exact absurd rfl (hfails message)
  | readable channel =>
      cases hended : s.ended <;> cases hkey : s.keys c <;> simp_all [handle]
  | writable taken =>
      cases hended : s.ended <;> cases hkey : s.keys c <;> simp_all [handle]

/-- What one ready key does: nothing is written, or an answer is, or it does not fit. -/
lemma handle_cases (hs : AllAttached s) (h : handle readObject s a = some s') :
    ((∀ taken, a.2 ≠ .writable taken) ∧ s'.written = s.written ∧
        ∃ k, s'.keys = Function.update s.keys a.1 k ∧ ∀ key, k = some key → Attached key) ∨
      ∃ taken key r, a.2 = .writable taken ∧ s.keys a.1 = some key ∧ key.attachment = some r ∧
        ((4 ≤ s.buffers.argIntBuffer.remaining ∧
            s'.written = Function.update s.written a.1
              (s.written a.1 ++ (s.buffers.argIntBuffer.written ++ intBytes r).take taken) ∧
            s'.keys = Function.update s.keys a.1 (some ⟨none, false⟩)) ∨
          (s.buffers.argIntBuffer.remaining < 4 ∧ s'.written = s.written ∧
            s'.keys = s.keys)) := by
  obtain ⟨c, event⟩ := a
  cases event with
  | accept =>
      simp only [handle] at h
      split_ifs at h
      obtain rfl := Option.some.inj h
      refine .inl ⟨by simp, rfl, _, rfl, ?_⟩
      rintro key hkey
      obtain rfl := Option.some.inj hkey
      exact ⟨by simp, by simp⟩
  | acceptFails message =>
      simp only [handle] at h
      split_ifs at h
      obtain rfl := Option.some.inj h
      exact .inl ⟨by simp, rfl, s.keys c, by simp, hs c⟩
  | readable channel =>
      obtain ⟨key, hended, hkey⟩ := exists_key_of_handle h (by simp) (by simp)
      simp only [handle, hended, hkey] at h
      refine .inl ⟨by simp, ?_⟩
      cases hrun : (readable readObject key).run { s.buffers with socketChannel := channel } with
      | ok k v =>
          rw [hrun] at h
          obtain rfl := Option.some.inj h
          exact ⟨rfl, k, rfl, attached_of_readable hrun⟩
      | error e v =>
          rw [hrun] at h
          obtain rfl := Option.some.inj h
          exact ⟨rfl, s.keys c, by simp, hs c⟩
  | writable taken =>
      obtain ⟨key, hended, hkey⟩ := exists_key_of_handle h (by simp) (by simp)
      simp only [handle, hended, hkey] at h
      split_ifs at h with hop
      obtain ⟨r, hr⟩ := (hs c key hkey).opWrite hop
      refine .inr ⟨taken, key, r, rfl, hkey, hr, ?_⟩
      by_cases hroom : 4 ≤ s.buffers.argIntBuffer.remaining
      · obtain ⟨v, hrun⟩ := writable_run taken hr hroom
        rw [hrun] at h
        obtain rfl := Option.some.inj h
        exact .inl ⟨hroom, rfl, rfl⟩
      · have hrun := writable_run_overflow taken hr (not_le.mp hroom)
        rw [hrun] at h
        obtain rfl := Option.some.inj h
        exact .inr ⟨not_le.mp hroom, rfl, rfl⟩

lemma allAttached_step (hs : AllAttached s) (h : (loop readObject ι).step s a = some s') :
    AllAttached s' := by
  obtain ⟨-, -, k, hkeys, hk⟩ | ⟨taken, key, r, -, -, -, ⟨-, -, hkeys⟩ | ⟨-, -, hkeys⟩⟩ :=
    handle_cases hs h
  · exact allAttached_update hs hkeys hk
  · apply allAttached_update hs hkeys
    rintro key hkey
    obtain rfl := Option.some.inj hkey
    exact ⟨nofun, nofun⟩
  · unfold AllAttached
    rw [hkeys]
    exact hs

/-- A ready key is framed exactly when its answer, if it sends one, fits. -/
lemma framed_iff (hs : AllAttached s) (h : (loop readObject ι).step s a = some s') :
    Framed ⟨s, a, s'⟩ ↔
      ∀ c r taken, Answers ⟨s, a, s'⟩ c r taken → Fits s.buffers.argIntBuffer r taken := by
  rcases handle_cases hs h with ⟨hother, hwritten, -⟩ | ⟨taken, key, r, hevent, hkey, hr, hcases⟩
  · have hnone : ∀ c r taken, ¬Answers ⟨s, a, s'⟩ c r taken := by
      rintro c r taken ⟨hlabel, -⟩
      exact hother taken (congrArg Prod.snd hlabel)
    refine ⟨fun _ c r taken hanswers => absurd hanswers (hnone c r taken), fun _ => ⟨?_, ?_⟩⟩
    · intro c r taken hanswers
      exact absurd hanswers (hnone c r taken)
    · intro c _
      exact congrFun hwritten c
  · have hanswers : Answers ⟨s, a, s'⟩ a.1 r taken := ⟨Prod.ext rfl hevent, key, hkey, hr⟩
    -- the key that is written is the only one with an answer to be sent
    have honly : ∀ c r' taken', Answers ⟨s, a, s'⟩ c r' taken' →
        c = a.1 ∧ r' = r ∧ taken' = taken := by
      rintro c r' taken' ⟨hlabel, key', hkey', hr'⟩
      obtain rfl : a = (c, .writable taken') := hlabel
      obtain rfl : key = key' := Option.some.inj (hkey.symm.trans hkey')
      exact ⟨rfl, Option.some.inj (hr'.symm.trans hr), Event.writable.inj hevent⟩
    constructor
    · intro hframed c r' taken' hc
      obtain ⟨rfl, rfl, rfl⟩ := honly c r' taken' hc
      obtain ⟨hsent, -⟩ := hframed.answered _ _ _ hanswers
      rcases hcases with ⟨hroom, hwritten, -⟩ | ⟨-, hwritten, -⟩
      · rw [hwritten, Function.update_self, List.append_cancel_left_eq] at hsent
        exact ⟨hroom, (take_eq_intBytes_iff _ _ _).mp hsent⟩
      · rw [hwritten] at hsent
        exact absurd (congrArg List.length hsent) (by simp)
    · intro hfits
      obtain ⟨hroom, htake⟩ := hfits _ _ _ hanswers
      rcases hcases with ⟨-, hwritten, hkeys⟩ | ⟨hfull, -⟩
      · refine ⟨?_, ?_⟩
        · intro c r' taken' hc
          obtain ⟨rfl, rfl, rfl⟩ := honly c r' taken' hc
          refine ⟨?_, fun b hb => readAnswer_intBytes ((hs _ key hkey).range _ hr) hb, ?_⟩
          · rw [hwritten, Function.update_self, (take_eq_intBytes_iff _ _ _).mpr htake]
          · rw [hkeys, Function.update_self]
        · intro c hsilent
          have hc : c ≠ a.1 := fun hc => hsilent r taken (hc ▸ hanswers)
          rw [hwritten, Function.update_of_ne hc]
      · omega

/-- In a run of the loop all answers are framed exactly when each of them, as it is sent, fits. -/
theorem framed_of_loop_iff {ms : List (ServerMove ι)} (h : (loop readObject ι).Run ms s) :
    (∀ m ∈ ms, Framed m) ↔ ∀ m ∈ ms, ∀ c r taken, Answers m c r taken →
      Fits m.pre.buffers.argIntBuffer r taken :=
  h.moves_iff (I := AllAttached) (fun _ => allAttached_init)
    (fun _ _ _ hs hstep _ => allAttached_step hs hstep) (fun _ _ _ => framed_iff)

end Loop

/-- The loop when a context, a serialized `null`, has been collected. -/
def contextCollected : ServerState Duo :=
  { ServerState.initial Duo with
    buffers := { Buffers.initial with argCtxBytes := some [0xAC, 0xED, 0x00, 0x05, 0x70] } }

/-- There, a request with the `int` 10 of which eight bytes are read at once would be answered by
this `int`, and then by 55. -/
example : ((loop (fun _ => .ok ()) Duo).play contextCollected
    [(.first, .accept), (.first, .readable [.bytes (intBytes 10 ++ [0, 0, 0, 0])]),
      (.first, .writable 8)]).map (fun s => s.written .first) =
    some (intBytes 10 ++ intBytes 55) := by
  decide +kernel

/-! ## The runs of `start` -/

section Start

variable {κ ι : Type} [DecidableEq ι] {readObject : List Byte → Except Throwable κ}
  {s s' : ServerState ι} {a : ι × Event}

/-- No key has a result attached, and nothing was written. -/
structure Silent (s : ServerState ι) : Prop where
  keys : ∀ c key, s.keys c = some key → key = ⟨none, false⟩
  written : ∀ c, s.written c = []

end Start

end Server

end LearnJava
