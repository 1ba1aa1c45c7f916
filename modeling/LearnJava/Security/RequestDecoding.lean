import LearnJava.Security.Server

/-!
# What the server makes of a request

The readable branch reads up to 32 bytes where the `int` has 4, and what it has read of the context
with it is lost.  For the rest it asks `argCtxBuffer` for 1024 bytes after each read, without a
`flip`: if the read gave any bytes, less than 1024 remain, and the buffer underflows.  If it gave
none, because nothing has arrived, `readContext` gets what earlier requests have left, which is
`null`; and if it gave none because the stream has ended, then 1024 bytes are taken that were
never written.

So the first request ends `start`, and none is ever handed over as it was sent
(`no_request_handed_over`).
-/

namespace LearnJava

namespace Server

/-! ## The property -/

/-- The bytes of a request, as `Client.askServer` lays it out. -/
def layout (argInt : ℤ) (ctx : List Byte) : List Byte := intBytes argInt ++ ctx

/-- The reads of a branch find the bytes of a request, in any parts: all of them, maybe with the end
of the stream after them, or as many as have arrived so far. -/
def Delivers {ι : Type} (m : ServerMove ι) (argInt : ℤ) (ctx : List Byte) : Prop :=
  ∃ (parts : List (List Byte)) (tail : Channel),
    m.label.2 = .readable (parts.map Arrival.bytes ++ tail) ∧
      (tail = [] ∧ parts.flatten <+: layout argInt ctx ∨
        tail = [.endOfStream] ∧ parts.flatten = layout argInt ctx)

/-- The branch hands the `int` to `dispatchFig` and the context to `readContext`. -/
def HandsOver {ι : Type} (m : ServerMove ι) (argInt : ℤ) (ctx : List Byte) : Prop :=
  ∃ channel v, m.label.2 = .readable channel ∧
    decode.run { m.pre.buffers with socketChannel := channel } = .ok (some (argInt, some ctx)) v

/-! ## Reads -/

section Reads

variable {channel channel' : Channel} {b b' : ByteBuffer} {n : ℤ}

lemma read_full (h : b.remaining = 0) : read channel b = .ok (0, b, channel) := by
  unfold read
  rw [if_pos h]

/-- What a read into a buffer with room does. -/
lemma read_cases (hroom : b.remaining ≠ 0) (h : read channel b = .ok (n, b', channel')) :
    (channel = [] ∧ n = 0 ∧ b' = b) ∨
      (∃ rest, channel = .endOfStream :: rest ∧ n = -1 ∧ b' = b ∧ channel' = channel) ∨
      ∃ bs rest k, channel = .bytes bs :: rest ∧ n = (k : ℕ) ∧ k = min bs.length b.remaining ∧
        b'.position = b.position + k ∧ b'.limit = b.limit ∧ b'.capacity = b.capacity ∧
        (k = 0 → b'.cells = b.cells) ∧
        channel' = if bs.length ≤ b.remaining then rest
          else .bytes (bs.drop b.remaining) :: rest := by
  unfold read at h
  rw [if_neg hroom] at h
  split at h
  · obtain ⟨rfl, rfl, -⟩ : 0 = n ∧ b = b' ∧ [] = channel' := by simpa using h
    exact .inl ⟨rfl, rfl, rfl⟩
  · cases h
  · rename_i rest
    obtain ⟨rfl, rfl, rfl⟩ : -1 = n ∧ b = b' ∧ _ = channel' := by simpa using h
    exact .inr (.inl ⟨rest, rfl, rfl, rfl, rfl⟩)
  · rename_i bs rest
    refine .inr (.inr ⟨bs, rest, min bs.length b.remaining, rfl, ?_⟩)
    split_ifs at h with hfits
    · obtain ⟨c, hput, hposition, hlimit, hcapacity, hcells⟩ := b.put_ok hfits
      rw [hput] at h
      obtain ⟨rfl, rfl, rfl⟩ : (bs.length : ℤ) = n ∧ c = b' ∧ rest = channel' := by
        simpa [Except.map] using h
      rw [Nat.min_eq_left hfits, if_pos hfits]
      exact ⟨rfl, rfl, hposition, hlimit, hcapacity, fun hzero =>
        hcells (List.length_eq_zero_iff.mp hzero), rfl⟩
    · have htake : (bs.take b.remaining).length = b.remaining :=
        List.length_take_of_le (Nat.le_of_not_le hfits)
      obtain ⟨c, hput, hposition, hlimit, hcapacity, -⟩ := b.put_ok htake.le
      rw [hput] at h
      obtain ⟨rfl, rfl, rfl⟩ : (b.remaining : ℤ) = n ∧ c = b' ∧ _ = channel' := by
        simpa [Except.map] using h
      rw [Nat.min_eq_right (Nat.le_of_not_le hfits), if_neg hfits]
      rw [htake] at hposition
      exact ⟨rfl, rfl, hposition, hlimit, hcapacity, fun hzero => absurd hzero hroom, rfl⟩

end Reads

/-! ## The loop -/

/-- The variables as long as no request was read: the buffer of contexts has never been written. -/
structure Fresh (v : Buffers) : Prop where
  int_capacity : v.argIntBuffer.capacity = 32
  ctx_capacity : v.argCtxBuffer.capacity = 1024
  ctx_cells : v.argCtxBuffer.cells = List.replicate 1024 0
  readBytes : v.readBytes.length = 1024
  argCtxBytes : v.argCtxBytes = none

lemma fresh_initial : Fresh .initial := ⟨rfl, rfl, rfl, List.length_replicate, rfl⟩

section Steps

variable {v : Buffers}

lemma readArgInt_run (v : Buffers) : readArgInt.run v =
    match read v.socketChannel v.argIntBuffer with
    | .ok (n, b, channel) => .ok n { v with argIntBuffer := b, socketChannel := channel }
    | .error e => .error e v := by
  cases hr : read v.socketChannel v.argIntBuffer with
  | ok r => exact get_ofExcept_run_ok hr
  | error e => exact get_ofExcept_run_error hr

lemma readArgCtx_run (v : Buffers) : readArgCtx.run v =
    match read v.socketChannel v.argCtxBuffer with
    | .ok (n, b, channel) => .ok n { v with argCtxBuffer := b, socketChannel := channel }
    | .error e => .error e v := by
  cases hr : read v.socketChannel v.argCtxBuffer with
  | ok r => exact get_ofExcept_run_ok hr
  | error e => exact get_ofExcept_run_error hr

lemma getArgInt_run (v : Buffers) : getArgInt.run v =
    match v.argIntBuffer.getInt with
    | .ok (argInt, b) => .ok argInt { v with argIntBuffer := b }
    | .error e => .error e v := by
  cases hr : v.argIntBuffer.getInt with
  | ok r => exact get_ofExcept_run_ok hr
  | error e => exact get_ofExcept_run_error hr

/-- After a read of some bytes the buffer underflows. -/
lemma collect_underflow (h : v.argCtxBuffer.remaining < v.readBytes.length) :
    collect.run v = .error .bufferUnderflowException v :=
  get_ofExcept_run_error (ByteBuffer.get_error h)

/-- At the end of the stream the whole buffer is taken. -/
lemma collect_whole (hremaining : v.argCtxBuffer.remaining = 1024)
    (hposition : v.argCtxBuffer.position = 0)
    (hcells : v.argCtxBuffer.cells = List.replicate 1024 0) (hreadBytes : v.readBytes.length = 1024)
    (hnone : v.argCtxBytes = none) :
    ∃ w, collect.run v = .ok ⟨⟩ w ∧ w.argCtxBuffer.remaining = 0 ∧
      w.argCtxBytes = some (List.replicate 1024 0) := by
  have hle : v.readBytes.length ≤ v.argCtxBuffer.remaining := by rw [hreadBytes, hremaining]
  obtain ⟨b, hget, hposition', hlimit', -, -⟩ := ByteBuffer.get_ok hle
  have hbytes : (v.argCtxBuffer.cells.drop v.argCtxBuffer.position).take v.readBytes.length =
      List.replicate 1024 0 := by
    rw [hposition, hcells, hreadBytes, List.drop_zero,
      List.take_of_length_le List.length_replicate.le]
  rw [hbytes] at hget
  rw [show collect.run v = _ from get_ofExcept_run_ok hget]
  dsimp only
  rw [hnone]
  refine ⟨_, rfl, ?_, ?_⟩
  · unfold ByteBuffer.remaining at hremaining ⊢
    rw [hposition] at hremaining hposition'
    show b.limit - b.position = 0
    omega
  · show some (copyOfBytes (List.replicate 1024 0) v.argCtxBuffer.remaining) = _
    rw [hremaining, copyOfBytes, List.length_replicate, Nat.sub_self,
      List.take_of_length_le List.length_replicate.le, List.replicate_zero, List.append_nil]

/-- The loop, from a buffer that was cleared and never written: it throws, or it finds nothing, or
the end of the stream. -/
lemma collectAll_fresh (hremaining : v.argCtxBuffer.remaining = 1024)
    (hposition : v.argCtxBuffer.position = 0)
    (hcells : v.argCtxBuffer.cells = List.replicate 1024 0) (hreadBytes : v.readBytes.length = 1024)
    (hnone : v.argCtxBytes = none) (fuel : ℕ) :
    (∃ e w, (collectAll (fuel + 2)).run v = .error e w) ∨
      (∃ w, (collectAll (fuel + 2)).run v = .ok ⟨⟩ w ∧ w.argCtxBytes = none) ∨
      ∃ w rest, v.socketChannel = .endOfStream :: rest ∧
        (collectAll (fuel + 2)).run v = .ok ⟨⟩ w ∧
        w.argCtxBytes = some (List.replicate 1024 0) := by
  have hroom : v.argCtxBuffer.remaining ≠ 0 := by omega
  unfold collectAll
  cases hr : read v.socketChannel v.argCtxBuffer with
  | error e => exact .inl ⟨e, v, bind_of_throw (by rw [readArgCtx_run, hr]) _⟩
  | ok r =>
      obtain ⟨n, b, channel⟩ := r
      have hread : readArgCtx.run v =
          .ok n { v with argCtxBuffer := b, socketChannel := channel } := by
        rw [readArgCtx_run, hr]
      rw [bind_of_run hread]
      obtain ⟨-, rfl, rfl⟩ | ⟨rest, hchannel, rfl, rfl, rfl⟩ |
        ⟨bs, rest, k, -, rfl, hk, hpos, hlim, -⟩ := read_cases hroom hr
      · exact .inr (.inl ⟨_, rfl, hnone⟩)
      · obtain ⟨w, hcollect, hfull, hbytes⟩ :=
          collect_whole hremaining hposition hcells hreadBytes hnone
        refine .inr (.inr ⟨w, rest, hchannel, ?_, hbytes⟩)
        -- the buffer is full now, and the next read is the last
        have hlast : readArgCtx.run w = .ok 0 w := by rw [readArgCtx_run, read_full hfull]
        rw [if_pos (by decide), bind_of_run hcollect]
        unfold collectAll
        rw [bind_of_run hlast]
        rfl
      · by_cases hzero : k = 0
        · subst hzero
          exact .inr (.inl ⟨_, rfl, hnone⟩)
        · refine .inl ⟨.bufferUnderflowException,
            { v with argCtxBuffer := b, socketChannel := channel }, ?_⟩
          have hunder : b.remaining < v.readBytes.length := by
            unfold ByteBuffer.remaining at hremaining ⊢
            omega
          rw [if_pos (by omega), bind_of_throw (collect_underflow hunder)]

/-- The branch after its first read: it throws, or it hands over no context, or, at the end of the
stream, one that was never sent. -/
lemma decodeArguments_fresh (hcapacity : v.argCtxBuffer.capacity = 1024)
    (hcells : v.argCtxBuffer.cells = List.replicate 1024 0) (hreadBytes : v.readBytes.length = 1024)
    (hnone : v.argCtxBytes = none) :
    (∃ e w, decodeArguments.run v = .error e w) ∨
      (∃ argInt w, decodeArguments.run v = .ok (argInt, none) w) ∨
      ∃ argInt w rest, v.socketChannel = .endOfStream :: rest ∧ 4 ≤ v.argIntBuffer.position ∧
        decodeArguments.run v = .ok (argInt, some (List.replicate 1024 0)) w := by
  unfold decodeArguments
  rw [modify_bind_run]
  by_cases hint : 4 ≤ v.argIntBuffer.position
  · obtain ⟨argInt, b, hget⟩ := ByteBuffer.getInt_ok (b := v.argIntBuffer.flip) hint
    have hread : getArgInt.run { v with argIntBuffer := v.argIntBuffer.flip } =
        .ok argInt { v with argIntBuffer := b } := by rw [getArgInt_run, hget]
    rw [bind_of_run hread, modify_bind_run, get_bind_run, ByteBuffer.clear_remaining, hcapacity]
    obtain ⟨e, w, hloop⟩ | ⟨w, hloop, hbytes⟩ | ⟨w, rest, hchannel, hloop, hbytes⟩ :=
      collectAll_fresh (v := { v with
        argIntBuffer := b, argCtxBuffer := v.argCtxBuffer.clear }) hcapacity rfl hcells hreadBytes
        hnone 1023
    · exact .inl ⟨e, w, bind_of_throw hloop _⟩
    · rw [bind_of_run hloop, get_bind_run, hbytes]
      exact .inr (.inl ⟨argInt, w, rfl⟩)
    · rw [bind_of_run hloop, get_bind_run, hbytes]
      exact .inr (.inr ⟨argInt, w, rest, hchannel, hint, rfl⟩)
  · have hunder : v.argIntBuffer.flip.remaining < 4 := Nat.not_le.mp hint
    exact .inl ⟨_, _, bind_of_throw (by rw [getArgInt_run, ByteBuffer.getInt_error hunder]) _⟩

/-- The branch up to `readContext`: it finds the end of the stream, or throws, or it hands over no
context, or, when the stream ends after at most 32 bytes, one that was never sent. -/
lemma decode_fresh (hv : Fresh v) :
    (∃ rest w, v.socketChannel = .endOfStream :: rest ∧ decode.run v = .ok none w ∧ Fresh w) ∨
      (∃ e w, decode.run v = .error e w) ∨
      (∃ argInt w, decode.run v = .ok (some (argInt, none)) w) ∨
      ∃ argInt w bs rest, v.socketChannel = .bytes bs :: .endOfStream :: rest ∧ bs.length ≤ 32 ∧
        decode.run v = .ok (some (argInt, some (List.replicate 1024 0))) w := by
  have hclear : v.argIntBuffer.clear.remaining = 32 := hv.int_capacity
  have hroom : v.argIntBuffer.clear.remaining ≠ 0 := by omega
  unfold decode
  rw [modify_bind_run]
  cases hr : read v.socketChannel v.argIntBuffer.clear with
  | error e => exact .inr (.inl ⟨e, _, bind_of_throw (by rw [readArgInt_run, hr]) _⟩)
  | ok r =>
      obtain ⟨n, b, channel⟩ := r
      have hread : readArgInt.run { v with argIntBuffer := v.argIntBuffer.clear } =
          .ok n { v with argIntBuffer := b, socketChannel := channel } := by
        rw [readArgInt_run, hr]
      rw [bind_of_run hread]
      have hrest := decodeArguments_fresh
        (v := { v with argIntBuffer := b, socketChannel := channel }) hv.ctx_capacity hv.ctx_cells
        hv.readBytes hv.argCtxBytes
      obtain ⟨-, rfl, rfl⟩ | ⟨rest, hchannel, rfl, rfl, rfl⟩ |
        ⟨bs, rest, k, hchannel, rfl, hk, hpos, -, -, -, hafter⟩ := read_cases hroom hr
      · rw [if_neg (by decide)]
        obtain ⟨e, w, hrun⟩ | ⟨argInt, w, hrun⟩ | ⟨argInt, w, -, -, hshort, -⟩ := hrest
        · exact .inr (.inl ⟨e, w, bind_of_throw hrun _⟩)
        · exact .inr (.inr (.inl ⟨argInt, w, bind_of_run hrun _⟩))
        · exact absurd (show 4 ≤ 0 from hshort) (by decide)
      · exact .inl ⟨rest, _, hchannel, rfl, ⟨hv.int_capacity, hv.ctx_capacity, hv.ctx_cells,
          hv.readBytes, hv.argCtxBytes⟩⟩
      · rw [if_neg (by omega)]
        obtain ⟨e, w, hrun⟩ | ⟨argInt, w, hrun⟩ | ⟨argInt, w, rest', hended, -, hrun⟩ := hrest
        · exact .inr (.inl ⟨e, w, bind_of_throw hrun _⟩)
        · exact .inr (.inr (.inl ⟨argInt, w, bind_of_run hrun _⟩))
        · rw [hclear] at hafter
          have hfits : bs.length ≤ 32 := by
            by_contra hlong
            rw [hafter, if_neg hlong] at hended
            cases hended
          rw [hafter, if_pos hfits] at hended
          exact .inr (.inr (.inr
            ⟨argInt, w, bs, rest', hended ▸ hchannel, hfits, bind_of_run hrun _⟩))

/-- The header of an object stream is not there. -/
lemma readContext_zeros {κ : Type} (readObject : List Byte → Except Throwable κ) :
    readContext readObject (some (List.replicate 1024 0)) =
      .error (.runtimeException (.ioException "invalid stream header")) := by
  have hheader : (List.replicate 1024 0).take 4 ≠ streamHeader := by
    rw [List.take_replicate]
    decide
  simp only [readContext, deserialize, if_neg hheader]

/-- The readable branch: it finds the end of the stream, or throws. -/
lemma readable_fresh {κ : Type} (readObject : List Byte → Except Throwable κ) (key : SelectionKey)
    (hv : Fresh v) :
    (∃ rest w, v.socketChannel = .endOfStream :: rest ∧
        (readable readObject key).run v = .ok none w ∧ Fresh w) ∨
      ∃ e w, (readable readObject key).run v = .error e w := by
  unfold readable
  obtain ⟨rest, w, hchannel, hrun, hw⟩ | ⟨e, w, hrun⟩ | ⟨argInt, w, hrun⟩ |
    ⟨argInt, w, -, -, -, -, hrun⟩ := decode_fresh hv
  · exact .inl ⟨rest, w, hchannel, bind_of_run hrun _, hw⟩
  · exact .inr ⟨e, w, bind_of_throw hrun _⟩
  · exact .inr ⟨.nullPointerException, w, bind_of_run hrun _⟩
  · rw [bind_of_run hrun]
    exact .inr ⟨_, w, bind_of_throw (ofExcept_run_error (readContext_zeros readObject) w) _⟩

end Steps

/-! ## The server -/

section Machine

variable {κ ι : Type} [DecidableEq ι] {readObject : List Byte → Except Throwable κ}
  {s s' : ServerState ι} {a : ι × Event}

/-- As long as the server runs, it has not read a request. -/
structure Inv (s : ServerState ι) : Prop where
  fresh : s.ended = none → Fresh s.buffers
  no_result : ∀ c key, s.keys c = some key → key.opWrite = false

lemma inv_init (h : (machine readObject ι).init s) : Inv s := by
  obtain rfl : s = .initial ι := h
  exact ⟨fun _ => fresh_initial, nofun⟩

/-- A ready key: the server goes on only from a new connection or the end of a stream. -/
lemma step_cases (hs : Inv s) (h : (machine readObject ι).step s a = some s') :
    (a.2 = .accept ∧ s'.buffers = s.buffers ∧ s.ended = none ∧
        s'.keys = Function.update s.keys a.1 (some ⟨none, false⟩)) ∨
      (∃ rest, a.2 = .readable (.endOfStream :: rest) ∧ Fresh s'.buffers ∧
        s'.keys = Function.update s.keys a.1 none) ∨
      s'.ended ≠ none ∧ s'.keys = s.keys := by
  obtain ⟨c, event⟩ := a
  cases event with
  | accept =>
      simp only [machine, handle] at h
      split_ifs at h with hnew
      obtain rfl := Option.some.inj h
      exact .inl ⟨rfl, rfl, hnew.1, rfl⟩
  | acceptFails message =>
      simp only [machine, handle] at h
      split_ifs at h
      obtain rfl := Option.some.inj h
      exact .inr (.inr ⟨Option.some_ne_none _, rfl⟩)
  | readable channel =>
      simp only [machine, handle] at h
      split at h
      · rename_i key hended hkey
        have hfresh : Fresh { s.buffers with socketChannel := channel } := by
          obtain ⟨hint, hctx, hcells, hbytes, hnone⟩ := hs.fresh hended
          exact ⟨hint, hctx, hcells, hbytes, hnone⟩
        obtain ⟨rest, w, hchannel, hrun, hw⟩ | ⟨e, w, hrun⟩ := readable_fresh readObject key hfresh
        · rw [hrun] at h
          obtain rfl := Option.some.inj h
          obtain rfl : channel = .endOfStream :: rest := hchannel
          exact .inr (.inl ⟨rest, rfl, hw, rfl⟩)
        · rw [hrun] at h
          obtain rfl := Option.some.inj h
          exact .inr (.inr ⟨Option.some_ne_none _, rfl⟩)
      · cases h
  | writable taken =>
      simp only [machine, handle] at h
      split at h
      · rename_i key hended hkey
        rw [if_neg (by simp [hs.no_result c key hkey])] at h
        cases h
      · cases h

/-- **One ready key keeps the invariant.** -/
lemma inv_step (hs : Inv s) (h : (machine readObject ι).step s a = some s') : Inv s' := by
  have hupdate : ∀ k : Option SelectionKey, (∀ key, k = some key → key.opWrite = false) →
      ∀ c key, Function.update s.keys a.1 k c = some key → key.opWrite = false := by
    intro k hk c key hkey
    by_cases hc : c = a.1
    · subst hc
      exact hk key (by simpa using hkey)
    · exact hs.no_result c key (by simpa [hc] using hkey)
  obtain ⟨-, hbuffers, hended, hkeys⟩ | ⟨rest, -, hw, hkeys⟩ | ⟨hended, hkeys⟩ := step_cases hs h
  · refine ⟨fun _ => hbuffers ▸ hs.fresh hended, ?_⟩
    rw [hkeys]
    exact hupdate _ fun key hkey => by rw [← Option.some.inj hkey]
  · refine ⟨fun _ => hw, ?_⟩
    rw [hkeys]
    exact hupdate _ nofun
  · refine ⟨fun hnone => absurd hnone hended, ?_⟩
    rw [hkeys]
    exact hs.no_result

omit [DecidableEq ι] in
/-- A channel that begins with the end of the stream delivers nothing. -/
lemma not_delivers_endOfStream {m : ServerMove ι} {rest : Channel} {argInt : ℤ} {ctx : List Byte}
    (hlabel : m.label.2 = .readable (.endOfStream :: rest)) : ¬Delivers m argInt ctx := by
  rintro ⟨parts, tail, hparts, hrest⟩
  rw [hlabel, Event.readable.injEq] at hparts
  cases parts with
  | nil =>
      obtain ⟨rfl, -⟩ | ⟨rfl, hflatten⟩ := hrest
      · cases hparts
      · have hlength := congrArg List.length hflatten
        simp only [List.flatten_nil, List.length_nil, layout, List.length_append,
          length_intBytes] at hlength
        omega
  | cons part parts => cases hparts

omit [DecidableEq ι] in
/-- What comes before the end of the stream is the request. -/
lemma eq_layout_of_delivers {m : ServerMove ι} {bs : List Byte} {rest : Channel} {argInt : ℤ}
    {ctx : List Byte} (hlabel : m.label.2 = .readable (.bytes bs :: .endOfStream :: rest))
    (h : Delivers m argInt ctx) : bs = layout argInt ctx := by
  obtain ⟨parts, tail, hparts, hrest⟩ := h
  rw [hlabel, Event.readable.injEq] at hparts
  match parts, hparts with
  | [], hparts => obtain ⟨rfl, -⟩ | ⟨rfl, -⟩ := hrest <;> cases hparts
  | [part], hparts =>
      obtain ⟨rfl, rfl⟩ : bs = part ∧ .endOfStream :: rest = tail := by simpa using hparts
      obtain ⟨hempty, -⟩ | ⟨-, hflatten⟩ := hrest
      · cases hempty
      · simpa using hflatten
  | part :: next :: parts, hparts => simp at hparts

/-- A ready key is only handled while the server runs. -/
lemma ended_of_step (h : (machine readObject ι).step s a = some s') : s.ended = none := by
  obtain ⟨c, event⟩ := a
  cases event with
  | accept =>
      simp only [machine, handle] at h
      split_ifs at h with hnew
      exact hnew.1
  | acceptFails message =>
      simp only [machine, handle] at h
      split_ifs at h with hended
      exact hended
  | readable channel | writable taken =>
      simp only [machine, handle] at h
      split at h
      · assumption
      · cases h

/-- There never is a result to be written. -/
lemma not_writable (hs : Inv s) {c : ι} {taken : ℕ} :
    (machine readObject ι).step s (c, .writable taken) = none := by
  simp only [machine, handle]
  split
  · rename_i key _ hkey
    rw [if_neg (by simp [hs.no_result c key hkey])]
  · rfl

/-- In every run no request, whatever its parts are, is handed over as it was sent: the branch that
reads it ends `start` by an exception. -/
theorem no_request_handed_over {ms : List (ServerMove ι)} (h : (machine readObject ι).Run ms s) :
    ∀ m ∈ ms, ∀ argInt ctx, Delivers m argInt ctx →
      ¬HandsOver m argInt ctx ∧ m.post.ended ≠ none := by
  intro m hm argInt ctx hdelivers
  obtain ⟨hpre, hstep, -⟩ :=
    h.invariant_of_mem (I := Inv) (fun _ => inv_init) (fun _ _ _ => inv_step) hm
  refine ⟨?_, ?_⟩
  · rintro ⟨channel, v, hlabel, hdecode⟩
    have hfresh : Fresh { m.pre.buffers with socketChannel := channel } := by
      obtain ⟨hint, hctx, hcells, hbytes, hnone⟩ := hpre.fresh (ended_of_step hstep)
      exact ⟨hint, hctx, hcells, hbytes, hnone⟩
    obtain ⟨-, w, -, hrun, -⟩ | ⟨e, w, hrun⟩ | ⟨n, w, hrun⟩ |
      ⟨n, w, bs, rest, hchannel, hshort, hrun⟩ := decode_fresh hfresh
    · rw [hrun] at hdecode
      cases hdecode
    · rw [hrun] at hdecode
      cases hdecode
    · rw [hrun] at hdecode
      cases hdecode
    · rw [hrun] at hdecode
      obtain ⟨-, rfl⟩ : n = argInt ∧ List.replicate 1024 0 = ctx := by
        have hsome := (EStateM.Result.ok.inj hdecode).1
        exact ⟨congrArg Prod.fst (Option.some.inj hsome),
          Option.some.inj (congrArg Prod.snd (Option.some.inj hsome))⟩
      replace hchannel : channel = .bytes bs :: .endOfStream :: rest := hchannel
      have hbs := eq_layout_of_delivers (by rw [hlabel, hchannel]) hdelivers
      rw [hbs, layout, List.length_append, List.length_replicate] at hshort
      omega
  · obtain ⟨haccept, -⟩ | ⟨rest, hend, -⟩ | ⟨hended, -⟩ := step_cases hpre hstep
    · obtain ⟨parts, tail, hparts, -⟩ := hdelivers
      rw [haccept] at hparts
      cases hparts
    · exact absurd hdelivers (not_delivers_endOfStream hend)
    · exact hended

/-- The argument 5 and a serialized `null`, in one part. -/
def oneRequest : List (ServerMove Unit) :=
  (machine (fun _ => .ok ()) Unit).moves (.initial Unit)
    [((), .accept), ((), .readable [.bytes (layout 5 [0xAC, 0xED, 0x00, 0x05, 0x70])])]

theorem no_request_handed_over_oneRequest :
    ∃ m ∈ oneRequest, Delivers m 5 [0xAC, 0xED, 0x00, 0x05, 0x70] ∧
      ¬HandsOver m 5 [0xAC, 0xED, 0x00, 0x05, 0x70] ∧ m.post.ended ≠ none :=
  have hdelivers : Delivers (oneRequest.getLast (by decide)) 5 [0xAC, 0xED, 0x00, 0x05, 0x70] :=
    ⟨[layout 5 [0xAC, 0xED, 0x00, 0x05, 0x70]], [], rfl, .inl ⟨rfl, by simp⟩⟩
  ⟨_, List.getLast_mem _, hdelivers,
    no_request_handed_over (Machine.run_of_play (M := machine (fun _ => .ok ()) Unit) rfl rfl) _
      (List.getLast_mem _) _ _ hdelivers⟩

/-- The one request ends `start`: nothing more arrives after its first read, which has taken all of
it, and `readContext` gets `null`. -/
theorem oneRequest_lost :
    (∃ s, (machine (fun _ => .ok ()) Unit).Run oneRequest s) ∧
      ∃ m ∈ oneRequest, Delivers m 5 [0xAC, 0xED, 0x00, 0x05, 0x70] ∧
        ¬HandsOver m 5 [0xAC, 0xED, 0x00, 0x05, 0x70] ∧
        m.post.ended = some .nullPointerException := by
  refine ⟨⟨_, Machine.run_of_play (M := machine (fun _ => .ok ()) Unit) rfl rfl⟩,
    oneRequest.getLast (by decide), List.getLast_mem _,
    ⟨[layout 5 [0xAC, 0xED, 0x00, 0x05, 0x70]], [], rfl, .inl ⟨rfl, by simp⟩⟩, ?_, rfl⟩
  rintro ⟨channel, v, hlabel, hdecode⟩
  obtain rfl : [.bytes (layout 5 [0xAC, 0xED, 0x00, 0x05, 0x70])] = channel :=
    Event.readable.inj hlabel
  have hnull : (match decode.run { (oneRequest.getLast (by decide)).pre.buffers with
      socketChannel := [.bytes (layout 5 [0xAC, 0xED, 0x00, 0x05, 0x70])] } with
    | .ok arguments _ => decide (arguments = some (5, none))
    | .error _ _ => false) = true := by decide +kernel
  rw [hdecode] at hnull
  exact absurd hnull Bool.false_ne_true

end Machine

end Server

end LearnJava
