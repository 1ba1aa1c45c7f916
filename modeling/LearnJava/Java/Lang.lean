import LearnJava.Foundation.Window

/-!
# What the modelled classes use of the Java language and of `java.lang`

A method is a computation in `Method σ α`: it reads and writes the object's fields `σ`, and it
ends with a value or with an exception, the fields keeping what was written before the
exception was thrown.

A reference is an `Option`, with `none` for `null`; an array is the list of its cells, which an
access outside `0 … length - 1` leaves with an exception.  Indices that the code never lets
become negative are natural numbers; an `int` whose overflow matters goes through `wrap32`.  An
array of references of a class `C` only stores instances of `C`.
-/

namespace LearnJava

/-- The exceptions and errors the modelled code throws or meets. -/
inductive Throwable
  | nullPointerException
  | arrayIndexOutOfBoundsException
  | negativeArraySizeException
  | arrayStoreException
  | illegalArgumentException
  | illegalMonitorStateException
  | illegalStateException (message : String)
  | noSuchElementException
  | bufferUnderflowException
  | bufferOverflowException
  | securityException
  | interruptedException
  | noConnectionException
  | classNotFoundException
  | ioException (message : String)
  | unsupportedCallbackException (message : String)
  | loginException (message : String)
  | sqlException
  | badPaddingException
  | illegalBlockSizeException
  | error (message : String)
  | runtimeExceptionWith (message : String)
  | runtimeException (cause : Throwable)
  | matchaUnCheckException (cause : Throwable)
  deriving DecidableEq, Repr

/-- The exceptions that a method may throw without declaring them. -/
def Throwable.isUnchecked : Throwable → Bool
  | nullPointerException | arrayIndexOutOfBoundsException | negativeArraySizeException
  | arrayStoreException | illegalArgumentException | illegalMonitorStateException
  | illegalStateException _ | noSuchElementException | bufferUnderflowException
  | bufferOverflowException | securityException | error _ | runtimeExceptionWith _
  | runtimeException _ | matchaUnCheckException _ => true
  | interruptedException | noConnectionException | classNotFoundException | ioException _
  | unsupportedCallbackException _ | loginException _ | sqlException | badPaddingException
  | illegalBlockSizeException => false

/-- A method of an object with fields `σ`. -/
abbrev Method (σ α : Type) := EStateM Throwable σ α

@[simp] lemma throw_run {σ α : Type} (e : Throwable) (s : σ) :
    (throw e : Method σ α).run s = .error e s := rfl

/-! ## Running a method statement by statement -/

lemma get_bind_run {σ α : Type} (y : σ → Method σ α) (s : σ) :
    (get >>= y).run s = (y s).run s := rfl

lemma set_bind_run {σ α : Type} (s' : σ) (y : PUnit → Method σ α) (s : σ) :
    (set s' >>= y).run s = (y ⟨⟩).run s' := rfl

lemma modify_bind_run {σ α : Type} (f : σ → σ) (y : PUnit → Method σ α) (s : σ) :
    (modify f >>= y).run s = (y ⟨⟩).run (f s) := rfl

/-- The statement returns, and the rest of the method goes on from there. -/
lemma bind_of_run {σ α β : Type} {x : Method σ α} {s s' : σ} {a : α} (h : x.run s = .ok a s')
    (y : α → Method σ β) : (x >>= y).run s = (y a).run s' := by
  rw [EStateM.run_bind, h]

/-- The statement throws, and the method with it. -/
lemma bind_of_throw {σ α β : Type} {x : Method σ α} {s s' : σ} {e : Throwable}
    (h : x.run s = .error e s') (y : α → Method σ β) : (x >>= y).run s = .error e s' := by
  rw [EStateM.run_bind, h]

/-- A method that returns has gone through the statement. -/
lemma exists_of_bind_run {σ α β : Type} {x : Method σ α} {y : α → Method σ β} {s s' : σ} {b : β}
    (h : (x >>= y).run s = .ok b s') :
    ∃ a s₁, x.run s = .ok a s₁ ∧ (y a).run s₁ = .ok b s' := by
  rw [EStateM.run_bind] at h
  cases hx : x.run s with
  | ok a s₁ =>
      rw [hx] at h
      exact ⟨a, s₁, rfl, h⟩
  | error e s₁ =>
      rw [hx] at h
      cases h

lemma map_run {σ α β : Type} {x : Method σ α} {s s' : σ} {a : α} (h : x.run s = .ok a s')
    (f : α → β) : (f <$> x).run s = .ok (f a) s' := by
  rw [map_eq_pure_bind, EStateM.run_bind, h]
  rfl

@[simp] lemma map_set_run {σ α : Type} (f : PUnit → α) (s s' : σ) :
    (f <$> (set s' : Method σ PUnit)).run s = .ok (f ⟨⟩) s' := rfl

@[simp] lemma map_modify_run {σ α : Type} (f : PUnit → α) (g : σ → σ) (s : σ) :
    (f <$> (modify g : Method σ PUnit)).run s = .ok (f ⟨⟩) (g s) := rfl

/-- A call of a method that has no part in the object's fields. -/
def ofExcept {σ α : Type} : Except Throwable α → Method σ α
  | .ok a => pure a
  | .error e => throw e

lemma ofExcept_run_ok {σ α : Type} {r : Except Throwable α} {a : α} (h : r = .ok a) (s : σ) :
    (ofExcept r).run s = .ok a s := by
  rw [h]
  rfl

lemma eq_ok_of_ofExcept_run {σ α : Type} {r : Except Throwable α} {a : α} {s s' : σ}
    (h : (ofExcept r).run s = .ok a s') : r = .ok a ∧ s' = s := by
  cases r with
  | ok b =>
      obtain ⟨rfl, rfl⟩ := EStateM.Result.ok.inj h
      exact ⟨rfl, rfl⟩
  | error e => cases h

lemma ofExcept_run_error {σ α : Type} {r : Except Throwable α} {e : Throwable} (h : r = .error e)
    (s : σ) : (ofExcept r).run s = .error e s := by
  rw [h]
  rfl

/-- A method goes on with what such a call returns for its fields. -/
lemma get_ofExcept_run_ok {σ α β : Type} {f : σ → Except Throwable α} {y : σ → α → Method σ β}
    {s : σ} {a : α} (h : f s = .ok a) :
    (get >>= fun s => ofExcept (f s) >>= y s : Method σ β).run s = (y s a).run s := by
  rw [get_bind_run, bind_of_run (ofExcept_run_ok h s)]

lemma get_ofExcept_run_error {σ α β : Type} {f : σ → Except Throwable α}
    {y : σ → α → Method σ β} {s : σ} {e : Throwable} (h : f s = .error e) :
    (get >>= fun s => ofExcept (f s) >>= y s : Method σ β).run s = .error e s := by
  rw [get_bind_run, bind_of_throw (ofExcept_run_error h s)]

/-- The object a reference leads to. -/
def deref {α : Type} : Option α → Except Throwable α
  | some x => .ok x
  | none => .error .nullPointerException

lemma ok_bind {α β : Type} (a : α) (f : α → Except Throwable β) : (.ok a >>= f) = f a := rfl

lemma deref_some_bind {α β : Type} (x : α) (f : α → Except Throwable β) :
    (deref (some x) >>= f) = f x := rfl

/-- A call that returns has gone through the one before it. -/
lemma exists_of_bind_ok {α β : Type} {x : Except Throwable α} {f : α → Except Throwable β} {b : β}
    (h : (x >>= f) = .ok b) : ∃ a, x = .ok a ∧ f a = .ok b := by
  cases x with
  | ok a => exact ⟨a, rfl, h⟩
  | error e => cases h

/-- The fields a method ends with, whether it returns or throws. -/
def Method.after {σ α : Type} (x : Method σ α) (s : σ) : σ :=
  match x.run s with
  | .ok _ s' => s'
  | .error _ s' => s'

lemma after_of_run {σ α : Type} {x : Method σ α} {s s' : σ} {a : α} (h : x.run s = .ok a s') :
    x.after s = s' := by
  rw [Method.after, h]

lemma after_of_throw {σ α : Type} {x : Method σ α} {s s' : σ} {e : Throwable}
    (h : x.run s = .error e s') : x.after s = s' := by
  rw [Method.after, h]

/-! ## How methods end -/

section Ends

variable {σ α β : Type}

/-- The exception a method ends with. -/
def Method.thrown (x : Method σ α) (s : σ) : Option Throwable :=
  match x.run s with
  | .ok _ _ => none
  | .error e _ => some e

lemma thrown_of_run {x : Method σ α} {s s' : σ} {a : α} (h : x.run s = .ok a s') :
    x.thrown s = none := by
  rw [Method.thrown, h]

lemma thrown_of_throw {x : Method σ α} {s s' : σ} {e : Throwable} (h : x.run s = .error e s') :
    x.thrown s = some e := by
  rw [Method.thrown, h]

lemma ends_congr {x y : Method σ α} {s s' : σ} (h : x.run s = y.run s') :
    x.thrown s = y.thrown s' ∧ x.after s = y.after s' := by
  simp only [Method.thrown, Method.after, h, and_self]

variable {x : Method σ PUnit} {s : σ}

lemma run_of_thrown_none (h : x.thrown s = none) : x.run s = .ok ⟨⟩ (x.after s) := by
  unfold Method.thrown at h
  unfold Method.after
  split at h
  · rename_i hrun
    rw [hrun]
  · cases h

lemma run_of_thrown_some {e : Throwable} (h : x.thrown s = some e) :
    x.run s = .error e (x.after s) := by
  unfold Method.thrown at h
  unfold Method.after
  split at h
  · cases h
  · rename_i hrun
    obtain rfl := Option.some.inj h
    rw [hrun]

/-- What follows a method that ends normally. -/
lemma bind_of_thrown_none (h : x.thrown s = none) (y : PUnit → Method σ β) :
    (x >>= y).run s = (y ⟨⟩).run (x.after s) := bind_of_run (run_of_thrown_none h) y

lemma bind_of_thrown_some {e : Throwable} (h : x.thrown s = some e) (y : PUnit → Method σ β) :
    (x >>= y).run s = .error e (x.after s) := bind_of_throw (run_of_thrown_some h) y

lemma tryCatch_run (x : Method σ α) (handle : Throwable → Method σ α) (s : σ) :
    (tryCatch x handle).run s =
      match x.run s with
      | .ok a s' => .ok a s'
      | .error e s' => (handle e).run s' := by
  simp only [tryCatch, tryCatchThe, MonadExceptOf.tryCatch, EStateM.tryCatch, EStateM.run]
  cases x s <;> rfl

/-- A block that ends normally is not caught. -/
lemma tryCatch_of_thrown_none (h : x.thrown s = none) (handle : Throwable → Method σ PUnit) :
    (tryCatch x handle).run s = .ok ⟨⟩ (x.after s) := by
  rw [tryCatch_run, run_of_thrown_none h]

lemma tryCatch_of_thrown_some {e : Throwable} (h : x.thrown s = some e)
    (handle : Throwable → Method σ PUnit) :
    (tryCatch x handle).run s = (handle e).run (x.after s) := by
  rw [tryCatch_run, run_of_thrown_some h]

/-- A rest that changes no fields. -/
lemma bind_after {x : Method σ α} {y : α → Method σ β} (h : ∀ a s, (y a).after s = s) (s : σ) :
    (x >>= y).after s = x.after s := by
  unfold Method.after at *
  rw [EStateM.run_bind]
  cases x.run s with
  | ok a s' => exact h a s'
  | error e s' => rfl

/-- `finally` starts where the block ended. -/
lemma tryFinally_after (x : Method σ α) (y : Method σ PUnit) (s : σ) :
    (tryFinally x y).after s = y.after (x.after s) := by
  simp only [Method.after, tryFinally, tryFinally', Functor.map, EStateM.map, EStateM.run]
  cases x s with
  | ok a s' =>
      dsimp only
      cases y s' <;> rfl
  | error e s' =>
      dsimp only
      cases y s' <;> rfl

end Ends

/-! ## 32-bit integers -/

/-- The largest `int`. -/
def Integer.MAX_VALUE : ℤ := 2 ^ 31 - 1

/-- The `int` a mathematical result wraps around to. -/
def wrap32 (x : ℤ) : ℤ := (x + 2 ^ 31) % 2 ^ 32 - 2 ^ 31

/-- The values of an `int`. -/
def IsInt (x : ℤ) : Prop := -2 ^ 31 ≤ x ∧ x < 2 ^ 31

instance (x : ℤ) : Decidable (IsInt x) := inferInstanceAs (Decidable (_ ∧ _))

lemma isInt_wrap32 (x : ℤ) : IsInt (wrap32 x) := by
  unfold IsInt wrap32
  omega

/-- `x / 2` rounds towards zero. -/
lemma tdiv_two_cases (x : ℤ) : 0 ≤ x ∧ x.tdiv 2 = x / 2 ∨ x < 0 ∧ x.tdiv 2 = -(-x / 2) := by
  rcases le_or_gt 0 x with hx | hx
  · exact .inl ⟨hx, Int.tdiv_eq_ediv_of_nonneg hx⟩
  · refine .inr ⟨hx, ?_⟩
    rw [← Int.tdiv_eq_ediv_of_nonneg (by omega), Int.neg_tdiv, neg_neg]

lemma wrap32_of_range {x : ℤ} (hlo : -2 ^ 31 ≤ x) (hhi : x < 2 ^ 31) : wrap32 x = x := by
  unfold wrap32
  omega

@[simp] lemma wrap32_zero : wrap32 0 = 0 := rfl

@[simp] lemma wrap32_wrap32_add (x y : ℤ) : wrap32 (wrap32 x + y) = wrap32 (x + y) := by
  unfold wrap32
  omega

@[simp] lemma wrap32_add_wrap32 (x y : ℤ) : wrap32 (x + wrap32 y) = wrap32 (x + y) := by
  rw [add_comm, wrap32_wrap32_add, add_comm]

/-- The `long` a mathematical result wraps around to. -/
def wrap64 (x : ℤ) : ℤ := (x + 2 ^ 63) % 2 ^ 64 - 2 ^ 63

/-- A `char`, which is a code unit of UTF-16. -/
abbrev CodeUnit := UInt16

/-! ## Arrays -/

section Arrays

variable {σ α β : Type}

/-- Read the cell `a[i]`. -/
def aload (a : List β) (i : ℕ) : Method σ β :=
  match a[i]? with
  | some x => pure x
  | none => throw .arrayIndexOutOfBoundsException

/-- The array after `a[i] = x`. -/
def astore (a : List β) (i : ℕ) (x : β) : Method σ (List β) :=
  if i < a.length then pure (a.set i x) else throw .arrayIndexOutOfBoundsException

/-- `dest` after `System.arraycopy(src, srcPos, dest, destPos, length)`. -/
def arraycopy (src : List β) (srcPos : ℕ) (dest : List β) (destPos length : ℕ) :
    Method σ (List β) :=
  if srcPos + length ≤ src.length ∧ destPos + length ≤ dest.length then
    pure (overlay src srcPos dest destPos length)
  else throw .arrayIndexOutOfBoundsException

/-- `Arrays.copyOfRange(a, start, stop)`: the cells beyond the end of `a` are `null`. -/
def copyOfRange (a : List (Option α)) (start stop : ℕ) : Method σ (List (Option α)) :=
  if stop < start then throw .illegalArgumentException
  else if a.length < start then throw .arrayIndexOutOfBoundsException
  else pure (window a start stop ++ List.replicate (stop - max start a.length) none)

lemma aload_run {a : List β} {i : ℕ} {x : β} (h : a[i]? = some x) (s : σ) :
    (aload a i : Method σ β).run s = .ok x s := by
  simp [aload, h]

lemma astore_run {a : List β} {i : ℕ} (h : i < a.length) (x : β) (s : σ) :
    (astore a i x : Method σ (List β)).run s = .ok (a.set i x) s := by
  simp [astore, h]

lemma arraycopy_run {src dest : List β} {srcPos destPos length : ℕ}
    (hsrc : srcPos + length ≤ src.length) (hdest : destPos + length ≤ dest.length) (s : σ) :
    (arraycopy src srcPos dest destPos length : Method σ (List β)).run s =
      .ok (overlay src srcPos dest destPos length) s := by
  simp [arraycopy, hsrc, hdest]

lemma arraycopy_run_error {src : List β} {srcPos length : ℕ} (dest : List β) (destPos : ℕ)
    (h : src.length < srcPos + length) (s : σ) :
    (arraycopy src srcPos dest destPos length : Method σ (List β)).run s =
      .error .arrayIndexOutOfBoundsException s := by
  simp [arraycopy, Nat.not_le.mpr h]

lemma copyOfRange_run {a : List (Option α)} {start stop : ℕ} (h : start ≤ stop)
    (hstop : stop ≤ a.length) (s : σ) :
    (copyOfRange a start stop : Method σ (List (Option α))).run s =
      .ok (window a start stop) s := by
  have hpad : stop - max start a.length = 0 := by omega
  simp [copyOfRange, Nat.not_lt.mpr h, Nat.not_lt.mpr (h.trans hstop), hpad]

/-! ### Indices and lengths that may be negative -/

/-- `new T[n]` for a class `T`. -/
def newArray {m : Type → Type} [Monad m] [MonadExcept Throwable m] (n : ℤ) :
    m (List (Option α)) :=
  if n < 0 then throw .negativeArraySizeException else pure (List.replicate n.toNat none)

/-- Read the cell `a[i]`. -/
def aloadInt (a : List β) (i : ℤ) : Method σ β :=
  if i < 0 then throw .arrayIndexOutOfBoundsException else aload a i.toNat

/-- `arraycopy` with `int` arguments. -/
def arraycopyInt (src : List β) (srcPos : ℤ) (dest : List β) (destPos length : ℤ) :
    Method σ (List β) :=
  if srcPos < 0 ∨ destPos < 0 ∨ length < 0 then throw .arrayIndexOutOfBoundsException
  else arraycopy src srcPos.toNat dest destPos.toNat length.toNat

/-- `Arrays.copyOf(a, n)`: the cells beyond the end of `a` are `null`. -/
def copyOf (a : List (Option α)) (n : ℤ) : Method σ (List (Option α)) :=
  if n < 0 then throw .negativeArraySizeException
  else pure (a.take n.toNat ++ List.replicate (n.toNat - a.length) none)

lemma newArray_run {n : ℕ} (s : σ) :
    (newArray n : Method σ (List (Option α))).run s = .ok (List.replicate n none) s := by
  rw [newArray, if_neg (Int.natCast_nonneg n).not_gt]
  rfl

lemma newArray_run_neg {n : ℤ} (h : n < 0) (s : σ) :
    (newArray n : Method σ (List (Option α))).run s = .error .negativeArraySizeException s := by
  rw [newArray, if_pos h, throw_run]

lemma aloadInt_run {a : List β} {i : ℕ} {x : β} (h : a[i]? = some x) (s : σ) :
    (aloadInt a i : Method σ β).run s = .ok x s := by
  rw [aloadInt, if_neg (Int.natCast_nonneg i).not_gt]
  exact aload_run h s

lemma aloadInt_run_neg {i : ℤ} (a : List β) (h : i < 0) (s : σ) :
    (aloadInt a i : Method σ β).run s = .error .arrayIndexOutOfBoundsException s := by
  simp [aloadInt, h]

lemma arraycopyInt_run {src dest : List β} {srcPos destPos length : ℕ}
    (hsrc : srcPos + length ≤ src.length) (hdest : destPos + length ≤ dest.length) (s : σ) :
    (arraycopyInt src srcPos dest destPos length : Method σ (List β)).run s =
      .ok (overlay src srcPos dest destPos length) s := by
  have hnonneg : ¬((srcPos : ℤ) < 0 ∨ (destPos : ℤ) < 0 ∨ (length : ℤ) < 0) := by omega
  rw [arraycopyInt, if_neg hnonneg]
  exact arraycopy_run hsrc hdest s

lemma copyOf_run (a : List (Option α)) (n : ℕ) (s : σ) :
    (copyOf a n : Method σ (List (Option α))).run s =
      .ok (a.take n ++ List.replicate (n - a.length) none) s := by
  rw [copyOf, if_neg (Int.natCast_nonneg n).not_gt]
  rfl

lemma copyOf_run_neg {n : ℤ} (a : List (Option α)) (h : n < 0) (s : σ) :
    (copyOf a n : Method σ (List (Option α))).run s = .error .negativeArraySizeException s := by
  rw [copyOf, if_pos h, throw_run]

/-! ### Arrays of references -/

section References

variable {C : α → Prop} [DecidablePred C]

/-- A reference as a cell of an array of instances of `C`; `none` where the array cannot store
it. -/
def toCell : Option α → Option (Option {x // C x})
  | none => some none
  | some x => if h : C x then some (some ⟨x, h⟩) else none

/-- The reference in a cell. -/
def ofCell : Option {x // C x} → Option α := Option.map Subtype.val

/-- The array after `a[i] = x`: the index is checked before the class. -/
def astoreRef (a : List (Option {x // C x})) (i : ℤ) (x : Option α) :
    Method σ (List (Option {x // C x})) :=
  if i < 0 ∨ a.length ≤ i then throw .arrayIndexOutOfBoundsException
  else match toCell x with
    | some cell => pure (a.set i.toNat cell)
    | none => throw .arrayStoreException

lemma astoreRef_run {a : List (Option {x // C x})} {i : ℕ} {x : Option α}
    {cell : Option {x // C x}} (hi : i < a.length) (hx : toCell x = some cell) (s : σ) :
    (astoreRef a i x : Method σ (List (Option {x // C x}))).run s = .ok (a.set i cell) s := by
  have hin : ¬((i : ℤ) < 0 ∨ (a.length : ℤ) ≤ i) := by omega
  rw [astoreRef, if_neg hin, hx]
  rfl

lemma exists_toCell {x : Option α} (h : ∀ y, x = some y → C y) :
    ∃ cell : Option {x // C x}, toCell x = some cell ∧ ofCell cell = x := by
  match x, h with
  | none, _ => exact ⟨none, rfl, rfl⟩
  | some y, h => exact ⟨some ⟨y, h y rfl⟩, by simp [toCell, h y rfl], rfl⟩

end References

end Arrays

end LearnJava
