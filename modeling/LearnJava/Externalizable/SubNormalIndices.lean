import LearnJava.Externalizable.SubNormalSerializable

/-!
# The indices of `SubNormalSerializable`

`add` and `pop` count in `endIndex` and `startIndex` what they do to the two containers.
`serialPersistentFields` lists the containers and not the indices, so that both are 0 in an object
that is read back, and describe its containers only if there is nothing in them.
-/

namespace LearnJava

namespace SubNormalSerializable

/-- A call of one of the methods, also of `add(null)`, or the object is serialized and replaced by
the one read back. -/
inductive Operation
  | add (ele : Option Text)
  | pop
  | roundTrip
  deriving DecidableEq, Repr

/-- What an operation throws, and the object after it. -/
def operate (s : SubNormalSerializable) : Operation → Option Throwable × SubNormalSerializable
  | .add ele => ((add ele).thrown s, (add ele).after s)
  | .pop => (pop.thrown s, pop.after s)
  | .roundTrip =>
    match s.roundTrip with
    | .ok s' => (none, s')
    | .error e => (some e, s)

/-- The indices are those of the containers.  The lengths of both are `int`s. -/
def Describes (s : SubNormalSerializable) : Prop :=
  ∃ popCopy deque, s.popCopy = some popCopy ∧ s.deque = some deque ∧
    s.startIndex = wrap32 popCopy.length ∧ s.endIndex = wrap32 (s.startIndex + deque.length)

/-- Both containers have the length 0. -/
def IsEmpty (s : SubNormalSerializable) : Prop :=
  (∃ popCopy, s.popCopy = some popCopy ∧ wrap32 popCopy.length = 0) ∧
    ∃ deque, s.deque = some deque ∧ wrap32 deque.length = 0

/-- An object that is read back has been written with nothing in its containers. -/
def KeepsIndices (s : SubNormalSerializable) : Operation → Prop
  | .roundTrip => (∃ s', s.roundTrip = .ok s') → s.IsEmpty
  | _ => True

variable {s s' : SubNormalSerializable} {xs ys : List Text}

lemma Holds.describes_iff (hs : Holds s xs ys) :
    s.Describes ↔
      s.startIndex = wrap32 xs.length ∧ s.endIndex = wrap32 (s.startIndex + ys.length) := by
  constructor
  · rintro ⟨popCopy, deque, hpopCopy, hdeque, hstart, hend⟩
    obtain rfl := Option.some.inj (hpopCopy.symm.trans hs.popCopy)
    obtain rfl := Option.some.inj (hdeque.symm.trans hs.deque)
    rw [List.length_map] at hstart
    exact ⟨hstart, hend⟩
  · rintro ⟨hstart, hend⟩
    exact ⟨_, ys, hs.popCopy, hs.deque, by rwa [List.length_map], hend⟩

lemma Holds.isEmpty_iff (hs : Holds s xs ys) :
    s.IsEmpty ↔ wrap32 xs.length = 0 ∧ wrap32 ys.length = 0 := by
  constructor
  · rintro ⟨⟨popCopy, hpopCopy, hstart⟩, deque, hdeque, hend⟩
    obtain rfl := Option.some.inj (hpopCopy.symm.trans hs.popCopy)
    obtain rfl := Option.some.inj (hdeque.symm.trans hs.deque)
    rw [List.length_map] at hstart
    exact ⟨hstart, hend⟩
  · rintro ⟨hstart, hend⟩
    rw [← List.length_map some] at hstart
    exact ⟨⟨xs.map some, hs.popCopy, hstart⟩, ys, hs.deque, hend⟩

/-! ## One operation -/

/-- `offerLast(null)` throws. -/
lemma add_null_run (hs : Holds s xs ys) : (add none).run s = .error .nullPointerException s := by
  have hdeque : deref s.deque = .ok ys := by rw [hs.deque]; rfl
  have hele : deref (none : Option Text) = .error .nullPointerException := rfl
  have hoffer : (offerLast none).run s = .error .nullPointerException s := by
    rw [offerLast, get_bind_run, bind_of_run (ofExcept_run_ok hdeque s),
      bind_of_throw (ofExcept_run_error hele s)]
  exact bind_of_throw hoffer _

/-- The object that is read has its indices by default. -/
lemma roundTrip_indices (h : s.roundTrip = .ok s') : s'.startIndex = 0 ∧ s'.endIndex = 0 := by
  unfold roundTrip at h
  obtain ⟨superFields, -, hrest⟩ := exists_of_bind_ok h
  obtain rfl := Except.ok.inj hrest
  exact ⟨rfl, rfl⟩

lemma add_describes (hs : Holds s xs ys) (h : s.Describes) (ele : Option Text) :
    ∃ ys', Holds ((add ele).after s) xs ys' ∧ ((add ele).after s).Describes := by
  cases ele with
  | none =>
      rw [after_of_throw (add_null_run hs)]
      exact ⟨ys, hs, h⟩
  | some ele =>
      obtain ⟨hstart, hend⟩ := hs.describes_iff.mp h
      rw [after_of_run (add_run_eq hs ele)]
      have hs' : Holds { s with
          deque := some (ys ++ [ele]), endIndex := wrap32 (s.endIndex + 1) } xs (ys ++ [ele]) :=
        ⟨hs.popCopy, rfl⟩
      refine ⟨_, hs', hs'.describes_iff.mpr ⟨hstart, ?_⟩⟩
      calc wrap32 (s.endIndex + 1)
          = wrap32 (s.startIndex + ys.length + 1) := by rw [hend, wrap32_wrap32_add]
        _ = wrap32 (s.startIndex + (ys ++ [ele]).length) := by
            rw [List.length_append, List.length_singleton, Nat.cast_succ, add_assoc]

lemma pop_describes (hs : Holds s xs ys) (h : s.Describes) :
    ∃ xs' ys', Holds (pop.after s) xs' ys' ∧ (pop.after s).Describes := by
  cases ys with
  | nil =>
      rw [after_of_run (pop_run_nil hs)]
      exact ⟨xs, [], hs, h⟩
  | cons y ys =>
      obtain ⟨hstart, hend⟩ := hs.describes_iff.mp h
      rw [after_of_run (pop_run_eq hs)]
      have hs' : Holds { s with
          deque := some ys
          popCopy := some ((xs ++ [y]).map some)
          startIndex := wrap32 (s.startIndex + 1) } (xs ++ [y]) ys := ⟨rfl, rfl⟩
      refine ⟨_, _, hs', hs'.describes_iff.mpr ⟨?_, ?_⟩⟩
      · show wrap32 (s.startIndex + 1) = _
        rw [hstart, wrap32_wrap32_add, List.length_append, List.length_singleton, Nat.cast_succ]
      · show s.endIndex = wrap32 (wrap32 (s.startIndex + 1) + ys.length)
        rw [wrap32_wrap32_add, hend, List.length_cons, Nat.cast_succ]
        congr 1
        ring

lemma roundTrip_describes_iff (hs : Holds s xs ys) (h : s.roundTrip = .ok s') :
    s'.Describes ↔ s.IsEmpty := by
  obtain ⟨hstart, hend⟩ := roundTrip_indices h
  rw [(roundTrip_holds hs h).describes_iff, hs.isEmpty_iff, hstart, hend, zero_add]
  exact and_congr eq_comm eq_comm

/-- **One operation**, from an object whose indices describe its containers. -/
lemma operate_describes_iff (hs : Holds s xs ys) (h : s.Describes) (op : Operation) :
    (∃ xs' ys', Holds (operate s op).2 xs' ys') ∧
      ((operate s op).2.Describes ↔ KeepsIndices s op) := by
  cases op with
  | add ele =>
      obtain ⟨ys', hs', hdescribes⟩ := add_describes hs h ele
      exact ⟨⟨xs, ys', hs'⟩, iff_of_true hdescribes trivial⟩
  | pop =>
      obtain ⟨xs', ys', hs', hdescribes⟩ := pop_describes hs h
      exact ⟨⟨xs', ys', hs'⟩, iff_of_true hdescribes trivial⟩
  | roundTrip =>
      rw [operate, KeepsIndices]
      cases hround : s.roundTrip with
      | ok s' =>
          refine ⟨⟨xs, ys, roundTrip_holds hs hround⟩, ?_⟩
          simp only [Except.ok.injEq, exists_eq', forall_const]
          exact roundTrip_describes_iff hs hround
      | error e => exact ⟨⟨xs, ys, hs⟩, iff_of_true h (by simp)⟩

/-! ## Sequences of operations -/

/-- **When the indices describe the containers.**  For every object and every sequence of
operations, they do so after the constructor, and after every operation exactly if each object
that is read back was written with nothing in its containers. -/
theorem indices_describe_containers_iff (name noSerialInfo : Option Text) (age : ℤ)
    (externalizableObj : Option ExternalizableObj)
    (otherNormalSerializable : Option OtherNormalSerializable) (owns : List (Option Text))
    (ops : List Operation) :
    let s := new name noSerialInfo age externalizableObj otherNormalSerializable owns
    s.Describes ∧ (Calls.Along operate (fun s op => (operate s op).2.Describes) s ops ↔
      Calls.Along operate KeepsIndices s ops) := by
  intro s
  have hs : Holds s [] [] := holds_new name noSerialInfo age externalizableObj
    otherNormalSerializable owns
  have hdescribes : s.Describes := hs.describes_iff.mpr ⟨rfl, rfl⟩
  refine ⟨hdescribes,
    Calls.along_iff (I := fun s => (∃ xs ys, Holds s xs ys) ∧ s.Describes) ?_ ?_
      ⟨⟨[], [], hs⟩, hdescribes⟩⟩
  · rintro s op ⟨⟨xs, ys, hs⟩, h⟩ hkeeps
    obtain ⟨hnext, hiff⟩ := operate_describes_iff hs h op
    exact ⟨hnext, hiff.mpr hkeeps⟩
  · rintro s op ⟨⟨xs, ys, hs⟩, h⟩
    exact (operate_describes_iff hs h op).2

/-- One of two elements is popped, and the object is written and read: there is one in each
container, and both indices are 0. -/
theorem indices_lost_by_round_trip :
    let s := new none none 0 none none []
    let s' := Calls.final operate s [.add (some [0x61]), .add (some [0x62]), .pop, .roundTrip]
    s'.startIndex = 0 ∧ s'.endIndex = 0 ∧ s'.popCopy = some [some [0x61]] ∧
      s'.deque = some [[0x62]] ∧
      ¬Calls.Along operate (fun s op => (operate s op).2.Describes) s
        [.add (some [0x61]), .add (some [0x62]), .pop, .roundTrip] := by
  refine ⟨rfl, rfl, rfl, rfl, fun h => ?_⟩
  obtain ⟨popCopy, deque, hpopCopy, -, hstart, -⟩ := h.2.2.2.1
  obtain rfl := Option.some.inj hpopCopy
  exact absurd hstart (by decide)

end SubNormalSerializable

end LearnJava
