import LearnJava.Db.PoolUniqueness

/-!
# Which pool a builder gets

The key of a builder joins its connection URL and its user name with a `@`, and does not say which
`@` that was: the URL `a` with the user `b@c` has the key of the URL `a@b` with the user `c`.
`buildDbKey_eq_iff` describes all such pairs.  The second of two builders that clash gets the pool
of the first, so every builder of a run gets a pool for its own URL and user exactly when no two of
them clash (`own_pools_iff`).

`History` relates a run to the state it leads to: every pool was constructed for a builder of the
run, and every call of the run is under way or has ended.
-/

namespace LearnJava

namespace ConnectionPoolBuilder

/-! ## Keys -/

/-- Two strings joined at different places with the same result. -/
lemma join_eq_iff {α : Type*} {c : α} {u v u' v' : List α} :
    u ++ [c] ++ v = u' ++ [c] ++ v' ↔ (u = u' ∧ v = v') ∨
      (∃ w, u' = u ++ [c] ++ w ∧ v = w ++ [c] ++ v') ∨
      ∃ w, u = u' ++ [c] ++ w ∧ v' = w ++ [c] ++ v := by
  constructor
  · intro h
    simp only [List.append_assoc, List.cons_append, List.nil_append] at h
    obtain ⟨w, hu, hv⟩ | ⟨w, hu, hv⟩ := List.append_eq_append_iff.mp h
    · cases w with
      | nil => exact .inl ⟨by simpa using hu.symm, by simpa using hv⟩
      | cons d w =>
          obtain ⟨rfl, hv⟩ := List.cons.inj hv
          exact .inr (.inl ⟨w, by simpa using hu, by simpa using hv⟩)
    · cases w with
      | nil => exact .inl ⟨by simpa using hu, by simpa using hv.symm⟩
      | cons d w =>
          obtain ⟨rfl, hv⟩ := List.cons.inj hv
          exact .inr (.inr ⟨w, by simpa using hu, by simpa using hv⟩)
  · rintro (⟨rfl, rfl⟩ | ⟨w, rfl, rfl⟩ | ⟨w, rfl, rfl⟩) <;> simp

/-- Both fields of the key are set. -/
def Builder.Complete (b : Builder) : Prop := b.dbConnectionUrl ≠ none ∧ b.userName ≠ none

/-- The URL and the user name of a builder. -/
def Builder.pair (b : Builder) : Option Text × Option Text := (b.dbConnectionUrl, b.userName)

/-- The URL and the user name a pool was constructed with. -/
def PoolObject.pair (p : PoolObject) : Option Text × Option Text := (p.dbConnectionUrl, p.userName)

/-- A part of the user name of `b`, up to an `@`, stands in `b'` at the end of the URL instead,
after an `@`. -/
def Clash (b b' : Builder) : Prop :=
  ∃ url moved user, b.pair = (some url, some (moved ++ text "@" ++ user)) ∧
    b'.pair = (some (url ++ text "@" ++ moved), some user)

lemma PoolObject.dbKey_congr {p : PoolObject} {b : Builder} (h : p.pair = b.pair) :
    p.dbKey = b.dbKey := by
  obtain ⟨hurl, huser⟩ := Prod.mk.inj h
  rw [dbKey, Builder.dbKey, hurl, huser]

/-- Two builders with one key have the same URL and user name, or clash. -/
lemma buildDbKey_eq_iff {b b' : Builder} (hb : b.Complete) (hb' : b'.Complete) :
    b.dbKey = b'.dbKey ↔ b.pair = b'.pair ∨ Clash b b' ∨ Clash b' b := by
  obtain ⟨url, hurl⟩ := Option.ne_none_iff_exists'.mp hb.1
  obtain ⟨user, huser⟩ := Option.ne_none_iff_exists'.mp hb.2
  obtain ⟨url', hurl'⟩ := Option.ne_none_iff_exists'.mp hb'.1
  obtain ⟨user', huser'⟩ := Option.ne_none_iff_exists'.mp hb'.2
  have hkey : b.dbKey = b'.dbKey ↔ url ++ text "@" ++ user = url' ++ text "@" ++ user' := by
    simp only [Builder.dbKey, buildDbKey, hurl, huser, hurl', huser', formatString]
  have hpair : b.pair = (some url, some user) := by rw [Builder.pair, hurl, huser]
  have hpair' : b'.pair = (some url', some user') := by rw [Builder.pair, hurl', huser']
  rw [hkey, show text "@" = ['@'.toNat] from rfl, join_eq_iff]
  simp only [Clash, hpair, hpair', Prod.mk.injEq, Option.some.injEq]
  constructor
  · rintro (hsame | ⟨w, hu, hv⟩ | ⟨w, hu, hv⟩)
    · exact .inl hsame
    · exact .inr (.inl ⟨url, w, user', ⟨rfl, hv⟩, hu, rfl⟩)
    · exact .inr (.inr ⟨url', w, user, ⟨rfl, hv⟩, hu, rfl⟩)
  · rintro (hsame | ⟨_, w, _, ⟨rfl, hv⟩, hu, rfl⟩ | ⟨_, w, _, ⟨rfl, hv⟩, hu, rfl⟩)
    · exact .inl hsame
    · exact .inr (.inl ⟨w, hu, hv⟩)
    · exact .inr (.inr ⟨w, hu, hv⟩)

/-- Builders that clash are different ones. -/
lemma Clash.pair_ne {b b' : Builder} (h : Clash b b') : b.pair ≠ b'.pair := by
  obtain ⟨url, moved, user, hpair, hpair'⟩ := h
  rw [hpair, hpair']
  intro heq
  have hlen := congrArg (Option.map List.length) (Prod.mk.inj heq).1
  simp [text] at hlen

lemma Clash.dbKey_eq {b b' : Builder} (h : Clash b b') : b.dbKey = b'.dbKey := by
  have hclash := h
  obtain ⟨url, moved, user, hpair, hpair'⟩ := h
  obtain ⟨hurl, huser⟩ := Prod.mk.inj hpair
  obtain ⟨hurl', huser'⟩ := Prod.mk.inj hpair'
  refine (buildDbKey_eq_iff ⟨?_, ?_⟩ ⟨?_, ?_⟩).mpr (.inr (.inl hclash)) <;> simp [*]

/-! ## The calls of a run -/

section History

variable {τ : Type} {driver : Option Throwable}

/-- A thread calls `build` on `b`. -/
def Called (ms : List (BuilderMove τ)) (b : Builder) : Prop := ∃ m ∈ ms, m.label.2 = .build b

/-- A call of `build` on `b` ends. -/
def HasEnded (ms : List (BuilderMove τ)) (b : Builder) : Prop := ∃ m ∈ ms, ∃ r, Ends m b r

/-- The builder of the call a thread is in, or was in last. -/
def Phase.builder : Phase → Option Builder
  | .idle => none
  | .readLocking b | .lookingUp b | .readUnlocking b _ | .writeLocking b | .rechecking b
  | .constructing b | .putting b _ | .writeUnlocking b _ | .ended b _ => some b

/-- What a run has to do with the state it leads to. -/
structure History (ms : List (BuilderMove τ)) (s : BuilderState τ) : Prop where
  current : ∀ t b, (s.thread t).phase.builder = some b → Called ms b
  constructed : ∀ p ∈ s.shared.pools, ∃ b, Called ms b ∧ p.pair = b.pair
  accounted : ∀ b, Called ms b →
    (∃ t, (s.thread t).phase.builder = some b ∧ (s.thread t).phase.AtRest = false) ∨ HasEnded ms b
  called : ∀ b, HasEnded ms b → Called ms b

/-- A step of the code goes on with its builder. -/
lemma Effect.builder_eq {x x' : Shared} {l l' : Local} (h : Effect driver x l .go x' l') :
    l'.phase.builder = l.phase.builder := by
  cases h with
  | @readUnlocked b connectionPool k g hph =>
      rw [hph]
      cases connectionPool <;> rfl
  | @rechecked b hph =>
      rw [hph]
      cases x.connectionPoolMap b.dbKey <;> rfl
  | readLocked hph | lookedUp hph | readRefused hph | writeLocked hph | constructed hph
  | notLoaded hph | put hph | writeUnlocked hph | writeRefused hph => rw [hph]; rfl

/-- A step of the code that leaves `build` ends a call. -/
lemma Effect.ended {x x' : Shared} {l l' : Local} (h : Effect driver x l .go x' l')
    (hrest : l'.phase.AtRest = true) : ∃ b r, l'.phase = .ended b r := by
  cases hph : l'.phase with
  | ended b r => exact ⟨b, r, rfl⟩
  | idle =>
      have hbuilder := h.builder_eq
      rw [hph] at hbuilder
      cases h with
      | @readUnlocked b connectionPool => cases connectionPool <;> simp [afterLookUp] at hph
      | @rechecked b =>
          cases hfound : x.connectionPoolMap b.dbKey <;> simp [afterRecheck, hfound] at hph
      | _ => cases hph
  | _ => simp [hph, Phase.AtRest] at hrest

lemma Called.snoc {ms : List (BuilderMove τ)} {b : Builder} (h : Called ms b) (m : BuilderMove τ) :
    Called (ms ++ [m]) b := by
  obtain ⟨m', hm', hlabel⟩ := h
  exact ⟨m', List.mem_append_left _ hm', hlabel⟩

lemma HasEnded.snoc {ms : List (BuilderMove τ)} {b : Builder} (h : HasEnded ms b)
    (m : BuilderMove τ) : HasEnded (ms ++ [m]) b := by
  obtain ⟨m', hm', hends⟩ := h
  exact ⟨m', List.mem_append_left _ hm', hends⟩

variable [DecidableEq τ]

/-- The builder a thread works on after its move was called. -/
lemma History.current_after {ms : List (BuilderMove τ)} {s : BuilderState τ} (hs : History ms s)
    {t : τ} {a : Act} {x : Shared} {l : Local} (h : Effect driver s.shared (s.thread t) a x l)
    {b : Builder} (hb : l.phase.builder = some b) :
    Called (ms ++ [⟨s, (t, a), s.after t (x, l)⟩]) b := by
  cases a with
  | build c =>
      obtain rfl : c = b := by
        cases h
        exact Option.some.inj hb
      exact ⟨_, List.mem_append_right _ (List.mem_singleton_self _), rfl⟩
  | go => exact (hs.current t b (h.builder_eq.symm.trans hb)).snoc _

/-- A pool that is there after a move was constructed for a builder that was called. -/
lemma History.constructed_after {ms : List (BuilderMove τ)} {s : BuilderState τ}
    (hs : History ms s) {t : τ} {a : Act} {x : Shared} {l : Local}
    (h : Effect driver s.shared (s.thread t) a x l) (p : PoolObject) (hp : p ∈ x.pools) :
    ∃ b, Called (ms ++ [⟨s, (t, a), s.after t (x, l)⟩]) b ∧ p.pair = b.pair := by
  have hold : p ∈ s.shared.pools →
      ∃ b, Called (ms ++ [⟨s, (t, a), s.after t (x, l)⟩]) b ∧ p.pair = b.pair := by
    intro hmem
    obtain ⟨b, hcalled, hpair⟩ := hs.constructed p hmem
    exact ⟨b, hcalled.snoc _, hpair⟩
  cases h with
  | @constructed b hph =>
      obtain hmem | hnew := List.mem_append.mp hp
      · exact hold hmem
      · obtain rfl := List.mem_singleton.mp hnew
        exact ⟨b, (hs.current t b (by rw [hph]; rfl)).snoc _, rfl⟩
  | _ => exact hold hp

/-- A call that is under way goes on, or its thread ends it. -/
lemma History.accounted_after {ms : List (BuilderMove τ)} {s : BuilderState τ} (hs : History ms s)
    {t : τ} {a : Act} {x : Shared} {l : Local} (h : Effect driver s.shared (s.thread t) a x l)
    {b : Builder} (hb : Called (ms ++ [⟨s, (t, a), s.after t (x, l)⟩]) b) :
    (∃ u, ((s.after t (x, l)).thread u).phase.builder = some b ∧
        ((s.after t (x, l)).thread u).phase.AtRest = false) ∨
      HasEnded (ms ++ [⟨s, (t, a), s.after t (x, l)⟩]) b := by
  obtain ⟨m, hm, hlabel⟩ := hb
  obtain hold | hlast := List.mem_append.mp hm
  · obtain ⟨u, hbuilder, hbusy⟩ | hended := hs.accounted b ⟨m, hold, hlabel⟩
    · by_cases hu : u = t
      · subst hu
        cases a with
        | build c =>
            cases h with
            | called hrest => simp [hbusy] at hrest
        | go =>
            have hnext : l.phase.builder = some b := h.builder_eq.trans hbuilder
            cases hrest : l.phase.AtRest with
            | false => exact .inl ⟨u, by simpa using hnext, by simpa using hrest⟩
            | true =>
                obtain ⟨c, r, hph⟩ := h.ended hrest
                obtain rfl : c = b := by simpa [hph, Phase.builder] using hnext
                refine .inr ⟨_, List.mem_append_right _ (List.mem_singleton_self _), r, rfl, ?_⟩
                simpa using hph
      · exact .inl ⟨u, by simpa [hu] using hbuilder, by simpa [hu] using hbusy⟩
    · exact .inr (hended.snoc _)
  · obtain rfl := List.mem_singleton.mp hlast
    obtain rfl : a = .build b := hlabel
    cases h with
    | called => exact .inl ⟨t, by simp [Phase.builder], by simp [Phase.AtRest]⟩

lemma history_of_run {ms : List (BuilderMove τ)} {s : BuilderState τ}
    (h : (machine τ driver).Run ms s) : History ms s := by
  induction h with
  | start hinit =>
      obtain ⟨hshared, hthreads⟩ := hinit
      refine ⟨fun t b hb => ?_, fun p hp => ?_, fun b hb => ?_, fun b hb => ?_⟩
      · rw [show _ = _ from hthreads t] at hb
        cases hb
      · rw [show _ = _ from hshared] at hp
        cases hp
      all_goals
        obtain ⟨m, hm, -⟩ := hb
        cases hm
  | @snoc ms s a s' hrun hstep ih =>
      obtain ⟨t, act⟩ := a
      obtain ⟨x, l, heffect, rfl⟩ := step_cases hstep
      refine ⟨fun u b hb => ?_, ih.constructed_after heffect, fun b => ih.accounted_after heffect,
        fun b hb => ?_⟩
      · by_cases hu : u = t
        · subst hu
          exact ih.current_after heffect (by simpa using hb)
        · exact (ih.current u b (by simpa [hu] using hb)).snoc _
      · obtain ⟨m, hm, r, hends⟩ := hb
        obtain hold | hlast := List.mem_append.mp hm
        · exact (ih.called b ⟨m, hold, r, hends⟩).snoc _
        · obtain rfl := List.mem_singleton.mp hlast
          apply ih.current_after heffect
          have hph : l.phase = .ended b r := by simpa using hends.2
          rw [hph]
          rfl

/-! ## Own pools -/

/-- Every call returns a pool, constructed for the URL and the user of its builder, and builders
that differ in them never share one. -/
structure OwnPools (ms : List (BuilderMove τ)) : Prop where
  created_for : ∀ m ∈ ms, ∀ b r, Ends m b r → ∃ p, r = .ok p ∧ p.pair = b.pair
  not_shared : ∀ m ∈ ms, ∀ m' ∈ ms, ∀ b b' p, Ends m b (.ok p) → Ends m' b' (.ok p) →
    b.pair = b'.pair

/-- For every run of complete calls, in any number of threads, on builders with a URL and a user
name: every builder gets a pool for its own URL and user exactly when no two of them clash. -/
theorem own_pools_iff [Fintype τ] {ms : List (BuilderMove τ)} {s : BuilderState τ}
    (h : (machine τ none).Run ms s) (hrest : ∀ t, (s.thread t).phase.AtRest)
    (hcomplete : ∀ b, Called ms b → b.Complete) :
    OwnPools ms ↔ ∀ b b', Called ms b → Called ms b' → ¬Clash b b' := by
  have hone := one_pool_per_key h
  have hhistory := history_of_run h
  have hended : ∀ b, Called ms b → HasEnded ms b := by
    intro b hb
    obtain ⟨t, -, hbusy⟩ | hended := hhistory.accounted b hb
    · simp [hrest t] at hbusy
    · exact hended
  constructor
  · intro hown b b' hb hb' hclash
    obtain ⟨m, hm, r, hends⟩ := hended b hb
    obtain ⟨m', hm', r', hends'⟩ := hended b' hb'
    obtain ⟨p, rfl, -⟩ := hown.created_for m hm b r hends
    obtain ⟨p', rfl, -⟩ := hown.created_for m' hm' b' r' hends'
    have hp := hone.returned m hm b p hends
    have hp' := hone.returned m' hm' b' p' hends'
    rw [hclash.dbKey_eq, hp'] at hp
    obtain rfl := Option.some.inj hp
    exact hclash.pair_ne (hown.not_shared m hm m' hm' b b' p' hends hends')
  · intro hno
    have hcreated : ∀ m ∈ ms, ∀ b r, Ends m b r → ∃ p, r = .ok p ∧ p.pair = b.pair := by
      intro m hm b r hends
      cases r with
      | error e =>
          obtain ⟨f, hdriver, -⟩ := hone.thrown m hm b e hends
          cases hdriver
      | ok p =>
          refine ⟨p, rfl, ?_⟩
          obtain ⟨hmem, hkey⟩ := hone.stored _ p (hone.returned m hm b p hends)
          obtain ⟨c, hc, hpair⟩ := hhistory.constructed p hmem
          have hb : Called ms b := hhistory.called b ⟨m, hm, _, hends⟩
          have hsame : c.dbKey = b.dbKey := (PoolObject.dbKey_congr hpair).symm.trans hkey
          obtain heq | hclash | hclash :=
            (buildDbKey_eq_iff (hcomplete c hc) (hcomplete b hb)).mp hsame
          · exact hpair.trans heq
          · exact absurd hclash (hno c b hc hb)
          · exact absurd hclash (hno b c hb hc)
    refine ⟨hcreated, fun m hm m' hm' b b' p hends hends' => ?_⟩
    obtain ⟨q, hq, hpair⟩ := hcreated m hm b _ hends
    obtain ⟨q', hq', hpair'⟩ := hcreated m' hm' b' _ hends'
    obtain rfl := Except.ok.inj hq
    obtain rfl := Except.ok.inj hq'
    exact hpair.symm.trans hpair'

/-- A call of `build` that finds no pool, by a thread alone. -/
def buildNew (b : Builder) : List (Unit × Act) := ((), .build b) :: List.replicate 8 ((), .go)

/-- A call of `build` that finds a pool. -/
def buildFound (b : Builder) : List (Unit × Act) := ((), .build b) :: List.replicate 3 ((), .go)

lemma label_mem_of_called {s : BuilderState Unit} {ls : List (Unit × Act)} {b : Builder}
    (h : Called ((machine Unit driver).moves s ls) b) : ((), Act.build b) ∈ ls := by
  obtain ⟨m, hm, hlabel⟩ := h
  have hmem := Machine.label_mem_of_mem_moves hm
  rwa [show m.label = ((), Act.build b) from Prod.ext rfl hlabel] at hmem

/-- The same builder twice. -/
def rootTwice : List (BuilderMove Unit) :=
  (machine Unit none).moves (initial Unit)
    (buildNew ⟨some (text "jdbc:a"), some (text "root"), none⟩ ++
      buildFound ⟨some (text "jdbc:a"), some (text "root"), none⟩)

theorem own_pools_iff_rootTwice :
    OwnPools rootTwice ↔ ∀ b b', Called rootTwice b → Called rootTwice b' → ¬Clash b b' := by
  refine own_pools_iff (Machine.run_of_play (init_initial Unit none) rfl) (fun _ => rfl) ?_
  intro b hb
  obtain rfl : b = ⟨some (text "jdbc:a"), some (text "root"), none⟩ := by
    simpa [buildNew, buildFound] using label_mem_of_called hb
  exact ⟨nofun, nofun⟩

/-- A builder with the URL `jdbc:a@b` and the user `root`, and then one with the URL `jdbc:a` and
the user `b@root`. -/
def clashing : List (BuilderMove Unit) :=
  (machine Unit none).moves (initial Unit)
    (buildNew ⟨some (text "jdbc:a@b"), some (text "root"), none⟩ ++
      buildFound ⟨some (text "jdbc:a"), some (text "b@root"), none⟩)

/-- The second builder gets the pool of the first. -/
theorem clashing_share_pool :
    (∃ s, (machine Unit none).Run clashing s ∧ ∀ t, (s.thread t).phase.AtRest) ∧
      (∀ b, Called clashing b → b.Complete) ∧ ¬OwnPools clashing := by
  refine ⟨⟨_, Machine.run_of_play (init_initial Unit none) rfl, fun _ => rfl⟩, ?_, fun h => ?_⟩
  · intro b hb
    obtain rfl | rfl : b = ⟨some (text "jdbc:a@b"), some (text "root"), none⟩ ∨
        b = ⟨some (text "jdbc:a"), some (text "b@root"), none⟩ := by
      simpa [buildNew, buildFound] using label_mem_of_called hb
    · exact ⟨nofun, nofun⟩
    · exact ⟨nofun, nofun⟩
  · obtain ⟨p, hp, hpair⟩ := h.created_for (clashing.getLast (by decide)) (List.getLast_mem _)
      ⟨some (text "jdbc:a"), some (text "b@root"), none⟩
      (.ok ⟨0, some (text "jdbc:a@b"), some (text "root"), none, 5⟩) ⟨rfl, rfl⟩
    obtain rfl := Except.ok.inj hp
    exact absurd hpair (by decide)

end History

end ConnectionPoolBuilder

end LearnJava
