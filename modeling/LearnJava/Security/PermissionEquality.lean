import LearnJava.Security.MatchaPermission

/-!
# `equals` and `hashCode` of `MatchaPermission`

`implies` compares the actions that two lists list, `equals` and `hashCode` go by the lists as they
are written.  Two spellings of the same actions imply each other and are not equal;
`equalsAgrees_iff` shows that these are the only permissions on which the methods disagree.
-/

namespace LearnJava

namespace MatchaPermission

/-- `p.equals(obj)` -/
def equals (p : MatchaPermission) : Option Permission → Except Throwable Bool
  | some (.matcha otherMatchaPerm) => do
    return some (← deref p.action) = otherMatchaPerm.action
  | some .other | none => return false

/-- `p.hashCode()` -/
def hashCode (p : MatchaPermission) : Except Throwable ℤ := do
  return stringHashCode (← deref p.action)

variable (K : Casing)

/-- Each of the two implies the other. -/
def GrantTheSame (p q : MatchaPermission) : Prop :=
  implies K p (some (.matcha q)) = .ok true ∧ implies K q (some (.matcha p)) = .ok true

/-- What `equals` and `hashCode` should have to do with `implies`. -/
structure EqualsAgrees (p q : MatchaPermission) : Prop where
  equals_iff : equals p (some (.matcha q)) = .ok true ↔ GrantTheSame K p q
  hashCode_eq : GrantTheSame K p q → ∃ h, hashCode p = .ok h ∧ hashCode q = .ok h

variable {K} {m n : Option Text} {a b : Text}

lemma equals_eq_true_iff :
    equals ⟨m, some a⟩ (some (.matcha ⟨n, some b⟩)) = .ok true ↔ a = b := by
  have hrun : equals ⟨m, some a⟩ (some (.matcha ⟨n, some b⟩)) =
      .ok (decide (some a = some b)) := rfl
  rw [hrun, Except.ok.injEq, decide_eq_true_iff, Option.some.injEq]

/-- Implication both ways is equality of the sets of actions. -/
lemma grantTheSame_iff (ha : WellFormed K a) (hb : WellFormed K b) :
    GrantTheSame K ⟨m, some a⟩ ⟨n, some b⟩ ↔ listed K a = listed K b := by
  rw [GrantTheSame, implies_eq_true_iff, implies_eq_true_iff, Set.Subset.antisymm_iff]
  constructor
  · rintro ⟨⟨-, -, hba⟩, -, -, hab⟩
    exact ⟨hab, hba⟩
  · rintro ⟨hab, hba⟩
    exact ⟨⟨ha, hb, hba⟩, hb, ha, hab⟩

/-- **Equality is mutual implication** for two permissions with well-formed lists, whatever their
names, exactly if the lists are the same text or list different actions. -/
theorem equalsAgrees_iff (m n : Option Text) (ha : WellFormed K a) (hb : WellFormed K b) :
    EqualsAgrees K ⟨m, some a⟩ ⟨n, some b⟩ ↔ a = b ∨ listed K a ≠ listed K b := by
  constructor
  · intro h
    rw [or_iff_not_imp_right, not_not]
    intro hsame
    exact equals_eq_true_iff.mp (h.equals_iff.mpr ((grantTheSame_iff ha hb).mpr hsame))
  · rintro (rfl | hdiffer)
    · refine ⟨iff_of_true (equals_eq_true_iff.mpr rfl) ((grantTheSame_iff ha hb).mpr rfl), ?_⟩
      exact fun _ => ⟨_, rfl, rfl⟩
    · have hnot : ¬GrantTheSame K ⟨m, some a⟩ ⟨n, some b⟩ := by
        rwa [grantTheSame_iff ha hb]
      refine ⟨iff_of_false (fun heq => hdiffer ?_) hnot, fun hgrant => absurd hgrant hnot⟩
      rw [equals_eq_true_iff.mp heq]

/-- The two grants of the policy. -/
theorem equalsAgrees_iff_policy :
    (WellFormed .latin (text "read") ∧ WellFormed .latin (text "read, write")) ∧
      (EqualsAgrees .latin ⟨text "matchaName1", some (text "read")⟩
          ⟨text "matchaName2", some (text "read, write")⟩ ↔
        text "read" = text "read, write" ∨
          listed .latin (text "read") ≠ listed .latin (text "read, write")) := by
  have himplied : implies .latin ⟨text "matchaName2", some (text "read, write")⟩
      (some (.matcha ⟨text "matchaName1", some (text "read")⟩)) = .ok true := by decide
  obtain ⟨hreadWrite, hread, -⟩ := implies_eq_true_iff.mp himplied
  exact ⟨⟨hread, hreadWrite⟩, equalsAgrees_iff _ _ hread hreadWrite⟩

/-- In capital letters the same action is another permission. -/
theorem capitals_not_equal :
    GrantTheSame .latin ⟨text "matchaName1", some (text "read")⟩
        ⟨text "matchaName1", some (text "READ")⟩ ∧
      equals ⟨text "matchaName1", some (text "read")⟩
        (some (.matcha ⟨text "matchaName1", some (text "READ")⟩)) = .ok false ∧
      ¬EqualsAgrees .latin ⟨text "matchaName1", some (text "read")⟩
        ⟨text "matchaName1", some (text "READ")⟩ := by
  have hgrant : GrantTheSame .latin ⟨text "matchaName1", some (text "read")⟩
      ⟨text "matchaName1", some (text "READ")⟩ := ⟨by decide, by decide⟩
  refine ⟨hgrant, by decide, fun h => ?_⟩
  have htext := equals_eq_true_iff.mp (h.equals_iff.mpr hgrant)
  exact absurd htext (by decide)

end MatchaPermission

end LearnJava
