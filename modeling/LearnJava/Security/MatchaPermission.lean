import LearnJava.Foundation.Flags
import LearnJava.Java.Lang
import LearnJava.Java.Text

/-!
# `MatchaPermission`

`security/context/perm/MatchaPermission.java`: `implies` compares two lists of actions, which are
strings such as `"read, write"`, by turning each into a word with one bit for each action.  It
upper-cases its own list as a whole, and the items of both lists again one by one.

`implies_compares_actions` shows that the words decide inclusion of the sets of actions listed,
and that any other item is an `IllegalArgumentException`.

The target name given to the constructor is read by no method of the class, neither by `implies`
nor by `equals` and `hashCode`.  `implies_ignores_names` says what that means for a policy: a grant
authorises every check of its actions, under whatever name.
-/

namespace LearnJava

/-- `MatchaPermission.ActionEnum`. -/
inductive ActionEnum
  | read
  | write
  deriving DecidableEq, Repr

namespace ActionEnum

/-- The constant's name in the source. -/
def name : ActionEnum → Text
  | read => text "READ"
  | write => text "WRITE"

def getPosition : ActionEnum → ℕ
  | read => 0x0001
  | write => 0x0002

def values : List ActionEnum := [read, write]

/-- `ActionEnum.valueOf(name)`. -/
def valueOf (name : Text) : Except Throwable ActionEnum :=
  match values.find? fun e => e.name = name with
  | some e => .ok e
  | none => .error .illegalArgumentException

end ActionEnum

/-- A permission with its target name and its list of actions. -/
structure MatchaPermission where
  name : Option Text
  action : Option Text
  deriving DecidableEq, Repr

/-- A permission of this class or of another one. -/
inductive Permission
  | matcha (p : MatchaPermission)
  | other

namespace MatchaPermission

def getActions (p : MatchaPermission) : Option Text := p.action

/-- The loop of `getPosition`, from the word `position`. -/
def positionFrom (K : Casing) : ℕ → List Text → Except Throwable ℕ
  | position, [] => .ok position
  | position, action :: actions => do
    let action := trim action
    if action.length = 0 then
      positionFrom K position actions
    else
      let actionEnum ← ActionEnum.valueOf (K.toUpperCase action)
      positionFrom K (position ||| actionEnum.getPosition) actions

def getPosition (K : Casing) (actionStr : Option Text) : Except Throwable ℕ := do
  positionFrom K 0 (split ','.toNat (← deref actionStr))

/-- `p.implies(permission)`. -/
def implies (K : Casing) (p : MatchaPermission) : Option Permission → Except Throwable Bool
  | some (.matcha permission) => do
    let permissionPosition ← getPosition K permission.getActions
    let position ← getPosition K (some (K.toUpperCase (← deref p.action)))
    return position &&& permissionPosition = permissionPosition
  | some .other | none => return false

/-! ## What a list of actions lists -/

/-- The trimmed items that are not empty. -/
def items (s : Text) : List Text := ((s.splitOn ','.toNat).map trim).filter (· ≠ [])

variable (K : Casing)

/-- The actions a list contains, whatever the letter case. -/
def listed (s : Text) : Set ActionEnum := {e | ∃ w ∈ items s, K.toUpperCase w = e.name}

/-- Every item is an action. -/
def WellFormed (s : Text) : Prop := ∀ w ∈ items s, ∃ e : ActionEnum, K.toUpperCase w = e.name

/-- The promises of `implies` between permissions with the same target name. -/
structure ComparesActions (n : Option Text) : Prop where
  subset : ∀ a b, WellFormed K a → WellFormed K b →
    ∃ r, implies K ⟨n, some a⟩ (some (.matcha ⟨n, some b⟩)) = .ok r ∧
      (r = true ↔ listed K b ⊆ listed K a)
  other_item : ∀ a b, ¬(WellFormed K a ∧ WellFormed K b) →
    implies K ⟨n, some a⟩ (some (.matcha ⟨n, some b⟩)) = .error .illegalArgumentException
  reflexive : ∀ a, WellFormed K a →
    implies K ⟨n, some a⟩ (some (.matcha ⟨n, some a⟩)) = .ok true
  transitive : ∀ a b c, implies K ⟨n, some a⟩ (some (.matcha ⟨n, some b⟩)) = .ok true →
    implies K ⟨n, some b⟩ (some (.matcha ⟨n, some c⟩)) = .ok true →
    implies K ⟨n, some a⟩ (some (.matcha ⟨n, some c⟩)) = .ok true

/-! ## The items the code sees -/

section Items

variable {K}

lemma mem_items_iff {s v : Text} :
    v ∈ items s ↔ v ≠ [] ∧ ∃ w ∈ split ','.toNat s, trim w = v := by
  simp only [items, List.mem_filter, List.mem_map, ne_eq, decide_eq_true_eq]
  constructor
  · rintro ⟨⟨w, hw, rfl⟩, hv⟩
    have hne : w ≠ [] := fun heq => hv (by rw [heq]; rfl)
    exact ⟨hv, w, (mem_split_iff hne).mpr hw, rfl⟩
  · rintro ⟨hv, w, hw, rfl⟩
    have hne : w ≠ [] := fun heq => hv (by rw [heq]; rfl)
    exact ⟨⟨w, (mem_split_iff hne).mp hw, rfl⟩, hv⟩

variable (K)

/-- Upper-casing a list upper-cases its items. -/
lemma items_toUpperCase (s : Text) : items (K.toUpperCase s) = (items s).map K.toUpperCase := by
  have htrim : trim ∘ K.toUpperCase = K.toUpperCase ∘ trim := funext K.trim_toUpperCase
  rw [items, items, K.splitOn_toUpperCase, List.map_map, htrim, ← List.map_map, List.filter_map]
  congr 1
  refine List.filter_congr fun w _ => ?_
  simp

lemma listed_toUpperCase (s : Text) : listed K (K.toUpperCase s) = listed K s := by
  ext e
  simp [listed, items_toUpperCase]

lemma wellFormed_toUpperCase_iff (s : Text) :
    WellFormed K (K.toUpperCase s) ↔ WellFormed K s := by
  simp [WellFormed, items_toUpperCase]

end Items

/-! ## The word of a list -/

section Position

/-- The bit of an action. -/
def bit : ActionEnum → ℕ
  | .read => 0
  | .write => 1

lemma bit_injective : Function.Injective bit := by
  intro d e h
  cases d <;> cases e <;> first | rfl | cases h

lemma getPosition_eq_two_pow (e : ActionEnum) : e.getPosition = 2 ^ bit e := by
  cases e <;> rfl

lemma valueOf_name (e : ActionEnum) : ActionEnum.valueOf e.name = .ok e := by
  cases e <;> rfl

lemma valueOf_other {w : Text} (h : ∀ e : ActionEnum, w ≠ e.name) :
    ActionEnum.valueOf w = .error .illegalArgumentException := by
  have hfind : ActionEnum.values.find? (fun e => e.name = w) = none := by
    rw [List.find?_eq_none]
    intro e _ heq
    exact h e (of_decide_eq_true heq).symm
  rw [ActionEnum.valueOf, hfind]

lemma positionFrom_blank {w : Text} (h : trim w = []) (position : ℕ) (ws : List Text) :
    positionFrom K position (w :: ws) = positionFrom K position ws := by
  simp [positionFrom, h]

lemma positionFrom_item {w : Text} (h : trim w ≠ []) (position : ℕ) (ws : List Text) :
    positionFrom K position (w :: ws) = (ActionEnum.valueOf (K.toUpperCase (trim w))).bind
      fun e => positionFrom K (position ||| e.getPosition) ws := by
  have hlength : (trim w).length ≠ 0 := fun hzero => h (List.length_eq_zero_iff.mp hzero)
  simp only [positionFrom, hlength, if_false]
  rfl

variable {K}

/-- **The loop collects the actions of the items it passes.** -/
lemma positionFrom_encodes {position : ℕ} {S : Set ActionEnum} (ws : List Text)
    (hS : Flags.Encodes bit position S)
    (hws : ∀ w ∈ ws, trim w ≠ [] → ∃ e : ActionEnum, K.toUpperCase (trim w) = e.name) :
    ∃ n, positionFrom K position ws = .ok n ∧ Flags.Encodes bit n
      (S ∪ {e | ∃ w ∈ ws, trim w ≠ [] ∧ K.toUpperCase (trim w) = e.name}) := by
  induction ws generalizing position S with
  | nil => exact ⟨position, rfl, by simpa using hS⟩
  | cons w ws ih =>
      have hrest := fun v hv => hws v (List.mem_cons_of_mem w hv)
      by_cases hw : trim w = []
      · obtain ⟨n, hn, hset⟩ := ih hS hrest
        exact ⟨n, by rw [positionFrom_blank K hw, hn], by simpa [hw] using hset⟩
      · obtain ⟨e, he⟩ := hws w List.mem_cons_self hw
        have hinsert := hS.insert e
        rw [← getPosition_eq_two_pow] at hinsert
        obtain ⟨n, hn, hset⟩ := ih hinsert hrest
        refine ⟨n, ?_, ?_⟩
        · rw [positionFrom_item K hw, he, valueOf_name]
          exact hn
        · have hname : ∀ d : ActionEnum, e.name = d.name ↔ d = e := by
            intro d
            constructor
            · intro h
              have hvalue := valueOf_name d
              rw [← h, valueOf_name] at hvalue
              exact (Except.ok.inj hvalue).symm
            · rintro rfl
              rfl
          convert hset using 1
          ext d
          simp only [Set.mem_union, Set.mem_ofPred_eq, Set.mem_insert_iff, List.mem_cons,
            exists_eq_or_imp, he, hname]
          tauto

lemma positionFrom_other (ws : List Text) (position : ℕ)
    (h : ∃ w ∈ ws, trim w ≠ [] ∧ ∀ e : ActionEnum, K.toUpperCase (trim w) ≠ e.name) :
    positionFrom K position ws = .error .illegalArgumentException := by
  induction ws generalizing position with
  | nil =>
      obtain ⟨w, hw, -⟩ := h
      cases hw
  | cons v ws ih =>
      obtain ⟨w, hw, hne, hother⟩ := h
      by_cases hv : trim v = []
      · have hmem : w ∈ ws := by
          apply (List.mem_cons.mp hw).resolve_left
          rintro rfl
          exact hne hv
        rw [positionFrom_blank K hv]
        exact ih position ⟨w, hmem, hne, hother⟩
      · rw [positionFrom_item K hv]
        by_cases haction : ∃ e : ActionEnum, K.toUpperCase (trim v) = e.name
        · obtain ⟨e, he⟩ := haction
          have hmem : w ∈ ws := by
            apply (List.mem_cons.mp hw).resolve_left
            rintro rfl
            exact hother e he
          rw [he, valueOf_name]
          exact ih _ ⟨w, hmem, hne, hother⟩
        · rw [valueOf_other fun e he => haction ⟨e, he⟩]
          rfl

/-- The word of a well-formed list encodes the actions listed. -/
lemma getPosition_wellFormed {s : Text} (h : WellFormed K s) :
    ∃ n, getPosition K (some s) = .ok n ∧ Flags.Encodes bit n (listed K s) := by
  have hitems : ∀ w ∈ split ','.toNat s, trim w ≠ [] →
      ∃ e : ActionEnum, K.toUpperCase (trim w) = e.name :=
    fun w hw hne => h _ (mem_items_iff.mpr ⟨hne, w, hw, rfl⟩)
  obtain ⟨n, hn, hset⟩ := positionFrom_encodes _ (Flags.encodes_zero bit) hitems
  refine ⟨n, hn, ?_⟩
  convert hset using 1
  ext e
  simp only [listed, mem_items_iff, Set.empty_union, Set.mem_ofPred_eq]
  constructor
  · rintro ⟨v, ⟨hv, w, hw, rfl⟩, he⟩
    exact ⟨w, hw, hv, he⟩
  · rintro ⟨w, hw, hv, he⟩
    exact ⟨trim w, ⟨hv, w, hw, rfl⟩, he⟩

lemma getPosition_other {s : Text} (h : ¬WellFormed K s) :
    getPosition K (some s) = .error .illegalArgumentException := by
  simp only [WellFormed, not_forall, not_exists] at h
  obtain ⟨v, hv, hother⟩ := h
  obtain ⟨hne, w, hw, rfl⟩ := mem_items_iff.mp hv
  exact positionFrom_other _ 0 ⟨w, hw, hne, hother⟩

end Position

/-! ## What `implies` decides -/

section Implies

variable {K} {m n : Option Text} {a b : Text}

/-- Between well-formed lists, whatever the target names, `implies` decides inclusion. -/
lemma implies_wellFormed (m n : Option Text) (ha : WellFormed K a) (hb : WellFormed K b) :
    ∃ r, implies K ⟨m, some a⟩ (some (.matcha ⟨n, some b⟩)) = .ok r ∧
      (r = true ↔ listed K b ⊆ listed K a) := by
  obtain ⟨j, hj, hjset⟩ := getPosition_wellFormed hb
  obtain ⟨i, hi, hiset⟩ := getPosition_wellFormed ((wellFormed_toUpperCase_iff K a).mpr ha)
  rw [listed_toUpperCase] at hiset
  refine ⟨decide (i &&& j = j), ?_, ?_⟩
  · simp only [implies, getActions, deref, hj, hi, bind, Except.bind]
    rfl
  · rw [decide_eq_true_iff]
    exact hiset.and_eq_iff bit_injective hjset

/-- A list with any other item makes `implies` throw. -/
lemma implies_other (m n : Option Text) (h : ¬(WellFormed K a ∧ WellFormed K b)) :
    implies K ⟨m, some a⟩ (some (.matcha ⟨n, some b⟩)) = .error .illegalArgumentException := by
  by_cases hb : WellFormed K b
  · have ha : ¬WellFormed K (K.toUpperCase a) := by
      rw [wellFormed_toUpperCase_iff]
      exact fun ha => h ⟨ha, hb⟩
    obtain ⟨j, hj, -⟩ := getPosition_wellFormed hb
    simp only [implies, getActions, deref, hj, getPosition_other ha, bind, Except.bind]
  · simp only [implies, getActions, getPosition_other hb, bind, Except.bind]

lemma implies_eq_true_iff :
    implies K ⟨m, some a⟩ (some (.matcha ⟨n, some b⟩)) = .ok true ↔
      WellFormed K a ∧ WellFormed K b ∧ listed K b ⊆ listed K a := by
  by_cases h : WellFormed K a ∧ WellFormed K b
  · obtain ⟨r, hr, hsub⟩ := implies_wellFormed m n h.1 h.2
    rw [hr, Except.ok.injEq, hsub]
    exact ⟨fun hset => ⟨h.1, h.2, hset⟩, fun hset => hset.2.2⟩
  · rw [implies_other m n h]
    constructor
    · intro herror
      cases herror
    · intro hall
      exact absurd ⟨hall.1, hall.2.1⟩ h

end Implies

/-- **`implies` is inclusion of the actions listed.**  For every locale-neutral case mapping and
all lists of actions: `implies` compares the sets of actions of well-formed lists, throws on any
other item, and so is reflexive and transitive. -/
theorem implies_compares_actions (n : Option Text) : ComparesActions K n := by
  refine ⟨fun a b => implies_wellFormed n n, fun a b => implies_other n n, fun a ha => ?_,
    fun a b c hab hbc => ?_⟩
  · exact implies_eq_true_iff.mpr ⟨ha, ha, subset_rfl⟩
  · obtain ⟨ha, -, hba⟩ := implies_eq_true_iff.mp hab
    obtain ⟨-, hc, hcb⟩ := implies_eq_true_iff.mp hbc
    exact implies_eq_true_iff.mpr ⟨ha, hc, hcb.trans hba⟩

/-- The policy's `"read, write"` implies `"write"`, also with empty items, with blanks and in a
spelling that only upper-casing turns into the name. -/
theorem readWrite_implies_write :
    implies .latin ⟨text "matchaName2", some (text "read, write")⟩
      (some (.matcha ⟨text "matchaName2", some (text ", wrıTE ,WRITE,,")⟩)) = .ok true ∧
    ComparesActions .latin (text "matchaName2") :=
  ⟨by decide, implies_compares_actions .latin (text "matchaName2")⟩

/-! ## What a set of grants authorises -/

/-- One of the granted permissions implies the one that is checked. -/
def Authorises (granted : Set MatchaPermission) (checked : Option Permission) : Prop :=
  ∃ p ∈ granted, implies K p checked = .ok true

/-- Grants and checks with well-formed lists of actions are compared by name: what `implies` accepts
is a `MatchaPermission` with the same target name. -/
def ComparesNames : Prop :=
  ∀ m a, WellFormed K a → ∀ checked : Option Permission,
    (∀ n b, checked = some (.matcha ⟨n, some b⟩) → WellFormed K b) →
    implies K ⟨m, some a⟩ checked = .ok true → ∃ b, checked = some (.matcha ⟨m, b⟩)

/-- Grants and checks are compared by their actions alone. -/
structure IgnoresNames : Prop where
  only_matcha : ∀ p checked, implies K p checked = .ok true →
    ∃ n b, checked = some (.matcha ⟨n, some b⟩)
  subset : ∀ m n a b, WellFormed K a → WellFormed K b →
    (implies K ⟨m, some a⟩ (some (.matcha ⟨n, some b⟩)) = .ok true ↔ listed K b ⊆ listed K a)
  grants : ∀ granted, (∀ p ∈ granted, ∃ a, p.action = some a ∧ WellFormed K a) →
    ∀ n b, WellFormed K b → (Authorises K granted (some (.matcha ⟨n, some b⟩)) ↔
      ∃ p ∈ granted, ∃ a, p.action = some a ∧ listed K b ⊆ listed K a)
  other_names : ∀ granted granted' : Set MatchaPermission,
    MatchaPermission.action '' granted = MatchaPermission.action '' granted' → ∀ n n' b,
    (Authorises K granted (some (.matcha ⟨n, b⟩)) ↔
      Authorises K granted' (some (.matcha ⟨n', b⟩)))

section Names

variable {K}

/-- No name has a part in the decision. -/
lemma implies_congr {p p' q q' : MatchaPermission} (hp : p.action = p'.action)
    (hq : q.action = q'.action) :
    implies K p (some (.matcha q)) = implies K p' (some (.matcha q')) := by
  simp only [implies, getActions, hp, hq]

lemma matcha_of_implies {p : MatchaPermission} {checked : Option Permission}
    (h : implies K p checked = .ok true) : ∃ n b, checked = some (.matcha ⟨n, some b⟩) := by
  match checked, h with
  | some (.matcha ⟨n, some b⟩), _ => exact ⟨n, b, rfl⟩
  | some (.matcha ⟨_, none⟩), h => cases h
  | some .other, h => cases h
  | none, h => cases h

lemma authorises_of_actions {granted granted' : Set MatchaPermission}
    (h : MatchaPermission.action '' granted ⊆ MatchaPermission.action '' granted')
    (n n' : Option Text) {b : Option Text}
    (hauth : Authorises K granted (some (.matcha ⟨n, b⟩))) :
    Authorises K granted' (some (.matcha ⟨n', b⟩)) := by
  obtain ⟨p, hp, himplies⟩ := hauth
  obtain ⟨p', hp', haction⟩ := h (Set.mem_image_of_mem _ hp)
  refine ⟨p', hp', ?_⟩
  exact (implies_congr haction rfl).trans himplies

lemma authorises_iff {granted : Set MatchaPermission}
    (h : ∀ p ∈ granted, ∃ a, p.action = some a ∧ WellFormed K a) (n : Option Text) {b : Text}
    (hb : WellFormed K b) :
    Authorises K granted (some (.matcha ⟨n, some b⟩)) ↔
      ∃ p ∈ granted, ∃ a, p.action = some a ∧ listed K b ⊆ listed K a := by
  refine exists_congr fun p => and_congr_right fun hp => ?_
  obtain ⟨a, ha, hwf⟩ := h p hp
  have hcongr : implies K p (some (.matcha ⟨n, some b⟩)) =
      implies K ⟨p.name, some a⟩ (some (.matcha ⟨n, some b⟩)) := implies_congr ha rfl
  rw [hcongr, implies_eq_true_iff]
  constructor
  · rintro ⟨-, -, hsub⟩
    exact ⟨a, ha, hsub⟩
  · rintro ⟨a', ha', hsub⟩
    obtain rfl : a = a' := Option.some.inj (ha.symm.trans ha')
    exact ⟨hwf, hb, hsub⟩

end Names

/-- **Grants hold for every name.**  Only a `MatchaPermission` is ever implied, and by a grant that
lists all its actions; which names the grants and the check have makes no difference, so a grant
under one name authorises the check of its actions under any other. -/
theorem implies_ignores_names : IgnoresNames K := by
  refine ⟨fun p checked h => matcha_of_implies h, fun m n a b ha hb => ?_,
    fun granted h n b hb => authorises_iff h n hb, fun granted granted' h n n' b => ?_⟩
  · rw [implies_eq_true_iff]
    exact ⟨fun h => h.2.2, fun h => ⟨ha, hb, h⟩⟩
  · exact ⟨authorises_of_actions h.le n n', authorises_of_actions h.ge n' n⟩

/-- The grant of the policy's first entry also authorises the check of its action under the name
that the other entries grant. -/
theorem not_comparesNames : ¬ComparesNames .latin ∧
    Authorises .latin {⟨text "matchaName1", some (text "read")⟩}
      (some (.matcha ⟨text "matchaName2", some (text "read")⟩)) := by
  have himplied : implies .latin ⟨text "matchaName1", some (text "read")⟩
      (some (.matcha ⟨text "matchaName2", some (text "read")⟩)) = .ok true := by decide
  refine ⟨fun h => ?_, ⟨_, rfl, himplied⟩⟩
  obtain ⟨hread, -, -⟩ := implies_eq_true_iff.mp himplied
  obtain ⟨b, hb⟩ := h (text "matchaName1") _ hread _ (fun n b hq => by cases hq; exact hread)
    himplied
  simp only [Option.some.injEq, Permission.matcha.injEq, MatchaPermission.mk.injEq] at hb
  exact absurd hb.1 (by decide)

end MatchaPermission

end LearnJava
