import Mathlib.Algebra.Group.Nat.Defs
import Pobl.Library.Keyed
import Pobl.Construction.SignaturePolicy

namespace Pobl.Cauthdsl

open Library Protos

section Gates

variable {n : Int32} {policies : List Evaluator} {signedData : List SignedData} {used : List Bool}

theorem toInt_ofNat_le (count : Nat) : (Int32.ofNat count).toInt ≤ count := by
  rw [Int32.toInt_ofNat', Int.bmod_def, Int32.size]
  split <;> omega

theorem toNat_le_toNat {first second : Bool} : first.toNat ≤ second.toNat ↔ (first = true → second = true) := by
  cases first <;> cases second <;> decide

/-- The flags that a gate keeps after a rule. -/
def kept (signedData : List SignedData) (used : List Bool) (policy : Evaluator) : List Bool :=
  if (policy signedData used).1 then (policy signedData used).2 else used

/-- How many of the rules of a gate are satisfied. -/
def successes (signedData : List SignedData) : List Evaluator → List Bool → Nat
  | [], _ => 0
  | policy :: policies, used =>
    (policy signedData used).1.toNat + successes signedData policies (kept signedData used policy)

theorem successes_le : successes signedData policies used ≤ policies.length := by
  induction policies generalizing used with
  | nil => simp [successes]
  | cons policy policies ih =>
    have rest := @ih (kept signedData used policy)
    have one := Bool.toNat_le (policy signedData used).1
    simp only [successes, List.length_cons]
    omega

theorem foldl_kept_eq (none : successes signedData policies used = 0) :
    policies.foldl (kept signedData) used = used := by
  induction policies generalizing used with
  | nil => rfl
  | cons policy policies ih =>
    simp only [successes, Nat.add_eq_zero_iff, Bool.toNat_eq_zero] at none
    have unchanged : kept signedData used policy = used := by simp [kept, none.1]
    simpa [unchanged] using ih (unchanged ▸ none.2)

theorem verifyRules_eq (verified : Int32) : verifyRules signedData policies verified used =
    (verified + Int32.ofNat (successes signedData policies used), policies.foldl (kept signedData) used) := by
  induction policies generalizing verified used with
  | nil => simp [verifyRules, successes]
  | cons policy policies ih =>
    rcases result : policy signedData used with ⟨_ | _, used'⟩ <;>
      simp [verifyRules, successes, kept, result, ih, Int32.ofNat_add, Int32.add_assoc]

theorem evaluateNOutOf_eq : evaluateNOutOf n policies signedData used =
    (decide (n ≤ Int32.ofNat (successes signedData policies used)), policies.foldl (kept signedData) used) := by
  simp [evaluateNOutOf, verifyRules_eq]

/-- The counter has 32 bits. It never exceeds the number of the satisfied rules. -/
theorem le_successes (accepted : (evaluateNOutOf n policies signedData used).1 = true) :
    n.toInt ≤ successes signedData policies used := by
  simp only [evaluateNOutOf_eq, decide_eq_true_eq, Int32.le_iff_toInt_le] at accepted
  exact Int.le_trans accepted (toInt_ofNat_le _)

theorem evaluateNOutOf_iff (small : policies.length < 2 ^ 31) :
    (evaluateNOutOf n policies signedData used).1 = true ↔ n.toInt ≤ successes signedData policies used := by
  have bound := @successes_le policies signedData used
  simp only [evaluateNOutOf_eq, decide_eq_true_eq, Int32.le_iff_toInt_le]
  rw [Int32.toInt_ofNat_of_lt (by omega)]

end Gates

variable {Identity : Type} (deserializer : IdentityDeserializer Identity) (identities : List MSPPrincipal)
  {policy : SignaturePolicy} {evaluator : Evaluator} {index : Int32}

/-- The length of the identities is cut to 32 bits as well. An index that passes the check is in range. -/
theorem index_lt (passes : ¬(index < 0 ∨ Int32.ofNat identities.length ≤ index)) :
    index.toNatClampNeg < identities.length := by
  simp only [not_or, Int32.le_iff_toInt_le, Int32.lt_iff_toInt_lt] at passes
  have bound := toInt_ofNat_le identities.length
  have zero : Int32.toInt 0 = 0 := rfl
  have value : (index.toNatClampNeg : Int) = index.toInt.toNat := rfl
  omega

/-- An evaluator belongs to a leaf, or to a gate whose rules have evaluators. -/
theorem compile_induction {motive : SignaturePolicy → Evaluator → Prop}
    {motives : List SignaturePolicy → List Evaluator → Prop}
    (leaf : ∀ {index principal}, identities[index.toNatClampNeg]? = some principal → 0 ≤ index →
      motive (.signedBy index) (evaluateSignedBy deserializer principal))
    (gate : ∀ {n rules policies}, motives rules policies → motive (.nOutOf n rules) (evaluateNOutOf n policies))
    (nil : motives [] [])
    (cons : ∀ {rule rules policy policies}, motive rule policy → motives rules policies →
      motives (rule :: rules) (policy :: policies))
    (compiled : compile deserializer identities policy = .ok evaluator) : motive policy evaluator := by
  refine @SignaturePolicy.rec
    (fun policy => ∀ {evaluator}, compile deserializer identities policy = .ok evaluator → motive policy evaluator)
    (fun rules => ∀ {policies}, compileRules deserializer identities rules = .ok policies → motives rules policies)
    ?_ ?_ ?_ ?_ ?_ ?_ policy evaluator compiled
  · simp [compile]
  · simp [compile]
  · intro index evaluator compiled
    rw [compile] at compiled
    split at compiled <;> cases compiled
    rename_i passes
    exact leaf (by simp [index_lt identities passes]) (by simpa using fun negative => passes (.inl negative))
  · intro n rules ih evaluator compiled
    rw [compile] at compiled
    split at compiled <;> cases compiled
    exact gate (ih ‹_›)
  · intro policies compiled
    cases compiled
    exact nil
  · intro rule rules head tail policies compiled
    rw [compileRules] at compiled
    split at compiled <;> try cases compiled
    split at compiled <;> cases compiled
    exact cons (head ‹_›) (tail ‹_›)

/-- The entries at the positions are unused before, and they are marked one after the other. -/
inductive Uses : List Bool → List Nat → List Bool → Prop
  | nil (used : List Bool) : Uses used [] used
  | cons {used used' : List Bool} {position : Nat} {positions : List Nat} : used[position]? = some false →
      Uses (used.set position true) positions used' → Uses used (position :: positions) used'

theorem Uses.append {used used' used'' : List Bool} {first second : List Nat} (uses : Uses used first used')
    (uses' : Uses used' second used'') : Uses used (first ++ second) used'' := by
  induction uses with
  | nil used => exact uses'
  | cons unused _ ih => exact .cons unused (ih uses')

theorem Uses.nodup {used used' : List Bool} {positions : List Nat} (uses : Uses used positions used') :
    positions.Nodup ∧ ∀ position ∈ positions, used[position]? = some false := by
  induction uses with
  | nil used => simp
  | cons unused _ ih => grind

/-- A leaf uses one entry that signs for its principal. -/
theorem uses_of_evaluateSignedBy {principal : MSPPrincipal} {signedData : List SignedData} {used used' : List Bool}
    (accepted : evaluateSignedBy deserializer principal signedData used = (true, used')) :
    ∃ position sd, signedData[position]? = some sd ∧ signs deserializer principal sd = true ∧
      used[position]? = some false ∧ used.set position true = used' := by
  induction signedData generalizing used used' with
  | nil => simp [evaluateSignedBy] at accepted
  | cons sd signedData ih =>
    cases used with
    | nil => simp [evaluateSignedBy] at accepted
    | cons flag used =>
      rw [evaluateSignedBy] at accepted
      split at accepted
      · rename_i usable
        exact ⟨0, sd, rfl, usable.2, by simp [usable.1], (Prod.mk.inj accepted).2⟩
      · simp only [Prod.mk.injEq] at accepted
        obtain ⟨position, other, found, signed, unused, marked⟩ := ih (Prod.ext accepted.1 rfl)
        exact ⟨position + 1, other, found, signed, unused, by rw [List.set, marked, accepted.2]⟩

section Soundness

variable (signedData : List SignedData)

mutual

/-- The entries at the positions satisfy the policy. Each position belongs to one `SignedBy` leaf. -/
inductive Satisfied : SignaturePolicy → List Nat → Prop
  | signedBy {index : Int32} {principal : MSPPrincipal} {position : Nat} {sd : SignedData} : 0 ≤ index →
      identities[index.toNatClampNeg]? = some principal → signedData[position]? = some sd →
      signs deserializer principal sd = true → Satisfied (.signedBy index) [position]
  | nOutOf {n : Int32} {rules : List SignaturePolicy} {count : Nat} {positions : List Nat} :
      Chosen rules count positions → n.toInt ≤ count → Satisfied (.nOutOf n rules) positions

/-- So many of the rules are chosen, and the entries at the positions satisfy them. -/
inductive Chosen : List SignaturePolicy → Nat → List Nat → Prop
  | nil : Chosen [] 0 []
  | skip {rule : SignaturePolicy} {rules : List SignaturePolicy} {count : Nat} {positions : List Nat} :
      Chosen rules count positions → Chosen (rule :: rules) count positions
  | take {rule : SignaturePolicy} {rules : List SignaturePolicy} {count : Nat} {first rest : List Nat} :
      Satisfied rule first → Chosen rules count rest → Chosen (rule :: rules) (count + 1) (first ++ rest)

end

theorem satisfied_of_compile (compiled : compile deserializer identities policy = .ok evaluator) :
    ∀ used used', evaluator signedData used = (true, used') →
      ∃ positions, Satisfied deserializer identities signedData policy positions ∧ Uses used positions used' := by
  refine @compile_induction _ deserializer identities _ _
    (fun policy evaluator => ∀ used used', evaluator signedData used = (true, used') →
      ∃ positions, Satisfied deserializer identities signedData policy positions ∧ Uses used positions used')
    (fun rules policies => ∀ used, ∃ positions,
      Chosen deserializer identities signedData rules (successes signedData policies used) positions ∧
        Uses used positions (policies.foldl (kept signedData) used)) ?_ ?_ ?_ ?_ compiled
  · intro index principal found valid used used' accepted
    obtain ⟨position, sd, entry, signed, unused, rfl⟩ := uses_of_evaluateSignedBy deserializer accepted
    exact ⟨[position], .signedBy valid found entry signed, .cons unused (.nil _)⟩
  · intro n rules policies ih used used' accepted
    obtain ⟨positions, chosen, uses⟩ := ih used
    have enough := le_successes (congrArg Prod.fst accepted)
    rw [evaluateNOutOf_eq, Prod.mk.injEq] at accepted
    exact ⟨positions, .nOutOf chosen enough, accepted.2 ▸ uses⟩
  · exact fun used => ⟨[], .nil, .nil used⟩
  · intro rule rules policy policies head tail used
    obtain ⟨rest, chosen, uses⟩ := tail (kept signedData used policy)
    rw [successes, List.foldl_cons]
    rcases result : policy signedData used with ⟨_ | _, used'⟩
    · have unchanged : kept signedData used policy = used := by simp [kept, result]
      rw [unchanged] at chosen uses ⊢
      exact ⟨rest, .skip (by simpa using chosen), uses⟩
    · have changed : kept signedData used policy = used' := by simp [kept, result]
      obtain ⟨first, satisfied, usesFirst⟩ := head used used' result
      rw [changed] at chosen uses ⊢
      exact ⟨first ++ rest, by simpa [Nat.add_comm] using Chosen.take satisfied chosen, usesFirst.append uses⟩

/-- An accepted policy has enough satisfied rules at each counted gate, and no entry stands for two leaves.
A rule that is not satisfied leaves no trace in the flags of its gate. -/
theorem compile_sound (compiled : compile deserializer identities policy = .ok evaluator) (used : List Bool) :
    ((evaluator signedData used).1 = true →
      ∃ positions, positions.Nodup ∧ Satisfied deserializer identities signedData policy positions) ∧
    ∀ (before : List Evaluator) (rule : Evaluator),
      (rule signedData (verifyRules signedData before 0 used).2).1 = false →
        (verifyRules signedData (before ++ [rule]) 0 used).2 = (verifyRules signedData before 0 used).2 := by
  constructor
  · intro accepted
    obtain ⟨positions, satisfied, uses⟩ := satisfied_of_compile deserializer identities signedData compiled used
      (evaluator signedData used).2 (Prod.ext accepted rfl)
    exact ⟨positions, uses.nodup.1, satisfied⟩
  · intro before rule rejected
    simp only [verifyRules_eq, List.foldl_append, List.foldl_cons, List.foldl_nil] at rejected ⊢
    simp [kept, rejected]

end Soundness

mutual

def leaves : SignaturePolicy → List MSPPrincipal
  | .nil => []
  | .unset => []
  | .signedBy index => identities[index.toNatClampNeg]?.toList
  | .nOutOf _ rules => leavesOf rules

/-- The principals of the leaves below the rules. -/
def leavesOf : List SignaturePolicy → List MSPPrincipal
  | [] => []
  | rule :: rules => leaves rule ++ leavesOf rules

end

section Monotonicity

variable (signedData extended : List SignedData)

/-- No entry signs for principals of both lists. -/
def Distinguishes (principals later : List MSPPrincipal) : Prop :=
  ∀ sd ∈ extended, ∀ principal ∈ principals, signs deserializer principal sd = true →
    ∀ other ∈ later, signs deserializer other sd = false

mutual

/-- A gate shares no entry with the leaves that are evaluated after it, unless it asks for one rule at most. -/
def Apart : SignaturePolicy → List MSPPrincipal → Prop
  | .nil, _ => True
  | .unset, _ => True
  | .signedBy _, _ => True
  | .nOutOf n rules, later => rules.length < 2 ^ 31 ∧ ApartRules rules later ∧
    (1 < n.toInt → Distinguishes deserializer extended (leavesOf identities rules) later)

def ApartRules : List SignaturePolicy → List MSPPrincipal → Prop
  | [], _ => True
  | rule :: rules, later => Apart rule (leavesOf identities rules ++ later) ∧ ApartRules rules later

end

/-- The second list has further entries. An entry of the first list that is unused there and signs for one of the
principals is also unused in the second. -/
inductive Extends (later : List MSPPrincipal) : List SignedData → List Bool → List SignedData → List Bool → Prop
  | nil (used used' : List Bool) : Extends later [] used [] used'
  | insert {signedData extended : List SignedData} {used used' : List Bool} (sd : SignedData) (flag : Bool) :
      Extends later signedData used extended used' → Extends later signedData used (sd :: extended) (flag :: used')
  | both {signedData extended : List SignedData} {used used' : List Bool} {sd : SignedData} {flag flag' : Bool} :
      (∀ principal ∈ later, signs deserializer principal sd = true → flag = false → flag' = false) →
      Extends later signedData used extended used' →
      Extends later (sd :: signedData) (flag :: used) (sd :: extended) (flag' :: used')

/-- The evaluation of one or more rules with these principals satisfies no fewer of them on the second list, and it
takes no entry from the leaves after it. -/
structure Monotone (principals : List MSPPrincipal) (apart : List MSPPrincipal → Prop)
    (count : List SignedData → List Bool → Nat) (keep : List SignedData → List Bool → List Bool) : Prop where
  uses : ∀ {later used used'}, Distinguishes deserializer extended principals later →
    Extends deserializer later signedData used extended used' →
      Extends deserializer later signedData used extended (keep extended used')
  accepts : ∀ {later used used'}, apart later →
    Extends deserializer (principals ++ later) signedData used extended used' →
      count signedData used ≤ count extended used' ∧
        Extends deserializer later signedData (keep signedData used) extended (keep extended used')

def MonotoneRule (rule : SignaturePolicy) (policy : Evaluator) : Prop :=
  Monotone deserializer signedData extended (leaves identities rule) (Apart deserializer identities extended rule)
    (fun sds used => (policy sds used).1.toNat) (fun sds used => kept sds used policy)

def MonotoneRules (rules : List SignaturePolicy) (policies : List Evaluator) : Prop :=
  policies.length = rules.length ∧ Monotone deserializer signedData extended (leavesOf identities rules)
    (ApartRules deserializer identities extended rules) (fun sds => successes sds policies)
    (fun sds => policies.foldl (kept sds))

variable {deserializer identities signedData extended} {later : List MSPPrincipal} {used used' : List Bool}
  {principal : MSPPrincipal} {rules : List SignaturePolicy} {policies : List Evaluator}

section

variable (longer : Extends deserializer later signedData used extended used')

include longer

theorem Extends.mono {fewer : List MSPPrincipal} (subset : fewer ⊆ later) :
    Extends deserializer fewer signedData used extended used' := by
  induction longer with
  | nil used used' => exact .nil used used'
  | insert sd flag _ ih => exact .insert sd flag ih
  | both free _ ih => exact .both (fun principal inside => free principal (subset inside)) ih

/-- A leaf may use an entry of the first list. -/
theorem Extends.use :
    Extends deserializer later signedData (evaluateSignedBy deserializer principal signedData used).2 extended
      used' := by
  induction longer with
  | nil used used' => exact .nil _ used'
  | insert sd flag _ ih => exact .insert sd flag ih
  | both free rest ih =>
    rw [evaluateSignedBy]
    split
    · exact .both (by simp) rest
    · exact .both free ih

/-- A leaf may use an entry of the second list that does not sign for the principals. -/
theorem Extends.useOther (distinguishes : Distinguishes deserializer extended [principal] later) :
    Extends deserializer later signedData used extended
      (evaluateSignedBy deserializer principal extended used').2 := by
  induction longer with
  | nil used used' => exact .nil used _
  | insert sd flag rest ih =>
    rw [evaluateSignedBy]
    split
    · exact .insert sd true rest
    · exact .insert sd flag (ih fun other listed => distinguishes other (by simp [listed]))
  | @both _ _ _ _ sd _ _ free rest ih =>
    rw [evaluateSignedBy]
    split
    · rename_i taken
      refine .both (fun other inside signed => ?_) rest
      simp [distinguishes sd (by simp) principal (by simp) taken.2 other inside] at signed
    · exact .both free (ih fun other listed => distinguishes other (by simp [listed]))

end

/-- A leaf takes the first entry that it can. If it takes another entry of the second list, then this entry was not
unused in the first list. -/
theorem Extends.leaf (longer : Extends deserializer (principal :: later) signedData used extended used') :
    ((evaluateSignedBy deserializer principal signedData used).1 = true →
      (evaluateSignedBy deserializer principal extended used').1 = true) ∧
    Extends deserializer later signedData (evaluateSignedBy deserializer principal signedData used).2 extended
      (evaluateSignedBy deserializer principal extended used').2 := by
  have fewer := List.subset_cons_self principal later
  induction longer with
  | nil used used' => exact ⟨by simp [evaluateSignedBy], .nil _ _⟩
  | @insert signedData extended used used' sd flag rest ih =>
    rw [evaluateSignedBy.eq_def deserializer principal (sd :: extended)]
    dsimp only
    split
    · exact ⟨fun _ => rfl, .insert sd true (rest.mono fewer).use⟩
    · exact ⟨ih.1, .insert sd flag ih.2⟩
  | @both signedData extended used used' sd flag flag' free rest ih =>
    simp only [evaluateSignedBy]
    by_cases old : flag = false ∧ signs deserializer principal sd = true
    · have new : flag' = false := free principal (List.mem_cons_self ..) old.2 old.1
      simp only [old, new, and_self, if_true]
      exact ⟨fun _ => trivial, .both (by simp) (rest.mono fewer)⟩
    · rw [if_neg old]
      split
      · rename_i new
        exact ⟨fun _ => rfl, .both (fun _ _ _ unused => absurd ⟨unused, new.2⟩ old) (rest.mono fewer).use⟩
      · exact ⟨ih.1, .both (fun other inside => free other (fewer inside)) ih.2⟩

theorem kept_evaluateSignedBy : kept signedData used (evaluateSignedBy deserializer principal) =
    (evaluateSignedBy deserializer principal signedData used).2 := by
  fun_induction evaluateSignedBy deserializer principal signedData used <;> grind [kept, evaluateSignedBy]

theorem monotone_leaf (found : identities[index.toNatClampNeg]? = some principal) :
    MonotoneRule deserializer identities signedData extended (.signedBy index)
      (evaluateSignedBy deserializer principal) := by
  have leaf : leaves identities (.signedBy index) = [principal] := by simp [leaves, found]
  simp only [MonotoneRule, leaf, kept_evaluateSignedBy]
  refine ⟨fun distinguishes longer => longer.useOther distinguishes, fun _ longer => ?_⟩
  obtain ⟨accepts, kept⟩ := longer.leaf
  exact ⟨toNat_le_toNat.mpr accepts, kept⟩

theorem monotone_cons {rule : SignaturePolicy}
    (head : MonotoneRule deserializer identities signedData extended rule evaluator)
    (tail : MonotoneRules deserializer identities signedData extended rules policies) :
    MonotoneRules deserializer identities signedData extended (rule :: rules) (evaluator :: policies) := by
  refine ⟨by simp [tail.1], ⟨fun distinguishes longer => ?_, fun apart longer => ?_⟩⟩
  · apply tail.2.uses fun sd listed other inside => distinguishes sd listed other (by simp [leavesOf, inside])
    exact head.uses (fun sd listed other inside => distinguishes sd listed other (by simp [leavesOf, inside])) longer
  · rw [leavesOf, List.append_assoc] at longer
    obtain ⟨first, longerHead⟩ := head.accepts apart.1 longer
    obtain ⟨rest, longerTail⟩ := tail.2.accepts apart.2 longerHead
    exact ⟨Nat.add_le_add first rest, longerTail⟩

/-- A gate that fails on the shorter list gives its entries back. If it succeeds on the longer list, then it has used
nothing on the shorter one, or no later leaf can use what it takes. -/
theorem monotone_gate {n : Int32} (below : MonotoneRules deserializer identities signedData extended rules policies) :
    MonotoneRule deserializer identities signedData extended (.nOutOf n rules) (evaluateNOutOf n policies) := by
  have keeps (sds : List SignedData) (used : List Bool) : kept sds used (evaluateNOutOf n policies) =
      if (evaluateNOutOf n policies sds used).1 then policies.foldl (kept sds) used else used := by
    simp [kept, evaluateNOutOf_eq]
  simp only [MonotoneRule, leaves, keeps]
  refine ⟨fun distinguishes longer => ?_, @fun later used used' apart longer => ?_⟩
  · split
    · exact below.2.uses distinguishes longer
    · exact longer
  · rw [Apart, ← below.1] at apart
    obtain ⟨more, longerLoop⟩ := below.2.accepts apart.2.1 longer
    have longerLater := longer.mono (List.subset_append_right _ later)
    have new := @evaluateNOutOf_iff n policies extended used' apart.1
    have old := @evaluateNOutOf_iff n policies signedData used apart.1
    have monotone : (evaluateNOutOf n policies signedData used).1 = true →
        (evaluateNOutOf n policies extended used').1 = true := by
      rw [old, new]
      omega
    refine ⟨toNat_le_toNat.mpr monotone, ?_⟩
    by_cases accepted : (evaluateNOutOf n policies signedData used).1 = true
    · rwa [if_pos accepted, if_pos (monotone accepted)]
    rw [if_neg accepted]
    split
    · by_cases one : 1 < n.toInt
      · exact below.2.uses (apart.2.2 one) longerLater
      · have none : successes signedData policies used = 0 := by
          rw [old] at accepted
          omega
        rwa [foldl_kept_eq none] at longerLoop
    · exact longerLater

theorem extends_of_sublist (inserted : signedData.Sublist extended) :
    Extends deserializer later signedData (List.replicate signedData.length false) extended
      (List.replicate extended.length false) := by
  induction inserted with
  | slnil => exact .nil _ _
  | cons sd _ ih => exact .insert sd false ih
  | cons_cons sd _ ih => exact .both (fun _ _ _ _ => rfl) ih

/-- Further entries do not make a policy fail whose gates do not compete for entries with later leaves. -/
theorem compile_monotone (compiled : compile deserializer identities policy = .ok evaluator)
    (inserted : signedData.Sublist extended) (apart : Apart deserializer identities extended policy [])
    (accepted : (evaluator signedData (List.replicate signedData.length false)).1 = true) :
    (evaluator extended (List.replicate extended.length false)).1 = true := by
  have rule : MonotoneRule deserializer identities signedData extended policy evaluator :=
    compile_induction deserializer identities (fun found _ => monotone_leaf found) monotone_gate
      ⟨rfl, fun _ longer => longer, fun _ longer => ⟨Nat.le_refl 0, longer⟩⟩ monotone_cons compiled
  exact toNat_le_toNat.mp (rule.accepts apart (extends_of_sublist inserted)).1 accepted

end Monotonicity

/-- Four signers of two organizations, each of whom satisfies a principal of its own. -/
def directory : IdentityDeserializer UInt8 where
  deserializeIdentity identity := identity.head?
  getIdentifier signer := [⟨"ab", "c"⟩, ⟨"a", "bc"⟩, ⟨"a", "d"⟩, ⟨"a", "e"⟩].getD signer.toNat ⟨"", ""⟩
  satisfiesPrincipal signer principal := decide (principal.principal = [signer])
  validate _ := true
  verify _ _ _ := true

def signers : List MSPPrincipal := [⟨0, [0]⟩, ⟨0, [1]⟩, ⟨0, [2]⟩, ⟨0, [3]⟩]

def signedBy (signer : UInt8) : SignedData := ⟨[], [signer], []⟩

theorem compile_sound_two : ∃ evaluator,
      compile directory signers (.nOutOf 2 [.signedBy 1, .signedBy 2, .signedBy 3]) = .ok evaluator ∧
    (evaluator [signedBy 3, signedBy 1] [false, false]).1 = true ∧ ∃ positions, positions.Nodup ∧
    Satisfied directory signers [signedBy 3, signedBy 1] (.nOutOf 2 [.signedBy 1, .signedBy 2, .signedBy 3]) positions :=
  ⟨_, rfl, by decide, (compile_sound directory signers [signedBy 3, signedBy 1] rfl [false, false]).1 (by decide)⟩

/-- One more signature completes a gate that takes the other two signatures with it. -/
theorem compile_not_monotone : ∃ evaluator, compile directory signers
      (.nOutOf 2 [.nOutOf 3 [.signedBy 1, .signedBy 2, .signedBy 3], .signedBy 2, .signedBy 3]) = .ok evaluator ∧
    (evaluator [signedBy 2, signedBy 3] [false, false]).1 = true ∧
    (evaluator [signedBy 1, signedBy 2, signedBy 3] [false, false, false]).1 = false :=
  ⟨_, rfl, by decide, by decide⟩

/-- The inner gate takes both its signatures from each list, and no other leaf waits for them. -/
theorem compile_monotone_three : ∃ evaluator,
      compile directory signers (.nOutOf 2 [.nOutOf 2 [.signedBy 1, .signedBy 2], .signedBy 3]) = .ok evaluator ∧
    (evaluator [signedBy 1, signedBy 2, signedBy 3] [false, false, false]).1 = true ∧
    (evaluator [signedBy 0, signedBy 1, signedBy 2, signedBy 3] [false, false, false, false]).1 = true := by
  refine ⟨_, rfl, by decide, ?_⟩
  have inserted : [signedBy 1, signedBy 2, signedBy 3].Sublist
    [signedBy 0, signedBy 1, signedBy 2, signedBy 3] := by decide
  have apart : Apart directory signers [signedBy 0, signedBy 1, signedBy 2, signedBy 3]
      (.nOutOf 2 [.nOutOf 2 [.signedBy 1, .signedBy 2], .signedBy 3]) [] := by
    simp [Apart, ApartRules, Distinguishes, leavesOf, leaves, signers, signedBy, signs, directory]
  exact compile_monotone rfl inserted apart (by decide)

section Deduplication

def identifierOf (sd : SignedData) : Option IdentityIdentifier :=
  (deserializer.deserializeIdentity sd.identity).map deserializer.getIdentifier

def IdentityIdentifier.key (identifier : IdentityIdentifier) : String := identifier.mspid ++ identifier.id

variable {deserializer}

theorem deduplicateFrom_eq {sds : List SignedData} (ids : List String) : deduplicateFrom deserializer ids sds =
    firstBy (fun sd => (identifierOf deserializer sd).map IdentityIdentifier.key) ids sds := by
  induction sds generalizing ids with
  | nil => rfl
  | cons sd sds ih =>
    rw [deduplicateFrom, firstBy, identifierOf]
    cases deserializer.deserializeIdentity sd.identity with
    | none => exact ih ids
    | some identity => simp only [ih, Option.map_some, IdentityIdentifier.key]

/-- The evaluator gets the first entry of each identity exactly if no two different identities have the same key. -/
theorem accepts_deduplicated_iff (signatureSet : List SignedData) :
    (∀ evaluator : Evaluator, accepts deserializer evaluator signatureSet =
      (evaluator (firstBy (identifierOf deserializer) [] signatureSet)
        (List.replicate signatureSet.length false)).1) ↔
    ∀ first ∈ signatureSet.filterMap (identifierOf deserializer),
      ∀ second ∈ signatureSet.filterMap (identifierOf deserializer), first.key = second.key → first = second := by
  constructor
  · intro passes first inFirst second inSecond sameKey
    have same : firstBy (identifierOf deserializer) [] signatureSet = deduplicate deserializer signatureSet := by
      simpa [accepts] using passes fun sds used => (decide (sds = deduplicate deserializer signatureSet), used)
    have kept (identifier : IdentityIdentifier)
        (listed : identifier ∈ signatureSet.filterMap (identifierOf deserializer)) :
        ∃ sd ∈ deduplicate deserializer signatureSet, identifierOf deserializer sd = some identifier := by
      rw [← same, ← List.mem_map]
      exact exists_firstBy List.not_mem_nil (List.mem_map.mpr (List.mem_filterMap.mp listed))
    obtain ⟨sd, listed, found⟩ := kept first inFirst
    obtain ⟨sd', listed', found'⟩ := kept second inSecond
    rw [deduplicate, deduplicateFrom_eq] at listed listed'
    have one : sd = sd' := List.inj_on_of_nodup_map nodup_firstBy.1 listed listed' (by simp [found, found', sameKey])
    rw [one, found'] at found
    exact (Option.some.inj found).symm
  · intro injective evaluator
    have listed : ∀ sd ∈ signatureSet, ∀ identifier ∈ identifierOf deserializer sd,
        identifier ∈ signatureSet.filterMap (identifierOf deserializer) :=
      fun sd member identifier found => List.mem_filterMap.mpr ⟨sd, member, found⟩
    rw [accepts, deduplicate, deduplicateFrom_eq, ← firstBy_map injective listed (List.nil_subset _)]
    rfl

/-- The identifiers `ab`, `c` and `a`, `bc` have the same key, so the second signature is dropped. -/
theorem deduplicate_merges : deduplicate directory [signedBy 0, signedBy 1] = [signedBy 0] ∧
    firstBy (identifierOf directory) [] [signedBy 0, signedBy 1] = [signedBy 0, signedBy 1] := by decide

end Deduplication

end Pobl.Cauthdsl
