import Pobl.Proof.Parallel.Operations
import Pobl.Proof.Validation.Endorsements

namespace Pobl.Peer

open Library Protos Cauthdsl Goroutine List

namespace Setting

variable {Identity Value : Type} (setting : Setting Identity) (block : Block)

/-- The keys that are extracted from a transaction. A transaction that is skipped has none. -/
def extractedKeys (position : Nat) : Option (List LedgerKeyID) :=
  match setting.extractedResults (block.data.getD position none) with
  | .ok results => results.map setting.insertedKeys
  | .error _ => none

/-- The keys that a transaction writes in a namespace. -/
def checkedKeys (position : Nat) (ns : String) : List LedgerKeyID :=
  match setting.extractedResults (block.data.getD position none) with
  | .ok (some rwsetBytes) =>
    (setting.codec.txRwSet rwsetBytes).elim [] fun rwset => (keysOf rwset ns).map fun entry =>
      ⟨ns, entry.1, entry.2⟩
  | _ => []

/-- No earlier transaction of the block updates the validation parameter of a key. -/
def Undisputed (position : Nat) (kid : LedgerKeyID) : Prop :=
  ∀ earlier < position, ¬Updates (setting.extractedKeys block) earlier kid

theorem fetch_ne_panic {stop : Stop} (other : stop ≠ .panic) (value : Option Value) :
    fetch stop value ≠ .error .panic := by
  cases value with
  | none => exact fun same => other (Except.error.inj same)
  | some value => exact nofun

theorem require_ne_panic {condition : Prop} [Decidable condition] {stop : Stop} (other : stop ≠ .panic) :
    require condition stop ≠ .error .panic := by
  rw [require]
  split
  · exact fun same => by cases same
  · exact fun same => other (Except.error.inj same)

theorem bind_ne_panic {Next : Type} {first : Except Stop Value} {next : Value → Except Stop Next}
    (calm : first ≠ .error .panic) (continues : ∀ value, first = .ok value → next value ≠ .error .panic) :
    (first >>= next) ≠ .error .panic := by
  cases first with
  | error stop => exact fun same => calm (congrArg Except.error (Except.error.inj same))
  | ok value => exact continues value rfl

theorem mapError_ne_panic {Error : Type} {change : Error → Stop} (other : ∀ err, change err ≠ .panic)
    (check : Except Error Value) : check.mapError change ≠ .error .panic := by
  cases check with
  | error err => exact fun same => other err (Except.error.inj same)
  | ok value => exact nofun

theorem checkCCEPIfCondition_ne_panic (ccEP : Bytes) (signatureSet : List SignedData) (checker : PolicyChecker)
    (condition : Bool) : setting.checkCCEPIfCondition ccEP signatureSet checker condition ≠ .error .panic := by
  rw [checkCCEPIfCondition]
  split
  · exact nofun
  · split <;> exact nofun

theorem checkParameter_ne_panic (ccEP : Bytes) (signatureSet : List SignedData) (vp : Except ParameterError Bytes)
    (checker : PolicyChecker) : setting.checkParameter ccEP signatureSet vp checker ≠ .error .panic := by
  cases vp with
  | error err =>
    cases err with
    | updated => exact nofun
    | undefinedCollection => exact setting.checkCCEPIfCondition_ne_panic _ _ _ _
    | other err => exact nofun
  | ok vp =>
    cases vp with
    | nil => exact setting.checkCCEPIfCondition_ne_panic _ _ _ _
    | cons first rest =>
      rw [checkParameter]
      split <;> exact nofun

end Setting

section Rules

variable {block : Block} {updated : Nat → Option (List LedgerKeyID)} {signals : Nat → Plugin → String → Prop}
  {goroutine : Nat} {validators : Validators} {Value Next : Type} {first result : Except Stop Value}
  {next : Value → Routine Next} {post : Except Stop Value → Validators → Prop}
  {last : Except Stop Next → Validators → Prop} {routine : Routine Value}

/-- A computation in a goroutine. -/
theorem follows_compute (calm : result ≠ .error .panic)
    (always : ∀ later, (discipline block updated).Rely goroutine validators later → post result later) :
    Follows block updated signals goroutine post (compute result) validators := by
  cases result with
  | ok value => exact always
  | error stop =>
    cases stop with
    | invalid code rejected => exact always
    | terminal err => exact always
    | panic => exact absurd rfl calm

/-- Two parts of a function that may return an error. -/
theorem follows_bind (follows : Follows block updated signals goroutine post routine validators)
    (holds : (discipline block updated).invariant validators)
    (stopped : ∀ stop after, (discipline block updated).evolves validators after → post (.error stop) after →
      ∀ later, (discipline block updated).Rely goroutine after later → last (.error stop) later)
    (continues : ∀ value after, (discipline block updated).invariant after →
    (discipline block updated).evolves validators after → post (.ok value) after →
      Follows block updated signals goroutine last (next value) after) :
    Follows block updated signals goroutine last (routine >>= next : Routine Next) validators := by
  refine follows.bind holds fun result after invariant evolves reached => ?_
  cases result with
  | ok value => exact continues value after invariant evolves reached
  | error stop => exact stopped stop after evolves reached

/-- A computation that comes before the rest of a function. -/
theorem follows_compute_bind (calm : result ≠ .error .panic)
    (stopped : ∀ stop, result = .error stop → ∀ later, (discipline block updated).Rely goroutine validators later →
      last (.error stop) later)
    (continues : ∀ value, result = .ok value → Follows block updated signals goroutine last (next value) validators) :
    Follows block updated signals goroutine last (compute result >>= next : Routine Next) validators := by
  cases result with
  | ok value => exact continues value rfl
  | error stop =>
    cases stop with
    | invalid code rejected => exact stopped _ rfl
    | terminal err => exact stopped _ rfl
    | panic => exact absurd rfl calm

theorem error_ne_panic {stop : Stop} (calm : (.error stop : Except Stop Value) ≠ .error .panic) :
    (.error stop : Except Stop Next) ≠ .error .panic :=
  fun same => calm (congrArg Except.error (Except.error.inj same))

/-- A function returns what it returns alone if no other transaction interferes, and its goroutine owns no flag. -/
structure Returns (block : Block) (goroutine : Nat) (alone : Prop) (expected : Except Stop Value)
    (result : Except Stop Value) (after : Validators) : Prop where
  idle : Idle block goroutine after
  calm : result ≠ .error .panic
  same : alone → result = expected

variable {alone : Prop} (idle : Idle block goroutine validators) {second : Value → Except Stop Next}

include idle in
theorem follows_returns_compute (calm : result ≠ .error .panic) :
    Follows block updated signals goroutine (Returns block goroutine alone result) (compute result) validators :=
  follows_compute calm fun _ rely => ⟨idle.rely rely, calm, fun _ => rfl⟩

theorem follows_returns_bind
    (follows : Follows block updated signals goroutine (Returns block goroutine alone first) routine validators)
    (holds : (discipline block updated).invariant validators)
    (continues : ∀ value after, (discipline block updated).invariant after →
    (discipline block updated).evolves validators after → Idle block goroutine after →
      Follows block updated signals goroutine (Returns block goroutine alone (second value)) (next value) after) :
    Follows block updated signals goroutine (Returns block goroutine alone (first >>= second))
    (routine >>= next : Routine Next) validators := by
  refine follows_bind follows holds ?_ ?_
  · intro stop after _ reached later rely
    refine ⟨reached.idle.rely rely, error_ne_panic reached.calm, fun single => ?_⟩
    rw [← reached.same single]
    rfl
  · intro value after invariant evolves reached
    refine (continues value after invariant evolves reached.idle).weaken fun result later _ returned => ?_
    refine ⟨returned.idle, returned.calm, fun single => ?_⟩
    rw [← reached.same single]
    exact returned.same single

include idle in
theorem follows_returns_compute_bind (calm : first ≠ .error .panic) (continues : ∀ value, first = .ok value →
      Follows block updated signals goroutine (Returns block goroutine alone (second value)) (next value)
        validators) :
    Follows block updated signals goroutine (Returns block goroutine alone (first >>= second))
    (compute first >>= next : Routine Next) validators := by
  refine follows_compute_bind calm ?_ ?_
  · rintro stop rfl later rely
    exact ⟨idle.rely rely, error_ne_panic calm, fun _ => rfl⟩
  · rintro value rfl
    exact continues value rfl

end Rules

/-- The validation parameter of a key can be looked up: the dependencies of all earlier transactions are extracted,
and each of them that updates the parameter signals a result. -/
structure Expected {Identity : Type} (setting : Setting Identity) (block : Block)
    (signals : Nat → Plugin → String → Prop) (position : Nat) (plugin : Plugin) (kid : LedgerKeyID) : Prop where
  extracts : ∀ earlier < position, (setting.extractedKeys block earlier).isSome = true
  signals : ∀ earlier < position, Updates (setting.extractedKeys block) earlier kid → signals earlier plugin kid.cc

section Functions

variable {Identity : Type} {setting : Setting Identity} {block : Block} {signals : Nat → Plugin → String → Prop}
  {goroutine position : Nat} {validators : Validators} {plugin : Plugin}
  (holds : (discipline block (setting.extractedKeys block)).invariant validators)

include holds

theorem follows_extractValidationParameterDependency {rwsetBytes : Bytes}
    (updates : ∀ kid ∈ setting.insertedKeys rwsetBytes, Updates (setting.extractedKeys block) position kid)
    (owns : Owns block goroutine plugin position false validators) :
    Follows block (setting.extractedKeys block) signals goroutine (fun _ => Owns block goroutine plugin position true)
      (extractValidationParameterDependency setting plugin position rwsetBytes) validators := by
  refine (follows_forBlock local_owns owns).bind holds fun _ after holds _ known => ?_
  refine (follows_getOrCreate local_owns known.1 known.2 position).bind holds fun _ after holds _ known => ?_
  refine (Discipline.assured_forM _ _
    (fun _ after => Owns block goroutine plugin position false after ∧ Entered block plugin after)
    ?_ ?_ holds known).bind holds fun _ after holds _ known => ?_
  · intro before kid later split after holds known
    have member : kid ∈ setting.insertedKeys rwsetBytes := by
      rw [split]
      exact mem_append_right _ mem_cons_self
    exact follows_addDependency local_owns known.1 known.2 (updates kid member)
  · exact fun _ _ rely known => ⟨known.1.rely rely, known.2.evolves rely.evolves⟩
  · exact follows_signalDepInserted known.1 known.2

variable (idle : Idle block goroutine validators)

include idle

/-- After one round of `PreValidate` a transaction is extracted or skipped, by this goroutine or another. -/
theorem follows_extractOnce (known : (validators plugin).blockNum = block.number)
    (inside : position < block.data.length) {results : Option Bytes}
    (extracted : setting.extractedResults (block.data.getD position none) = .ok results) :
    Follows block (setting.extractedKeys block) signals goroutine
      (fun _ after => Idle block goroutine after ∧ Finished block plugin position after)
      (extractOnce setting block plugin position) validators := by
  have keys : setting.extractedKeys block position = results.map setting.insertedKeys := by
    rw [Setting.extractedKeys, extracted]
  refine (follows_enterOnce idle known inside).bind holds fun entered after holds _ reached => ?_
  cases entered with
  | false => exact fun later rely => ⟨reached.1.rely rely, reached.2.evolves rely.evolves⟩
  | true =>
    rw [if_pos rfl, extractDependenciesForTx, extracted]
    cases results with
    | none =>
      refine follows_leaveOnce reached fun extracts => ?_
      rw [keys] at extracts
      cases extracts
    | some rwsetBytes =>
      refine (follows_extractValidationParameterDependency holds
        (fun kid member => ⟨_, keys, member⟩) reached).bind holds fun _ after _ _ owns => ?_
      exact follows_leaveOnce owns fun _ => rfl

theorem follows_preValidate (inside : goroutine < block.data.length) (extracted : ∀ position ≤ goroutine, ∃ results,
      setting.extractedResults (block.data.getD position none) = .ok results) :
    Follows block (setting.extractedKeys block) signals goroutine
      (fun _ after => Idle block goroutine after ∧ ∀ position ≤ goroutine, Finished block plugin position after)
      (preValidate setting block plugin goroutine) validators := by
  refine (follows_lockBlockDep idle).bind holds fun _ after holds _ known => ?_
  refine (Discipline.assured_forM _ _
    (fun visited after => (Idle block goroutine after ∧ (after plugin).blockNum = block.number) ∧
      ∀ position ∈ visited, Finished block plugin position after) ?_ ?_ holds ⟨known, nofun⟩).weaken ?_
  · intro before position later split after holds reached
    have upTo : position ≤ goroutine := by
      have member : position ∈ (range (goroutine + 1)).reverse := by
        rw [split]
        exact mem_append_right _ mem_cons_self
      rw [mem_reverse, mem_range] at member
      omega
    obtain ⟨results, found⟩ := extracted position upTo
    refine (follows_extractOnce holds reached.1.1 reached.1.2 (by omega) found).weaken ?_
    rintro _ after evolves ⟨idle, finished⟩
    refine ⟨⟨idle, (evolves plugin).locked reached.1.2⟩, fun query visited => ?_⟩
    rcases mem_append.mp visited with visited | last
    · exact (reached.2 query visited).evolves evolves
    · rw [mem_singleton.mp last]
      exact finished
  · intro before after rely reached
    refine ⟨⟨reached.1.1.rely rely, (rely.evolves plugin).locked reached.1.2⟩, fun position visited => ?_⟩
    exact (reached.2 position visited).evolves rely.evolves
  · intro _ after _ reached
    refine ⟨reached.1.1, fun position upTo => reached.2 position ?_⟩
    rw [mem_reverse, mem_range]
    omega

theorem follows_waitForDependencies (entered : Entered block plugin validators)
    (extracts : ∀ position < goroutine, (setting.extractedKeys block position).isSome = true)
    (finished : ∀ position < goroutine, Finished block plugin position validators) :
    Follows block (setting.extractedKeys block) signals goroutine
      (fun _ after => Idle block goroutine after ∧ Entered block plugin after)
      (waitForDependencies plugin goroutine) validators := by
  refine (Discipline.assured_forM _ _ (fun _ after => (Idle block goroutine after ∧ Entered block plugin after) ∧
      ∀ position < goroutine, Finished block plugin position after) ?_ ?_ holds ⟨⟨idle, entered⟩, finished⟩).weaken
    fun _ _ _ reached => reached.1
  · intro before position later split after holds reached
    have member : position ∈ (range goroutine).reverse := by
      rw [split]
      exact mem_append_right _ mem_cons_self
    rw [mem_reverse, mem_range] at member
    refine Discipline.Assured.weaken ?_ fun _ _ evolves known =>
      ⟨known, fun position earlier => (reached.2 position earlier).evolves evolves⟩
    refine (follows_getOrCreate local_idle reached.1.1 reached.1.2 position).bind holds
      fun _ later _ evolves known => ?_
    exact follows_waitForDepInserted known.1 known.2 ((reached.2 position member).evolves evolves)
      (extracts position member)
  · intro before after rely reached
    refine ⟨⟨reached.1.1.rely rely, reached.1.2.evolves rely.evolves⟩, fun position earlier => ?_⟩
    exact (reached.2 position earlier).evolves rely.evolves

theorem follows_waitForValidationResults {cc : String} (entered : Entered block plugin validators) (deps : List Nat)
    (expected : ∀ dep ∈ deps, dep < goroutine ∧ signals dep plugin cc) :
    Follows block (setting.extractedKeys block) signals goroutine
      (fun updated after => Idle block goroutine after ∧ (deps = [] → updated = false))
      (waitForValidationResults plugin cc deps) validators := by
  induction deps generalizing validators with
  | nil => exact fun later rely => ⟨idle.rely rely, fun _ => rfl⟩
  | cons dep deps ih =>
    obtain ⟨earlier, signalled⟩ := expected dep mem_cons_self
    refine (follows_waitForResult idle entered earlier signalled).bind holds fun passed after holds _ known => ?_
    cases passed with
    | true => exact fun later rely => ⟨known.1.rely rely, nofun⟩
    | false =>
      refine (ih holds known.1 known.2 fun other member => expected other (mem_cons_of_mem _ member)).weaken ?_
      exact fun _ _ _ reached => ⟨reached.1, nofun⟩

/-- The parameter of a key is the one of the ledger if no earlier transaction updates it. -/
theorem follows_getValidationParameterForKey (kid : LedgerKeyID)
    (finished : ∀ position < goroutine, Finished block plugin position validators)
    (expected : Expected setting block signals goroutine plugin kid) :
    Follows block (setting.extractedKeys block) signals goroutine
      (fun vp after => Idle block goroutine after ∧ (setting.Undisputed block goroutine kid →
        vp = setting.getValidationParameterForKey plugin.vsccName kid.cc kid.coll kid.key block.number goroutine))
      (getValidationParameterForKey setting block plugin kid goroutine) validators := by
  refine (follows_forBlock local_idle idle).bind holds fun _ after holds evolves known => ?_
  refine (follows_waitForDependencies holds known.1 known.2 expected.extracts
    fun position earlier => (finished position earlier).evolves evolves).bind holds fun _ after holds _ known => ?_
  refine (follows_dependenciesForTxnum known.1 known.2 kid goroutine).bind holds fun deps after holds _ known => ?_
  obtain ⟨⟨idle, entered⟩, listed⟩ := known
  refine (follows_waitForValidationResults holds idle entered deps fun dep member =>
    ⟨(listed dep member).1, expected.signals dep (listed dep member).1 (listed dep member).2⟩).bind holds
    fun updated after holds _ known => ?_
  obtain ⟨idle, answered⟩ := known
  cases updated with
  | true =>
    refine fun later rely => ⟨idle.rely rely, fun undisputed => ?_⟩
    cases deps with
    | nil => exact nomatch answered rfl
    | cons dep deps =>
      obtain ⟨earlier, updates⟩ := listed dep mem_cons_self
      exact absurd updates (undisputed dep earlier)
  | false => exact fun later rely => ⟨idle.rely rely, fun _ => rfl⟩

section KeyLevel

variable (ccEP : Bytes) (signatureSet : List SignedData) (cc : String) {alone : Prop}
  (finished : ∀ position < goroutine, Finished block plugin position validators)

include finished

theorem follows_checkSBAndCCEP (coll : String) (key : Bytes) (checker : Setting.PolicyChecker)
    (expected : Expected setting block signals goroutine plugin ⟨cc, coll, key⟩)
    (undisputed : alone → setting.Undisputed block goroutine ⟨cc, coll, key⟩) :
    Follows block (setting.extractedKeys block) signals goroutine (Returns block goroutine alone
        (setting.checkSBAndCCEP plugin.vsccName ccEP signatureSet cc coll key block.number goroutine checker))
      (checkSBAndCCEP setting block plugin ccEP signatureSet cc goroutine coll key checker) validators := by
  refine (follows_getValidationParameterForKey holds idle ⟨cc, coll, key⟩ finished expected).bind holds
    fun vp after _ _ known => ?_
  refine follows_compute (setting.checkParameter_ne_panic _ _ _ _) fun later rely =>
    ⟨known.1.rely rely, setting.checkParameter_ne_panic _ _ _ _, fun single => ?_⟩
  rw [Setting.checkSBAndCCEP, known.2 (undisputed single)]

theorem follows_checkKeys (keys : List (String × Bytes)) (checker : Setting.PolicyChecker)
    (expected : ∀ entry ∈ keys, Expected setting block signals goroutine plugin ⟨cc, entry.1, entry.2⟩)
    (undisputed : ∀ entry ∈ keys, alone → setting.Undisputed block goroutine ⟨cc, entry.1, entry.2⟩) :
    Follows block (setting.extractedKeys block) signals goroutine (Returns block goroutine alone
        (setting.checkKeys plugin.vsccName ccEP signatureSet cc block.number goroutine keys checker))
      (checkKeys setting block plugin ccEP signatureSet cc goroutine keys checker) validators := by
  induction keys generalizing validators checker with
  | nil => exact follows_returns_compute idle nofun
  | cons entry keys ih =>
    obtain ⟨coll, key⟩ := entry
    refine follows_returns_bind (follows_checkSBAndCCEP holds idle ccEP signatureSet cc finished coll key checker
      (expected _ mem_cons_self) (undisputed _ mem_cons_self)) holds
      fun checker' after holds evolves idle => ?_
    exact ih holds idle (fun position earlier => (finished position earlier).evolves evolves) checker'
      (fun entry member => expected entry (mem_cons_of_mem _ member))
      (fun entry member => undisputed entry (mem_cons_of_mem _ member))

theorem follows_validateKeyLevel (rwsetBytes : Bytes)
    (expected : ∀ rwset, setting.codec.txRwSet rwsetBytes = some rwset → ∀ entry ∈ Setting.keysOf rwset cc,
      Expected setting block signals goroutine plugin ⟨cc, entry.1, entry.2⟩)
    (undisputed : ∀ rwset, setting.codec.txRwSet rwsetBytes = some rwset → ∀ entry ∈ Setting.keysOf rwset cc,
      alone → setting.Undisputed block goroutine ⟨cc, entry.1, entry.2⟩) :
    Follows block (setting.extractedKeys block) signals goroutine (Returns block goroutine alone
        (setting.validateKeyLevel plugin.vsccName ccEP signatureSet cc block.number goroutine rwsetBytes))
      (validateKeyLevel setting block plugin ccEP signatureSet cc goroutine rwsetBytes) validators := by
  refine follows_returns_compute_bind idle (Setting.fetch_ne_panic (by decide) _) fun rwset decoded => ?_
  have found := (fetch_eq_ok _ _ _).mp decoded
  refine follows_returns_bind (follows_checkKeys holds idle ccEP signatureSet cc finished (Setting.keysOf rwset cc) _
    (expected rwset found) (undisputed rwset found)) holds fun checker after _ _ idle => ?_
  refine follows_returns_compute_bind idle (setting.checkCCEPIfCondition_ne_panic _ _ _ _) fun last _ => ?_
  exact follows_returns_compute idle nofun

end KeyLevel

end Functions

end Pobl.Peer
