import Pobl.Proof.Parallel.Goroutines
import Pobl.Proof.Validation.Authenticity

namespace Pobl.Peer

open Library Protos Cauthdsl Setting Goroutine List

variable {Identity : Type} {setting : Setting Identity} {block : Block} {validators : Validators}
  {tIdx goroutine : Nat} {d : Bytes} {plan : VsccPlan} {updated : Nat → Option (List LedgerKeyID)}
  {signals : Nat → Plugin → String → Prop} {pool : BlockPool}

/-- The validators come from earlier blocks. No transaction panics on its own, in the rules of the lifecycle chaincode
or while its dependencies are extracted. A key that a transaction writes can be looked up: all earlier transactions
are extracted, and an earlier transaction that updates its parameter signals a result. -/
structure Setting.Resolvable (setting : Setting Identity) (validators : Validators) (block : Block) : Prop where
  number : ∀ plugin, (validators plugin).blockNum ≠ block.number ∧
    (validators plugin).validationCtx.blockHeight < block.number
  prepares : ∀ (tIdx : Nat) (d : Bytes), block.data[tIdx]? = some (some d) →
    setting.prepare block tIdx d ≠ .error .panic
  completes : ∀ (tIdx : Nat) (d : Bytes) (prepared : Prepared), block.data[tIdx]? = some (some d) →
    setting.prepare block tIdx d = .ok prepared → setting.complete prepared ≠ .error .panic
  deploys : ∀ tIdx plan ns, setting.planOf block tIdx = some plan → ns ∈ plan.namespaces →
    setting.Deploys block tIdx ns
  extracted : ∀ tIdx plan ns plugin, setting.planOf block tIdx = some plan → ns ∈ plan.namespaces →
    setting.ValidatedBy plan plugin ns →
    ∀ position ≤ tIdx, ∃ results, setting.extractedResults (block.data.getD position none) = .ok results
  expected : ∀ tIdx plan ns plugin, setting.planOf block tIdx = some plan → ns ∈ plan.namespaces →
    setting.ValidatedBy plan plugin ns →
    ∀ kid ∈ setting.checkedKeys block tIdx ns, Expected setting block (setting.Signals block) tIdx plugin kid

/-- What a goroutine leaves: it owns no flag, and it has signalled the results that it signals in any case. -/
def Left (setting : Setting Identity) (block : Block) (goroutine : Nat) (_ : BlockValidationResult)
    (after : Validators) : Prop :=
  Idle block goroutine after ∧ ∀ plugin ns, setting.Signals block goroutine plugin ns →
    (after plugin).signalled block goroutine ns = true

/-- The parts of a transaction that passes the first checks decode without a panic. -/
theorem decodeArtifacts_of_prepare (found : block.data[tIdx]? = some (some d)) {env : Envelope} {payload : Payload}
    {hdr : Header} {txid : TxId}
    (prepared : setting.prepare block tIdx d = .ok (.endorser env payload hdr txid plan)) :
    setting.decodeArtifacts block tIdx ≠ .error .panic := by
  simp only [prepare, bind_eq_ok, fetch_eq_ok] at prepared
  obtain ⟨env', decoded, ⟨payload', hdr'⟩, validated, chdr, channel, prepared⟩ := prepared
  split at prepared
  next endorser =>
    obtain ⟨parts, of, _, _, _, rfl⟩ := (validateTransaction_endorser decoded payload' hdr' chdr channel endorser).mp
      validated
    rw [decodeArtifacts_eq of found endorser]
    exact nofun
  · simp only [bind_eq_ok, pure_eq_ok] at prepared
    obtain ⟨_, _, wrong⟩ := prepared
    cases wrong

/-- A result that is not a panic is reported. -/
theorem follows_report {outcome : Except Stop Invocation} (calm : outcome ≠ .error .panic) {fact : Validators → Prop}
    (always : ∀ later, (discipline block updated).Rely goroutine validators later → fact later) :
    Follows block updated signals goroutine (fun _ => fact) (report goroutine outcome) validators := by
  cases outcome with
  | ok invocation => exact always
  | error stop =>
    cases stop with
    | invalid code rejected => exact always
    | terminal err => exact always
    | panic => exact absurd rfl calm

/-- The plan of a transaction is made by the first checks. -/
theorem planOf_eq (found : block.data[goroutine]? = some (some d)) :
    setting.planOf block goroutine = match setting.prepare block goroutine d with
      | .ok (.endorser _ _ _ _ plan) => some plan
      | _ => none := by
  rw [planOf, List.getD_eq_getElem?_getD, found]
  rfl

section Goroutines

variable {start : Validators} (resolvable : setting.Resolvable start block) {goroutine : Nat}
  (holds : (discipline block (setting.extractedKeys block)).invariant validators)
  (idle : Idle block goroutine validators)

include resolvable holds idle

theorem follows_validatePrepared (found : block.data[goroutine]? = some (some d)) {prepared : Prepared}
    (passed : setting.prepare block goroutine d = .ok prepared) :
    Follows block (setting.extractedKeys block) (setting.Signals block) goroutine
      (fun result after => (Idle block goroutine after ∧ result ≠ .error .panic) ∧
        ∀ plugin ns, setting.Signals block goroutine plugin ns → (after plugin).signalled block goroutine ns = true)
      (validatePrepared setting block goroutine prepared) validators := by
  have plans : setting.planOf block goroutine = _ := planOf_eq found
  rw [passed] at plans
  cases prepared with
  | endorser env payload hdr txid plan =>
    have inside := (List.getElem?_eq_some_iff.mp found).1
    refine (follows_validateNamespaces holds idle inside (decodeArtifacts_of_prepare found passed) plan
      plan.namespaces (fun ns => resolvable.deploys goroutine plan ns plans)
      (fun ns member plugin => resolvable.extracted goroutine plan ns plugin plans member)
      (fun ns member plugin => resolvable.expected goroutine plan ns plugin plans member)).weaken ?_
    rintro result after _ ⟨returned, signalled⟩
    refine ⟨returned, ?_⟩
    rintro plugin ns ⟨plan', plans', signals⟩
    cases plans.symm.trans plans'
    exact signalled plugin ns signals
  | other env invocation =>
    refine fun later rely => ⟨⟨idle.rely rely, nofun⟩, ?_⟩
    rintro plugin ns ⟨plan, plans', _⟩
    cases plans.symm.trans plans'

theorem follows_validateEnvelope (found : block.data[goroutine]? = some (some d)) :
    Follows block (setting.extractedKeys block) (setting.Signals block) goroutine
      (fun result after => (Idle block goroutine after ∧ result ≠ .error .panic) ∧
        ∀ plugin ns, setting.Signals block goroutine plugin ns → (after plugin).signalled block goroutine ns = true)
      (validateEnvelope setting block goroutine d) validators := by
  have calm := resolvable.prepares goroutine d found
  refine follows_compute_bind calm ?_ ?_
  · intro stop failed later rely
    rw [failed] at calm
    refine ⟨⟨idle.rely rely, error_ne_panic calm⟩, ?_⟩
    rintro plugin ns ⟨plan, plans, _⟩
    rw [planOf_eq found, failed] at plans
    cases plans
  · intro prepared passed
    refine follows_bind (follows_validatePrepared resolvable holds idle found passed) holds ?_ ?_
    · intro stop after _ reached later rely
      exact ⟨⟨reached.1.1.rely rely, error_ne_panic reached.1.2⟩,
        fun plugin ns signals => (rely.evolves plugin).signalled goroutine ns (reached.2 plugin ns signals)⟩
    · intro _ after _ _ reached
      have quiet := resolvable.completes goroutine d prepared found passed
      refine follows_compute quiet fun later rely => ⟨⟨reached.1.1.rely rely, quiet⟩, fun plugin ns signals => ?_⟩
      exact (rely.evolves plugin).signalled goroutine ns (reached.2 plugin ns signals)

theorem follows_validateTx {d : Slice} (found : block.data[goroutine]? = some d) :
    Follows block (setting.extractedKeys block) (setting.Signals block) goroutine (Left setting block goroutine)
      (validateTx setting block goroutine d) validators := by
  cases d with
  | none =>
    refine fun later rely => ⟨idle.rely rely, ?_⟩
    rintro plugin ns ⟨plan, plans, _⟩
    rw [planOf, List.getD_eq_getElem?_getD, found] at plans
    cases plans
  | some d =>
    refine (follows_validateEnvelope resolvable holds idle found).bind holds fun outcome after _ _ reached => ?_
    refine follows_report reached.1.2 fun later rely => ⟨reached.1.1.rely rely, fun plugin ns signals => ?_⟩
    exact (rely.evolves plugin).signalled goroutine ns (reached.2 plugin ns signals)

end Goroutines

section

variable (resolvable : setting.Resolvable validators block)

include resolvable

/-- Before the block no flag is used and nothing is inserted. -/
theorem invariant_start : (discipline block (setting.extractedKeys block)).invariant validators := by
  intro plugin
  obtain ⟨unknown, below⟩ := resolvable.number plugin
  have flags : (validators plugin).onces block = replicate block.data.length .fresh := if_neg unknown
  have ctx : (validators plugin).ctx block = ⟨block.number, some ∅, []⟩ := if_neg (UInt64.ne_of_lt below)
  refine ⟨?_, UInt64.le_of_lt below, ?_, ?_, ?_, ?_⟩
  · rw [flags, length_replicate]
  · rw [ctx]
    exact fun absent => by cases absent
  · intro position _
    rw [KeyLevelValidator.inserted, ctx]
    rfl
  · intro position done
    rw [flags, List.getElem?_replicate] at done
    split at done <;> cases done
  · rw [ctx]
    intro kid position listed
    cases listed

theorem idle_start (goroutine : Nat) : Idle block goroutine validators := by
  intro plugin position owned
  rw [KeyLevelValidator.onces, if_neg (resolvable.number plugin).1, List.getElem?_replicate] at owned
  split at owned <;> cases owned

theorem assured_startValidation (workers : Nat) :
    (startValidation setting workers validators block).Assured (answer block)
      (discipline block (setting.extractedKeys block)) (Waits block (setting.Signals block)) (Idle block)
      (Left setting block) where
  invariant := invariant_start resolvable
  threads := fun thread program started => nomatch started
  unstarted := fun thread _ => idle_start resolvable thread
  waiting := by
    intro index program waits shared holds idle
    rw [startValidation, List.getElem?_mapIdx] at waits
    obtain ⟨d, found, rfl⟩ := Option.map_eq_some_iff.mp waits
    rw [startValidation, length_nil, Nat.zero_add] at idle ⊢
    exact follows_validateTx resolvable holds idle found

end

/-- Where no step is possible no goroutine owns a flag. -/
theorem idle_terminal (assured : pool.Assured (answer block) (discipline block updated) (Waits block signals)
      (Idle block) (Left setting block)) (terminal : pool.Terminal (answer block)) (goroutine : Nat) :
    Idle block goroutine pool.shared := by
  cases found : pool.threads[goroutine]? with
  | none => exact assured.unstarted goroutine (List.getElem?_eq_none_iff.mp found)
  | some program =>
    rcases assured.terminal terminal [] found with ⟨result, _, left⟩ | ⟨request, resume, _, waits⟩
    · exact left.1
    · exact waits.1

/-- Where no step is possible all goroutines that have started have returned. -/
theorem returned_terminal (assured : pool.Assured (answer block) (discipline block (setting.extractedKeys block))
      (Waits block (setting.Signals block)) (Idle block) (Left setting block))
    (terminal : pool.Terminal (answer block)) (goroutine : Nat) (program : Goroutine BlockValidationResult)
    (found : pool.threads[goroutine]? = some program) : program.isDone = true := by
  induction goroutine using Nat.strong_induction_on generalizing program with
  | _ goroutine ih =>
    rcases assured.terminal terminal [] found with ⟨result, rfl, _⟩ | ⟨⟨plugin, operation⟩, resume, rfl, _, waits⟩
    · rfl
    · cases operation with
      | enterOnce position =>
        -- The owner of the flag could make a step.
        obtain ⟨other, owned⟩ := waits
        exact absurd owned (idle_terminal assured terminal other plugin position)
      | waitForAndRetrieveValidationResult txnum ns =>
        -- The earlier transaction has returned, and it has signalled the result.
        obtain ⟨earlier, signals, missing⟩ := waits
        have inside := (List.getElem?_eq_some_iff.mp found).1
        have started := List.getElem?_eq_getElem (Nat.lt_trans earlier inside)
        have returned := ih txnum earlier _ started
        rcases assured.terminal terminal [] started with ⟨result, _, left⟩ | ⟨request, resume', waiting, _⟩
        · exact nomatch missing.symm.trans (left.2 plugin ns signals)
        · rw [waiting] at returned
          cases returned
      | _ => exact waits.elim

section Runs

/-- A peer whose transactions write a key and its validation parameter. Some bytes are not an envelope. -/
def updating : Setting Bytes :=
  let peer := sample [] []
  { peer with
    codec := { peer.codec with
      envelope := fun d => if d = [255] then none else peer.codec.envelope d
      txRwSet := fun _ => some [⟨"cc", [[1]], [[1]], []⟩] } }

/-- A block of two transactions that update one key. -/
def twoUpdates : Block := ⟨1, [some [7], some [7]]⟩

/-- The plan of such a transaction. -/
def updatingPlan : VsccPlan := ⟨⟨.endorserTransaction, "channel", "0907", 0, []⟩, "cc", "1", ["cc"], true⟩

theorem twoUpdates_data (found : twoUpdates.data[tIdx]? = some (some d)) : d = [7] ∧ tIdx < 2 := by
  match tIdx with
  | 0 =>
    cases found
    exact ⟨rfl, by decide⟩
  | 1 =>
    cases found
    exact ⟨rfl, by decide⟩
  | _ + 2 => cases found

theorem prepare_updating (tIdx : Nat) : updating.prepare twoUpdates tIdx [7] =
      .ok (.endorser ⟨some [1], some [7]⟩ ⟨some ⟨some [2], some [3]⟩, some [4]⟩ ⟨some [2], some [3]⟩ "0907"
        updatingPlan) := rfl

theorem planOf_updating (plans : updating.planOf twoUpdates tIdx = some plan) : plan = updatingPlan ∧ tIdx < 2 := by
  match tIdx with
  | 0 =>
    cases plans
    exact ⟨rfl, by decide⟩
  | 1 =>
    cases plans
    exact ⟨rfl, by decide⟩
  | _ + 2 => cases plans

theorem extractedResults_updating (position : Nat) :
    updating.extractedResults (twoUpdates.data.getD position none) = .ok (some []) := by
  match position with
  | 0 => rfl
  | 1 => rfl
  | _ + 2 => rfl

/-- Each transaction that updates the key signals a result. -/
theorem expected_updating {ns : String} {plugin : Plugin} (plans : updating.planOf twoUpdates tIdx = some plan)
    (listed : ns ∈ plan.namespaces) (validated : updating.ValidatedBy plan plugin ns) (kid : LedgerKeyID)
    (checked : kid ∈ updating.checkedKeys twoUpdates tIdx ns) :
    Expected updating twoUpdates (updating.Signals twoUpdates) tIdx plugin kid := by
  obtain ⟨rfl, inside⟩ := planOf_updating plans
  rw [checkedKeys, extractedResults_updating] at checked
  obtain ⟨entry, _, rfl⟩ := mem_map.mp checked
  refine ⟨fun earlier _ => ?_, fun earlier before _ => ?_⟩
  · rw [extractedKeys, extractedResults_updating]
    rfl
  · cases mem_singleton.mp listed
    have first : earlier = 0 := by omega
    subst first
    exact ⟨updatingPlan, rfl, [], [], rfl, validated, fun _ listed => (by cases listed)⟩

theorem resolvable_updating : updating.Resolvable (fun _ => newKeyLevelValidator) twoUpdates where
  number := fun _ => ⟨by decide, by decide⟩
  prepares := by
    intro tIdx d found
    rw [(twoUpdates_data found).1, prepare_updating]
    exact nofun
  completes := by
    intro tIdx d prepared found passed
    rw [(twoUpdates_data found).1, prepare_updating] at passed
    cases passed
    exact nofun
  deploys := fun _ _ _ _ _ _ _ _ => rfl
  extracted := fun _ _ _ _ _ _ _ position _ => ⟨_, extractedResults_updating position⟩
  expected := fun _ _ _ _ plans listed validated => expected_updating plans listed validated

/-- A block whose first transaction is not an envelope. -/
def skippedFirst : Block := ⟨1, [some [255], some [7]]⟩

end Runs

end Pobl.Peer
