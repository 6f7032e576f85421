import Pobl.Proof.Validation.Authenticity

namespace Pobl.Peer

open Library Protos Cauthdsl Setting

variable {Identity : Type} {setting : Setting Identity} {schedule : Schedule} {block : Block}
  {flags : List TxValidationCode} {results : List BlockValidationResult} {key : String} {position : Nat}

/-- The upgrade of a chaincode that stays valid is the last one that is not a duplicate. The transactions that invoke
the chaincode are marked. -/
structure Resolved (results : List BlockValidationResult) (flags : List TxValidationCode) (key : String) : Prop where
  unique : ∃ last, Upgrades results key last ∧ ¬Repeats results last ∧
    (∀ position, Upgrades results key position → ¬Repeats results position → position ≤ last) ∧
    ∀ position, Upgrades results key position → (flags[position]? = some .valid ↔ position = last)
  conflict : ∀ position, Invokes results key position → flags[position]? = some .chaincodeVersionConflict

/-- The last upgrade of a chaincode is not a duplicate and invokes no upgraded chaincode. An invocation that the first
pass marks as a duplicate is an upgrade that the second pass marks again. -/
structure Undisputed (forbidDuplicates : Bool) (results : List BlockValidationResult) (key : String) : Prop where
  latest : ∃ last, Upgrades results key last ∧ ¬Repeats results last ∧
    (∀ position, Upgrades results key position → position ≤ last) ∧ ¬Disrupted results last
  invocations : forbidDuplicates = true → ∀ position, Invokes results key position → Repeats results position →
    Outdated results position

/-- A transaction upgrades at most one chaincode. -/
theorem Upgrades.unique {other : String} (upgrades : Upgrades results key position)
    (also : Upgrades results other position) : key = other := by
  obtain ⟨res, found, -, cc, upgraded, rfl⟩ := upgrades
  obtain ⟨res', found', -, cc', upgraded', rfl⟩ := also
  grind

/-- The pass over the upgrades does not look at the duplicates. Of the upgrades of a chaincode the last one that is not
a duplicate stays valid if and only if no duplicate comes after it. -/
theorem upgrades_resolved_iff (validated : setting.validate schedule block = .ok flags)
    (returned : setting.validateTxs block 0 block.data = .ok results) (key : String)
    (upgraded : ∃ position, Upgrades results key position ∧ ¬Repeats results position) :
    Resolved results flags key ↔ Undisputed setting.capabilities.forbidDuplicateTXIdInBlock results key := by
  classical
  obtain ⟨_, returnedAgain, indexed, succeeded, rfl⟩ := setting.validate_eq_ok validated
  cases returned.symm.trans returnedAgain
  have code {place : Nat} (listed : Upgrades results key place ∨ Invokes results key place) :
      (passes schedule setting.capabilities.forbidDuplicateTXIdInBlock results)[place]? = some (
        if Outdated results place then .chaincodeVersionConflict
        else if setting.capabilities.forbidDuplicateTXIdInBlock = true ∧ Repeats results place then .duplicateTxid
        else if Disrupted results place then .chaincodeVersionConflict else .valid) := by
    rw [passes_getElem? indexed succeeded]
    rcases listed with ⟨res, found, valid, -⟩ | ⟨res, found, valid, -⟩ <;> rw [found, Option.map_some, valid]
  constructor
  · rintro ⟨⟨last, upgrades, fresh, -, valid⟩, conflict⟩
    have kept := (valid last upgrades).mpr rfl
    have current : ¬Outdated results last ∧ ¬Disrupted results last := by grind
    refine ⟨⟨last, upgrades, fresh, fun place also => ?_, current.2⟩, fun forbid place invokes repeated => ?_⟩
    · by_contra after
      exact current.1 ⟨key, upgrades, place, by omega, also⟩
    · have marked := conflict place invokes
      grind
  · rintro ⟨⟨last, upgrades, fresh, latest, undisrupted⟩, invocations⟩
    have current : ¬Outdated results last := by
      rintro ⟨other, also, later, after, again⟩
      cases upgrades.unique also
      exact absurd (latest later again) (by omega)
    refine ⟨⟨last, upgrades, fresh, fun place also _ => latest place also, fun place also => ?_⟩,
      fun place invokes => ?_⟩
    · have outdated (other : place ≠ last) : Outdated results place :=
        ⟨key, also, last, lt_of_le_of_ne (latest place also) other, upgrades⟩
      grind
    · have disrupted : Disrupted results place := ⟨key, invokes, last, upgrades⟩
      grind

/-- A peer on which the transaction `[2]` invokes a chaincode and every other transaction upgrades it. The bytes of a
transaction are all of its parts. -/
def upgrading : Setting Bytes :=
  let setting := sample [2, 5, 8] [⟨[11], [11]⟩]
  { setting with
    codec :=
      { setting.codec with
        envelope := fun d => some ⟨some d, some d⟩
        payload := fun d => some ⟨some ⟨some d, some d⟩, some d⟩
        channelHeader := fun d => some ⟨.endorserTransaction, "channel", encodeToString (d ++ [7]), 0, d⟩
        signatureHeader := fun d => some ⟨[7], d⟩
        transaction := fun d => some ⟨[⟨some d, d⟩]⟩
        chaincodeActionPayload := fun d => some ⟨some d, some ⟨some d, [⟨[11], [11]⟩]⟩⟩
        proposalResponsePayload := fun d => some ⟨[2, 5, 8], some d⟩
        chaincodeAction := fun d => some ⟨d, none, some ⟨if d = [2] then "cc" else "lscc", "1"⟩⟩
        chaincodeHeaderExtension := fun d => some ⟨some ⟨if d = [2] then "cc" else "lscc", "1"⟩⟩
        txRwSet := fun _ => some []
        chaincodeProposalPayloadInput := fun _ => some []
        chaincodeInvocationSpec := fun _ => some ⟨some ["upgrade".toUTF8.toList, [], []]⟩
        chaincodeDeploymentSpec := fun _ => some ⟨some ⟨"cc", "2"⟩⟩
        marshalPolicy := fun _ => some [1] }
    sccprovider := ⟨fun name => name = "lscc", fun _ => false, fun _ => false⟩ }

def upgradeResult (tIdx : Nat) (txid : TxId) : BlockValidationResult where
  tIdx := tIdx
  txsChaincodeName := some ⟨"channel", "lscc", "1"⟩
  txsUpgradedChaincode := some ⟨"channel", "cc", "2"⟩
  txid := txid

theorem upgrading_validateTx {tIdx : Nat} {d : Bytes}
    (checked : validateTransaction upgrading.codec upgrading.crypto ⟨some d, some d⟩ =
      .ok (⟨some ⟨some d, some d⟩, some d⟩, ⟨some d, some d⟩))
    (valid : upgrading.vsccValidateTx block tIdx ⟨some d, some d⟩ d = .ok ())
    (instances : upgrading.getTxCCInstance ⟨some ⟨some d, some d⟩, some d⟩ ⟨some d, some d⟩ =
      .ok (⟨"channel", "lscc", "1"⟩, some ⟨"channel", "cc", "2"⟩)) :
    upgrading.validateTx block tIdx (some d) = .ok (upgradeResult tIdx (encodeToString (d ++ [7]))) := by
  have invocation : upgrading.validateEnvelope block tIdx d = .ok ⟨_, _, _⟩ :=
    (validateEnvelope_eq_ok _).mpr
      ⟨_, rfl, _, _, checked, _, rfl, (validateType_endorser rfl _).mpr ⟨rfl, valid, _, _, instances, rfl⟩, rfl⟩
  rw [validateTx, invocation]
  rfl

/-- A block with an upgrade, an invocation of the upgraded chaincode and another upgrade of it. -/
def twoUpgrades : Block := ⟨1, [some [1], some [2], some [3]]⟩

def twoUpgradesResults : List BlockValidationResult :=
  [upgradeResult 0 "0107", { tIdx := 1, txsChaincodeName := some ⟨"channel", "cc", "1"⟩, txid := "0207" },
    upgradeResult 2 "0307"]

theorem upgrading_validateTxs_two : upgrading.validateTxs twoUpgrades 0 twoUpgrades.data = .ok twoUpgradesResults := by
  have first : upgrading.validateTx twoUpgrades 0 (some [1]) = .ok (upgradeResult 0 "0107") :=
    upgrading_validateTx rfl rfl (if_pos rfl)
  have last : upgrading.validateTx twoUpgrades 2 (some [3]) = .ok (upgradeResult 2 "0307") :=
    upgrading_validateTx rfl rfl (if_pos rfl)
  change upgrading.validateTxs twoUpgrades 0 [some [1], some [2], some [3]] = _
  rw [validateTxs, validateTxs, validateTxs, first, last]
  rfl

theorem twoUpgrades_upgrades {place : Nat} (key : String) :
    Upgrades twoUpgradesResults key place ↔ key = "cc/channel" ∧ (place = 0 ∨ place = 2) := by
  constructor
  · rintro ⟨res, found, -, cc, upgraded, rfl⟩
    have inside : place < 3 := (List.getElem?_eq_some_iff.mp found).1
    rcases (by omega : place = 0 ∨ place = 1 ∨ place = 2) with rfl | rfl | rfl <;> cases found <;> cases upgraded
    · exact ⟨by decide, .inl rfl⟩
    · exact ⟨by decide, .inr rfl⟩
  · rintro ⟨rfl, rfl | rfl⟩ <;> exact ⟨_, rfl, rfl, _, rfl, rfl⟩

theorem twoUpgrades_fresh {place : Nat} : ¬Repeats twoUpgradesResults place := by
  rintro ⟨res, found, -, -, earlier, before, other, also, -, same⟩
  have ids : (twoUpgradesResults.map BlockValidationResult.txid).Nodup := by decide
  refine List.nodup_iff_getElem?_ne_getElem?.mp ids earlier place before (List.getElem?_eq_some_iff.mp found).1 ?_
  rw [List.getElem?_map, List.getElem?_map, found, also, Option.map_some, Option.map_some, same]

/-- The last of two upgrades stays valid. The other one and the invocation between them are marked. -/
theorem upgrades_resolved_two :
    upgrading.validate .inOrder twoUpgrades = .ok [.chaincodeVersionConflict, .chaincodeVersionConflict, .valid] ∧
      Resolved twoUpgradesResults [.chaincodeVersionConflict, .chaincodeVersionConflict, .valid] "cc/channel" := by
  have validated : upgrading.validate .inOrder twoUpgrades =
      .ok [.chaincodeVersionConflict, .chaincodeVersionConflict, .valid] := by
    rw [validate, upgrading_validateTxs_two]
    rfl
  refine ⟨validated, (upgrades_resolved_iff validated upgrading_validateTxs_two _
    ⟨2, (twoUpgrades_upgrades _).mpr ⟨rfl, .inr rfl⟩, twoUpgrades_fresh⟩).mpr
    ⟨⟨2, (twoUpgrades_upgrades _).mpr ⟨rfl, .inr rfl⟩, twoUpgrades_fresh, ?_, ?_⟩, fun _ _ _ repeated => ?_⟩⟩
  · intro place upgrades
    have places := ((twoUpgrades_upgrades _).mp upgrades).2
    omega
  · rintro ⟨key, ⟨_, found, -, _, invoked, rfl⟩, other, upgrades⟩
    cases found
    cases invoked
    exact absurd ((twoUpgrades_upgrades _).mp upgrades).1 (by decide)
  · exact (twoUpgrades_fresh repeated).elim

/-- Two copies of an upgrade are in one block. The first one is marked because the second one comes later, and the
second one is a duplicate. -/
theorem upgrades_not_resolved : upgrading.validateTxs ⟨1, [some [7], some [7]]⟩ 0 [some [7], some [7]] =
        .ok [upgradeResult 0 "0707", upgradeResult 1 "0707"] ∧
      Upgrades [upgradeResult 0 "0707", upgradeResult 1 "0707"] "cc/channel" 0 ∧
      ¬Repeats [upgradeResult 0 "0707", upgradeResult 1 "0707"] 0 ∧
      upgrading.validate .inOrder ⟨1, [some [7], some [7]]⟩ = .ok [.chaincodeVersionConflict, .duplicateTxid] := by
  have first : upgrading.validateTx ⟨1, [some [7], some [7]]⟩ 0 (some [7]) = .ok (upgradeResult 0 "0707") :=
    upgrading_validateTx rfl rfl (if_pos rfl)
  have second : upgrading.validateTx ⟨1, [some [7], some [7]]⟩ 1 (some [7]) = .ok (upgradeResult 1 "0707") :=
    upgrading_validateTx rfl rfl (if_pos rfl)
  have returned : upgrading.validateTxs ⟨1, [some [7], some [7]]⟩ 0 [some [7], some [7]] =
      .ok [upgradeResult 0 "0707", upgradeResult 1 "0707"] := by
    rw [validateTxs, validateTxs, first, second]
    rfl
  refine ⟨returned, ⟨_, rfl, rfl, _, rfl, rfl⟩, ?_, ?_⟩
  · rintro ⟨_, _, _, _, _, before, _⟩
    exact absurd before (Nat.not_lt_zero _)
  · rw [validate, returned]
    rfl

end Pobl.Peer
