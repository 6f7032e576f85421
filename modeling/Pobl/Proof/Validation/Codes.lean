/-
This file says which transactions of a block are left valid, given the results of their validations.
The order in which the results arrive and in which the maps are visited does not matter.
-/

import Mathlib.Data.List.Induction
import Pobl.Construction.TxValidator
import Pobl.Library.Keyed
import Pobl.Library.Run

namespace Pobl.Peer

open Library Protos Cauthdsl BlockValidationResult List

variable {tIdx position : Nat} {res : BlockValidationResult} {block : Block}
  {results arranged : List BlockValidationResult}

/-- The part of the collected data that belongs to one transaction. -/
def Gathered.at (gathered : Gathered) (position : Nat) :
    Option TxValidationCode × Option ChaincodeInstance × Option ChaincodeInstance × Option TxId :=
  (gathered.txsfltr[position]?, gathered.txsChaincodeNames.lookup position,
    gathered.txsUpgradedChaincodes.lookup position, gathered.txidArray[position]?)

theorem record_lookup_other (map : ChaincodeMap) (other : tIdx ≠ position)
    (cc : Option ChaincodeInstance) : (record map tIdx cc).lookup position = map.lookup position := by
  cases cc with
  | none => rfl
  | some cc => exact AList.lookup_insert_ne (Ne.symm other)

theorem record_lookup (map : ChaincodeMap) (absent : map.lookup tIdx = none)
    (cc : Option ChaincodeInstance) : (record map tIdx cc).lookup tIdx = cc := by
  cases cc with
  | none => exact absent
  | some cc => exact AList.lookup_insert map

/-- A result changes only the data of its transaction. -/
theorem gather_other (gathered : Gathered) (res : BlockValidationResult)
    (other : res.tIdx ≠ position) : (gather gathered res).at position = gathered.at position := by
  unfold gather Gathered.at
  split
  · split
    · rfl
    · split <;> rfl
  · split
    · simp only [List.getElem?_set_ne other, record_lookup_other _ other]
    · simp only [List.getElem?_set_ne other]

/-- A terminal error is collected if and only if there is one. -/
theorem foldl_gather_err (results : List BlockValidationResult) (gathered : Gathered) :
    (results.foldl gather gathered).err = none ↔ gathered.err = none ∧ ∀ res ∈ results, res.err = none := by
  induction results generalizing gathered with
  | nil => simp
  | cons res rest ih =>
    rw [foldl_cons, ih, forall_mem_cons, ← and_assoc]
    refine and_congr_left fun _ => ?_
    unfold gather
    cases failed : res.err with
    | none =>
      dsimp only
      split <;> simp
    | some err =>
      cases earlier : gathered.err with
      | none => simp
      | some first =>
        dsimp only
        split <;> simp [earlier]

/-- The results of a block, in the order of its transactions. -/
def Indexed (results : List BlockValidationResult) : Prop :=
  ∀ (position : Nat) (res : BlockValidationResult), results[position]? = some res → res.tIdx = position

section

variable (indexed : Indexed results) (perm : arranged.Perm results)

include indexed perm

theorem Indexed.distinct : (arranged.map BlockValidationResult.tIdx).Nodup := by
  have positions : results.map BlockValidationResult.tIdx = range results.length := by
    apply ext_getElem
    · simp
    · intro position inMap inRange
      have inResults : position < results.length := by simpa using inMap
      rw [getElem_map, getElem_range]
      exact indexed position _ (List.getElem?_eq_getElem inResults)
  rw [(perm.map _).nodup_iff, positions]
  exact nodup_range

/-- What a result without a terminal error leaves for its transaction. -/
def BlockValidationResult.left (res : BlockValidationResult) :
    Option TxValidationCode × Option ChaincodeInstance × Option ChaincodeInstance × Option TxId :=
  if res.validationCode = .valid then
    (some .valid, res.txsChaincodeName, res.txsUpgradedChaincode, some res.txid)
  else (some res.validationCode, none, none, some "")

/-- The collected data of a transaction is what its result leaves. -/
theorem gathered_at (found : results[position]? = some res)
    (succeeded : res.err = none) : (arranged.foldl gather (newGathered results.length)).at position = res.left := by
  have member : res ∈ arranged := perm.mem_iff.mpr (List.mem_of_getElem? found)
  have inRange : position < results.length := (List.getElem?_eq_some_iff.mp found).1
  obtain ⟨before, kept, reached⟩ := foldl_only_key gather BlockValidationResult.tIdx (Gathered.at · position)
    (fun gathered res => gather_other gathered res) (indexed.distinct perm) member
    (indexed position res found) (newGathered results.length)
  rw [show (arranged.foldl gather (newGathered results.length)).at position = (gather before res).at position
    from reached]
  have initial : (newGathered results.length).at position = (some .notValidated, none, none, some "") := by
    simp [newGathered, Gathered.at, inRange]
  rw [initial] at kept
  simp only [Gathered.at, Prod.mk.injEq] at kept
  obtain ⟨flag, name, upgraded, txid⟩ := kept
  have flagRange := (List.getElem?_eq_some_iff.mp flag).1
  have txidRange := (List.getElem?_eq_some_iff.mp txid).1
  have same := indexed position res found
  unfold gather Gathered.at left
  rw [succeeded]
  by_cases valid : res.validationCode = .valid
  · subst same
    simp [valid, flagRange, txidRange, record_lookup _ name, record_lookup _ upgraded]
  · rw [if_neg valid, if_neg valid]
    subst same
    simp [flagRange, name, upgraded, txid]

/-- A position after the last transaction has no data. -/
theorem gathered_at_none (absent : results[position]? = none) :
    (arranged.foldl gather (newGathered results.length)).at position = (none, none, none, none) := by
  refine (foldl_other_keys gather BlockValidationResult.tIdx (Gathered.at · position)
    (fun gathered res => gather_other gathered res) ?_ _).trans ?_
  · intro res member same
    obtain ⟨other, found⟩ := List.getElem?_of_mem (perm.mem_iff.mp member)
    rw [← indexed other res found, same, absent] at found
    cases found
  · have outOfRange : results.length ≤ position := List.getElem?_eq_none_iff.mp absent
    simp [newGathered, Gathered.at, outOfRange]

end

section Scans

open Classical

variable {txsfltr : List TxValidationCode} {entries : List (Σ _ : Nat, ChaincodeInstance)} {scan : UpgradeScan}
  {last : Σ _ : Nat, ChaincodeInstance}

/-- The identifier at the position is not empty, and it has been seen or occurs earlier. -/
def repeats (seen txids : List TxId) (position : Nat) : Bool :=
  txids[position]?.any fun txid => txid ≠ "" && (txid ∈ seen || txid ∈ txids.take position)

theorem repeats_cons (seen : List TxId) (first : TxId) (rest : List TxId) :
    repeats seen (first :: rest) 0 = (first ≠ "" && first ∈ seen) ∧ ∀ position,
      repeats seen (first :: rest) (position + 1) =
        repeats (if first = "" ∨ first ∈ seen then seen else first :: seen) rest position := by
  refine ⟨by simp [repeats], fun position => ?_⟩
  simp only [repeats, List.getElem?_cons_succ, take_succ_cons, mem_cons]
  cases rest[position]? with
  | none => rfl
  | some txid => grind

theorem repeats_iff (txids : List TxId) (position : Nat) :
    repeats [] txids position ↔ ∃ txid, txid ≠ "" ∧ txids[position]? = some txid ∧
      ∃ earlier < position, txids[earlier]? = some txid := by
  simp only [repeats, Option.any_eq_true, Bool.and_eq_true, Bool.or_eq_true, decide_eq_true_iff, not_mem_nil,
    false_or]
  simp only [List.mem_iff_getElem?, List.getElem?_take, Option.ite_none_right_eq_some]
  exact exists_congr fun txid => and_left_comm

/-- Marking one position adds it to those that are marked. -/
theorem mark_getElem? {codes : List TxValidationCode} {mark : TxValidationCode} {marked : Prop}
    (before : codes[position]? = txsfltr[position]?.map fun code => if marked then mark else code) (index : Nat) :
    (codes.set index mark)[position]? = txsfltr[position]?.map fun code =>
      if index = position ∨ marked then mark else code := by
  by_cases same : index = position
  · subst same
    rw [List.getElem?_set_self', before]
    simp [Function.comp_def]
  · rw [List.getElem?_set_ne same, before]
    simp only [same, false_or]

theorem markTXIdDuplicatesFrom_getElem? (txids seen : List TxId) (id : Nat) :
    (markTXIdDuplicatesFrom seen id txids txsfltr)[position]? = txsfltr[position]?.map fun code =>
      if id ≤ position ∧ repeats seen txids (position - id) then .duplicateTxid else code := by
  induction txids generalizing seen id txsfltr with
  | nil => simp [markTXIdDuplicatesFrom, repeats]
  | cons first rest ih =>
    obtain ⟨head, tail⟩ := repeats_cons seen first rest
    have unfolded : markTXIdDuplicatesFrom seen id (first :: rest) txsfltr =
        markTXIdDuplicatesFrom (if first = "" ∨ first ∈ seen then seen else first :: seen) (id + 1) rest
          (if repeats seen (first :: rest) 0 then txsfltr.set id .duplicateTxid else txsfltr) := by
      rw [markTXIdDuplicatesFrom, head]
      by_cases unnamed : first = ""
      · simp [unnamed]
      · by_cases known : first ∈ seen <;> simp [unnamed, known]
    have marks : (if repeats seen (first :: rest) 0 then txsfltr.set id .duplicateTxid else txsfltr)[position]? =
        txsfltr[position]?.map fun code =>
          if id = position ∧ repeats seen (first :: rest) 0 then .duplicateTxid else code := by
      cases repeats seen (first :: rest) 0 with
      | false => simp
      | true => simpa using @mark_getElem? position txsfltr txsfltr .duplicateTxid False (by simp) id
    rw [unfolded, ih, marks, Option.map_map]
    congr 1
    funext code
    dsimp only [Function.comp]
    -- The position is passed, it is the one of the first identifier, or it belongs to the rest.
    rcases Nat.lt_trichotomy position id with passed | rfl | later
    · have outside : ¬ id + 1 ≤ position ∧ ¬ id = position ∧ ¬ id ≤ position := by omega
      simp only [outside, false_and, if_false]
    · simp only [Nat.not_succ_le_self, false_and, if_false, Nat.sub_self, Nat.le_refl, true_and]
    · obtain ⟨offset, rfl⟩ : ∃ offset, position = id + 1 + offset := ⟨position - (id + 1), by omega⟩
      have inside : id + 1 ≤ id + 1 + offset ∧ ¬ id = id + 1 + offset ∧ id ≤ id + 1 + offset := by omega
      have shifted : id + 1 + offset - id = offset + 1 := by omega
      simp only [inside, true_and, false_and, if_false, shifted, tail, Nat.add_sub_cancel_left]

theorem foldl_scanInvocation_getElem? (upgradedChaincodes : GoMap ChaincodeInstance) :
    (entries.foldl (scanInvocation upgradedChaincodes) txsfltr)[position]? = txsfltr[position]?.map fun code =>
      if code = .valid ∧ ∃ entry ∈ entries, entry.1 = position ∧
        upgradedChaincodes.lookup (generateCCKey entry.2) ≠ none then .chaincodeVersionConflict else code := by
  induction entries generalizing txsfltr with
  | nil => simp
  | cons entry rest ih =>
    simp only [foldl_cons, ih, exists_mem_cons_iff, scanInvocation, Option.isSome_iff_ne_none]
    by_cases same : entry.1 = position
    · grind
    · grind

/-- A later entry upgrades the chaincode that is upgraded at the position. -/
def Superseded (entries : List (Σ _ : Nat, ChaincodeInstance)) (position : Nat) : Prop :=
  ∃ entry ∈ entries, entry.1 = position ∧ ∃ other ∈ entries, generateCCKey other.2 = generateCCKey entry.2 ∧
    position < other.1

/-- What the loop over the upgrades has found in the entries that it has visited. -/
structure UpgradeScan.Visited (txsfltr : List TxValidationCode) (entries : List (Σ _ : Nat, ChaincodeInstance))
    (scan : UpgradeScan) : Prop where
  final : ∀ key finalIdx, scan.finalValidUpgradeTXs.lookup key = some finalIdx →
    (∃ entry ∈ entries, entry.1 = finalIdx ∧ generateCCKey entry.2 = key) ∧
      ∀ entry ∈ entries, generateCCKey entry.2 = key → entry.1 ≤ finalIdx
  covers : ∀ entry ∈ entries, scan.finalValidUpgradeTXs.lookup (generateCCKey entry.2) ≠ none
  upgraded : ∀ key, scan.upgradedChaincodes.lookup key = none ↔ ∀ entry ∈ entries, generateCCKey entry.2 ≠ key
  codes : ∀ position, scan.txsfltr[position]? = txsfltr[position]?.map fun code =>
    if Superseded entries position then .chaincodeVersionConflict else code

theorem superseded_append (position : Nat) : Superseded (entries ++ [last]) position ↔ Superseded entries position ∨
    (∃ entry ∈ entries, entry.1 = position ∧ generateCCKey last.2 = generateCCKey entry.2 ∧ position < last.1) ∨
    last.1 = position ∧ ∃ other ∈ entries, generateCCKey other.2 = generateCCKey last.2 ∧ position < other.1 := by
  simp only [Superseded, mem_append, mem_singleton, or_and_right, exists_or, exists_eq_left, and_or_left, or_assoc]
  have once : ¬ (last.1 = position ∧ True ∧ position < last.1) := fun both => Nat.ne_of_gt both.2.2 both.1
  rw [or_iff_left once]
  exact or_congr_right or_comm

section Step

variable (visited : scan.Visited txsfltr entries)

include visited

/-- The latest upgrade of its chaincode is recorded. -/
theorem UpgradeScan.Visited.record {codes : List TxValidationCode}
    (newest : ∀ entry ∈ entries, generateCCKey entry.2 = generateCCKey last.2 → entry.1 ≤ last.1)
    (marks : ∀ position, codes[position]? = txsfltr[position]?.map fun code =>
      if Superseded (entries ++ [last]) position then .chaincodeVersionConflict else code) :
    UpgradeScan.Visited txsfltr (entries ++ [last])
      ⟨scan.finalValidUpgradeTXs.insert (generateCCKey last.2) last.1,
        scan.upgradedChaincodes.insert (generateCCKey last.2) last.2, codes⟩ where
  final key finalIdx found := by
    simp only [forall_mem_append, forall_mem_singleton]
    rw [GoMap.lookup_insert_apply] at found
    split at found
    next own =>
      cases found
      subst own
      exact ⟨⟨last, mem_append_right _ mem_cons_self, rfl, rfl⟩, newest, fun _ => Nat.le_refl _⟩
    next other =>
      obtain ⟨⟨entry, member, index, named⟩, above⟩ := visited.final key finalIdx found
      exact ⟨⟨entry, mem_append_left _ member, index, named⟩, above, fun same => absurd same.symm other⟩
  covers := by
    simp only [forall_mem_append, forall_mem_singleton, GoMap.lookup_insert_apply]
    refine ⟨fun entry member => ?_, by simp⟩
    split
    · exact Option.some_ne_none _
    · exact visited.covers entry member
  upgraded key := by
    simp only [forall_mem_append, forall_mem_singleton, GoMap.lookup_insert_apply]
    split
    next own => simp [own]
    next other => rw [visited.upgraded, and_iff_left (Ne.symm other)]
  codes := marks

/-- One step of the loop over the upgrades. The indices of the entries are distinct. -/
theorem UpgradeScan.Visited.step (fresh : ∀ entry ∈ entries, entry.1 ≠ last.1) :
    (scanUpgrade scan last).Visited txsfltr (entries ++ [last]) := by
  unfold scanUpgrade
  dsimp only
  cases found : scan.finalValidUpgradeTXs.lookup (generateCCKey last.2) with
  | none =>
    have first : ∀ entry ∈ entries, generateCCKey entry.2 ≠ generateCCKey last.2 := fun entry member same =>
      visited.covers entry member (same ▸ found)
    refine visited.record (fun entry member same => absurd same (first entry member)) fun position => ?_
    have unchanged : Superseded (entries ++ [last]) position ↔ Superseded entries position := by
      rw [superseded_append]
      refine or_iff_left ?_
      rintro (⟨entry, member, -, same, -⟩ | ⟨-, other, member, same, -⟩)
      · exact first entry member same.symm
      · exact first other member same
    simp only [unchanged, visited.codes]
  | some finalIdx =>
    obtain ⟨⟨recorded, member, rfl, named⟩, above⟩ := visited.final _ finalIdx found
    -- An upgrade of the chaincode that is not the recorded one has been marked.
    have older (entry : Σ _ : Nat, ChaincodeInstance) (listed : entry ∈ entries)
        (same : generateCCKey entry.2 = generateCCKey last.2) (different : entry.1 ≠ recorded.1) :
        Superseded entries entry.1 :=
      ⟨entry, listed, rfl, recorded, member, named.trans same.symm,
        Nat.lt_of_le_of_ne (above entry listed same) different⟩
    dsimp only
    split
    next later =>
      refine visited.record (fun entry listed same => ?_) fun position => ?_
      · exact Nat.le_trans (above entry listed same) (Nat.le_of_lt later)
      · have marks : Superseded (entries ++ [last]) position ↔
            recorded.1 = position ∨ Superseded entries position := by
          rw [superseded_append]
          constructor
          · rintro (old | ⟨entry, listed, rfl, same, -⟩ | ⟨rfl, other, listed, same, less⟩)
            · exact .inr old
            · by_cases own : entry.1 = recorded.1
              · exact .inl own.symm
              · exact .inr (older entry listed same.symm own)
            · exact absurd (above other listed same) (by omega)
          · rintro (rfl | old)
            · exact .inr (.inl ⟨recorded, member, rfl, named.symm, later⟩)
            · exact .inl old
        simp only [marks]
        exact mark_getElem? (visited.codes position) recorded.1
    next earlier =>
      have below : last.1 < recorded.1 :=
        Nat.lt_of_le_of_ne (Nat.le_of_not_lt earlier) fun same => fresh recorded member same.symm
      refine ⟨fun key finalIdx listed => ?_, ?_, fun key => ?_, fun position => ?_⟩
      · obtain ⟨⟨entry, inside, index, same⟩, highest⟩ := visited.final key finalIdx listed
        refine ⟨⟨entry, mem_append_left _ inside, index, same⟩, ?_⟩
        rw [forall_mem_append, forall_mem_singleton]
        refine ⟨highest, fun own => ?_⟩
        exact Nat.le_trans (Nat.le_of_lt below) (highest recorded member (named.trans own))
      · rw [forall_mem_append, forall_mem_singleton]
        exact ⟨visited.covers, found ▸ Option.some_ne_none _⟩
      · rw [visited.upgraded, forall_mem_append, forall_mem_singleton, iff_self_and]
        exact fun none => named ▸ none recorded member
      · have marks : Superseded (entries ++ [last]) position ↔ last.1 = position ∨ Superseded entries position := by
          rw [superseded_append]
          constructor
          · rintro (old | ⟨entry, listed, rfl, same, less⟩ | ⟨own, -⟩)
            · exact .inr old
            · exact .inr (older entry listed same.symm (by omega))
            · exact .inl own
          · rintro (rfl | old)
            · exact .inr (.inr ⟨rfl, recorded, member, named, below⟩)
            · exact .inl old
        simp only [marks]
        exact mark_getElem? (visited.codes position) last.1

end Step

/-- The loop over the upgrades keeps the latest upgrade of each chaincode. -/
theorem foldl_scanUpgrade_visited (txsfltr : List TxValidationCode) (distinct : (entries.map Sigma.fst).Nodup) :
    (entries.foldl scanUpgrade ⟨∅, ∅, txsfltr⟩).Visited txsfltr entries := by
  induction entries using reverseRecOn with
  | nil => constructor <;> simp [Superseded]
  | append_singleton entries last ih =>
    rw [map_append, nodup_append] at distinct
    obtain ⟨before, -, apart⟩ := distinct
    rw [foldl_append]
    refine (ih before).step fun entry member => ?_
    exact apart entry.1 (mem_map_of_mem member) last.1 (by simp)

/-- The pass over the upgrades marks the transactions whose upgrade is not the latest one of its chaincode. It then
marks the valid transactions that invoke an upgraded chaincode. -/
theorem invalidTXsForUpgradeCC_getElem? (schedule : Schedule)
    (txsChaincodeNames txsUpgradedChaincodes : ChaincodeMap) :
    (invalidTXsForUpgradeCC schedule txsChaincodeNames txsUpgradedChaincodes txsfltr)[position]? =
      txsfltr[position]?.map fun code =>
        if Superseded txsUpgradedChaincodes.entries position ∨ code = .valid ∧
          ∃ entry ∈ txsChaincodeNames.entries, entry.1 = position ∧
            ∃ other ∈ txsUpgradedChaincodes.entries, generateCCKey other.2 = generateCCKey entry.2
        then .chaincodeVersionConflict else code := by
  have upgradePerm := schedule.perm .upgradedChaincodes txsUpgradedChaincodes.entries
  have namePerm := schedule.perm .chaincodeNames txsChaincodeNames.entries
  have distinct : ((schedule.arrange .upgradedChaincodes txsUpgradedChaincodes.entries).map Sigma.fst).Nodup :=
    (upgradePerm.map _).nodup_iff.mpr txsUpgradedChaincodes.nodupKeys
  obtain ⟨-, -, upgraded, codes⟩ := foldl_scanUpgrade_visited txsfltr distinct
  have latest : Superseded (schedule.arrange .upgradedChaincodes txsUpgradedChaincodes.entries) position ↔
      Superseded txsUpgradedChaincodes.entries position := by
    simp only [Superseded, upgradePerm.mem_iff]
  unfold invalidTXsForUpgradeCC
  simp only [foldl_scanInvocation_getElem?, codes, ne_eq, upgraded, not_forall, not_not, latest,
    upgradePerm.mem_iff, namePerm.mem_iff, exists_prop, Option.map_map]
  congr 1
  funext code
  by_cases superseded : Superseded txsUpgradedChaincodes.entries position <;> simp [superseded]

end Scans

/-- The chaincode of the key is upgraded by a transaction with a valid result. -/
def Upgrades (results : List BlockValidationResult) (key : String) (position : Nat) : Prop :=
  ∃ res, results[position]? = some res ∧ res.validationCode = .valid ∧
    ∃ cc, res.txsUpgradedChaincode = some cc ∧ generateCCKey cc = key

/-- The chaincode of the key is invoked by a transaction with a valid result. -/
def Invokes (results : List BlockValidationResult) (key : String) (position : Nat) : Prop :=
  ∃ res, results[position]? = some res ∧ res.validationCode = .valid ∧
    ∃ cc, res.txsChaincodeName = some cc ∧ generateCCKey cc = key

section Parts

variable (position : Nat) (indexed : Indexed results) (perm : arranged.Perm results)
  (succeeded : ∀ res ∈ results, res.err = none)

include indexed perm succeeded

/-- The collected data of a position in the block. -/
theorem gathered_left : (arranged.foldl gather (newGathered results.length)).at position =
    (results[position]?.map left).getD (none, none, none, none) := by
  cases found : results[position]? with
  | none => exact gathered_at_none indexed perm found
  | some res => exact gathered_at indexed perm found (succeeded res (List.mem_of_getElem? found))

/-- A part of the collected data is present if and only if there is a valid result that has it. -/
theorem gathered_part
    (has : Option TxValidationCode × Option ChaincodeInstance × Option ChaincodeInstance × Option TxId → Prop)
    (absent : ¬has (none, none, none, none))
    (invalid : ∀ code, code ≠ .valid → ¬has (some code, none, none, some "")) :
    has ((arranged.foldl gather (newGathered results.length)).at position) ↔
      ∃ res, results[position]? = some res ∧ res.validationCode = .valid ∧
        has (some .valid, res.txsChaincodeName, res.txsUpgradedChaincode, some res.txid) := by
  rw [gathered_left position indexed perm succeeded]
  cases found : results[position]? with
  | none => simpa using absent
  | some res =>
    by_cases valid : res.validationCode = .valid
    · simp [left, valid]
    · simpa [left, valid] using invalid _ valid

/-- The entries of the two maps are those of the valid results. -/
theorem upgrades_iff (key : String) : Upgrades results key position ↔
    ∃ entry ∈ (arranged.foldl gather (newGathered results.length)).txsUpgradedChaincodes.entries,
      entry.1 = position ∧ generateCCKey entry.2 = key := by
  have parts := gathered_part position indexed perm succeeded
    (fun part => ∃ cc, part.2.2.1 = some cc ∧ generateCCKey cc = key) (by simp) (by simp)
  rw [Upgrades, ← parts]
  simp [Sigma.exists, Gathered.at, ← AList.mem_lookup_iff]

theorem invokes_iff (key : String) : Invokes results key position ↔
    ∃ entry ∈ (arranged.foldl gather (newGathered results.length)).txsChaincodeNames.entries,
      entry.1 = position ∧ generateCCKey entry.2 = key := by
  have parts := gathered_part position indexed perm succeeded
    (fun part => ∃ cc, part.2.1 = some cc ∧ generateCCKey cc = key) (by simp) (by simp)
  rw [Invokes, ← parts]
  simp [Sigma.exists, Gathered.at, ← AList.mem_lookup_iff]

/-- The identifiers of the valid results are collected. -/
theorem gathered_txid {txid : TxId} (named : txid ≠ "") :
    (arranged.foldl gather (newGathered results.length)).txidArray[position]? = some txid ↔
      ∃ res, results[position]? = some res ∧ res.validationCode = .valid ∧ res.txid = txid := by
  have parts := gathered_part position indexed perm succeeded (fun part => part.2.2.2 = some txid)
    nofun fun code invalid same => named (Option.some.inj same).symm
  simpa [Gathered.at] using parts

end Parts

/-- A later transaction upgrades the same chaincode. -/
def Outdated (results : List BlockValidationResult) (position : Nat) : Prop :=
  ∃ key, Upgrades results key position ∧ ∃ later, position < later ∧ Upgrades results key later

/-- The chaincode that is invoked is upgraded in the block. -/
def Disrupted (results : List BlockValidationResult) (position : Nat) : Prop :=
  ∃ key, Invokes results key position ∧ ∃ other, Upgrades results key other

/-- An earlier transaction with a valid result has the same identifier. -/
def Repeats (results : List BlockValidationResult) (position : Nat) : Prop :=
  ∃ res, results[position]? = some res ∧ res.validationCode = .valid ∧ res.txid ≠ "" ∧
    ∃ earlier < position, ∃ other, results[earlier]? = some other ∧ other.validationCode = .valid ∧
      other.txid = res.txid

/-- The passes over the whole block. -/
def passes (schedule : Schedule) (forbidDuplicates : Bool) (results : List BlockValidationResult) :
    List TxValidationCode :=
  let gathered := (schedule.arrange .results results).foldl gather (newGathered results.length)
  invalidTXsForUpgradeCC schedule gathered.txsChaincodeNames gathered.txsUpgradedChaincodes
    (if forbidDuplicates then markTXIdDuplicates gathered.txidArray gathered.txsfltr else gathered.txsfltr)

open Classical in
/-- The code of a transaction after the passes. A duplicate is marked first, but an upgrade that is not the latest one
of its chaincode is marked after that. -/
theorem passes_getElem? (indexed : Indexed results) (succeeded : ∀ res ∈ results, res.err = none)
    (schedule : Schedule) (forbidDuplicates : Bool) (position : Nat) :
    (passes schedule forbidDuplicates results)[position]? = results[position]?.map fun res =>
      if Outdated results position then .chaincodeVersionConflict
      else if forbidDuplicates = true ∧ Repeats results position then .duplicateTxid
      else if Disrupted results position then .chaincodeVersionConflict else res.validationCode := by
  have perm := schedule.perm .results results
  have upgrades (key : String) (place : Nat) := upgrades_iff place indexed perm succeeded key
  have invokes (key : String) (place : Nat) := invokes_iff place indexed perm succeeded key
  have ids := fun position => @gathered_txid _ _ position indexed perm succeeded
  have codes := gathered_left position indexed perm succeeded
  rw [passes]
  generalize (schedule.arrange .results results).foldl gather (newGathered results.length) = gathered at *
  have superseded : Superseded gathered.txsUpgradedChaincodes.entries position ↔ Outdated results position := by
    simp only [Outdated, upgrades]
    constructor
    · rintro ⟨entry, listed, rfl, other, also, same, after⟩
      exact ⟨_, ⟨entry, listed, rfl, rfl⟩, _, after, other, also, rfl, same⟩
    · rintro ⟨_, ⟨entry, listed, rfl, rfl⟩, _, after, other, also, rfl, same⟩
      exact ⟨entry, listed, rfl, other, also, same, after⟩
  have invoked : (∃ entry ∈ gathered.txsChaincodeNames.entries, entry.1 = position ∧
      ∃ other ∈ gathered.txsUpgradedChaincodes.entries, generateCCKey other.2 = generateCCKey entry.2) ↔
      Disrupted results position := by
    simp only [Disrupted, upgrades, invokes]
    constructor
    · rintro ⟨entry, listed, rfl, other, also, same⟩
      exact ⟨_, ⟨entry, listed, rfl, rfl⟩, _, other, also, rfl, same⟩
    · rintro ⟨_, ⟨entry, listed, rfl, rfl⟩, _, other, also, rfl, same⟩
      exact ⟨entry, listed, rfl, other, also, same⟩
  have duplicate : repeats [] gathered.txidArray position ↔ Repeats results position := by
    rw [repeats_iff]
    constructor
    · rintro ⟨txid, named, here, earlier, before, there⟩
      obtain ⟨_, listed, valid, rfl⟩ := (ids _ named).mp here
      exact ⟨_, listed, valid, named, earlier, before, (ids _ named).mp there⟩
    · rintro ⟨_, listed, valid, named, earlier, before, there⟩
      exact ⟨_, named, (ids _ named).mpr ⟨_, listed, valid, rfl⟩, earlier, before, (ids _ named).mpr there⟩
  have flag : gathered.txsfltr[position]? = results[position]?.map validationCode := by
    cases found : results[position]? <;> grind [Gathered.at, left]
  have marked : (if forbidDuplicates then markTXIdDuplicates gathered.txidArray gathered.txsfltr
      else gathered.txsfltr)[position]? = results[position]?.map fun res =>
        if forbidDuplicates = true ∧ Repeats results position then .duplicateTxid else res.validationCode := by
    cases forbidDuplicates with
    | false => simp [flag]
    | true => simp [markTXIdDuplicates, markTXIdDuplicatesFrom_getElem?, flag, duplicate, Function.comp_def]
  simp only [invalidTXsForUpgradeCC_getElem?, marked, superseded, invoked, Option.map_map]
  cases found : results[position]? with
  | none => rfl
  | some res =>
    have valid (disrupted : Disrupted results position) : res.validationCode = .valid := by
      obtain ⟨key, ⟨other, listed, valid, -⟩, -⟩ := disrupted
      grind
    grind

namespace Setting

variable {Identity : Type} {setting : Setting Identity} {flags : List TxValidationCode} {schedule : Schedule}

theorem validateTx_tIdx {d : Slice} (validated : setting.validateTx block tIdx d = .ok res) : res.tIdx = tIdx := by
  unfold validateTx at validated
  split at validated
  · cases validated
    rfl
  · split at validated <;> cases validated <;> rfl

/-- There is a result for each transaction. -/
theorem validateTxs_eq_ok {data : List Slice} {start : Nat}
    (validated : setting.validateTxs block start data = .ok results) :
    results.length = data.length ∧ ∀ (offset : Nat) (res : BlockValidationResult), results[offset]? = some res →
      ∃ d, data[offset]? = some d ∧ setting.validateTx block (start + offset) d = .ok res := by
  induction data generalizing start results with
  | nil =>
    cases validated
    refine ⟨rfl, fun offset res found => ?_⟩
    cases found
  | cons d rest ih =>
    simp only [validateTxs, bind_eq_ok, pure_eq_ok] at validated
    obtain ⟨res, first, later, others, rfl⟩ := validated
    obtain ⟨length, each⟩ := ih others
    refine ⟨congrArg (· + 1) length, fun offset other found => ?_⟩
    cases offset with
    | zero =>
      cases found
      exact ⟨d, rfl, first⟩
    | succ offset =>
      obtain ⟨slice, listed, checked⟩ := each offset other found
      rw [Nat.add_assoc, Nat.add_comm 1] at checked
      exact ⟨slice, listed, checked⟩

/-- The codes that `Validate` returns are those of the passes over the results. -/
theorem validate_eq_ok (validated : setting.validate schedule block = .ok flags) :
    ∃ results, setting.validateTxs block 0 block.data = .ok results ∧ Indexed results ∧
      (∀ res ∈ results, res.err = none) ∧
      flags = passes schedule setting.capabilities.forbidDuplicateTXIdInBlock results := by
  unfold validate at validated
  split at validated
  · cases validated
  next results returned =>
    obtain ⟨length, each⟩ := validateTxs_eq_ok returned
    have indexed : Indexed results := by
      intro position res found
      obtain ⟨d, -, checked⟩ := each position res found
      simpa using validateTx_tIdx checked
    dsimp only at validated
    rw [← length] at validated
    split at validated
    · cases validated
    next noError =>
      refine ⟨results, returned, indexed, fun res member => ?_, ?_⟩
      · exact ((foldl_gather_err _ _).mp noError).2 res ((schedule.perm .results results).mem_iff.mpr member)
      · split at validated <;> cases validated
        rfl

/-- A transaction is valid if its result is valid, no earlier valid transaction has its identifier, no later valid
transaction upgrades the chaincode that it upgrades, and no valid transaction upgrades the chaincode that it
invokes. -/
theorem validate_valid_iff (validated : setting.validate schedule block = .ok flags) :
    ∃ results, setting.validateTxs block 0 block.data = .ok results ∧ (∀ res ∈ results, res.err = none) ∧
      ∀ position, flags[position]? = some .valid ↔ ∃ res, results[position]? = some res ∧ res.validationCode = .valid ∧
        ¬(setting.capabilities.forbidDuplicateTXIdInBlock = true ∧ Repeats results position) ∧
        ¬Outdated results position ∧ ¬Disrupted results position := by
  obtain ⟨results, returned, indexed, succeeded, rfl⟩ := validate_eq_ok validated
  refine ⟨results, returned, succeeded, fun position => ?_⟩
  rw [passes_getElem? indexed succeeded]
  cases found : results[position]? with
  | none => simp
  | some res =>
    simp only [Option.map_some, Option.some.injEq, exists_eq_left']
    split_ifs <;> simp_all

end Setting

end Pobl.Peer
