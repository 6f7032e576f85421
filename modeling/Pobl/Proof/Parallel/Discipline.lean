/-
This file gives the discipline of the goroutines on the shared validators.
A goroutine that extracts the dependencies of a transaction owns its `sync.Once`.
-/

import Pobl.Construction.ParallelValidation

namespace Pobl.Peer

open Library ValidationContext

namespace ValidationContext

theorem dependency_setDependency {ctx : ValidationContext} (created : ctx.depsByTxnumMap ≠ none) (txnum query : Nat)
    (dep : TxDependency) :
    (ctx.setDependency txnum dep).dependency query = if query = txnum then dep else ctx.dependency query := by
  obtain ⟨deps, found⟩ := Option.ne_none_iff_exists'.mp created
  rw [dependency, setDependency, found]
  by_cases same : query = txnum
  · subst same
    simp
  · simp [dependency, found, same, AList.lookup_insert_ne]

end ValidationContext

/-- A transaction updates the validation parameter of a key. The keys that are extracted are a parameter. -/
def Updates (updated : Nat → Option (List LedgerKeyID)) (position : Nat) (kid : LedgerKeyID) : Prop :=
  ∃ keys, updated position = some keys ∧ kid ∈ keys

namespace KeyLevelValidator

variable (block : Block)

/-- The flags of the block. They are fresh before the validator knows the block. -/
def onces (klv : KeyLevelValidator) : List Once :=
  if klv.blockNum = block.number then klv.txDepOnce else List.replicate block.data.length .fresh

/-- The context of the block. It is empty before the validator knows the block. -/
def ctx (klv : KeyLevelValidator) : ValidationContext :=
  if klv.validationCtx.blockHeight = block.number then klv.validationCtx else ⟨block.number, some ∅, []⟩

/-- The dependencies of a transaction are inserted. -/
def inserted (klv : KeyLevelValidator) (position : Nat) : Bool := ((klv.ctx block).dependency position).depInserted

/-- The result of a transaction is known for a namespace. -/
def signalled (klv : KeyLevelValidator) (position : Nat) (ns : String) : Bool :=
  (((klv.ctx block).dependency position).validationResultMap.lookup ns).isSome

variable {block} {klv : KeyLevelValidator}

theorem onces_eq (known : klv.blockNum = block.number) : klv.onces block = klv.txDepOnce :=
  if_pos known

theorem ctx_eq (known : klv.validationCtx.blockHeight = block.number) :
    klv.ctx block = klv.validationCtx := if_pos known

theorem onces_set (known : klv.blockNum = block.number) (flags : List Once) :
    ({ klv with txDepOnce := flags } : KeyLevelValidator).onces block = flags := if_pos known

theorem ctx_set (klv : KeyLevelValidator) {after : ValidationContext} (height : after.blockHeight = block.number) :
    ({ klv with validationCtx := after } : KeyLevelValidator).ctx block = after := if_pos height

variable (block) in
theorem blockHeight_ctx (klv : KeyLevelValidator) : (klv.ctx block).blockHeight = block.number := by
  rw [ctx]
  split
  next known => exact known
  · rfl

/-- Only a validator that knows the block has a flag that is not fresh. -/
theorem blockNum_of_onces {position : Nat} {once : Once} (found : (klv.onces block)[position]? = some once)
    (used : once ≠ .fresh) : klv.blockNum = block.number := by
  by_contra unknown
  rw [onces, if_neg unknown, List.getElem?_replicate] at found
  split at found
  · cases found
    exact used rfl
  · cases found

variable (block) (updated : Nat → Option (List LedgerKeyID))

/-- The invariant of a validator. The keys that are extracted from each transaction are a parameter. -/
structure Invariant (klv : KeyLevelValidator) : Prop where
  sized : (klv.onces block).length = block.data.length
  below : klv.validationCtx.blockHeight ≤ block.number
  created : (klv.ctx block).depsByTxnumMap ≠ none
  untouched : ∀ position : Nat, (klv.onces block)[position]? = some .fresh → klv.inserted block position = false
  extracted : ∀ position : Nat, (klv.onces block)[position]? = some .done → (updated position).isSome = true →
    klv.inserted block position = true
  source : ∀ kid position, (kid, position) ∈ (klv.ctx block).depsByLedgerKeyIDMap → Updates updated position kid

/-- What a validator never forgets during the validation of the block. -/
structure Evolves (before after : KeyLevelValidator) : Prop where
  locked : before.blockNum = block.number → after.blockNum = block.number
  entered : before.validationCtx.blockHeight = block.number → after.validationCtx.blockHeight = block.number
  finished : ∀ position : Nat, (before.onces block)[position]? = some .done → (after.onces block)[position]? = some .done
  signalled : ∀ position ns, before.signalled block position ns = true → after.signalled block position ns = true

/-- What the other goroutines keep for a goroutine: the flags that it owns and what it has inserted under them. -/
structure Keeps (goroutine : Nat) (before after : KeyLevelValidator) : Prop where
  owned : ∀ position : Nat, (after.onces block)[position]? = some (.running goroutine) ↔
    (before.onces block)[position]? = some (.running goroutine)
  inserted : ∀ position : Nat, (before.onces block)[position]? = some (.running goroutine) →
    after.inserted block position = before.inserted block position

/-- A goroutine changes a validator by the rules. -/
structure Transition (goroutine : Nat) (before after : KeyLevelValidator) : Prop where
  invariant : after.Invariant block updated
  evolves : Evolves block before after
  keeps : ∀ other, other ≠ goroutine → Keeps block other before after

variable {block updated} {goroutine : Nat}

section

variable (invariant : klv.Invariant block updated)

include invariant

theorem Transition.refl : Transition block updated goroutine klv klv where
  invariant := invariant
  evolves := ⟨id, id, fun _ => id, fun _ _ => id⟩
  keeps := fun _ _ => ⟨fun _ => Iff.rfl, fun _ _ => rfl⟩

/-- A change that neither the flags nor the context of the block show. -/
theorem Transition.of_eq {after : KeyLevelValidator} (onces : after.onces block = klv.onces block)
    (ctx : after.ctx block = klv.ctx block) (below : after.validationCtx.blockHeight ≤ block.number)
    (locked : klv.blockNum = block.number → after.blockNum = block.number)
    (entered : klv.validationCtx.blockHeight = block.number → after.validationCtx.blockHeight = block.number) :
    Transition block updated goroutine klv after := by
  have inserted : ∀ position, after.inserted block position = klv.inserted block position := by
    intro position
    rw [KeyLevelValidator.inserted, KeyLevelValidator.inserted, ctx]
  refine ⟨⟨?_, below, ?_, ?_, ?_, ?_⟩, ⟨locked, entered, ?_, ?_⟩, fun other _ => ⟨?_, ?_⟩⟩
  · rw [onces]
    exact invariant.sized
  · rw [ctx]
    exact invariant.created
  · intro position fresh
    rw [onces] at fresh
    rw [inserted]
    exact invariant.untouched position fresh
  · intro position done extracts
    rw [onces] at done
    rw [inserted]
    exact invariant.extracted position done extracts
  · rw [ctx]
    exact invariant.source
  · rw [onces]
    exact fun _ => id
  · intro position ns
    rw [signalled, signalled, ctx]
    exact id
  · rw [onces]
    exact fun _ => Iff.rfl
  · exact fun position _ => inserted position

theorem forBlock_eq : klv.validationCtx.forBlock block.number = some (klv.ctx block) := by
  have below := invariant.below
  rw [forBlock, if_neg (UInt64.not_lt.mpr below), ctx]
  by_cases known : klv.validationCtx.blockHeight = block.number
  · rw [if_neg (by rw [known]; exact UInt64.lt_irrefl _), if_pos known]
  · rw [if_pos (UInt64.lt_of_le_of_ne below known), if_neg known]

/-- The context becomes the one of the block. -/
theorem transition_forBlock : Transition block updated goroutine klv { klv with validationCtx := klv.ctx block } := by
  have height := blockHeight_ctx block klv
  refine .of_eq invariant rfl (ctx_set klv height) ?_ id (fun _ => height)
  rw [height]
  exact UInt64.le_refl _

end

section Context

variable {after : ValidationContext}

variable (invariant : klv.Invariant block updated) (entered : klv.validationCtx.blockHeight = block.number)

include invariant entered

/-- A goroutine changes the context of the block. An insertion changes only under a flag that it owns. -/
theorem transition_ctx (height : after.blockHeight = block.number) (created : after.depsByTxnumMap ≠ none)
    (inserted : ∀ position : Nat,
      (after.dependency position).depInserted = (klv.validationCtx.dependency position).depInserted ∨
        (klv.onces block)[position]? = some (.running goroutine))
    (signalled : ∀ position ns,
      ((klv.validationCtx.dependency position).validationResultMap.lookup ns).isSome = true →
        ((after.dependency position).validationResultMap.lookup ns).isSome = true)
    (source : ∀ kid position, (kid, position) ∈ after.depsByLedgerKeyIDMap → Updates updated position kid) :
    Transition block updated goroutine klv { klv with validationCtx := after } := by
  have ctx := ctx_set klv height
  have known : klv.ctx block = klv.validationCtx := ctx_eq entered
  have inserted (position : Nat) : ({ klv with validationCtx := after } : KeyLevelValidator).inserted block position =
      klv.inserted block position ∨ (klv.onces block)[position]? = some (.running goroutine) := by
    rw [KeyLevelValidator.inserted, KeyLevelValidator.inserted, ctx, known]
    exact inserted position
  refine ⟨⟨invariant.sized, ?_, ?_, ?_, ?_, ?_⟩, ⟨id, fun _ => height, fun _ => id, ?_⟩,
    fun other different => ⟨fun _ => Iff.rfl, ?_⟩⟩
  · rw [height]
    exact UInt64.le_refl _
  · rw [ctx]
    exact created
  · intro position fresh
    rcases inserted position with same | running
    · exact same.trans (invariant.untouched position fresh)
    · cases fresh.symm.trans running
  · intro position done extracts
    rcases inserted position with same | running
    · exact same.trans (invariant.extracted position done extracts)
    · cases done.symm.trans running
  · rw [ctx]
    exact source
  · intro position ns
    rw [KeyLevelValidator.signalled, KeyLevelValidator.signalled, ctx, known]
    exact signalled position ns
  · intro position owned
    rcases inserted position with same | running
    · exact same
    · cases owned.symm.trans running
      exact absurd rfl different

theorem created_validationCtx : klv.validationCtx.depsByTxnumMap ≠ none := by
  have created := invariant.created
  rwa [ctx_eq entered] at created

theorem dependency_ctx_setDependency (txnum query : Nat) (dep : TxDependency) :
    (({ klv with validationCtx := klv.validationCtx.setDependency txnum dep } : KeyLevelValidator).ctx
      block).dependency query = if query = txnum then dep else (klv.ctx block).dependency query := by
  have height : (klv.validationCtx.setDependency txnum dep).blockHeight = block.number := entered
  rw [ctx_set klv height, ctx_eq entered,
    dependency_setDependency (created_validationCtx invariant entered)]

/-- The dependency of one transaction is replaced. -/
theorem transition_setDependency (txnum : Nat) {dep : TxDependency}
    (inserted : dep.depInserted = (klv.validationCtx.dependency txnum).depInserted ∨
      (klv.onces block)[txnum]? = some (.running goroutine))
    (signalled : ∀ ns, ((klv.validationCtx.dependency txnum).validationResultMap.lookup ns).isSome = true →
      (dep.validationResultMap.lookup ns).isSome = true) :
    Transition block updated goroutine klv
    { klv with validationCtx := klv.validationCtx.setDependency txnum dep } := by
  have created := created_validationCtx invariant entered
  refine transition_ctx invariant entered entered (by simpa [setDependency] using created) ?_ ?_ ?_
  · intro position
    rw [dependency_setDependency created]
    split
    next same => exact same ▸ inserted
    · exact .inl rfl
  · intro position ns known
    rw [dependency_setDependency created]
    split
    next same => exact signalled ns (same ▸ known)
    · exact known
  · have source := invariant.source
    rwa [ctx_eq entered] at source

theorem transition_addDependency {kid : LedgerKeyID} {txnum : Nat} (updates : Updates updated txnum kid) :
    Transition block updated goroutine klv
    { klv with
        validationCtx := { klv.validationCtx with
          depsByLedgerKeyIDMap := klv.validationCtx.depsByLedgerKeyIDMap.insert (kid, txnum) } } := by
  refine transition_ctx invariant entered entered (created_validationCtx invariant entered) (fun _ => .inl rfl)
    (fun _ _ => id) ?_
  intro other position member
  rcases List.mem_insert_iff.mp member with same | earlier
  · cases same
    exact updates
  · exact invariant.source other position (by rw [ctx_eq entered]; exact earlier)

end Context

section Flags

variable {position : Nat}

/-- A goroutine sets a flag of the block. -/
theorem transition_set (invariant : klv.Invariant block updated) (known : klv.blockNum = block.number) (once : Once)
    (free : ∀ other, other ≠ goroutine → klv.txDepOnce[position]? ≠ some (.running other) ∧ once ≠ .running other)
    (unfinished : klv.txDepOnce[position]? ≠ some .done) (used : once ≠ .fresh)
    (extracted : once = .done → (updated position).isSome = true → klv.inserted block position = true) :
    Transition block updated goroutine klv { klv with txDepOnce := klv.txDepOnce.set position once } := by
  have before : klv.onces block = klv.txDepOnce := onces_eq known
  have after := onces_set known (klv.txDepOnce.set position once)
  have sized := invariant.sized
  rw [before] at sized
  -- A flag after the change is an old flag of another position or the new flag.
  have changed : ∀ (query : Nat) (flag : Once), (klv.txDepOnce.set position once)[query]? = some flag →
      (query = position ∧ flag = once) ∨ klv.txDepOnce[query]? = some flag := by
    intro query flag found
    rw [List.getElem?_set] at found
    split at found
    next same =>
      split at found
      · cases found
        exact .inl ⟨same.symm, rfl⟩
      · cases found
    · exact .inr found
  have kept : ∀ query : Nat, query ≠ position → (klv.txDepOnce.set position once)[query]? = klv.txDepOnce[query]? :=
    fun query different => List.getElem?_set_ne (Ne.symm different)
  refine ⟨⟨?_, invariant.below, invariant.created, ?_, ?_, invariant.source⟩, ⟨fun _ => known, id, ?_, fun _ _ => id⟩,
    fun other different => ⟨?_, fun _ _ => rfl⟩⟩
  · rw [after, List.length_set]
    exact sized
  · intro query fresh
    rw [after] at fresh
    rcases changed query .fresh fresh with ⟨_, same⟩ | earlier
    · exact absurd same.symm used
    · exact invariant.untouched query (by rw [before]; exact earlier)
  · intro query done extracts
    rw [after] at done
    rcases changed query .done done with ⟨rfl, same⟩ | earlier
    · exact extracted same.symm extracts
    · exact invariant.extracted query (by rw [before]; exact earlier) extracts
  · intro query done
    rw [before] at done
    rw [after, kept query (fun same => unfinished (same ▸ done))]
    exact done
  · intro query
    rw [after, before]
    by_cases same : query = position
    · subst same
      constructor
      · intro found
        rcases changed query _ found with ⟨_, same⟩ | earlier
        · exact absurd same.symm (free other different).2
        · exact earlier
      · exact fun found => absurd found (free other different).1
    · rw [kept query same]

end Flags

end KeyLevelValidator

section Shared

variable (block : Block) (updated : Nat → Option (List LedgerKeyID))

/-- The discipline of the goroutines of a block. -/
def discipline : Discipline Validators where
  invariant := fun validators => ∀ plugin, (validators plugin).Invariant block updated
  evolves := fun before after => ∀ plugin, KeyLevelValidator.Evolves block (before plugin) (after plugin)
  keeps := fun goroutine before after => ∀ plugin,
    KeyLevelValidator.Keeps block goroutine (before plugin) (after plugin)
  evolves_refl := fun _ _ => ⟨id, id, fun _ => id, fun _ _ => id⟩
  evolves_trans := fun one two plugin =>
    ⟨(two plugin).locked ∘ (one plugin).locked, (two plugin).entered ∘ (one plugin).entered,
      fun position => (two plugin).finished position ∘ (one plugin).finished position,
      fun position ns => (two plugin).signalled position ns ∘ (one plugin).signalled position ns⟩
  keeps_refl := fun _ _ _ => ⟨fun _ => Iff.rfl, fun _ _ => rfl⟩
  keeps_trans := fun one two plugin =>
    ⟨fun position => ((two plugin).owned position).trans ((one plugin).owned position),
      fun position owned => ((two plugin).inserted position (((one plugin).owned position).mpr owned)).trans
        ((one plugin).inserted position owned)⟩

variable {block updated} {goroutine : Nat} {validators : Validators} {plugin : Plugin} {klv : KeyLevelValidator}

/-- A goroutine changes the validator of one plugin. -/
theorem guarantee_update (invariant : (discipline block updated).invariant validators)
    (transition : KeyLevelValidator.Transition block updated goroutine (validators plugin) klv) :
    (discipline block updated).Guarantee goroutine validators (Function.update validators plugin klv) := by
  have every (other : Plugin) : KeyLevelValidator.Transition block updated goroutine (validators other)
      (Function.update validators plugin klv other) := by
    by_cases same : other = plugin
    · subst same
      rw [Function.update_self]
      exact transition
    · rw [Function.update_of_ne same]
      exact .refl (invariant other)
  exact ⟨fun other => (every other).invariant, fun other => (every other).evolves,
    fun thread different other => (every other).keeps thread different⟩

/-- What a change of a validator does not show is the same for all plugins. -/
theorem apply_update {Value : Type} {f : KeyLevelValidator → Value} (same : f klv = f (validators plugin))
    (other : Plugin) : f (Function.update validators plugin klv other) = f (validators other) := by
  rw [Function.apply_update (fun _ => f), same, Function.update_eq_self]

variable (block)

/-- A goroutine owns no flag. -/
def Idle (goroutine : Nat) (validators : Validators) : Prop :=
  ∀ plugin (position : Nat), ((validators plugin).onces block)[position]? ≠ some (.running goroutine)

/-- A goroutine owns one flag, and it has or has not inserted the dependencies under it. -/
structure Owns (goroutine : Nat) (plugin : Plugin) (position : Nat) (done : Bool) (validators : Validators) : Prop where
  owned : ((validators plugin).onces block)[position]? = some (.running goroutine)
  only : ∀ other (query : Nat), ((validators other).onces block)[query]? = some (.running goroutine) →
    other = plugin ∧ query = position
  inserted : (validators plugin).inserted block position = done

/-- A goroutine may wait for a flag that another one owns, and for a result that an earlier transaction signals. The
transactions that signal a result are a parameter. -/
def Waits (signals : Nat → Plugin → String → Prop) (goroutine : Nat) (request : Request) (validators : Validators) :
    Prop :=
  Idle block goroutine validators ∧ match request.operation with
    | .enterOnce position =>
      ∃ other, ((validators request.plugin).onces block)[position]? = some (.running other)
    | .waitForAndRetrieveValidationResult txnum ns =>
      txnum < goroutine ∧ signals txnum request.plugin ns ∧
        (validators request.plugin).signalled block txnum ns = false
    | _ => False

variable {block} {after : Validators}

theorem Idle.rely (idle : Idle block goroutine validators)
    (rely : (discipline block updated).Rely goroutine validators after) : Idle block goroutine after :=
  fun plugin position owned => idle plugin position (((rely.keeps plugin).owned position).mp owned)

theorem Owns.rely {position : Nat} {done : Bool} (owns : Owns block goroutine plugin position done validators)
    (rely : (discipline block updated).Rely goroutine validators after) :
    Owns block goroutine plugin position done after where
  owned := ((rely.keeps plugin).owned position).mpr owns.owned
  only := fun other query owned => owns.only other query (((rely.keeps other).owned query).mp owned)
  inserted := ((rely.keeps plugin).inserted position owns.owned).trans owns.inserted

/-- A goroutine changes a validator and still owns no flag. -/
theorem Idle.update (idle : Idle block goroutine validators)
    (onces : klv.onces block = (validators plugin).onces block) :
    Idle block goroutine (Function.update validators plugin klv) := by
  intro other position
  rw [apply_update onces]
  exact idle other position

/-- A goroutine changes a validator under a flag that it owns. -/
theorem Owns.update {position : Nat} {done done' : Bool} (owns : Owns block goroutine plugin position done validators)
    (onces : klv.onces block = (validators plugin).onces block) (inserted : klv.inserted block position = done') :
    Owns block goroutine plugin position done' (Function.update validators plugin klv) where
  owned := by
    rw [Function.update_self, onces]
    exact owns.owned
  only := by
    intro other query owned
    rw [apply_update onces] at owned
    exact owns.only other query owned
  inserted := by rw [Function.update_self, inserted]

end Shared

end Pobl.Peer
