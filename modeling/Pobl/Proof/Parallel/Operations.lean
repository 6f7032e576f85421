import Pobl.Proof.Parallel.Discipline

namespace Pobl.Peer

open Library KeyLevelValidator List

variable (block : Block) (updated : Nat → Option (List LedgerKeyID)) (signals : Nat → Plugin → String → Prop)
  (goroutine : Nat)

/-- The code of a goroutine follows the discipline. -/
abbrev Follows {Result : Type} (post : Result → Validators → Prop) (program : Goroutine Result)
    (validators : Validators) : Prop :=
  (discipline block updated).Assured (answer block) (Waits block signals) goroutine post program validators

/-- An assertion that the other goroutines keep, and that depends only on the flags and what is inserted. -/
structure Local (assertion : Validators → Prop) : Prop where
  rely : ∀ {before after}, (discipline block updated).Rely goroutine before after → assertion before → assertion after
  update : ∀ {validators plugin klv}, klv.onces block = (validators plugin).onces block →
    (∀ position, klv.inserted block position = (validators plugin).inserted block position) →
    assertion validators → assertion (Function.update validators plugin klv)

/-- The context of a plugin is the one of the block. -/
def Entered (plugin : Plugin) (validators : Validators) : Prop :=
  (validators plugin).validationCtx.blockHeight = block.number

/-- The flag of a transaction is done. -/
def Finished (plugin : Plugin) (position : Nat) (validators : Validators) : Prop :=
  ((validators plugin).onces block)[position]? = some .done

variable {block updated signals goroutine} {validators after : Validators} {plugin : Plugin} {position : Nat}
  {done : Bool}

theorem local_idle : Local block updated goroutine (Idle block goroutine) where
  rely := fun rely idle => idle.rely rely
  update := fun onces _ idle => idle.update onces

theorem local_owns : Local block updated goroutine (Owns block goroutine plugin position done) where
  rely := fun rely owns => owns.rely rely
  update := by
    intro validators other klv onces inserted owns
    refine ⟨?_, fun third query owned => owns.only third query ?_, ?_⟩
    · rw [apply_update onces]
      exact owns.owned
    · rwa [apply_update onces] at owned
    · rw [apply_update (f := (KeyLevelValidator.inserted block · position)) (inserted position)]
      exact owns.inserted

theorem Entered.evolves (entered : Entered block plugin validators)
    (evolves : (discipline block updated).evolves validators after) : Entered block plugin after :=
  (evolves plugin).entered entered

theorem Finished.evolves (finished : Finished block plugin position validators)
    (evolves : (discipline block updated).evolves validators after) : Finished block plugin position after :=
  (evolves plugin).finished position finished

theorem follows_ask {operation : Operation} {post : operation.Reply → Validators → Prop}
    (stable : ∀ {value before after}, (discipline block updated).Rely goroutine before after → post value before →
      post value after)
    (answered : ∀ later, (discipline block updated).Rely goroutine validators later → ∀ order,
      match (later plugin).answer block goroutine order operation with
      | .wait => Waits block signals goroutine ⟨plugin, operation⟩ later
      | .panic => False
      | .reply value klv => Transition block updated goroutine (later plugin) klv ∧
          post value (Function.update later plugin klv)) :
    Follows block updated signals goroutine post (ask plugin operation) validators := by
  intro later rely order
  have judged := answered later rely order
  rw [answer]
  cases given : (later plugin).answer block goroutine order operation with
  | wait =>
    rw [given] at judged
    exact judged
  | panic =>
    rw [given] at judged
    exact judged
  | reply value klv =>
    rw [given] at judged
    exact ⟨guarantee_update rely.invariant judged.1, fun final further => stable further judged.2⟩

/-- An operation that changes nothing. -/
theorem update_same : Function.update validators plugin (validators plugin) = validators :=
  Function.update_eq_self plugin validators

section Flags

variable (idle : Idle block goroutine validators)

include idle in
theorem follows_lockBlockDep : Follows block updated signals goroutine
      (fun _ after => Idle block goroutine after ∧ (after plugin).blockNum = block.number)
      (ask plugin .lockBlockDep) validators := by
  refine follows_ask (fun rely known => ⟨known.1.rely rely, (rely.evolves plugin).locked known.2⟩) ?_
  intro later rely order
  have idle := idle.rely rely
  by_cases known : (later plugin).blockNum = block.number
  · simp only [KeyLevelValidator.answer, if_pos known, update_same]
    exact ⟨.refl (rely.invariant plugin), idle, known⟩
  · simp only [KeyLevelValidator.answer, if_neg known, Function.update_self]
    have invariant := rely.invariant plugin
    refine ⟨.of_eq invariant ?flags rfl invariant.below (fun _ => rfl) id, idle.update ?flags, trivial⟩
    rw [onces_eq rfl, onces, if_neg known]

include idle in
/-- A goroutine enters a flag, waits for it or finds it done. -/
theorem follows_enterOnce (known : (validators plugin).blockNum = block.number)
    (inside : position < block.data.length) :
    Follows block updated signals goroutine
      (fun (entered : Bool) after => if entered then Owns block goroutine plugin position false after
        else Idle block goroutine after ∧ Finished block plugin position after)
      (ask plugin (.enterOnce position)) validators := by
  refine follows_ask ?_ ?_
  · intro entered before after rely reached
    cases entered with
    | true => exact (show Owns block goroutine plugin position false before from reached).rely rely
    | false => exact ⟨reached.1.rely rely, reached.2.evolves rely.evolves⟩
  intro later rely order
  have idle := idle.rely rely
  have known := (rely.evolves plugin).locked known
  have invariant := rely.invariant plugin
  have flags : (later plugin).onces block = (later plugin).txDepOnce := onces_eq known
  have sized := invariant.sized
  rw [flags] at sized
  cases found : (later plugin).txDepOnce[position]? with
  | none =>
    have beyond := List.getElem?_eq_none_iff.mp found
    omega
  | some once =>
    cases once with
    | fresh =>
      simp only [KeyLevelValidator.answer, found]
      refine ⟨transition_set invariant known _ ?_ ?_ nofun nofun, ?_, ?_, ?_⟩
      · intro other different
        rw [found]
        exact ⟨nofun, fun same => different (Once.running.inj same).symm⟩
      · rw [found]
        exact nofun
      · rw [Function.update_self, onces_set known, List.getElem?_set_self (by omega)]
      · intro other query owned
        by_cases same : other = plugin
        · subst same
          rw [Function.update_self, onces_set known] at owned
          by_cases same : query = position
          · exact ⟨rfl, same⟩
          · rw [List.getElem?_set_ne (Ne.symm same)] at owned
            exact absurd (by rw [flags]; exact owned) (idle other query)
        · rw [Function.update_of_ne same] at owned
          exact absurd owned (idle other query)
      · rw [Function.update_self]
        exact invariant.untouched position (by rw [flags]; exact found)
    | running other =>
      simp only [KeyLevelValidator.answer, found]
      exact ⟨idle, other, by rw [flags]; exact found⟩
    | done =>
      simp only [KeyLevelValidator.answer, found, update_same]
      exact ⟨.refl invariant, idle, by rw [Finished, flags]; exact found⟩

/-- The owner of a flag leaves it after the dependencies are inserted, or if there is nothing to insert. -/
theorem follows_leaveOnce (owns : Owns block goroutine plugin position done validators)
    (complete : (updated position).isSome = true → done = true) :
    Follows block updated signals goroutine
      (fun _ after => Idle block goroutine after ∧ Finished block plugin position after)
      (ask plugin (.leaveOnce position)) validators := by
  refine follows_ask (fun rely reached => ⟨reached.1.rely rely, reached.2.evolves rely.evolves⟩) ?_
  intro later rely order
  have owns := owns.rely rely
  have invariant := rely.invariant plugin
  have known := blockNum_of_onces owns.owned nofun
  have flags : (later plugin).onces block = (later plugin).txDepOnce := onces_eq known
  have owned := owns.owned
  rw [flags] at owned
  refine ⟨transition_set invariant known .done ?_ ?_ nofun
    (fun _ extracts => owns.inserted.trans (complete extracts)), ?_, ?_⟩
  · intro other different
    rw [owned]
    exact ⟨fun same => different (Once.running.inj (Option.some.inj same)).symm, nofun⟩
  · rw [owned]
    exact nofun
  · intro other query still
    by_cases same : other = plugin
    · subst same
      rw [Function.update_self, onces_set known] at still
      by_cases same : query = position
      · subst same
        rw [List.getElem?_set_self (List.getElem?_eq_some_iff.mp owned).1] at still
        cases still
      · rw [List.getElem?_set_ne (Ne.symm same)] at still
        exact same (owns.only other query (by rw [flags]; exact still)).2
    · rw [Function.update_of_ne same] at still
      exact same (owns.only other query still).1
  · rw [Finished, Function.update_self, onces_set known,
      List.getElem?_set_self (List.getElem?_eq_some_iff.mp owned).1]

end Flags

section Context

variable {assertion : Validators → Prop} {txnum : Nat}

section

variable (stays : Local block updated goroutine assertion) (holds : assertion validators)

include stays holds

theorem follows_forBlock :
    Follows block updated signals goroutine (fun _ after => assertion after ∧ Entered block plugin after)
      (ask plugin .forBlock) validators := by
  refine follows_ask (fun rely reached => ⟨stays.rely rely reached.1, reached.2.evolves rely.evolves⟩) ?_
  intro later rely order
  have invariant := rely.invariant plugin
  have height := blockHeight_ctx block (later plugin)
  simp only [KeyLevelValidator.answer, forBlock_eq invariant]
  refine ⟨transition_forBlock invariant, stays.update rfl (fun query => ?_) (stays.rely rely holds), ?_⟩
  · rw [inserted, inserted, ctx_set _ height]
  · rw [Entered, Function.update_self]
    exact height

theorem follows_getOrCreate (entered : Entered block plugin validators) (txnum : Nat) :
    Follows block updated signals goroutine (fun _ after => assertion after ∧ Entered block plugin after)
      (ask plugin (.getOrCreateDependencyByTxnum txnum)) validators := by
  refine follows_ask (fun rely reached => ⟨stays.rely rely reached.1, reached.2.evolves rely.evolves⟩) ?_
  intro later rely order
  have entered := entered.evolves rely.evolves
  have invariant := rely.invariant plugin
  have created := created_validationCtx invariant entered
  obtain ⟨deps, found⟩ := Option.ne_none_iff_exists'.mp created
  simp only [KeyLevelValidator.answer, found]
  refine ⟨transition_setDependency invariant entered txnum (.inl rfl) (fun _ => id),
    stays.update rfl (fun query => ?_) (stays.rely rely holds), ?_⟩
  · rw [inserted, dependency_ctx_setDependency invariant entered, inserted]
    split
    next same => rw [same, ctx_eq entered]
    · rfl
  · rw [Entered, Function.update_self]
    exact entered

theorem follows_addDependency (entered : Entered block plugin validators) {kid : LedgerKeyID}
    (updates : Updates updated txnum kid) :
    Follows block updated signals goroutine (fun _ after => assertion after ∧ Entered block plugin after)
      (ask plugin (.addDependency kid txnum)) validators := by
  refine follows_ask (fun rely reached => ⟨stays.rely rely reached.1, reached.2.evolves rely.evolves⟩) ?_
  intro later rely order
  have entered := entered.evolves rely.evolves
  refine ⟨transition_addDependency (rely.invariant plugin) entered updates,
    stays.update rfl (fun query => ?_) (stays.rely rely holds), ?_⟩
  · rw [inserted, ctx_set _ (by exact entered), inserted, ctx_eq entered]
    rfl
  · rw [Entered, Function.update_self]
    exact entered

end

/-- The owner of a flag inserts the dependencies once. -/
theorem follows_signalDepInserted (owns : Owns block goroutine plugin position false validators)
    (entered : Entered block plugin validators) :
    Follows block updated signals goroutine (fun _ => Owns block goroutine plugin position true)
      (ask plugin (.signalDepInserted position)) validators := by
  refine follows_ask (fun rely owns => owns.rely rely) ?_
  intro later rely order
  have entered := entered.evolves rely.evolves
  have owns := owns.rely rely
  have invariant := rely.invariant plugin
  have absent := owns.inserted
  rw [inserted, ctx_eq entered] at absent
  simp only [KeyLevelValidator.answer, absent, Bool.false_eq_true, if_false]
  refine ⟨transition_setDependency invariant entered position (.inr owns.owned) (fun _ => id), owns.update rfl ?_⟩
  rw [inserted, dependency_ctx_setDependency invariant entered, if_pos rfl]

variable (idle : Idle block goroutine validators) (entered : Entered block plugin validators)

include idle entered

/-- The dependencies of a finished transaction are inserted, so nobody waits for them. -/
theorem follows_waitForDepInserted (finished : Finished block plugin position validators)
    (extracts : (updated position).isSome = true) :
    Follows block updated signals goroutine (fun _ after => Idle block goroutine after ∧ Entered block plugin after)
      (ask plugin (.waitForDepInserted position)) validators := by
  refine follows_ask (fun rely reached => ⟨reached.1.rely rely, reached.2.evolves rely.evolves⟩) ?_
  intro later rely order
  have entered := entered.evolves rely.evolves
  have known := (rely.invariant plugin).extracted position (finished.evolves rely.evolves) extracts
  rw [inserted, ctx_eq entered] at known
  simp only [KeyLevelValidator.answer, known, if_true, update_same]
  exact ⟨.refl (rely.invariant plugin), idle.rely rely, entered⟩

/-- Each dependency of a key is an earlier transaction that updates its parameter. -/
theorem follows_dependenciesForTxnum (kid : LedgerKeyID) (txnum : Nat) : Follows block updated signals goroutine
      (fun deps after => (Idle block goroutine after ∧ Entered block plugin after) ∧
        ∀ dep ∈ deps, dep < txnum ∧ Updates updated dep kid)
      (ask plugin (.dependenciesForTxnum kid txnum)) validators := by
  refine follows_ask (fun rely reached => ⟨⟨reached.1.1.rely rely, reached.1.2.evolves rely.evolves⟩, reached.2⟩) ?_
  intro later rely order
  have entered := entered.evolves rely.evolves
  have source := (rely.invariant plugin).source
  rw [ctx_eq entered] at source
  simp only [KeyLevelValidator.answer, update_same]
  refine ⟨.refl (rely.invariant plugin), ⟨idle.rely rely, entered⟩, ?_⟩
  have stored : ∀ dep ∈ (later plugin).validationCtx.dependenciesForTxnum kid txnum,
      dep < txnum ∧ Updates updated dep kid := by
    intro dep member
    obtain ⟨⟨other, dep⟩, listed, rfl⟩ := mem_map.mp member
    obtain ⟨recorded, matching⟩ := mem_filter.mp listed
    obtain ⟨rfl, earlier⟩ := of_decide_eq_true matching
    exact ⟨earlier, source other dep recorded⟩
  split
  next permuted => exact fun dep member => stored dep (permuted.mem_iff.mp member)
  · exact stored

/-- A goroutine waits for the result of an earlier transaction that signals it. -/
theorem follows_waitForResult {ns : String} (earlier : txnum < goroutine) (expected : signals txnum plugin ns) :
    Follows block updated signals goroutine (fun _ after => Idle block goroutine after ∧ Entered block plugin after)
      (ask plugin (.waitForAndRetrieveValidationResult txnum ns)) validators := by
  refine follows_ask (fun rely reached => ⟨reached.1.rely rely, reached.2.evolves rely.evolves⟩) ?_
  intro later rely order
  have idle := idle.rely rely
  have entered := entered.evolves rely.evolves
  cases found : ((later plugin).validationCtx.dependency txnum).validationResultMap.lookup ns with
  | none =>
    simp only [KeyLevelValidator.answer, found]
    refine ⟨idle, earlier, expected, ?_⟩
    rw [signalled, ctx_eq entered, found]
    rfl
  | some passed =>
    simp only [KeyLevelValidator.answer, found, update_same]
    exact ⟨.refl (rely.invariant plugin), idle, entered⟩

theorem follows_signalValidationResult (txnum : Nat) (ns : String) (passed : Bool) :
    Follows block updated signals goroutine
      (fun _ after => Idle block goroutine after ∧ (after plugin).signalled block txnum ns = true)
      (ask plugin (.signalValidationResult txnum ns passed)) validators := by
  refine follows_ask
    (fun rely reached => ⟨reached.1.rely rely, (rely.evolves plugin).signalled txnum ns reached.2⟩) ?_
  intro later rely order
  have entered := entered.evolves rely.evolves
  have invariant := rely.invariant plugin
  refine ⟨transition_setDependency invariant entered txnum (.inl rfl) ?_, (idle.rely rely).update rfl, ?_⟩
  · intro other known
    rw [GoMap.lookup_insert_apply]
    split
    · rfl
    · exact known
  · rw [Function.update_self, signalled, dependency_ctx_setDependency invariant entered, if_pos rfl,
      AList.lookup_insert]
    rfl

end Context

end Pobl.Peer
