import Pobl.Proof.Receiver.SafeSession

namespace Pobl.BlockCutter

open Library Protos Partialorder TxConsensusGraph Session

/-- Every emitted transaction follows its parents. -/
theorem emitted_follows_parents (calls : List Call) (final : Session) (feed : Feed calls)
    (unanimous : Guarded step (Session.Allows Unanimous) initial calls)
    (reached : run step initial calls = some final) (position : Nat) (env : Envelope)
    (emitted : final.emitted[position]? = some env) : FollowsParents final.emitted position env :=
  (run_fed feed unanimous reached).followsParents emitted

def childFirstCalls : List Call :=
  [ordinaryCall (sampleTx "c" [("k", [1], "p")] []), ordinaryCall (sampleTx "p" [] [("k", [1])])]

/-- A child that arrives before its parent is emitted after it. -/
theorem emitted_follows_parents_child_first : ∃ final, run step initial childFirstCalls = some final ∧
    final.emitted[1]? = some (sampleTx "c" [("k", [1], "p")] []) ∧
    FollowsParents final.emitted 1 (sampleTx "c" [("k", [1], "p")] []) := by
  refine exists_evaluated (by decide) fun final reached emitted => ?_
  exact emitted_follows_parents childFirstCalls final (by decide) (by decide) reached 1 _ emitted

def mismatchCalls : List Call :=
  [ordinaryCall (sampleTx "a" [("z", [9], "z")] [("k", [1])]),
    ordinaryCall (sampleTx "t" [("k", [2], "a")] []), ordinaryCall (sampleTx "z" [] [("z", [9])])]

/-- The child `t` of the waiting parent `a` is emitted although it read a value that `a` never wrote. -/
theorem mismatched_child_emitted : ∃ final,
    Feed mismatchCalls ∧ run step initial mismatchCalls = some final ∧
    final.emitted[2]? = some (sampleTx "t" [("k", [2], "a")] []) ∧
    ¬ FollowsParents final.emitted 2 (sampleTx "t" [("k", [2], "a")] []) := by
  obtain ⟨final, reached, known⟩ := Option.map_eq_some_iff.mp
    (show (run step initial mismatchCalls).map emitted =
      some [sampleTx "z" [] [("z", [9])], sampleTx "a" [("z", [9], "z")] [("k", [1])],
        sampleTx "t" [("k", [2], "a")] []] by decide)
  refine ⟨final, by decide, reached, by rw [known]; rfl, ?_⟩
  rw [known]
  rintro ⟨gvnode, decoded, parents⟩
  have readsA : (gvnode.pTx.lookup "a").map (fun ptx => ptx.kv.lookup "k") = some (some [2]) :=
    of_evaluated decoded (by decide)
  obtain ⟨ptx, named, read⟩ := Option.map_eq_some_iff.mp readsA
  obtain ⟨earlier, sooner, parent, gvparent, found, decodedParent, name, agrees⟩ := parents "a" ptx named
  obtain ⟨wkv, written, same⟩ := agrees "k" [2] read
  have wrong : ∀ env ∈ [sampleTx "z" [] [("z", [9])], sampleTx "a" [("z", [9], "z")] [("k", [1])]],
      (processEnvForBC env).map (fun gvnode => decide (gvnode.txId = "a") &&
        decide ((gvnode.writeSet.lookup "k").map GVWriteKV.value = some [2])) = some false := by decide
  have early : parent ∈ [sampleTx "z" [] [("z", [9])], sampleTx "a" [("z", [9], "z")] [("k", [1])]] := by
    rcases earlier with _ | _ | later
    · cases found
      exact List.mem_cons_self
    · cases found
      exact List.mem_cons_of_mem _ List.mem_cons_self
    · omega
  have checked := wrong parent early
  rw [decodedParent, Option.map_some, written, Option.map_some, name, same] at checked
  cases checked

end Pobl.BlockCutter
