/-
This file says when the layouts of an endorsement descriptor can be met by distinct peers.
-/

import Pobl.Construction.Endorsement
import Mathlib.Combinatorics.Hall.Basic

namespace Pobl.Discovery

open Cauthdsl Context List

/-- The peers that quantities ask for, one slot for each. -/
def slots {Kind : Type} (quantities : List (Kind × UInt32)) : List Kind :=
  quantities.flatMap fun entry => replicate entry.2.toNat entry.1

/-- Distinct peers fill the slots. -/
def Filled {Kind : Type} (slots : List Kind) (peers : Kind → List PKIid) : Prop :=
  ∃ filling : Fin slots.length → PKIid, Function.Injective filling ∧ ∀ slot, filling slot ∈ peers (slots.get slot)

/-- Distinct peers meet the layout, each of them in the group that it is counted for. -/
def Met (descriptor : EndorsementDescriptor) (layout : Layout) : Prop :=
  Filled (slots layout) descriptor.endorsersByGroups

/-- Each principal of the set has enough peers of its own. -/
def Supplied (ctx : Context) (principalSet : List MSPPrincipal) : Prop :=
  ∀ entry ∈ uniqueSet principalSet, entry.2.toNat ≤ (ctx.neighbors entry.1).length

/-- Any slots of the set together have enough peers. -/
def JointlySupplied (ctx : Context) (principalSet : List MSPPrincipal) : Prop :=
  ∀ chosen : Finset (Fin (slots (uniqueSet principalSet)).length), chosen.card ≤
    (chosen.biUnion fun slot => (ctx.neighbors ((slots (uniqueSet principalSet)).get slot)).toFinset).card

theorem filled_map {Kind Other : Type} {slots : List Kind} {rename : Kind → Other} {peers : Other → List PKIid}
    {others : Kind → List PKIid} (same : ∀ kind ∈ slots, peers (rename kind) = others kind) :
    Filled (slots.map rename) peers ↔ Filled slots others := by
  have length : (slots.map rename).length = slots.length := length_map rename
  constructor
  · rintro ⟨filling, injective, suits⟩
    refine ⟨fun slot => filling (slot.cast length.symm), injective.comp (Fin.cast_injective _), fun slot => ?_⟩
    simpa [← same] using suits (slot.cast length.symm)
  · rintro ⟨filling, injective, suits⟩
    refine ⟨fun slot => filling (slot.cast length), injective.comp (Fin.cast_injective _), fun slot => ?_⟩
    simpa [same] using suits (slot.cast length)

variable {ctx : Context} {principalGroups : PrincipalGroupMapper ctx.principalsSets}
  {principalSet : List MSPPrincipal} {principal : MSPPrincipal}

/-- The group of a principal has the peers of the principal. -/
theorem graph_idxOf (listed : principalSet ∈ ctx.principalsSets) (member : principal ∈ principalSet) :
    (ctx.principalsToPeersGraph principalGroups).getD (principalGroups.principals.idxOf principal) [] =
      ctx.neighbors principal := by
  have known : principal ∈ principalGroups.principals := by
    rw [principalGroups.perm.mem_iff, mem_dedup, mem_flatten]
    exact ⟨principalSet, listed, member⟩
  have inside := idxOf_lt_length_of_mem known
  simp [principalsToPeersGraph, List.getD_eq_getElem?_getD, inside]

theorem mem_uniqueSet {entry : MSPPrincipal × UInt32} (member : entry ∈ uniqueSet principalSet) :
    entry.1 ∈ principalSet := by
  obtain ⟨principal, listed, rfl⟩ := mem_map.mp member
  exact mem_dedup.mp listed

/-- A layout is kept if and only if each of its principals has enough peers of its own. -/
theorem isLayoutSatisfied_iff (listed : principalSet ∈ ctx.principalsSets) :
    ctx.isLayoutSatisfied principalGroups (ctx.layout principalGroups principalSet) ↔ Supplied ctx principalSet := by
  simp only [isLayoutSatisfied, layout, all_map, all_eq_true, Supplied, Function.comp_apply,
    decide_eq_true_eq]
  refine forall₂_congr fun entry member => ?_
  rw [graph_idxOf listed (mem_uniqueSet member)]

theorem slots_layout : slots (ctx.layout principalGroups principalSet) =
    (slots (uniqueSet principalSet)).map principalGroups.principals.idxOf := by
  simp [slots, layout, flatMap_map, map_flatMap]

/-- A layout of the descriptor is met if and only if its principals have enough peers together. -/
theorem met_iff {layouts : List Layout} (listed : principalSet ∈ ctx.principalsSets)
    (kept : ctx.layout principalGroups principalSet ∈ layouts) :
    Met ⟨layouts, ctx.endorsersByGroup principalGroups layouts⟩ (ctx.layout principalGroups principalSet) ↔
      JointlySupplied ctx principalSet := by
  have marriage := Finset.all_card_le_biUnion_card_iff_exists_injective fun slot =>
    (ctx.neighbors ((slots (uniqueSet principalSet)).get slot)).toFinset
  simp only [mem_toFinset] at marriage
  rw [JointlySupplied, marriage, Met, slots_layout]
  refine filled_map fun principal wanted => ?_
  obtain ⟨entry, member, repeated⟩ := mem_flatMap.mp wanted
  cases eq_of_mem_replicate repeated
  have included : principalGroups.principals.idxOf entry.1 ∈ layouts.flatMap (·.map Prod.fst) :=
    mem_flatMap.mpr ⟨_, kept, by simpa [layout] using ⟨entry.1, ⟨entry.2, member⟩, rfl⟩⟩
  exact (if_pos included).trans (graph_idxOf listed (mem_uniqueSet member))

/-- The layouts that are returned can be met by distinct peers if and only if, for every set whose principals have
enough peers one by one, they have enough peers together. -/
theorem layouts_met_iff (ctx : Context) (principalGroups : PrincipalGroupMapper ctx.principalsSets)
    (descriptor : EndorsementDescriptor)
    (returned : ctx.computeEndorsementResponse principalGroups = .ok descriptor) :
    (∀ layout ∈ descriptor.layouts, Met descriptor layout) ↔
      ∀ principalSet ∈ ctx.principalsSets, Supplied ctx principalSet → JointlySupplied ctx principalSet := by
  simp only [computeEndorsementResponse] at returned
  split at returned
  · cases returned
  cases returned
  have kept {principalSet : List MSPPrincipal} (listed : principalSet ∈ ctx.principalsSets) :
      ctx.layout principalGroups principalSet ∈ ctx.computeLayouts principalGroups ↔ Supplied ctx principalSet := by
    rw [computeLayouts, mem_filter, isLayoutSatisfied_iff listed, and_iff_right_iff_imp]
    exact fun _ => mem_map_of_mem listed
  constructor
  · intro met principalSet listed supplied
    have returned := (kept listed).mpr supplied
    exact (met_iff listed returned).mp (met _ returned)
  · intro joint layout returned
    obtain ⟨principalSet, listed, rfl⟩ := mem_map.mp (mem_filter.mp returned).1
    exact (met_iff listed returned).mpr (joint _ listed ((kept listed).mp returned))

/-- Two principals and the peers that satisfy both of them. -/
def sampleContext (peers : List PKIid) : Context := ⟨peers, [[⟨0, []⟩, ⟨1, []⟩]], fun _ _ => true⟩

def sampleGroups (peers : List PKIid) : PrincipalGroupMapper (sampleContext peers).principalsSets :=
  ⟨_, .refl _⟩

/-- Two peers meet the layout of two principals. -/
theorem layouts_met_two : ∃ descriptor,
    (sampleContext ["a", "b"]).computeEndorsementResponse (sampleGroups _) = .ok descriptor ∧
      ∀ layout ∈ descriptor.layouts, Met descriptor layout := by
  refine ⟨_, rfl, (layouts_met_iff (sampleContext ["a", "b"]) (sampleGroups _) _ rfl).mpr ?_⟩
  intro principalSet listed _
  cases mem_singleton.mp listed
  unfold JointlySupplied
  decide

/-- The layout that asks for a peer of each of two principals is returned for a single peer. -/
theorem layouts_single_peer : ∃ descriptor,
    (sampleContext ["a"]).computeEndorsementResponse (sampleGroups _) = .ok descriptor ∧
      [(0, 1), (1, 1)] ∈ descriptor.layouts ∧ ¬Met descriptor [(0, 1), (1, 1)] := by
  refine ⟨_, rfl, by decide, ?_⟩
  rintro ⟨filling, injective, suits⟩
  have first : filling ⟨0, by decide⟩ = "a" := mem_singleton.mp (suits _)
  have second : filling ⟨1, by decide⟩ = "a" := mem_singleton.mp (suits _)
  exact absurd (injective (first.trans second.symm)) (by decide)

end Pobl.Discovery
