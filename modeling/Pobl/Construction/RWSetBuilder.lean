/-
This file models the read-write sets of a transaction and `rwset_builder.go`, which collects them for the simulator.
The private collections of the builder are left out.
-/

import Pobl.Construction.QueryResults
import Pobl.Construction.StateDB

namespace Pobl.Txmgmt

open Library Library.Wire

/-- A read has the value that the chaincode shim saw and the transaction that wrote it, or the version that the peer
saw. -/
structure KVRead where
  key : String
  version : Option Height
  value : Option Bytes
  isRead : Bool
  txid : String
  deriving DecidableEq

structure KVWrite where
  key : String
  isDelete : Bool
  value : Option Bytes
  txid : String
  deriving DecidableEq

structure KVMetadataEntry where
  name : Bytes
  value : Bytes
  deriving DecidableEq

/-- No entries stand for the removal of the metadata. -/
structure KVMetadataWrite where
  key : String
  entries : List KVMetadataEntry
  deriving DecidableEq

/-- What a range query read: nothing, its results, or their summary. -/
inductive ReadsInfo (Hash : Type) where
  | empty
  | rawReads (kvReads : List KVRead)
  | readsMerkleHashes (summary : QueryReadsMerkleSummary Hash)
  deriving DecidableEq

structure RangeQueryInfo (Hash : Type) where
  startKey : String
  endKey : String
  itrExhausted : Bool
  readsInfo : ReadsInfo Hash
  deriving DecidableEq

structure KVRWSet (Hash : Type) where
  reads : List KVRead
  rangeQueriesInfo : List (RangeQueryInfo Hash)
  writes : List KVWrite
  metadataWrites : List KVMetadataWrite
  deriving DecidableEq

structure KVReadHash where
  keyHash : String
  version : Option Height
  deriving DecidableEq

structure KVWriteHash where
  keyHash : String
  isDelete : Bool
  valueHash : Option Bytes
  deriving DecidableEq

structure KVMetadataWriteHash where
  keyHash : String
  entries : List KVMetadataEntry
  deriving DecidableEq

structure CollHashedRwSet where
  collectionName : String
  hashedReads : List KVReadHash
  hashedWrites : List KVWriteHash
  metadataWrites : List KVMetadataWriteHash
  deriving DecidableEq

structure NsRwSet (Hash : Type) where
  nameSpace : String
  kvRwSet : KVRWSet Hash
  collHashedRwSets : List CollHashedRwSet
  deriving DecidableEq

structure TxRwSet (Hash : Type) where
  nsRwSets : List (NsRwSet Hash)
  deriving DecidableEq

def newKVRead (key : String) (version : Option Height) : KVRead := ⟨key, version, none, false, ""⟩

def newKVWrite (key : String) (value : Option Bytes) : KVWrite := ⟨key, value.isNone, value, ""⟩

structure NsPubRwBuilder (Hash : Type) where
  readMap : GoMap KVRead
  writeMap : GoMap KVWrite
  metadataWriteMap : GoMap KVMetadataWrite
  rangeQueries : List (RangeQueryInfo Hash)

structure RWSetBuilder (Hash : Type) where
  pubRwBuilderMap : GoMap (NsPubRwBuilder Hash)

variable {Hash : Type}

def NsPubRwBuilder.newNsPubRwBuilder : NsPubRwBuilder Hash := ⟨∅, ∅, ∅, []⟩

/-- The reads, writes and metadata writes are sorted by key. -/
def NsPubRwBuilder.build (nameSpace : String) (builder : NsPubRwBuilder Hash) : NsRwSet Hash where
  nameSpace := nameSpace
  kvRwSet :=
    { reads := builder.readMap.sorted.map Prod.snd
      rangeQueriesInfo := builder.rangeQueries
      writes := builder.writeMap.sorted.map Prod.snd
      metadataWrites := builder.metadataWriteMap.sorted.map Prod.snd }
  collHashedRwSets := []

namespace RWSetBuilder

def newRWSetBuilder : RWSetBuilder Hash := ⟨∅⟩

def getOrCreateNsPubRwBuilder (ns : String) (builder : RWSetBuilder Hash) : NsPubRwBuilder Hash :=
  (builder.pubRwBuilderMap.lookup ns).getD .newNsPubRwBuilder

def setNsPubRwBuilder (ns : String) (nsBuilder : NsPubRwBuilder Hash) (builder : RWSetBuilder Hash) :
    RWSetBuilder Hash :=
  ⟨builder.pubRwBuilderMap.insert ns nsBuilder⟩

/-- A read of the shim does not replace an earlier read of the same key. -/
def addToReadSetResult (ns : String) (readkv : KVRead) (builder : RWSetBuilder Hash) : RWSetBuilder Hash :=
  let nsBuilder := builder.getOrCreateNsPubRwBuilder ns
  builder.setNsPubRwBuilder ns
    (if (nsBuilder.readMap.lookup readkv.key).isSome then nsBuilder
      else { nsBuilder with readMap := nsBuilder.readMap.insert readkv.key readkv })

def addToWriteSetResult (ns : String) (writekv : KVWrite) (builder : RWSetBuilder Hash) : RWSetBuilder Hash :=
  let nsBuilder := builder.getOrCreateNsPubRwBuilder ns
  builder.setNsPubRwBuilder ns
    (if (nsBuilder.writeMap.lookup writekv.key).isSome then nsBuilder
      else { nsBuilder with writeMap := nsBuilder.writeMap.insert writekv.key writekv })

def addToReadSet (ns key : String) (version : Option Height) (builder : RWSetBuilder Hash) : RWSetBuilder Hash :=
  let nsBuilder := builder.getOrCreateNsPubRwBuilder ns
  builder.setNsPubRwBuilder ns { nsBuilder with readMap := nsBuilder.readMap.insert key (newKVRead key version) }

def addToWriteSet (ns key : String) (value : Option Bytes) (builder : RWSetBuilder Hash) : RWSetBuilder Hash :=
  let nsBuilder := builder.getOrCreateNsPubRwBuilder ns
  builder.setNsPubRwBuilder ns { nsBuilder with writeMap := nsBuilder.writeMap.insert key (newKVWrite key value) }

def addToMetadataWriteSet (ns key : String) (entries : List KVMetadataEntry) (builder : RWSetBuilder Hash) :
    RWSetBuilder Hash :=
  let nsBuilder := builder.getOrCreateNsPubRwBuilder ns
  builder.setNsPubRwBuilder ns
    { nsBuilder with metadataWriteMap := nsBuilder.metadataWriteMap.insert key ⟨key, entries⟩ }

/-- The first query with its range is kept. -/
def addToRangeQuerySet (ns : String) (rqi : RangeQueryInfo Hash) (builder : RWSetBuilder Hash) : RWSetBuilder Hash :=
  let nsBuilder := builder.getOrCreateNsPubRwBuilder ns
  builder.setNsPubRwBuilder ns
    (if nsBuilder.rangeQueries.any fun known =>
        known.startKey = rqi.startKey ∧ known.endKey = rqi.endKey ∧ known.itrExhausted = rqi.itrExhausted
      then nsBuilder
      else { nsBuilder with rangeQueries := nsBuilder.rangeQueries ++ [rqi] })

def getTxReadWriteSet (builder : RWSetBuilder Hash) : TxRwSet Hash :=
  ⟨builder.pubRwBuilderMap.sorted.map fun entry => entry.2.build entry.1⟩

end RWSetBuilder

/-- The calls of the simulator that change the public sets. -/
inductive BuilderCall (Hash : Type) where
  | readSetResult (ns : String) (readkv : KVRead)
  | writeSetResult (ns : String) (writekv : KVWrite)
  | readSet (ns key : String) (version : Option Height)
  | writeSet (ns key : String) (value : Option Bytes)
  | metadataWriteSet (ns key : String) (entries : List KVMetadataEntry)
  | rangeQuerySet (ns : String) (rqi : RangeQueryInfo Hash)

def RWSetBuilder.call (builder : RWSetBuilder Hash) : BuilderCall Hash → RWSetBuilder Hash
  | .readSetResult ns readkv => builder.addToReadSetResult ns readkv
  | .writeSetResult ns writekv => builder.addToWriteSetResult ns writekv
  | .readSet ns key version => builder.addToReadSet ns key version
  | .writeSet ns key value => builder.addToWriteSet ns key value
  | .metadataWriteSet ns key entries => builder.addToMetadataWriteSet ns key entries
  | .rangeQuerySet ns rqi => builder.addToRangeQuerySet ns rqi

/-- Empty bytes become nil when the sets are written and read as messages. -/
def decodedBytes (bytes : Option Bytes) : Option Bytes := if bytes = some [] then none else bytes

def KVRead.decoded (read : KVRead) : KVRead := { read with value := decodedBytes read.value }

def KVWrite.decoded (write : KVWrite) : KVWrite := { write with value := decodedBytes write.value }

def KVWriteHash.decoded (write : KVWriteHash) : KVWriteHash := { write with valueHash := decodedBytes write.valueHash }

def TxRwSet.decoded (rwset : TxRwSet Hash) : TxRwSet Hash :=
  ⟨rwset.nsRwSets.map fun nsRwSet =>
    { nsRwSet with
      kvRwSet :=
        { nsRwSet.kvRwSet with
          reads := nsRwSet.kvRwSet.reads.map KVRead.decoded
          writes := nsRwSet.kvRwSet.writes.map KVWrite.decoded }
      collHashedRwSets := nsRwSet.collHashedRwSets.map fun coll =>
        { coll with hashedWrites := coll.hashedWrites.map KVWriteHash.decoded } }⟩

end Pobl.Txmgmt
