/-
This file models how a sequence of blocks is verified: `VerifyBlocks` in `orderer/common/cluster/util.go`.
-/

import Mathlib.Algebra.Group.Nat.Defs
import Pobl.Construction.Validation

namespace Pobl.Cluster

open Library
open Cauthdsl (Bytes)
open Peer (encodeToString)

/-- A block is refused, or the orderer panics. -/
inductive Stop where
  | error (message : String)
  | panic
  deriving DecidableEq

structure BlockHeader where
  number : UInt64
  previousHash : Bytes
  dataHash : Bytes
  deriving DecidableEq

/-- The transactions and the metadata are absent when their message is nil. -/
structure Block where
  header : Option BlockHeader
  data : Option (List Bytes)
  metadata : Option (List Bytes)
  deriving DecidableEq

structure Payload where
  data : Bytes
  channelHeader : Option Bytes

structure MetadataSignature where
  signatureHeader : Bytes
  signature : Bytes

structure Metadata where
  value : Bytes
  signatures : List MetadataSignature

structure SignedData where
  data : Bytes
  identity : Bytes
  signature : Bytes

/-- The hash function, the encoding of headers, and the functions that decode messages. -/
structure Functions (Config : Type) where
  sha256 : Bytes → Bytes
  marshalHeader : BlockHeader → Bytes
  payload : Bytes → Except String Payload
  isConfig : Bytes → Except String Bool
  configEnvelope : Bytes → Except String Config
  metadata : Bytes → Except String Metadata
  creator : Bytes → Except String Bytes

variable {Config : Type} (functions : Functions Config)

/-- The encoding has no room for a number above the largest `int64`. -/
def BlockHeader.bytes (header : BlockHeader) : Except Stop Bytes :=
  if header.number.toNat > 2 ^ 63 - 1 then .error .panic else .ok (functions.marshalHeader header)

def BlockHeader.hash (header : BlockHeader) : Except Stop Bytes := do
  let bytes ← header.bytes functions
  return functions.sha256 bytes

def Block.dataHash (block : Block) : Except Stop Bytes := do
  let data ← fetch .panic block.data
  return functions.sha256 data.flatten

def verifyPrevious (block prevBlock : BlockHeader) : Except Stop Unit := do
  require (prevBlock.number + 1 = block.number)
    (.error s!"sequences {prevBlock.number} and {block.number} were received consecutively")
  let actual ← prevBlock.hash functions
  require (block.previousHash = actual)
    (.error (s!"block [{prevBlock.number}]'s hash ({encodeToString actual}) mismatches {block.number}'s " ++
      s!"prev block hash ({encodeToString block.previousHash})"))

def verifyBlockHash (indexInBuffer : Nat) (blockBuff : List Block) : Except Stop Unit := do
  let block ← fetch (.error s!"index {indexInBuffer} out of bounds (total {blockBuff.length} blocks)")
    blockBuff[indexInBuffer]?
  let header ← fetch (.error "missing block header") block.header
  let dataHash ← block.dataHash functions
  require (dataHash = header.dataHash)
    (.error (s!"computed hash of block ({header.number}) ({encodeToString dataHash}) " ++
      s!"doesn't match claimed hash ({encodeToString header.dataHash})"))
  match indexInBuffer with
  | 0 => return ()
  | before + 1 => do
    let prevBlock ← fetch .panic blockBuff[before]?
    let prevHeader ← fetch (.error "previous block header is nil") prevBlock.header
    verifyPrevious functions header prevHeader

def configFromBlock (block : Block) (header : BlockHeader) : Except Stop (Option Config) := do
  let txn ← fetch (.error "empty block") (block.data.bind List.head?)
  let payload ← (functions.payload txn).mapError .error
  if header.number = 0 then
    let config ← (functions.configEnvelope payload.data).mapError fun err => .error s!"invalid config envelope: {err}"
    return some config
  let chdr ← fetch (.error "nil header in payload") payload.channelHeader
  if ← (functions.isConfig chdr).mapError .error then
    let config ← (functions.configEnvelope payload.data).mapError fun err => .error s!"invalid config envelope: {err}"
    return some config
  return none

/-- The signatures are the first part of the metadata, and they cover the header. -/
def signatureSetFromBlock (block : Block) (header : BlockHeader) : Except Stop (List SignedData) := do
  let bytes ← fetch (.error "no metadata in block") (block.metadata.bind List.head?)
  let metadata ← (functions.metadata bytes).mapError fun err =>
    .error s!"failed unmarshaling medatata for signatures: {err}"
  metadata.signatures.mapM fun metadataSignature => do
    let creator ← (functions.creator metadataSignature.signatureHeader).mapError fun err =>
      .error s!"failed unmarshaling signature header for block with id {header.number}: {err}"
    let bytes ← header.bytes functions
    return ⟨metadata.value ++ metadataSignature.signatureHeader ++ bytes, creator, metadataSignature.signature⟩

/-- A verifier checks signatures with a config, or with the committed one. -/
abbrev BlockVerifier (Config : Type) := List SignedData → Option Config → Except String Unit

def verifyBlockSignature (verifier : BlockVerifier Config) (block : Block) (header : BlockHeader)
    (config : Option Config) : Except Stop Unit := do
  let signatureSet ← signatureSetFromBlock functions block header
  (verifier signatureSet config).mapError .error

/-- The config blocks are verified in order. The result says whether the last block is one, and has the last config. -/
def verifyConfigBlocks (verifier : BlockVerifier Config) :
    List Block → Option Config → Bool → Except Stop (Option Config × Bool)
  | [], config, isLastBlockConfigBlock => .ok (config, isLastBlockConfigBlock)
  | block :: rest, config, _ => do
    let header ← fetch .panic block.header
    match ← configFromBlock functions block header with
    | none => verifyConfigBlocks verifier rest config false
    | some configFromBlock => do
      verifyBlockSignature functions verifier block header config
      verifyConfigBlocks verifier rest (some configFromBlock) true

def verifyBlocks (verifier : BlockVerifier Config) (blockBuff : List Block) : Except Stop Unit := do
  let lastBlock ← fetch (.error "buffer is empty") blockBuff.getLast?
  checkAll (fun i => verifyBlockHash functions i blockBuff) (List.range blockBuff.length)
  let (config, isLastBlockConfigBlock) ← verifyConfigBlocks functions verifier blockBuff none false
  if isLastBlockConfigBlock then return ()
  let header ← fetch .panic lastBlock.header
  verifyBlockSignature functions verifier lastBlock header config

end Pobl.Cluster
