/-
This file models the numbers in the keys and versions of the ledger: `ledger/util/util.go`, `version.go` and the keys
of `expiry_keeper.go`.
-/

import Pobl.Construction.StateDB
import Pobl.Library.BigEndian

namespace Pobl.Txmgmt

open Library Library.Wire

/-- The result `none` is the panic on a length that takes more than one byte. -/
def encodeOrderPreservingVarUint64 (number : UInt64) : Option Bytes :=
  let bytes := trimBytes (putBytes 8 number.toNat)
  match appendVarint (UInt64.ofNat bytes.length) with
  | [size] => some (size :: bytes)
  | _ => none

/-- The number and the count of its bytes, which is zero if the number does not end within ten bytes. -/
def protoDecodeVarint (shift : Nat) : Nat → Bytes → UInt64 × Nat
  | 0, _ => (0, 0)
  | _ + 1, [] => (0, 0)
  | more + 1, byte :: rest =>
    if byte.toNat < 128 then (UInt64.ofNat (byte.toNat * 2 ^ shift), 1)
    else
      match protoDecodeVarint (shift + 7) more rest with
      | (_, 0) => (0, 0)
      | (high, count) => (UInt64.ofNat ((byte.toNat - 128) * 2 ^ shift) + high, count + 1)

inductive DecodeError where
  | consumed (numBytes : Nat)
  | size (s : UInt64)
  | available (s : UInt64) (available : Nat)
  deriving DecidableEq

def decodeOrderPreservingVarUint64 (bytes : Bytes) : Except DecodeError (UInt64 × Nat) :=
  let (s, numBytes) := protoDecodeVarint 0 10 bytes
  if numBytes ≠ 1 then .error (.consumed numBytes)
  else if 8 < s then .error (.size s)
  else if bytes.length - 1 < s.toNat then .error (.available s (bytes.length - 1))
  else .ok (UInt64.ofNat (ofBytes (.replicate (8 - s.toNat) 0 ++ bytes.tail.take s.toNat)), s.toNat + 1)

namespace Height

def newHeightFromBytes (b : Bytes) : Except DecodeError (Height × Nat) := do
  let (blockNum, n1) ← decodeOrderPreservingVarUint64 b
  let (txNum, n2) ← decodeOrderPreservingVarUint64 (b.drop n1)
  return (⟨blockNum, txNum⟩, n1 + n2)

def toBytes (h : Height) : Option Bytes := do
  let blockNumBytes ← encodeOrderPreservingVarUint64 h.blockNum
  let txNumBytes ← encodeOrderPreservingVarUint64 h.txNum
  return blockNumBytes ++ txNumBytes

/-- The sign of the difference as a signed number. -/
def compare (h h1 : Height) : Int :=
  if h.blockNum ≠ h1.blockNum then if 0 < (h.blockNum - h1.blockNum).toInt64 then 1 else -1
  else if h.txNum ≠ h1.txNum then if 0 < (h.txNum - h1.txNum).toInt64 then 1 else -1
  else 0

def areSame : Option Height → Option Height → Bool
  | none, h2 => h2.isNone
  | some _, none => false
  | some h1, some h2 => h1.compare h2 = 0

end Height

structure ExpiryInfoKey where
  committingBlk : UInt64
  expiryBlk : UInt64
  deriving DecidableEq

def expiryPrefix : UInt8 := 49

def encodeExpiryInfoKey (expinfoKey : ExpiryInfoKey) : Option Bytes := do
  let expiryBlk ← encodeOrderPreservingVarUint64 expinfoKey.expiryBlk
  let committingBlk ← encodeOrderPreservingVarUint64 expinfoKey.committingBlk
  return [expiryPrefix] ++ expiryBlk ++ committingBlk

/-- The part of `decodeExpiryInfo` that reads the key. -/
def decodeExpiryInfoKey (key : Bytes) : Except DecodeError ExpiryInfoKey := do
  let (expiryBlk, n) ← decodeOrderPreservingVarUint64 (key.drop 1)
  let (committingBlk, _) ← decodeOrderPreservingVarUint64 (key.drop (n + 1))
  return ⟨committingBlk, expiryBlk⟩

end Pobl.Txmgmt
