import Ydn64.Nat64.Packet

/-!
# Reassembly of intercepted echo requests

`src/nat64/reasm.go`.  The table is a small map from datagram keys to partial
datagrams, and a partial datagram is a map from offsets to fragments.  Both are
lists of entries here: what `add` does with an iteration over one of them does
not depend on its order.
-/

namespace Ydn64.Nat64

open Ydn64.GoStd

def maxReassemblies : Nat := 64
def maxFragmentsPerDgram : Nat := 16
def maxReasmBytes : Nat := 65536
/-- `maxReasmAge` in nanoseconds. -/
def maxReasmAge : Int := 30 * 10 ^ 9

/-- `reasmKey`. -/
structure ReasmKey where
  src : Addr16
  dst : Addr16
  ident : UInt32
  deriving DecidableEq

/-- `reasmEntry`. -/
structure ReasmEntry where
  createdAt : Int
  frags : List (UInt16 × Bytes) := []
  bytes : Nat := 0
  haveLast : Bool := false
  deriving DecidableEq

/-- `reasmTable`. -/
structure ReasmTable where
  entries : List (ReasmKey × ReasmEntry) := []
  bufByte : Nat := 0
  deriving DecidableEq

namespace ReasmTable

/-- The entry of a key. -/
def find (t : ReasmTable) (key : ReasmKey) : Option ReasmEntry := t.entries.lookup key

/-- Write the entry of a key. -/
def put (t : ReasmTable) (key : ReasmKey) (e : ReasmEntry) : ReasmTable :=
  { t with entries := (key, e) :: t.entries.filter (·.1 ≠ key) }

/-- `releaseEntryLocked`.  The source clamps the byte count at zero, as
subtraction on `Nat` does. -/
def releaseEntryLocked (t : ReasmTable) (key : ReasmKey) (e : ReasmEntry) : ReasmTable where
  entries := t.entries.filter (·.1 ≠ key)
  bufByte := t.bufByte - e.bytes

/-- `cancelLocked`, and `cancel`, which takes the lock around it. -/
def cancel (t : ReasmTable) (key : ReasmKey) : ReasmTable × Bool :=
  match t.find key with
  | none => (t, false)
  | some e => (t.releaseEntryLocked key e, true)

/-- `expireLocked`. -/
def expireLocked (t : ReasmTable) (now : Int) : ReasmTable :=
  (t.entries.filter fun ke => ke.2.createdAt < now - maxReasmAge).foldl
    (fun t ke => t.releaseEntryLocked ke.1 ke.2) t

end ReasmTable

/-- The end of a stored fragment in the datagram. -/
def fragEnd (f : UInt16 × Bytes) : Nat := f.1.toNat * 8 + f.2.length

/-- The second loop of `contiguousLen`: walk from fragment to fragment up to
`stop`.  Each round moves on by at least one byte. -/
def contiguousFrom (frags : List (UInt16 × Bytes)) (stop : Nat) : Nat → Nat → Bool
  | 0, _ => false
  | fuel + 1, pos =>
    if pos < stop then
      match frags.lookup (UInt16.ofNat (pos / 8)) with
      | none => false
      | some f => if f = [] then false else contiguousFrom frags stop fuel (pos + f.length)
    else true

/-- `contiguousLen`; `none` is its `-1`. -/
def contiguousLen (e : ReasmEntry) : Option Nat :=
  let stop := (e.frags.map fragEnd).foldl max 0
  if contiguousFrom e.frags stop (stop + 1) 0 then some stop else none

/-- The loop of `add` that copies the fragments in the order of their offsets
until the datagram is full.  The offset is a `uint16` and starts again from zero
when it overflows; a pass over all offsets copies at least the fragment at
offset zero. -/
def assembleFrom (frags : List (UInt16 × Bytes)) (total : Nat) : Nat → Nat → Bytes → Bytes
  | 0, _, full => full
  | fuel + 1, off, full =>
    if full.length < total then
      let f := (frags.lookup (UInt16.ofNat off)).getD []
      assembleFrom frags total fuel (off + 1) (full ++ f.take (total - full.length))
    else full

/-- A fragment range meets a stored fragment. -/
def overlaps (start stop : Nat) (f : UInt16 × Bytes) : Bool :=
  start < fragEnd f && f.1.toNat * 8 < stop

/-- The part of `add` after the entry is found or made. -/
def ReasmTable.addTo (t : ReasmTable) (key : ReasmKey) (e : ReasmEntry)
    (offsetUnits : UInt16) (more : Bool) (frag : Bytes) : ReasmTable × Option Bytes :=
  let start := offsetUnits.toNat * 8
  let stop := start + frag.length
  if 65536 ≤ start ∨ (more = false ∧ 65536 < stop) then ((t.cancel key).1, none)
  else if e.frags.any (overlaps start stop) then (t.releaseEntryLocked key e, none)
  else if maxFragmentsPerDgram ≤ e.frags.length then (t.releaseEntryLocked key e, none)
  else
    let e := { e with
      frags := (offsetUnits, frag) :: e.frags.filter (·.1 ≠ offsetUnits)
      bytes := e.bytes + frag.length
      haveLast := e.haveLast || !more }
    let t := { t.put key e with bufByte := t.bufByte + frag.length }
    if e.haveLast = false then (t, none)
    else match contiguousLen e with
      | none => (t, none)
      | some total =>
        (t.releaseEntryLocked key e,
          some (assembleFrom e.frags total (65536 * (total + 1)) 0 []))

/-- `add`. -/
def ReasmTable.add (t : ReasmTable) (key : ReasmKey) (offsetUnits : UInt16) (more : Bool)
    (frag : Bytes) (now : Int) : ReasmTable × Option Bytes :=
  let t := t.expireLocked now
  if frag = [] ∨ (more = true ∧ frag.length % 8 ≠ 0) then ((t.cancel key).1, none)
  else if maxReasmBytes < t.bufByte + frag.length then (t, none)
  else match t.find key with
    | some e => t.addTo key e offsetUnits more frag
    | none =>
      if maxReassemblies ≤ t.entries.length then (t, none)
      else
        let e : ReasmEntry := { createdAt := now }
        (t.put key e).addTo key e offsetUnits more frag

end Ydn64.Nat64
