import Backtest.Document.Value
import Backtest.Digest.SipHash
import Backtest.Text.CodePoint
import Backtest.Decimal.Binary64

/-!
# Hashes of keys

Every value that can be a key has a 64-bit hash, equal for values equal as keys: numbers by their
residue modulo `2^61 - 1` with the sign kept, so that `1`, `1.0` and `true` agree; texts and byte
strings by SipHash-1-3; dates and moments by their fields, a moment with an offset by its instant.
A hash of `-1` is never given: `-2` stands for it.
-/

namespace Backtest.Document

open Backtest.Digest Backtest.Decimal

/-- The modulus of numeric hashes, the Mersenne prime `2^61 - 1`. -/
def hashModulus : Nat := Nat.pow 2 61 - 1

/-- The word of a signed hash, `-1` replaced by `-2`. -/
def hashWord (h : Int) : UInt64 :=
  let h := if h = -1 then -2 else h
  UInt64.ofNat (h % (Nat.pow 2 64 : Int)).toNat

/-- The hash of a byte string. -/
def hashBytes (data : List UInt8) : UInt64 :=
  if data.isEmpty then 0
  else
    let h := sipHash13 data
    if h = 0xFFFFFFFFFFFFFFFF then 0xFFFFFFFFFFFFFFFE else h

/-- The bytes a text's code points are hashed as: each little-endian in the narrowest of one, two
or four bytes that holds the largest. -/
def codeBytes (codes : List Nat) : List UInt8 :=
  let top := codes.foldl max 0
  let width := if top < 0x100 then 1 else if top < 0x10000 then 2 else 4
  codes.flatMap fun c => (List.range width).map fun i => UInt8.ofNat (c / Nat.pow 256 i % 256)

/-- The hash of an integer. -/
def hashInt (n : Int) : UInt64 :=
  hashWord (if 0 ≤ n then (n.toNat % hashModulus : Nat) else -((n.natAbs % hashModulus : Nat) : Int))

/-- The hash of a float (NaN hashes to 0). -/
def hashFloat (x : Float) : UInt64 :=
  match Binary64.ofFloat x with
  | .nan => 0
  | .infinite negative => hashWord (if negative then -314159 else 314159)
  | .finite negative m e =>
    let r : Nat := m % hashModulus * Nat.pow 2 (e % 61).toNat % hashModulus
    hashWord (if negative then -(r : Int) else r)

/-- The hash of a sequence of hashes, by the xxHash mixing steps. -/
def hashLanes (lanes : List UInt64) : UInt64 :=
  let prime1 : UInt64 := 11400714785074694791
  let prime2 : UInt64 := 14029467366897019727
  let prime5 : UInt64 := 2870177450012600261
  let acc := lanes.foldl (fun acc lane => rotl (acc + lane * prime2) 31 * prime1) prime5
  let acc := acc + (lanes.length.toUInt64 ^^^ (prime5 ^^^ 3527539))
  if acc = 0xFFFFFFFFFFFFFFFF then 1546275796 else acc

/-- The hash of a date. -/
def hashDate (d : Calendar.Date) : UInt64 :=
  hashBytes [UInt8.ofNat (d.year / 256), UInt8.ofNat d.year, UInt8.ofNat d.month,
    UInt8.ofNat d.day]

/-- The hash of a moment. -/
def hashMoment (m : Calendar.Moment) : UInt64 :=
  match m.offset with
  | none =>
    hashBytes [UInt8.ofNat (m.date.year / 256), UInt8.ofNat m.date.year, UInt8.ofNat m.date.month,
      UInt8.ofNat m.date.day, UInt8.ofNat m.hour, UInt8.ofNat m.minute, UInt8.ofNat m.second,
      UInt8.ofNat (m.micro / 65536), UInt8.ofNat (m.micro / 256), UInt8.ofNat m.micro]
  | some offset =>
    let day : Int := 86400000000
    let instant := m.clockMicros - offset
    let rest := instant % day
    hashLanes [hashInt (instant / day), hashInt (rest / 1000000), hashInt (rest % 1000000)]

/-- The hash of null. Where null sits in a table is decided by the low bits of its hash (the
low five for tables of up to 32 slots, the next ones when it meets another key on the way);
the orders of sets and key differences holding null fix them as those of 12. -/
def nullHash : UInt64 := 12

namespace Value

/-- The hash of a key. Collections are not keys; they hash to 0. -/
def hash : Value → UInt64
  | .null => nullHash
  | .bool b => if b then 1 else 0
  | .int n => hashInt n
  | .float x => hashFloat x
  | .str s => hashBytes (codeBytes (Text.codes s))
  | .date d => hashDate d
  | .moment m => hashMoment m
  | .bytes data => hashBytes data
  | _ => 0

end Value

end Backtest.Document
