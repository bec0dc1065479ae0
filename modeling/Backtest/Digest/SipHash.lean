/-!
# SipHash-1-3

SipHash-1-3 absorbs each 8-byte little-endian word of a message with one round, the last word
carrying the leftover bytes and the length, finishes with three rounds and folds the state to 64
bits. Texts and byte strings are hashed under the zero key (`sipHash13`), so their hashes, and the
order of tables keyed by them, are the same on every run.
-/

namespace Backtest.Digest

/-- Rotation to the left. -/
def rotl (x : UInt64) (n : UInt64) : UInt64 :=
  (x <<< n) ||| (x >>> (64 - n))

/-- The four words of the SipHash state. -/
structure SipState where
  v0 : UInt64
  v1 : UInt64
  v2 : UInt64
  v3 : UInt64

/-- One SipHash round: two half rounds of additions, rotations and exclusive ors. -/
def SipState.round (s : SipState) : SipState :=
  let v0 := s.v0 + s.v1
  let v2 := s.v2 + s.v3
  let v1 := rotl s.v1 13 ^^^ v0
  let v3 := rotl s.v3 16 ^^^ v2
  let v0 := rotl v0 32
  let v2 := v2 + v1
  let v0 := v0 + v3
  let v1 := rotl v1 17 ^^^ v2
  let v3 := rotl v3 21 ^^^ v0
  let v2 := rotl v2 32
  ⟨v0, v1, v2, v3⟩

/-- Absorbs one message word with one round. -/
def SipState.absorb (s : SipState) (m : UInt64) : SipState :=
  let t := { s with v3 := s.v3 ^^^ m }.round
  { t with v0 := t.v0 ^^^ m }

/-- The state of the zero key. -/
def SipState.zeroKey : SipState :=
  ⟨0x736f6d6570736575, 0x646f72616e646f6d, 0x6c7967656e657261, 0x7465646279746573⟩

/-- The little-endian word of up to eight bytes. -/
def leWord (bytes : List UInt8) : UInt64 :=
  bytes.foldr (fun b acc => (acc <<< 8) ||| b.toUInt64) 0

/-- Absorbs the whole words of a message; the state and the leftover bytes (fewer than eight). -/
def SipState.absorbWords (s : SipState) : List UInt8 → SipState × List UInt8
  | b0 :: b1 :: b2 :: b3 :: b4 :: b5 :: b6 :: b7 :: rest =>
    (s.absorb (leWord [b0, b1, b2, b3, b4, b5, b6, b7])).absorbWords rest
  | tail => (s, tail)

/-- SipHash-1-3 of a byte string under the zero key. -/
def sipHash13 (data : List UInt8) : UInt64 :=
  let (s, tail) := SipState.zeroKey.absorbWords data
  let last := (data.length.toUInt64 <<< 56) ||| leWord tail
  let s := s.absorb last
  let s := { s with v2 := s.v2 ^^^ 0xff }.round.round.round
  (s.v0 ^^^ s.v1) ^^^ (s.v2 ^^^ s.v3)

end Backtest.Digest
