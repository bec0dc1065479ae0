import Backtest.Text.CodePoint

/-!
# SHA-256

The SHA-256 digest of a byte string (FIPS 180-4): the message is padded to 64-byte blocks with a one
bit, zeros and its bit length, each block is expanded to sixty-four words and compressed into the
eight-word state, and the digest is the final state, big-endian.
-/

namespace Backtest.Digest

/-- The round constants. -/
def roundConstants : Array UInt32 := #[
  0x428a2f98, 0x71374491, 0xb5c0fbcf, 0xe9b5dba5, 0x3956c25b, 0x59f111f1, 0x923f82a4, 0xab1c5ed5,
  0xd807aa98, 0x12835b01, 0x243185be, 0x550c7dc3, 0x72be5d74, 0x80deb1fe, 0x9bdc06a7, 0xc19bf174,
  0xe49b69c1, 0xefbe4786, 0x0fc19dc6, 0x240ca1cc, 0x2de92c6f, 0x4a7484aa, 0x5cb0a9dc, 0x76f988da,
  0x983e5152, 0xa831c66d, 0xb00327c8, 0xbf597fc7, 0xc6e00bf3, 0xd5a79147, 0x06ca6351, 0x14292967,
  0x27b70a85, 0x2e1b2138, 0x4d2c6dfc, 0x53380d13, 0x650a7354, 0x766a0abb, 0x81c2c92e, 0x92722c85,
  0xa2bfe8a1, 0xa81a664b, 0xc24b8b70, 0xc76c51a3, 0xd192e819, 0xd6990624, 0xf40e3585, 0x106aa070,
  0x19a4c116, 0x1e376c08, 0x2748774c, 0x34b0bcb5, 0x391c0cb3, 0x4ed8aa4a, 0x5b9cca4f, 0x682e6ff3,
  0x748f82ee, 0x78a5636f, 0x84c87814, 0x8cc70208, 0x90befffa, 0xa4506ceb, 0xbef9a3f7, 0xc67178f2]

/-- The initial state. -/
def initialState : Array UInt32 :=
  #[0x6a09e667, 0xbb67ae85, 0x3c6ef372, 0xa54ff53a, 0x510e527f, 0x9b05688c, 0x1f83d9ab, 0x5be0cd19]

/-- Rotation to the right. -/
def rotr (x : UInt32) (n : UInt32) : UInt32 :=
  (x >>> n) ||| (x <<< (32 - n))

/-- The small sigma of the schedule for words sixteen back. -/
def sigma0 (x : UInt32) : UInt32 :=
  rotr x 7 ^^^ rotr x 18 ^^^ (x >>> 3)

/-- The small sigma of the schedule for words two back. -/
def sigma1 (x : UInt32) : UInt32 :=
  rotr x 17 ^^^ rotr x 19 ^^^ (x >>> 10)

/-- The big sigma applied to the first working word. -/
def bigSigma0 (x : UInt32) : UInt32 :=
  rotr x 2 ^^^ rotr x 13 ^^^ rotr x 22

/-- The big sigma applied to the fifth working word. -/
def bigSigma1 (x : UInt32) : UInt32 :=
  rotr x 6 ^^^ rotr x 11 ^^^ rotr x 25

/-- The message padded to whole blocks: a one bit, zeros, and the bit length in eight bytes. -/
def pad (message : List UInt8) : List UInt8 :=
  let zeros := (119 - message.length % 64) % 64
  let bits := message.length * 8
  message ++ [0x80] ++ List.replicate zeros 0 ++
    (List.range 8).reverse.map fun i => (bits / Nat.pow 2 (8 * i) % 256).toUInt8

/-- The big-endian word of four bytes. -/
def word (a b c d : UInt8) : UInt32 :=
  (a.toUInt32 <<< 24) ||| (b.toUInt32 <<< 16) ||| (c.toUInt32 <<< 8) ||| d.toUInt32

/-- The sixteen words of a block. -/
def blockWords : List UInt8 → List UInt32
  | a :: b :: c :: d :: rest => word a b c d :: blockWords rest
  | _ => []

/-- The sixty-four schedule words of a block's sixteen words. -/
def schedule (words : List UInt32) : Array UInt32 :=
  (List.range 48).foldl (fun (w : Array UInt32) i =>
    let t := i + 16
    w.push (w[t - 16]! + sigma0 w[t - 15]! + w[t - 7]! + sigma1 w[t - 2]!)) words.toArray

/-- One round on the working words `a` to `h`. -/
def round (s : Array UInt32) (k w : UInt32) : Array UInt32 :=
  let a := s[0]!
  let b := s[1]!
  let c := s[2]!
  let d := s[3]!
  let e := s[4]!
  let f := s[5]!
  let g := s[6]!
  let h := s[7]!
  let t1 := h + bigSigma1 e + ((e &&& f) ^^^ ((~~~ e) &&& g)) + k + w
  let t2 := bigSigma0 a + ((a &&& b) ^^^ (a &&& c) ^^^ (b &&& c))
  #[t1 + t2, a, b, c, d + t1, e, f, g]

/-- Compresses one block into the state. -/
def compress (state : Array UInt32) (block : List UInt8) : Array UInt32 :=
  let w := schedule (blockWords block)
  let worked := (List.range 64).foldl (fun s i => round s roundConstants[i]! w[i]!) state
  (List.range 8).toArray.map fun i => state[i]! + worked[i]!

/-- The blocks of a padded message. -/
def blocks (bytes : List UInt8) (fuel : Nat) : List (List UInt8) :=
  match fuel with
  | 0 => []
  | fuel + 1 => if bytes.isEmpty then [] else bytes.take 64 :: blocks (bytes.drop 64) fuel

/-- The digest of a message. -/
def sha256 (message : List UInt8) : List UInt8 :=
  let padded := pad message
  let state : Array UInt32 := (blocks padded (padded.length / 64 + 1)).foldl compress initialState
  state.toList.flatMap fun (x : UInt32) =>
    [(x >>> 24).toUInt8, (x >>> 16).toUInt8, (x >>> 8).toUInt8, x.toUInt8]

/-- Two lowercase hexadecimal digits of a byte. -/
def hexByte (b : UInt8) : List Char :=
  let digit := fun (n : Nat) => if n < 10 then Char.ofNat (48 + n) else Char.ofNat (87 + n)
  [digit (b.toNat / 16), digit (b.toNat % 16)]

/-- The lowercase hexadecimal SHA-256 digest of a text's UTF-8 bytes. -/
def sha256Hex (text : String) : String :=
  String.ofList ((sha256 (Text.utf8 text)).flatMap hexByte)

end Backtest.Digest
