import Backtest.Text.Quoted
/-!
# Decoding UTF-8

Bytes decode as UTF-8 by the standard rules, no overlong forms, surrogates or code points above
U+10FFFF, and the first bad sequence is reported as the standard decoder reports it: an invalid
start byte, an invalid continuation byte, or unexpected end of data.
-/

namespace Backtest.Text

/-- Whether a byte continues a sequence. -/
def isContinuation (b : UInt8) : Bool :=
  0x80 ≤ b && b ≤ 0xBF

/-- The message of bad bytes from `start` up to `stop`, with the reason. -/
def decodeFault (bytes : List UInt8) (start stop : Nat) (reason : String) : String :=
  if stop = start + 1 then
    "'utf-8' codec can't decode byte 0x" ++
      String.ofList (hexDigits 2 (bytes.getD start 0).toNat) ++ " in position " ++
      toString start ++ ": " ++ reason
  else
    "'utf-8' codec can't decode bytes in position " ++ toString start ++ "-" ++
      toString (stop - 1) ++ ": " ++ reason

/-- How a sequence starting with `lead` may go on: the allowed range of its second byte and the
total length, or none when `lead` cannot start a sequence. -/
def leadShape (lead : UInt8) : Option (UInt8 × UInt8 × Nat) :=
  if lead < 0x80 then some (0, 0, 1)
  else if lead < 0xC2 then none
  else if lead < 0xE0 then some (0x80, 0xBF, 2)
  else if lead = 0xE0 then some (0xA0, 0xBF, 3)
  else if lead = 0xED then some (0x80, 0x9F, 3)
  else if lead < 0xF0 then some (0x80, 0xBF, 3)
  else if lead = 0xF0 then some (0x90, 0xBF, 4)
  else if lead < 0xF4 then some (0x80, 0xBF, 4)
  else if lead = 0xF4 then some (0x80, 0x8F, 4)
  else none

/-- The code point of a well-formed sequence. -/
def codePoint (seq : List UInt8) : Nat :=
  match seq with
  | [a] => a.toNat
  | [a, b] => (a.toNat % 0x20) * 0x40 + b.toNat % 0x40
  | [a, b, c] => ((a.toNat % 0x10) * 0x40 + b.toNat % 0x40) * 0x40 + c.toNat % 0x40
  | [a, b, c, d] =>
    (((a.toNat % 0x08) * 0x40 + b.toNat % 0x40) * 0x40 + c.toNat % 0x40) * 0x40 + d.toNat % 0x40
  | _ => 0

/-- Decodes the bytes from position `pos` on (`rest`), the characters so far in `acc`. -/
def decodeFrom (bytes : List UInt8) (pos : Nat) (acc : List Char) :
    List UInt8 → Except String String
  | [] => .ok (String.ofList acc.reverse)
  | lead :: more =>
    match leadShape lead with
    | none => .error (decodeFault bytes pos (pos + 1) "invalid start byte")
    | some (lo, hi, len) =>
      let tail := more.take (len - 1)
      -- how many bytes after the lead are good
      let good := (List.range tail.length).takeWhile (fun i =>
        let b := tail.getD i 0
        if i = 0 then lo ≤ b && b ≤ hi else isContinuation b) |>.length
      if good < tail.length then
        .error (decodeFault bytes pos (pos + 1 + good) "invalid continuation byte")
      else if tail.length < len - 1 then
        .error (decodeFault bytes pos bytes.length "unexpected end of data")
      else
        decodeFrom bytes (pos + len) (Char.ofNat (codePoint (lead :: tail)) :: acc)
          (more.drop (len - 1))
termination_by rest => rest.length
decreasing_by simp only [List.length_cons, List.length_drop]; omega

/-- Decodes UTF-8 bytes, or gives the standard decoder's message for the first bad sequence. -/
def decodeUtf8 (bytes : List UInt8) : Except String String :=
  decodeFrom bytes 0 [] bytes

end Backtest.Text
