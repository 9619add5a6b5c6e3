import Ident160.Digit

/-!
Decoding hexadecimal text into bytes. The text is taken as the bytes of its UTF-8 form, and two of
them make one byte of the result. How long the text is gets judged before any of its digits is;
then the first byte that is no digit is the fault.
-/

namespace Ident160.HexBytes

/-- Why a text is not the hexadecimal form of a wanted number of bytes. -/
inductive Fault where
  | oddLength
  /-- The text is the form of another number of bytes. -/
  | wrongLength
  /-- The byte at `index`, taken for a character, is no digit. -/
  | badDigit (c : Char) (index : Nat)
deriving DecidableEq

def charOfByte (byte : UInt8) : Char := Char.ofNat byte.toNat

def decodeDigit (index : Nat) (byte : UInt8) : Except Fault UInt8 :=
  match Digit.value? 16 (charOfByte byte) with
  | some d => .ok (UInt8.ofNat d)
  | none => .error (.badDigit (charOfByte byte) index)

/-- The bytes that the pairs of a text stand for; its first digit is the one at `index`. -/
def decodePairs : Nat → List UInt8 → Except Fault (List UInt8)
  | index, first :: second :: rest =>
    match decodeDigit index first with
    | .error fault => .error fault
    | .ok high =>
      match decodeDigit (index + 1) second with
      | .error fault => .error fault
      | .ok low => (decodePairs (index + 2) rest).map ((high <<< 4 ||| low) :: ·)
  | _, [] | _, [_] => .ok []

theorem length_decodePairs {index : Nat} {text bytes : List UInt8}
    (h : decodePairs index text = .ok bytes) : bytes.length = text.length / 2 := by
  fun_induction decodePairs index text generalizing bytes with
  | case1 => simp at h
  | case2 => simp at h
  | case3 index first second rest _ _ _ _ ih =>
    cases hrest : decodePairs (index + 2) rest with
    | error fault => simp [hrest, Except.map] at h
    | ok tail =>
      simp only [hrest, Except.map, Except.ok.injEq] at h
      rw [← h, List.length_cons, ih hrest, List.length_cons, List.length_cons]
      omega
  | case4 =>
    rw [← Except.ok.inj h]
    rfl
  | case5 =>
    rw [← Except.ok.inj h]
    simp

def decode (size : Nat) (text : List UInt8) :
    Except Fault { bytes : List UInt8 // bytes.length = size } :=
  if text.length % 2 ≠ 0 then
    .error .oddLength
  else if hsize : text.length / 2 ≠ size then
    .error .wrongLength
  else
    match hpairs : decodePairs 0 text with
    | .error fault => .error fault
    | .ok bytes => .ok ⟨bytes, (length_decodePairs hpairs).trans (Decidable.not_not.mp hsize)⟩

end Ident160.HexBytes
