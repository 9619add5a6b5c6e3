import Ident160.HexBytes
import Ident160.Proofs.Positional

/-!
What the decoder makes of ASCII text. There bytes and characters are the same, so it sees each
character as it is: digits give the bytes of the number that they write, and otherwise the fault
is the first character that is no digit. Neither fault of length can come up once the text is
known to have two characters for each byte.
-/

namespace Ident160.HexBytes

open Digit

def byteOfChar (c : Char) : UInt8 := UInt8.ofNat c.toNat

theorem utf8_of_ascii {cs : List Char} (h : ∀ c ∈ cs, c.toNat < 128) :
    cs.flatMap String.utf8EncodeChar = cs.map byteOfChar := by
  induction cs with
  | nil => rfl
  | cons c cs ih =>
    obtain ⟨hc, hcs⟩ := List.forall_mem_cons.mp h
    have hchar : String.utf8EncodeChar c = [byteOfChar c] :=
      if_pos (show c.toNat ≤ 127 by omega)
    rw [List.flatMap_cons, hchar, ih hcs, List.singleton_append, List.map_cons]

theorem charOfByte_byteOfChar {c : Char} (h : c.toNat < 128) : charOfByte (byteOfChar c) = c := by
  have hsize : c.toNat < UInt8.size := Nat.lt_trans h (by decide)
  have hbyte : (byteOfChar c).toNat = c.toNat := UInt8.toNat_ofNat_of_lt hsize
  rw [charOfByte, hbyte, Char.ofNat_toNat]

theorem ascii_of_value? {c : Char} {d : Nat} (h : value? 16 c = some d) : c.toNat < 128 := by
  have hcode := value?_eq_some_iff.mp h
  omega

theorem decodeDigit_of_value? {c : Char} {d : Nat} (index : Nat) (h : value? 16 c = some d) :
    decodeDigit index (byteOfChar c) = .ok (UInt8.ofNat d) := by
  rw [decodeDigit, charOfByte_byteOfChar (ascii_of_value? h), h]

theorem decodeDigit_of_none {c : Char} (index : Nat) (hc : c.toNat < 128)
    (h : value? 16 c = none) : decodeDigit index (byteOfChar c) = .error (.badDigit c index) := by
  rw [decodeDigit, charOfByte_byteOfChar hc, h]

theorem toNat_halves {high low : Nat} (hhigh : high < 16) (hlow : low < 16) :
    (UInt8.ofNat high <<< 4 ||| UInt8.ofNat low).toNat = high * 16 + low := by
  have hshift : high <<< 4 % 2 ^ 8 = 2 ^ 4 * high := by
    rw [Nat.shiftLeft_eq]
    omega
  have hor := Nat.two_pow_add_eq_or_of_lt (show low < 2 ^ 4 by omega) high
  have hh : (UInt8.ofNat high).toNat = high :=
    UInt8.toNat_ofNat_of_lt (Nat.lt_trans hhigh (by decide))
  have hl : (UInt8.ofNat low).toNat = low :=
    UInt8.toNat_ofNat_of_lt (Nat.lt_trans hlow (by decide))
  have hsplit : (UInt8.ofNat high <<< 4 ||| UInt8.ofNat low).toNat =
      high <<< 4 % 2 ^ 8 ||| low := by
    rw [UInt8.toNat_or, UInt8.toNat_shiftLeft, hh, hl]
    rfl
  rw [hsplit, hshift, ← hor, Nat.mul_comm]

theorem decodePairs_of_digits : ∀ (index : Nat) (cs : List Char), cs.length % 2 = 0 →
    AllDigits 16 cs → ∃ bytes, decodePairs index (cs.map byteOfChar) = .ok bytes ∧
      ∀ n, extended 256 n (bytes.map UInt8.toNat) = extended 16 n (values 16 cs)
  | _, [], _, _ => ⟨[], rfl, fun _ => rfl⟩
  | _, [_], hlength, _ => by simp at hlength
  | index, c₁ :: c₀ :: cs, hlength, hdigits => by
    obtain ⟨h₁, hdigits⟩ := allDigits_cons.mp hdigits
    obtain ⟨h₀, hdigits⟩ := allDigits_cons.mp hdigits
    obtain ⟨d₁, hd₁⟩ := Option.isSome_iff_exists.mp h₁
    obtain ⟨d₀, hd₀⟩ := Option.isSome_iff_exists.mp h₀
    have hcs : cs.length % 2 = 0 := by
      simp only [List.length_cons] at hlength
      omega
    obtain ⟨bytes, hread, hvalue⟩ := decodePairs_of_digits (index + 2) cs hcs hdigits
    refine ⟨(UInt8.ofNat d₁ <<< 4 ||| UInt8.ofNat d₀) :: bytes, ?_, ?_⟩
    · simp only [List.map_cons, decodePairs, decodeDigit_of_value? _ hd₁,
        decodeDigit_of_value? _ hd₀, hread, Except.map]
    · intro n
      have hbyte := toNat_halves (value?_eq_some_iff.mp hd₁).1 (value?_eq_some_iff.mp hd₀).1
      have hstep : n * 256 + (d₁ * 16 + d₀) = (n * 16 + d₁) * 16 + d₀ := by omega
      simp only [values, List.map_cons, extended_cons, hd₁, hd₀, Option.getD_some, hbyte, hstep]
      exact hvalue _

/-- The first character that is no digit is blamed, at its own place. -/
theorem decodePairs_of_bad : ∀ (index : Nat) (before after : List Char) (c : Char),
    (before ++ c :: after).length % 2 = 0 → AllDigits 16 before → c.toNat < 128 →
    value? 16 c = none →
    decodePairs index ((before ++ c :: after).map byteOfChar) =
      .error (.badDigit c (index + before.length))
  | _, [], [], _, hlength, _, _, _ => by simp at hlength
  | index, [], _ :: _, c, _, _, hc, hnone => by
    simp only [List.nil_append, List.map_cons, decodePairs, decodeDigit_of_none index hc hnone]
    rfl
  | index, [b], after, c, _, hbefore, hc, hnone => by
    obtain ⟨d, hd⟩ := Option.isSome_iff_exists.mp (allDigits_cons.mp hbefore).1
    simp only [List.cons_append, List.nil_append, List.map_cons, decodePairs,
      decodeDigit_of_value? index hd, decodeDigit_of_none (index + 1) hc hnone]
    rfl
  | index, b₁ :: b₀ :: before, after, c, hlength, hbefore, hc, hnone => by
    obtain ⟨h₁, hbefore⟩ := allDigits_cons.mp hbefore
    obtain ⟨h₀, hbefore⟩ := allDigits_cons.mp hbefore
    obtain ⟨d₁, hd₁⟩ := Option.isSome_iff_exists.mp h₁
    obtain ⟨d₀, hd₀⟩ := Option.isSome_iff_exists.mp h₀
    have hrest : (before ++ c :: after).length % 2 = 0 := by
      simp only [List.cons_append, List.length_cons] at hlength
      omega
    have hread := decodePairs_of_bad (index + 2) before after c hrest hbefore hc hnone
    simp only [List.cons_append, List.map_cons, decodePairs, decodeDigit_of_value? _ hd₁,
      decodeDigit_of_value? _ hd₀, hread, Except.map, List.length_cons]
    rw [show index + 2 + before.length = index + (before.length + 1 + 1) by omega]

/-! ### Texts of the right length -/

theorem decode_of_ok {size : Nat} {text bytes : List UInt8} (hlength : text.length = 2 * size)
    (hread : decodePairs 0 text = .ok bytes) : ∃ h, decode size text = .ok ⟨bytes, h⟩ := by
  refine ⟨(length_decodePairs hread).trans (by omega), ?_⟩
  rw [decode, if_neg (by omega), dif_neg (by omega)]
  split
  · next fault hfault => simp [hread] at hfault
  · next found hfound =>
    obtain rfl := Except.ok.inj (hread.symm.trans hfound)
    rfl

theorem decode_of_error {size : Nat} {text : List UInt8} {fault : Fault}
    (hlength : text.length = 2 * size) (hread : decodePairs 0 text = .error fault) :
    decode size text = .error fault := by
  rw [decode, if_neg (by omega), dif_neg (by omega)]
  split
  · next found hfound =>
    obtain rfl := Except.error.inj (hread.symm.trans hfound)
    rfl
  · next bytes hbytes => simp [hread] at hbytes

/-- Digits of the right length are decoded to the bytes of the number that they write. -/
theorem decode_of_digits (size : Nat) {cs : List Char} (hlength : cs.length = 2 * size)
    (hdigits : AllDigits 16 cs) :
    ∃ bytes h, decode size (cs.map byteOfChar) = .ok ⟨bytes, h⟩ ∧
      ofDigits 256 (bytes.map UInt8.toNat) = written 16 cs := by
  obtain ⟨bytes, hread, hvalue⟩ := decodePairs_of_digits 0 cs (by omega) hdigits
  obtain ⟨h, hdecode⟩ := decode_of_ok (by rw [List.length_map, hlength]) hread
  exact ⟨bytes, h, hdecode, hvalue 0⟩

/-- A text of the right length fails at its first character that is no digit. -/
theorem decode_of_bad (size : Nat) {before after : List Char} {c : Char}
    (hlength : (before ++ c :: after).length = 2 * size) (hbefore : AllDigits 16 before)
    (hc : c.toNat < 128) (hnone : value? 16 c = none) :
    decode size ((before ++ c :: after).map byteOfChar) = .error (.badDigit c before.length) := by
  have hread := decodePairs_of_bad 0 before after c (by omega) hbefore hc hnone
  rw [Nat.zero_add] at hread
  exact decode_of_error (by rw [List.length_map, hlength]) hread

end Ident160.HexBytes
