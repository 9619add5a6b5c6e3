import Ident160.Proofs.CheckedSteps
import Ident160.Proofs.Shifts
import Ident160.Proofs.XorMetric

/-!
Shifts, single bits and bit lengths without overrun. A shift is worked out word by word, each from
the word that the whole words of the shift lead to and from its neighbour. A shift by whole words
has to leave the neighbour alone, as it would take all 32 places of it, and the ends of an
identifier have to be seen before their missing neighbours are looked up.
-/

namespace Ident160

namespace Words

/-! ### Words by their places -/

theorem getD_shiftUp {words : List UInt32} {k : Nat} (h : k < words.length)
    (bits below : UInt32) :
    (shiftUp bits below words).getD k 0 =
      words.getD k 0 <<< bits ||| spillUp bits ((below :: words).getD k 0) := by
  induction words generalizing k below with
  | nil => simp at h
  | cons word words ih =>
    cases k with
    | zero => rfl
    | succ k => exact ih (Nat.lt_of_succ_lt_succ h) word

theorem getD_shiftDown {words : List UInt32} {k : Nat} (h : k < words.length) (bits : UInt32) :
    (shiftDown bits words).getD k 0 =
      words.getD k 0 >>> bits ||| spillDown bits (words.getD (k + 1) 0) := by
  induction words generalizing k with
  | nil => simp at h
  | cons word words ih =>
    cases k with
    | zero => cases words <;> rfl
    | succ k => exact ih (Nat.lt_of_succ_lt_succ h)

/-- A shift up moves the word at `k - gap` to the place `k` and has none below its gap. -/
theorem getD_shiftLeft {words : List UInt32} {k : Nat} (h : k < words.length) (gap : Nat)
    (bits : UInt32) :
    (shiftLeft gap bits words).getD k 0 =
      if k < gap then 0
      else words.getD (k - gap) 0 <<< bits ||| spillUp bits ((0 :: words).getD (k - gap) 0) := by
  have htake : (shiftLeft gap bits words).getD k 0 =
      (List.replicate gap 0 ++ shiftUp bits 0 words).getD k 0 := by
    rw [shiftLeft, List.getD_eq_getElem?_getD, List.getElem?_take_of_lt h,
      List.getD_eq_getElem?_getD]
  rw [htake]
  split
  · next hgap =>
    rw [List.getD_append _ _ _ _ (by rwa [List.length_replicate]), List.getD_replicate _ hgap]
  · next hgap =>
    rw [List.getD_append_right _ _ _ _ (by rw [List.length_replicate]; omega),
      List.length_replicate, getD_shiftUp (by omega)]

/-- A shift down moves the word at `k + gap` to the place `k` and has none above the words. -/
theorem getD_shiftRight {words : List UInt32} {k : Nat} (h : k < words.length) (gap : Nat)
    (bits : UInt32) :
    (shiftRight gap bits words).getD k 0 =
      if words.length ≤ gap + k then 0
      else words.getD (gap + k) 0 >>> bits ||| spillDown bits (words.getD (gap + k + 1) 0) := by
  have hlength : (shiftDown bits (words.drop gap)).length = words.length - gap := by
    rw [length_shiftDown, List.length_drop]
  have htake : (shiftRight gap bits words).getD k 0 =
      (shiftDown bits (words.drop gap) ++ List.replicate gap 0).getD k 0 := by
    rw [shiftRight, List.getD_eq_getElem?_getD, List.getElem?_take_of_lt h,
      List.getD_eq_getElem?_getD]
  have hdrop : ∀ n, (words.drop gap).getD n 0 = words.getD (gap + n) 0 := by
    intro n
    rw [List.getD_eq_getElem?_getD, List.getElem?_drop, List.getD_eq_getElem?_getD]
  rw [htake]
  split
  · next hend =>
    rw [List.getD_append_right _ _ _ _ (by omega), List.getD_replicate _ (by omega)]
  · next hin =>
    rw [List.getD_append _ _ _ _ (by omega), getD_shiftDown (by rw [List.length_drop]; omega),
      hdrop, hdrop, Nat.add_assoc]

theorem spillUp_zero (bits : UInt32) : spillUp bits 0 = 0 := by
  rw [spillUp]
  split
  · rfl
  · exact UInt32.zero_shiftRight

theorem spillDown_zero (bits : UInt32) : spillDown bits 0 = 0 := by
  rw [spillDown]
  split
  · rfl
  · exact UInt32.zero_shiftLeft

end Words

namespace Checked

/-! ### Shifts of all the words -/

/-- A shift whose words are worked out from the whole words and the bits that it moves by. None of
them is worked out for a shift by no place, or past the last one. -/
def shiftBy (word : Nat → UInt32 → Nat → Checked UInt32) (a : Ident) (places : UInt32) :
    Checked Ident :=
  if places = 0 then
    return a
  else if 160 ≤ places then
    return Ident.zero
  else
    fill (word (Words.wordGap places) (Words.bitGap places))

theorem wordGap_lt {places : UInt32} (h : places < 160) : Words.wordGap places < 5 := by
  have hplaces : places.toNat < 160 := UInt32.lt_iff_toNat_lt.mp h
  have hgaps := Ident.gaps_eq places
  omega

/-- A shift comes to `shifted` if this is right where no word is worked out, and each of the words
elsewhere. -/
theorem shiftBy_eq {word : Nat → UInt32 → Nat → Checked UInt32} {a shifted : Ident}
    {places : UInt32} (hnone : places = 0 → shifted = a)
    (hall : 160 ≤ places → shifted = Ident.zero)
    (hword : ¬ 160 ≤ places → ∀ (i : Nat) (hi : i < 5),
      word (Words.wordGap places) (Words.bitGap places) i = .ok shifted.words[i]) :
    shiftBy word a places = .ok shifted := by
  rw [shiftBy]
  split
  · next hzero =>
    rw [hnone hzero]
    rfl
  · split
    · next hout =>
      rw [hall hout]
      rfl
    · next hin => exact fill_eq (hword hin)

/-! ### Shifts up -/

/-- The bits that move up into the word at `source` from the one below it, if there is one. -/
def spillUp (a : Ident) (bits : UInt32) (source : Nat) : Checked UInt32 :=
  if bits = 0 then
    return 0
  else do
    let below ← held 16 (source + 1)
    if below < 5 then
      down (← wordAt a below) (← placesLeft 32 bits)
    else
      return 0

def upWord (a : Ident) (gap : Nat) (bits : UInt32) (i : Nat) : Checked UInt32 := do
  let source ← held 16 (i + gap)
  if 5 ≤ source then
    return 0
  else
    let high ← up (← wordAt a source) bits
    let low ← spillUp a bits source
    return high ||| low

def shiftLeft (a : Ident) (places : UInt32) : Checked Ident := shiftBy (upWord a) a places

theorem placesLeft_spillPlaces {bits : UInt32} (h : bits.toNat < 32) :
    placesLeft 32 bits = .ok (Words.spillPlaces bits) :=
  placesLeft_eq (Nat.le_of_lt h)

theorem spillUp_eq (a : Ident) {bits : UInt32} (hbits : bits.toNat < 32) {source : Nat}
    (hsource : source < 5) :
    spillUp a bits source = .ok (Words.spillUp bits ((0 :: a.lowWords).getD (4 - source) 0)) := by
  rw [spillUp]
  split
  · next hzero => rw [Words.spillUp, if_pos hzero]; rfl
  · next hne =>
    rw [held_eq (by omega), ok_bind]
    split
    · next hbelow =>
      have hplace : 4 - source = 4 - (source + 1) + 1 := by omega
      rw [wordAt_eq a hbelow, ok_bind, placesLeft_spillPlaces hbits, ok_bind,
        down_eq (Words.spillPlaces_lt hbits hne), hplace, List.getD_cons_succ,
        ← Ident.words_eq_getD, Words.spillUp, if_neg hne]
    · next hend =>
      have hplace : 4 - source = 0 := by omega
      rw [hplace, List.getD_cons_zero, Words.spillUp_zero]
      rfl

theorem upWord_eq (a : Ident) {gap : Nat} (hgap : gap < 5) {bits : UInt32}
    (hbits : bits.toNat < 32) {i : Nat} (hi : i < 5) :
    upWord a gap bits i = .ok ((Words.shiftLeft gap bits a.lowWords).getD (4 - i) 0) := by
  have hplace : 4 - i < a.lowWords.length := by rw [Ident.length_lowWords]; omega
  rw [upWord, held_eq (by omega), ok_bind, Words.getD_shiftLeft hplace]
  by_cases hsource : 5 ≤ i + gap
  · rw [if_pos hsource, if_pos (by omega)]
    rfl
  · have hword : 4 - i - gap = 4 - (i + gap) := Nat.sub_sub 4 i gap
    rw [if_neg hsource, if_neg (by omega), wordAt_eq a (Nat.lt_of_not_le hsource), ok_bind,
      up_eq hbits, ok_bind, spillUp_eq a hbits (by omega), ok_bind, hword,
      Ident.words_eq_getD]
    rfl

theorem shiftLeft_eq (a : Ident) (places : UInt32) :
    shiftLeft a places = .ok (a.shiftLeft places) := by
  apply shiftBy_eq
  · intro hzero
    apply Ident.toNat_injective
    rw [Ident.toNat_shiftLeft, hzero]
    exact (congrArg (· % 2 ^ 160) (Nat.mul_one a.toNat)).trans (Nat.mod_eq_of_lt a.toNat_lt)
  · intro hall
    rw [Ident.shiftLeft, if_pos hall]
  · intro hsome i hi
    rw [upWord_eq a (wordGap_lt (UInt32.not_le.mp hsome)) (Ident.bitGap_lt places) hi,
      Ident.words_eq_getD, Ident.shiftLeft, if_neg hsome, Ident.lowWords_ofLowWords]

/-! ### Shifts down -/

/-- The bits that move down into the word at `source` from the one above it, if there is one. -/
def spillDown (a : Ident) (bits : UInt32) (source : Nat) : Checked UInt32 :=
  if bits ≠ 0 ∧ 0 < source then do
    up (← wordAt a (← difference source 1)) (← placesLeft 32 bits)
  else
    return 0

def downWord (a : Ident) (gap : Nat) (bits : UInt32) (i : Nat) : Checked UInt32 :=
  if i < gap then
    return 0
  else do
    let source ← difference i gap
    let low ← down (← wordAt a source) bits
    let high ← spillDown a bits source
    return high ||| low

def shiftRight (a : Ident) (places : UInt32) : Checked Ident := shiftBy (downWord a) a places

theorem spillDown_eq (a : Ident) {bits : UInt32} (hbits : bits.toNat < 32) {source : Nat}
    (hsource : source < 5) :
    spillDown a bits source = .ok (Words.spillDown bits (a.lowWords.getD (4 - source + 1) 0)) := by
  rw [spillDown]
  split
  · next hspills =>
    obtain ⟨hne, hpos⟩ := hspills
    have hplace : 4 - source + 1 = 4 - (source - 1) := by omega
    have habove : source - 1 < 5 := by omega
    rw [difference_eq hpos, ok_bind, wordAt_eq a habove, ok_bind, placesLeft_spillPlaces hbits,
      ok_bind, up_eq (Words.spillPlaces_lt hbits hne), hplace, ← Ident.words_eq_getD a habove,
      Words.spillDown, if_neg hne]
  · next hkeeps =>
    by_cases hzero : bits = 0
    · rw [Words.spillDown, if_pos hzero]
      rfl
    · have hend : source = 0 := by
        by_contra hne
        exact hkeeps ⟨hzero, Nat.pos_of_ne_zero hne⟩
      rw [hend, Ident.getD_lowWords, dif_neg (by decide), Words.spillDown_zero]
      rfl

theorem downWord_eq (a : Ident) (gap : Nat) {bits : UInt32} (hbits : bits.toNat < 32) {i : Nat}
    (hi : i < 5) :
    downWord a gap bits i = .ok ((Words.shiftRight gap bits a.lowWords).getD (4 - i) 0) := by
  have hplace : 4 - i < a.lowWords.length := by rw [Ident.length_lowWords]; omega
  rw [downWord, Words.getD_shiftRight hplace, Ident.length_lowWords]
  by_cases hsource : i < gap
  · rw [if_pos hsource, if_pos (by omega)]
    rfl
  · have hword : gap + (4 - i) = 4 - (i - gap) := by omega
    have hin : i - gap < 5 := by omega
    rw [if_neg hsource, if_neg (by omega), difference_eq (Nat.le_of_not_lt hsource), ok_bind,
      wordAt_eq a hin, ok_bind, down_eq hbits, ok_bind, spillDown_eq a hbits hin, ok_bind, hword,
      Ident.words_eq_getD, UInt32.or_comm]
    rfl

theorem shiftRight_eq (a : Ident) (places : UInt32) :
    shiftRight a places = .ok (a.shiftRight places) := by
  apply shiftBy_eq
  · intro hzero
    apply Ident.toNat_injective
    rw [Ident.toNat_shiftRight, hzero]
    exact Nat.div_one a.toNat
  · intro hall
    rw [Ident.shiftRight, if_pos hall]
  · intro hsome i hi
    rw [downWord_eq a _ (Ident.bitGap_lt places) hi, Ident.words_eq_getD, Ident.shiftRight,
      if_neg hsome, Ident.lowWords_ofLowWords]

/-! ### Bits and bit lengths -/

def bit (a : Ident) (i : UInt32) : Checked Bool :=
  if 160 ≤ i then
    return false
  else do
    let index ← difference 4 (i / 32).toNat
    let shifted ← down (← wordAt a index) (i % 32)
    return shifted &&& 1 == 1

theorem bit_eq (a : Ident) (i : UInt32) : bit a i = .ok (a.bit i) := by
  rw [bit, Ident.bit]
  by_cases hi : 160 ≤ i
  · rw [if_pos hi, if_neg (UInt32.not_lt.mpr hi)]
    rfl
  · have hword : (i / 32).toNat < 5 := wordGap_lt (UInt32.not_le.mp hi)
    have hplace : (i % 32).toNat < 32 := Ident.bitGap_lt i
    rw [if_neg hi, if_pos (UInt32.not_le.mp hi), difference_eq (Nat.le_of_lt_succ hword), ok_bind,
      wordAt_eq a (by omega), ok_bind, down_eq hplace, ok_bind]
    rfl

/-- The number of zeros above the highest bit of a word, which are all 32 for zero. -/
def leadingZeros (word : UInt32) : Nat :=
  ((List.range 32).reverse.takeWhile fun i => !word.toNat.testBit i).length

/-- The bits below the first word that is not zero, and those of this word but for its leading
zeros. -/
def bitLength (a : Ident) : Checked Nat :=
  match a.words.toList.findIdx? (· != 0) with
  | none => return 0
  | some i => do
    let below ← held 32 ((← difference 4 i) * 32)
    let significant ← difference 32 (leadingZeros (← wordAt a i))
    held 32 (below + significant)

theorem wordBitLength_eq (word : UInt32) : Ident.wordBitLength word = 32 - leadingZeros word := by
  have hsize : word.toNat.size = 32 - leadingZeros word :=
    size_eq_sub_leading (fun _ _ => rfl) word.toNat_lt
  rw [← hsize]
  apply eq_of_forall_ge_iff
  intro n
  rw [Nat.size_le, Ident.wordBitLength_le_iff]

theorem leadingZeros_le (word : UInt32) : leadingZeros word ≤ 32 := by
  have hplaces : (List.range 32).reverse.length = 32 := rfl
  rw [← hplaces]
  exact (List.takeWhile_sublist _).length_le

/-- The first word that is not zero and its place decide on the bit length. -/
theorem highBitLength_eq (words : List UInt32) :
    Ident.highBitLength words =
      match words.findIdx? (· != 0) with
      | none => 0
      | some i => Ident.wordBitLength (words.getD i 0) + 32 * (words.length - 1 - i) := by
  induction words with
  | nil => rfl
  | cons word words ih =>
    rw [List.findIdx?_cons, Ident.highBitLength]
    by_cases hzero : word = 0
    · rw [if_pos hzero, if_neg (by simp [hzero]), ih]
      cases words.findIdx? (· != 0) with
      | none => rfl
      | some i =>
        have hplace : words.length - 1 - i = words.length + 1 - 1 - (i + 1) := by omega
        simp only [Option.map_some, List.getD_cons_succ, List.length_cons, hplace]
    · rw [if_neg hzero, if_pos (by simpa using hzero)]
      rfl

theorem bitLength_eq (a : Ident) : bitLength a = .ok a.bitLength := by
  rw [bitLength, Ident.bitLength, highBitLength_eq]
  cases hfirst : a.words.toList.findIdx? (· != 0) with
  | none => rfl
  | some i =>
    obtain ⟨hlength, -⟩ := List.findIdx?_eq_some_iff_getElem.mp hfirst
    have hi : i < 5 := by rwa [Vector.length_toList] at hlength
    have hword : a.words.toList.getD i 0 = a.words[i] := by
      rw [List.getD_eq_getElem _ _ hlength, Vector.getElem_toList]
    have hzeros := leadingZeros_le a.words[i]
    simp only [difference_eq (Nat.le_of_lt_succ hi), ok_bind, wordAt_eq a hi,
      held_eq (show (4 - i) * 32 < 2 ^ 32 by omega), difference_eq hzeros,
      held_eq (show (4 - i) * 32 + (32 - leadingZeros a.words[i]) < 2 ^ 32 by omega)]
    rw [hword, wordBitLength_eq, Vector.length_toList, Nat.add_comm, Nat.mul_comm]

end Checked

end Ident160
