import Ident160.Ident.Basic
import Ident160.Proofs.Results
import Mathlib.Data.List.GetD

/-!
Steps of arithmetic that stop where they leave their range. The operations on identifiers wrap and
cut, so they have a value everywhere, also where a step would be out of range. Here each kind of
step that they are made of is taken with a check: sums and products of 64 bits, counts and
differences, shifts within a word, and access to one of the five words, which are counted from the
highest as they are stored. An operation that is built from these steps and comes to an end has
left no range on its way.
-/

namespace Ident160

inductive Overrun where
  /-- A sum, a product or a difference that its type cannot hold. -/
  | overflow
  /-- A shift of a word by 32 places or more. -/
  | shift
  /-- An index where there is no word. -/
  | index
deriving DecidableEq

abbrev Checked (α : Type) := Except Overrun α

/-! ### Words from the low end -/

namespace Ident

theorem lowWords_injective {a b : Ident} (h : a.lowWords = b.lowWords) : a = b := by
  cases a
  cases b
  exact congrArg Ident.mk (Vector.toList_inj.mp (List.reverse_inj.mp h))

theorem getElem_lowWords (a : Ident) {k : Nat} (h : k < a.lowWords.length) :
    a.lowWords[k] = a.words[4 - k] := by
  simp only [lowWords, List.getElem_reverse, Vector.length_toList, Vector.getElem_toList]

theorem getElem_lowWords_sub (a : Ident) {i : Nat} (h : i < 5) (hi : 4 - i < a.lowWords.length) :
    a.lowWords[4 - i] = a.words[i] := by
  simp only [getElem_lowWords, Nat.sub_sub_self (Nat.le_of_lt_succ h)]

/-- The word at a place counted from the low end. Above the highest word there is 0. -/
theorem getD_lowWords (a : Ident) (k : Nat) :
    a.lowWords.getD k 0 = if h : k < 5 then a.words[4 - k] else 0 := by
  split
  · next h =>
    have hk : k < a.lowWords.length := by rwa [length_lowWords]
    rw [List.getD_eq_getElem _ _ hk, getElem_lowWords]
  · next h => exact List.getD_eq_default _ _ (by rw [length_lowWords]; omega)

theorem words_eq_getD (a : Ident) {i : Nat} (h : i < 5) :
    a.words[i] = a.lowWords.getD (4 - i) 0 := by
  have hi : 4 - i < a.lowWords.length := by
    rw [length_lowWords]
    omega
  rw [List.getD_eq_getElem _ _ hi, getElem_lowWords_sub a h]

theorem lowWords_set (a : Ident) {i : Nat} (h : i < 5) (word : UInt32) :
    (Ident.mk (a.words.set i word)).lowWords = a.lowWords.set (4 - i) word := by
  apply List.ext_getElem
  · simp only [length_lowWords, List.length_set]
  · intro k hk hk'
    have hplace : i = 4 - k ↔ 4 - i = k := by
      rw [length_lowWords] at hk
      omega
    rw [getElem_lowWords, List.getElem_set, getElem_lowWords, Vector.getElem_set]
    simp only [hplace]

end Ident

namespace Checked

/-! ### Numbers -/

def sum (x y : UInt64) : Checked UInt64 :=
  if x.toNat + y.toNat < 2 ^ 64 then .ok (x + y) else .error .overflow

def product (x y : UInt64) : Checked UInt64 :=
  if x.toNat * y.toNat < 2 ^ 64 then .ok (x * y) else .error .overflow

/-- A count or an index that has to fit into so many bits. -/
def held (bits n : Nat) : Checked Nat := if n < 2 ^ bits then .ok n else .error .overflow

def difference (m n : Nat) : Checked Nat := if n ≤ m then .ok (m - n) else .error .overflow

def placesLeft (all places : UInt32) : Checked UInt32 :=
  if places.toNat ≤ all.toNat then .ok (all - places) else .error .overflow

theorem sum_eq {x y : UInt64} (h : x.toNat + y.toNat < 2 ^ 64) : sum x y = .ok (x + y) := if_pos h

theorem product_eq {x y : UInt64} (h : x.toNat * y.toNat < 2 ^ 64) : product x y = .ok (x * y) :=
  if_pos h

example : sum 0xFFFFFFFFFFFFFFFF 1 = .error .overflow := rfl

theorem held_eq {bits n : Nat} (h : n < 2 ^ bits) : held bits n = .ok n := if_pos h

theorem difference_eq {m n : Nat} (h : n ≤ m) : difference m n = .ok (m - n) := if_pos h

theorem placesLeft_eq {all places : UInt32} (h : places.toNat ≤ all.toNat) :
    placesLeft all places = .ok (all - places) := if_pos h

/-! ### Words -/

def up (word places : UInt32) : Checked UInt32 :=
  if places.toNat < 32 then .ok (word <<< places) else .error .shift

def down (word places : UInt32) : Checked UInt32 :=
  if places.toNat < 32 then .ok (word >>> places) else .error .shift

def wordAt (a : Ident) (i : Nat) : Checked UInt32 :=
  if h : i < 5 then .ok a.words[i] else .error .index

def setWord (a : Ident) (i : Nat) (word : UInt32) : Checked Ident :=
  if h : i < 5 then .ok ⟨a.words.set i word⟩ else .error .index

theorem up_eq {word places : UInt32} (h : places.toNat < 32) :
    up word places = .ok (word <<< places) := if_pos h

theorem down_eq {word places : UInt32} (h : places.toNat < 32) :
    down word places = .ok (word >>> places) := if_pos h

example : up 1 32 = .error .shift := rfl

theorem wordAt_eq (a : Ident) {i : Nat} (h : i < 5) : wordAt a i = .ok a.words[i] := dif_pos h

theorem setWord_eq (a : Ident) {i : Nat} (h : i < 5) (word : UInt32) :
    setWord a i word = .ok ⟨a.words.set i word⟩ := dif_pos h

/-! ### Identifiers -/

/-- The identifier with the given words, least significant first. There have to be five. -/
def ofLowWords (words : List UInt32) : Checked Ident :=
  if h : words.length = 5 then .ok (Ident.ofLowWords words h) else .error .index

/-- The identifier whose words are worked out one after the other, from the highest. -/
def fill (word : Nat → Checked UInt32) : Checked Ident := do
  let w₀ ← word 0
  let w₁ ← word 1
  let w₂ ← word 2
  let w₃ ← word 3
  let w₄ ← word 4
  ofLowWords [w₄, w₃, w₂, w₁, w₀]

theorem ofLowWords_eq {words : List UInt32} (h : words.length = 5) :
    ofLowWords words = .ok (Ident.ofLowWords words h) := dif_pos h

theorem fill_eq {word : Nat → Checked UInt32} {a : Ident}
    (h : ∀ (i : Nat) (hi : i < 5), word i = .ok a.words[i]) : fill word = .ok a := by
  have hwords : [a.words[4], a.words[3], a.words[2], a.words[1], a.words[0]] = a.lowWords := by
    apply List.ext_getElem
    · exact a.length_lowWords.symm
    · intro k hk hk'
      rw [Ident.getElem_lowWords]
      match k, hk with
      | 0, _ | 1, _ | 2, _ | 3, _ | 4, _ => rfl
  rw [fill, h 0 (by decide), h 1 (by decide), h 2 (by decide), h 3 (by decide), h 4 (by decide)]
  simp only [ok_bind, hwords, ofLowWords_eq a.length_lowWords]
  exact congrArg Except.ok (Ident.lowWords_injective (Ident.lowWords_ofLowWords _ _))

end Checked

end Ident160
