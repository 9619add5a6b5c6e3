import Ident160.Proofs.CheckedColumns
import Ident160.Proofs.CheckedPlaces
import Ident160.Proofs.LongDivision

/-!
Long division without overrun, and with it the whole arithmetic of identifiers. Before a step the
remainder is less than the divisor, but a divisor may have all 160 bits, so this alone would not
keep the highest bit of the remainder from being shifted out. What does is that the remainder is at
most the part of the dividend that has been read, which lacks the bit that is yet to come.
-/

namespace Ident160

open Digit

namespace Ident

/-! ### States before a step -/

/-- Both parts of the state have room for one more bit at the low end. -/
structure Division.HasRoom (state : Division) : Prop where
  quotient_lt : state.quotient.toNat < 2 ^ 159
  remainder_lt : state.remainder.toNat < 2 ^ 159

theorem Division.dropLast_states_cons (divisor : Ident) (state : Division) (next : Bool)
    (bits : List Bool) :
    (Division.states divisor state (next :: bits)).dropLast =
      state :: (Division.states divisor (state.step divisor next) bits).dropLast := by
  have hne : ∀ state, Division.states divisor state bits ≠ [] := by
    intro state
    cases bits with
    | nil => exact List.cons_ne_nil _ _
    | cons next bits => exact List.cons_ne_nil _ _
  exact List.dropLast_cons_of_ne_nil (hne _)

/-- What has been read has room for a bit as long as another bit follows. -/
theorem Division.Holds.hasRoom_states {divisor : Ident} {n : Nat} {state : Division}
    (h : Division.Holds divisor n state) (hpos : 0 < divisor.toNat) (bits : List Bool)
    (hfits : extended 2 n (bits.map Bool.toNat) < 2 ^ 160) :
    ∀ entered ∈ (Division.states divisor state bits).dropLast, entered.HasRoom := by
  induction bits generalizing n state with
  | nil => exact fun _ hnone => absurd hnone List.not_mem_nil
  | cons next bits ih =>
    rw [List.map_cons, extended_cons] at hfits
    have hnext : n * 2 + next.toNat < 2 ^ 160 :=
      Nat.lt_of_le_of_lt (le_extended (by decide) _ _) hfits
    have hroom : state.HasRoom := by
      have hquotient := h.quotient_le
      have hremainder := h.remainder_le
      exact ⟨by omega, by omega⟩
    rw [Division.dropLast_states_cons]
    exact List.forall_mem_cons.mpr ⟨hroom, ih (h.step hpos next hnext) hfits⟩

/-- Long division never loses a bit at the high end. -/
theorem hasRoom_longDivision (a : Ident) {b : Ident} (hpos : 0 < b.toNat) :
    ∀ state ∈ (Division.states b ⟨zero, zero⟩ a.bitsDown).dropLast, state.HasRoom := by
  have hrun := (Division.Holds.start b).hasRoom_states hpos a.bitsDown
  rw [extended_bitsDown] at hrun
  exact hrun a.toNat_lt

end Ident

namespace Checked

open Ident (Division)

/-! ### Steps of division -/

/-- Shifts a number up by one place, if its highest bit is not set and so is not lost. -/
def doubled (a : Ident) : Checked Ident :=
  if a.toNat < 2 ^ 159 then shiftLeft a 1 else .error .overflow

def setLowest (a : Ident) : Checked Ident := do
  setWord a 4 ((← wordAt a 4) ||| 1)

def withLowest (a : Ident) (next : Bool) : Checked Ident :=
  if next then setLowest a else return a

def divisionStep (a divisor : Ident) (state : Division) (i : Nat) : Checked Division := do
  let remainder ← doubled state.remainder
  let quotient ← doubled state.quotient
  let remainder ← withLowest remainder (← bit a i.toUInt32)
  if divisor.atMost remainder then
    let remainder ← sub remainder divisor
    let quotient ← setLowest quotient
    return ⟨quotient, remainder⟩
  else
    return ⟨quotient, remainder⟩

def divMod (a b : Ident) : Checked (Except Ident.ArithError Division) :=
  if b.isZero then
    return .error .divisionByZero
  else if a.less b then
    return .ok ⟨Ident.zero, a⟩
  else do
    let length ← bitLength a
    let state ← (List.range length).reverse.foldlM (divisionStep a b) ⟨Ident.zero, Ident.zero⟩
    return .ok state

theorem doubled_eq {a : Ident} (h : a.toNat < 2 ^ 159) : doubled a = .ok (a.shiftLeft 1) := by
  rw [doubled, if_pos h, shiftLeft_eq]

theorem setLowest_eq (a : Ident) : setLowest a = .ok a.setLowest := by
  have hone : ∀ (i : Nat) (h : i < 5), Ident.one.words[i] = if 4 = i then 1 else 0 := by decide
  have hwords : a.words.set 4 (a.words[4] ||| 1) =
      Vector.zipWith (· ||| ·) a.words Ident.one.words := by
    apply Vector.ext
    intro i hi
    rw [Vector.getElem_set, Vector.getElem_zipWith, hone i hi]
    split
    · next hlast => simp only [hlast]
    · exact UInt32.or_zero.symm
  rw [setLowest, wordAt_eq a (by decide), ok_bind, setWord_eq a (by decide), hwords]
  rfl

theorem withLowest_eq (a : Ident) (next : Bool) :
    withLowest (a.shiftLeft 1) next = .ok (a.entered next) := by
  rw [withLowest, Ident.entered]
  split
  · exact setLowest_eq _
  · rfl

theorem divisionStep_eq (a divisor : Ident) {state : Division} (h : state.HasRoom) (i : Nat) :
    divisionStep a divisor state i = .ok (state.step divisor (a.bit i.toUInt32)) := by
  rw [divisionStep, doubled_eq h.remainder_lt, ok_bind, doubled_eq h.quotient_lt, ok_bind, bit_eq,
    ok_bind, withLowest_eq, ok_bind, Division.step_eq]
  split
  · rw [sub_eq, ok_bind, setLowest_eq, ok_bind]
    rfl
  · rfl

/-- A run of steps comes to an end if all the states that it enters a step with have room. -/
theorem divisionSteps_eq (a divisor : Ident) (places : List Nat) {state : Division}
    (h : ∀ entered ∈ (Division.states divisor state
      (places.map fun i => a.bit i.toUInt32)).dropLast, entered.HasRoom) :
    places.foldlM (divisionStep a divisor) state =
      .ok ((places.map fun i => a.bit i.toUInt32).foldl (Division.step divisor) state) := by
  induction places generalizing state with
  | nil => rfl
  | cons i places ih =>
    rw [List.map_cons, Division.dropLast_states_cons] at h
    obtain ⟨hroom, hrest⟩ := List.forall_mem_cons.mp h
    rw [List.foldlM_cons, divisionStep_eq a divisor hroom, ok_bind, ih hrest]
    rfl

theorem divMod_eq (a b : Ident) : divMod a b = .ok (a.divMod b) := by
  rw [divMod, Ident.divMod]
  split
  · rfl
  · next hzero =>
    split
    · rfl
    · have hpos : 0 < b.toNat := Nat.pos_of_ne_zero fun h => hzero (b.isZero_iff.mpr h)
      have hsteps := divisionSteps_eq a b _ (a.hasRoom_longDivision hpos)
      rw [bitLength_eq, ok_bind, hsteps, ok_bind]
      rfl

/-- No operation leaves a range on its way, whatever its operands. With a check at every sum,
product, difference, shift of a word and access to a word, each comes to its end and to the same
value. The columns of a sum stay below 2^33 and carry at most one, those of a product fit 64 bits
and carry less than 2^32, the words of a shift move by less than 32 places and come from one of the
five, and the remainder that a division shifts up is below 2^159, so that it doubles. -/
theorem arithmetic_stays_in_range :
    (∀ a b : Ident, add a b = .ok (a.add b) ∧ neg a = .ok a.neg ∧ sub a b = .ok (a.sub b) ∧
      ∀ column ∈ Words.sumColumns 0 a.lowWords b.lowWords,
        column.left.toNat + column.right.toNat + column.carry.toNat < 2 ^ 33 ∧
        column.carry.toNat ≤ 1 ∧ (column.total >>> 32).toNat ≤ 1) ∧
    (∀ a b : Ident, mul a b = .ok (a.mul b) ∧
      ∀ column ∈ Words.productColumns b.lowWords a.lowWords (List.replicate 5 0),
        column.left.toNat * column.right.toNat + column.standing.toNat + column.carry.toNat ≤
          2 ^ 64 - 1 ∧
        column.carry.toNat < 2 ^ 32 ∧ (column.total >>> 32).toNat < 2 ^ 32) ∧
    (∀ (a : Ident) (places : UInt32), shiftLeft a places = .ok (a.shiftLeft places) ∧
      shiftRight a places = .ok (a.shiftRight places)) ∧
    (∀ places : UInt32, (Words.bitGap places).toNat < 32 ∧
      (Words.bitGap places ≠ 0 → (Words.spillPlaces (Words.bitGap places)).toNat < 32) ∧
      (places < 160 → Words.wordGap places < 5)) ∧
    (∀ (a : Ident) (i : UInt32), bit a i = .ok (a.bit i)) ∧
    (∀ a : Ident, bitLength a = .ok a.bitLength) ∧
    ∀ a b : Ident, divMod a b = .ok (a.divMod b) ∧
      (b.toNat ≠ 0 →
        ∀ state ∈ (Division.states b ⟨Ident.zero, Ident.zero⟩ a.bitsDown).dropLast,
          state.remainder.toNat < 2 ^ 159 ∧
          (state.remainder.shiftLeft 1).toNat = state.remainder.toNat * 2) := by
  refine ⟨fun a b => ⟨add_eq a b, neg_eq a, sub_eq a b, ?_⟩, fun a b => ⟨mul_eq a b, ?_⟩,
    fun a places => ⟨shiftLeft_eq a places, shiftRight_eq a places⟩, fun places => ⟨?_, ?_, ?_⟩,
    bit_eq, bitLength_eq, fun a b => ⟨divMod_eq a b, ?_⟩⟩
  · intro column hcolumn
    have hcarry := Words.mem_sumColumns_carry (by decide) hcolumn
    exact ⟨column.total_lt hcarry, hcarry, column.carry_le hcarry⟩
  · intro column hcolumn
    have hcarry := Words.mem_productColumns_carry hcolumn
    exact ⟨column.total_le hcarry, hcarry, Words.carry_lt _⟩
  · exact Ident.bitGap_lt places
  · exact Words.spillPlaces_lt (Ident.bitGap_lt places)
  · exact wordGap_lt
  · intro hne state hstate
    have hpos := Nat.pos_of_ne_zero hne
    have hroom := (a.hasRoom_longDivision hpos state hstate).remainder_lt
    exact ⟨hroom, Ident.toNat_entered hroom false⟩

/-- The bounds are attained: by the sum and the product of the greatest number with itself, and by
its division by the least odd number above 2^159, before the last step. -/
theorem ranges_filled_by_greatest :
    let divisor : Ident := ⟨#v[0x80000000, 0, 0, 0, 1]⟩
    let sumColumn : Words.SumColumn := ⟨0xFFFFFFFF, 0xFFFFFFFF, 1⟩
    let productColumn : Words.ProductColumn := ⟨0xFFFFFFFF, 0xFFFFFFFF, 0xFFFFFFFF, 0xFFFFFFFF⟩
    let state : Division :=
      ⟨Ident.zero, ⟨#v[0x7FFFFFFF, 0xFFFFFFFF, 0xFFFFFFFF, 0xFFFFFFFF, 0xFFFFFFFF]⟩⟩
    sumColumn ∈ Words.sumColumns 0 Ident.max.lowWords Ident.max.lowWords ∧
      sumColumn.left.toNat + sumColumn.right.toNat + sumColumn.carry.toNat = 2 ^ 33 - 1 ∧
      sumColumn.carry.toNat ≤ 1 ∧
      productColumn ∈
        Words.productColumns Ident.max.lowWords Ident.max.lowWords (List.replicate 5 0) ∧
      productColumn.left.toNat * productColumn.right.toNat + productColumn.standing.toNat +
        productColumn.carry.toNat = 2 ^ 64 - 1 ∧
      productColumn.carry.toNat < 2 ^ 32 ∧
      Words.bitGap 95 ≠ 0 ∧ (Words.spillPlaces (Words.bitGap 95)).toNat < 32 ∧
      (95 : UInt32) < 160 ∧ Words.wordGap 95 < 5 ∧ divisor.toNat ≠ 0 ∧
      state ∈ (Division.states divisor ⟨Ident.zero, Ident.zero⟩ Ident.max.bitsDown).dropLast ∧
      state.remainder.toNat = 2 ^ 159 - 1 ∧
      (state.remainder.shiftLeft 1).toNat = state.remainder.toNat * 2 := by
  intro divisor sumColumn productColumn state
  have hsum : sumColumn ∈ Words.sumColumns 0 Ident.max.lowWords Ident.max.lowWords :=
    List.mem_of_getElem? (i := 4) rfl
  have hproduct : productColumn ∈
      Words.productColumns Ident.max.lowWords Ident.max.lowWords (List.replicate 5 0) :=
    List.mem_of_getElem? (i := 6) rfl
  have hdivisor : divisor.toNat ≠ 0 := by decide
  have hstate : state ∈
      (Division.states divisor ⟨Ident.zero, Ident.zero⟩ Ident.max.bitsDown).dropLast := by
    decide +kernel
  have hbits : Words.bitGap 95 ≠ 0 := by decide
  have hplaces : (95 : UInt32) < 160 := by decide
  obtain ⟨hsums, hproducts, -, hshifts, -, -, hdivisions⟩ := arithmetic_stays_in_range
  have hcolumn := (hsums Ident.max Ident.max).2.2.2 sumColumn hsum
  have hcarry := ((hproducts Ident.max Ident.max).2 productColumn hproduct).2.1
  have hdoubles := ((hdivisions Ident.max divisor).2 hdivisor state hstate).2
  have hsumFull :
      sumColumn.left.toNat + sumColumn.right.toNat + sumColumn.carry.toNat = 2 ^ 33 - 1 := by
    decide
  have hproductFull : productColumn.left.toNat * productColumn.right.toNat +
      productColumn.standing.toNat + productColumn.carry.toNat = 2 ^ 64 - 1 := by decide
  have hstateFull : state.remainder.toNat = 2 ^ 159 - 1 := by decide +kernel
  exact ⟨hsum, hsumFull, hcolumn.2.1, hproduct, hproductFull, hcarry, hbits, (hshifts 95).2.1 hbits,
    hplaces, (hshifts 95).2.2 hplaces, hdivisor, hstate, hstateFull, hdoubles⟩

end Checked

end Ident160
