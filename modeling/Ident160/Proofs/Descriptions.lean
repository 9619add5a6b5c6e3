import Ident160.Listing
import Ident160.Proofs.LimbRendering
import Mathlib.Algebra.GroupWithZero.Nat

/-!
Cutting the digits of a description. A text is cut where the UTF-8 form of a head of it ends, so a
text of ASCII characters is cut behind any number of them. The digits that settings show are such
a text, and long enough for five pieces: a value always has a description. Other texts have none
exactly if a cut would fall behind their end or into one of their characters.
-/

namespace Ident160

namespace Listing

def utf8Length (text : List Char) : Nat := (text.map Char.utf8Size).sum

theorem utf8Length_nil : utf8Length [] = 0 := rfl

theorem utf8Length_cons (c : Char) (text : List Char) :
    utf8Length (c :: text) = c.utf8Size + utf8Length text := List.sum_cons

theorem utf8Length_of_ascii {text : List Char} (h : ∀ c ∈ text, c.toNat < 128) :
    utf8Length text = text.length := by
  induction text with
  | nil => rfl
  | cons c text ih =>
    obtain ⟨hc, htext⟩ := List.forall_mem_cons.mp h
    have hsize : c.utf8Size = 1 := by
      rw [Char.utf8Size_eq_one_iff, UInt32.le_iff_toNat_le]
      exact Nat.le_of_lt_succ hc
    rw [utf8Length_cons, hsize, ih htext, List.length_cons, Nat.add_comm]

theorem cutAt_append (head rest : List Char) :
    cutAt (utf8Length head) (head ++ rest) = some (head, rest) := by
  induction head with
  | nil => rw [utf8Length_nil, List.nil_append, cutAt]
  | cons c head ih =>
    have hcons := utf8Length_cons c head
    obtain ⟨size, hsize⟩ := Nat.exists_eq_succ_of_ne_zero c.utf8Size_pos.ne'
    have hlength : utf8Length (c :: head) = size + utf8Length head + 1 := by omega
    have hfits : c.utf8Size ≤ size + utf8Length head + 1 := by omega
    have hbehind : size + utf8Length head + 1 - c.utf8Size = utf8Length head := by omega
    rw [hlength, List.cons_append, cutAt, if_pos hfits, hbehind, ih]
    rfl

variable {text : List Char}

theorem cutAt_of_ascii {size : Nat} (h : ∀ c ∈ text, c.toNat < 128) (hsize : size ≤ text.length) :
    cutAt size text = some (text.take size, text.drop size) := by
  have hhead : ∀ c ∈ text.take size, c.toNat < 128 := fun c hc => h c (List.mem_of_mem_take hc)
  have hlength : utf8Length (text.take size) = size := by
    rw [utf8Length_of_ascii hhead, List.length_take, Nat.min_eq_left hsize]
  have hcut := cutAt_append (text.take size) (text.drop size)
  rwa [hlength, List.take_append_drop] at hcut

/-- Piece `i` is cut from the text behind the eight characters of each piece before it. -/
theorem pieces_of_ascii {n : Nat} (h : ∀ c ∈ text, c.toNat < 128) (hlength : 8 * n ≤ text.length) :
    pieces n text = some ((List.range n).map fun i => (text.drop (8 * i)).take 8) := by
  induction n generalizing text with
  | zero => rfl
  | succ n ih =>
    have hrest : ∀ c ∈ text.drop 8, c.toNat < 128 := fun c hc => h c (List.mem_of_mem_drop hc)
    have hcut : cutAt 8 text = some (text.take 8, text.drop 8) := cutAt_of_ascii h (by omega)
    have htail := ih hrest (by rw [List.length_drop]; omega)
    rw [pieces, hcut]
    simp only [Option.bind_eq_bind, Option.bind_some, htail, Option.pure_def,
      List.range_succ_eq_map, List.map_cons, List.map_map, Nat.mul_zero, List.drop_zero,
      List.drop_drop]
    congr 3
    funext i
    simp only [Function.comp_apply, Nat.mul_succ, Nat.add_comm]

/-- A text of ASCII characters is cut into its first eight characters and the others, and into five
pieces of eight. -/
theorem describe_of_ascii {d : Description} (showLimbs : Bool)
    (h : ∀ c ∈ d.hex.toList, c.toNat < 128) (hlength : 40 ≤ d.hex.toList.length) :
    describe d showLimbs = some (String.ofList
      (headLine (d.hex.toList.take 8) (d.hex.toList.drop 8) ++
        if showLimbs then
          limbLines ((List.range 5).map fun i => (d.hex.toList.drop (8 * i)).take 8) d
        else [])) := by
  have hcut := cutAt_of_ascii h (Nat.le_trans (by decide : 8 ≤ 40) hlength)
  have hpieces := pieces_of_ascii (n := 5) h hlength
  unfold describe
  rw [hcut, hpieces]
  cases showLimbs with
  | true => rfl
  | false =>
    rw [if_neg Bool.false_ne_true, List.append_nil]
    rfl

/-! ### Places where a text cannot be cut -/

/-- No character of the text starts or ends behind so many bytes. -/
inductive Misplaced : List Char → Nat → Prop
  | beyond (text : List Char) (offset : Nat) (behind_end : utf8Length text < offset) :
      Misplaced text offset
  | inside (before after : List Char) (c : Char) (offset : Nat)
      (behind_start : utf8Length before < offset)
      (before_end : offset < utf8Length before + c.utf8Size) :
      Misplaced (before ++ c :: after) offset

theorem not_misplaced_zero (text : List Char) : ¬ Misplaced text 0 := by
  intro h
  cases h with
  | beyond _ _ hend => exact absurd hend (Nat.not_lt_zero _)
  | inside _ _ _ _ hstart _ => exact absurd hstart (Nat.not_lt_zero _)

theorem misplaced_cons {c : Char} {text : List Char} {offset : Nat} :
    Misplaced (c :: text) (c.utf8Size + offset) ↔ Misplaced text offset := by
  constructor
  · intro h
    generalize hwhole : c :: text = whole at h
    cases h with
    | beyond _ _ hend =>
      subst hwhole
      rw [utf8Length_cons] at hend
      exact .beyond text offset (by omega)
    | inside before after d _ hstart hend =>
      cases before with
      | nil =>
        obtain ⟨rfl, -⟩ := List.cons.inj hwhole
        rw [utf8Length_nil] at hend
        omega
      | cons b before =>
        obtain ⟨rfl, rfl⟩ := List.cons.inj hwhole
        rw [utf8Length_cons] at hstart hend
        exact .inside before after d offset (by omega) (by omega)
  · intro h
    cases h with
    | beyond _ _ hend => exact .beyond _ _ (by rw [utf8Length_cons]; omega)
    | inside before after d _ hstart hend =>
      refine .inside (c :: before) after d _ ?_ ?_
      · rw [utf8Length_cons]
        omega
      · rw [utf8Length_cons]
        omega

/-- What stands in front moves a cut by its own bytes. -/
theorem misplaced_append {head rest : List Char} {offset : Nat} :
    Misplaced (head ++ rest) (utf8Length head + offset) ↔ Misplaced rest offset := by
  induction head with
  | nil => rw [utf8Length_nil, Nat.zero_add, List.nil_append]
  | cons c head ih => rw [utf8Length_cons, Nat.add_assoc, List.cons_append, misplaced_cons, ih]

theorem cutAt_sound {size : Nat} {head rest : List Char}
    (h : cutAt size text = some (head, rest)) : text = head ++ rest ∧ utf8Length head = size := by
  fun_induction cutAt size text generalizing head with
  | case1 text =>
    obtain ⟨rfl, rfl⟩ := Prod.mk.inj (Option.some.inj h)
    exact ⟨rfl, rfl⟩
  | case2 => simp at h
  | case3 size c text hfits ih =>
    obtain ⟨⟨front, behind⟩, hcut, hpair⟩ := Option.map_eq_some_iff.mp h
    obtain ⟨rfl, rfl⟩ := Prod.mk.inj hpair
    obtain ⟨rfl, hlength⟩ := ih hcut
    refine ⟨rfl, ?_⟩
    rw [utf8Length_cons, hlength]
    omega
  | case4 => simp at h

/-- A text can be cut exactly where a character ends or the next one starts. -/
theorem cutAt_eq_none_iff {size : Nat} : cutAt size text = none ↔ Misplaced text size := by
  fun_induction cutAt size text with
  | case1 text => simp [not_misplaced_zero]
  | case2 size => simpa using Misplaced.beyond [] (size + 1) (Nat.succ_pos size)
  | case3 size c text hfits ih =>
    have hshift : c.utf8Size + (size + 1 - c.utf8Size) = size + 1 := by omega
    rw [Option.map_eq_none_iff, ih, ← misplaced_cons, hshift]
  | case4 size c text hfits =>
    have hend : size + 1 < utf8Length [] + c.utf8Size := by
      rw [utf8Length_nil]
      omega
    simpa using Misplaced.inside [] text c (size + 1) (Nat.succ_pos size) hend

/-- One misplaced cut spoils all pieces. -/
theorem pieces_eq_none_iff {n : Nat} :
    pieces n text = none ↔ ∃ k < n, Misplaced text (8 * (k + 1)) := by
  induction n generalizing text with
  | zero => simp [pieces]
  | succ n ih =>
    cases hcut : cutAt 8 text with
    | none =>
      have hpieces : pieces (n + 1) text = none := by
        rw [pieces, hcut]
        rfl
      simp only [hpieces, true_iff]
      exact ⟨0, Nat.succ_pos n, cutAt_eq_none_iff.mp hcut⟩
    | some cut =>
      obtain ⟨head, rest⟩ := cut
      have hpieces : pieces (n + 1) text = (pieces n rest).map (head :: ·) := by
        simp only [pieces, hcut, Option.bind_eq_bind, Option.bind_some]
        cases pieces n rest <;> rfl
      have hfirst : ¬ Misplaced text 8 := by
        rw [← cutAt_eq_none_iff, hcut]
        exact Option.some_ne_none _
      obtain ⟨rfl, hlength⟩ := cutAt_sound hcut
      -- Behind the first piece, a place of the text is one of the rest, eight bytes earlier.
      have hshift : ∀ k, Misplaced (head ++ rest) (8 * (k + 1 + 1)) ↔
          Misplaced rest (8 * (k + 1)) := by
        intro k
        have hsum : 8 * (k + 1 + 1) = utf8Length head + 8 * (k + 1) := by omega
        rw [hsum, misplaced_append]
      rw [hpieces, Option.map_eq_none_iff, ih]
      constructor
      · intro h
        obtain ⟨k, hk, hmisplaced⟩ := h
        exact ⟨k + 1, Nat.succ_lt_succ hk, (hshift k).mpr hmisplaced⟩
      · intro h
        obtain ⟨k, hk, hmisplaced⟩ := h
        cases k with
        | zero => exact absurd hmisplaced hfirst
        | succ k => exact ⟨k, Nat.lt_of_succ_lt_succ hk, (hshift k).mp hmisplaced⟩

/-- The bytes behind which a description cuts its digits. -/
def cuts (showLimbs : Bool) : List Nat := 8 :: if showLimbs then [16, 24, 32, 40] else []

/-- A description cannot be told exactly if one of its cuts is misplaced. -/
theorem describe_eq_none_iff {d : Description} {showLimbs : Bool} :
    describe d showLimbs = none ↔ ∃ offset ∈ cuts showLimbs, Misplaced d.hex.toList offset := by
  cases showLimbs with
  | false =>
    have hcut : describe d false = none ↔ cutAt 8 d.hex.toList = none := by
      rw [describe]
      cases cutAt 8 d.hex.toList <;> simp
    rw [hcut, cutAt_eq_none_iff]
    simp [cuts]
  | true =>
    have hpieces : describe d true = none ↔
        cutAt 8 d.hex.toList = none ∨ pieces 5 d.hex.toList = none := by
      rw [describe]
      cases cutAt 8 d.hex.toList with
      | none => simp
      | some cut => cases pieces 5 d.hex.toList <;> simp
    have hcuts : cuts true = (List.range 5).map fun k => 8 * (k + 1) := by decide
    rw [hpieces, cutAt_eq_none_iff, pieces_eq_none_iff, hcuts]
    simp only [List.mem_map, List.mem_range, exists_exists_and_eq_and]
    constructor
    · intro h
      rcases h with hfirst | hsome
      · exact ⟨0, by decide, hfirst⟩
      · exact hsome
    · exact Or.inr

end Listing

namespace Settings

variable (settings : Settings) (a : Ident)

def digits : List Char := (settings.describe a).hex.toList

/-- Whatever the settings, their digits for a value are 40 hexadecimal ones. -/
theorem digits_spec : (settings.digits a).length = 40 ∧ Digit.AllDigits 16 (settings.digits a) := by
  have hread := settings.read_describe_hex a
  rw [Ident.read, Ident.readChars_eq_ok_iff] at hread
  exact ⟨hread.1, hread.2.1⟩

theorem not_mem_digits {c : Char} (hc : Digit.value? 16 c = none) : c ∉ settings.digits a := by
  intro hmem
  have hdigit := (settings.digits_spec a).2 c hmem
  rw [hc] at hdigit
  contradiction

/-- The characters that tell a value on the terminal, with its limbs or without them. -/
def described (showLimbs : Bool) : List Char :=
  Listing.headLine ((settings.digits a).take 8) ((settings.digits a).drop 8) ++
    if showLimbs then
      Listing.limbLines ((List.range 5).map fun i => ((settings.digits a).drop (8 * i)).take 8)
        (settings.describe a)
    else []

/-- The digits can be cut, so a value always has a description. -/
theorem describe_eq (showLimbs : Bool) :
    Listing.describe (settings.describe a) showLimbs =
      some (String.ofList (settings.described a showLimbs)) := by
  obtain ⟨hlength, hdigits⟩ := settings.digits_spec a
  exact Listing.describe_of_ascii showLimbs (Ident.ascii_of_allDigits hdigits) hlength.ge

end Settings

end Ident160
