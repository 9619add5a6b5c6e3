import Ident160.Host.Account
import Ident160.Host.Path
import Ident160.Release

/-!
Texts cut at separators. A separator cuts a text into the fields before it and the fields behind
it, and a text without one is a single field. The parts of a path between slashes and those of a
version between dashes are fields in this sense.
-/

namespace Ident160

namespace Account

variable {isSeparator : Char → Bool}

theorem fields_ne_nil (cs : List Char) : fields isSeparator cs ≠ [] := by
  induction cs with
  | nil => simp [fields]
  | cons c cs ih =>
    rw [fields]
    split
    · contradiction
    · split <;> simp

theorem fields_separator {c : Char} (hc : isSeparator c = true) (cs : List Char) :
    fields isSeparator (c :: cs) = [] :: fields isSeparator cs := by
  rw [fields]
  split
  · next hnil => exact absurd hnil (fields_ne_nil cs)
  · next field rest heq => rw [if_pos hc, heq]

/-- A separator parts the fields before it from those behind it. -/
theorem fields_append {c : Char} (hc : isSeparator c = true) (before after : List Char) :
    fields isSeparator (before ++ c :: after) =
      fields isSeparator before ++ fields isSeparator after := by
  induction before with
  | nil => exact fields_separator hc after
  | cons b before ih =>
    rw [List.cons_append, fields, fields, ih]
    cases hfields : fields isSeparator before with
    | nil => exact absurd hfields (fields_ne_nil before)
    | cons field rest =>
      simp only [List.cons_append]
      split <;> rfl

theorem fields_of_unbroken {cs : List Char} (h : ∀ c ∈ cs, isSeparator c = false) :
    fields isSeparator cs = [cs] := by
  induction cs with
  | nil => rfl
  | cons c cs ih =>
    obtain ⟨hc, hcs⟩ := List.forall_mem_cons.mp h
    rw [fields, ih hcs]
    exact if_neg (by simp [hc])

end Account

theorem Release.dashParts_eq_fields (cs : List Char) :
    dashParts cs = Account.fields (· = '-') cs := by
  induction cs with
  | nil => rfl
  | cons c cs ih =>
    rw [dashParts, Account.fields, ih]
    cases Account.fields (· = '-') cs with
    | nil => rfl
    | cons part parts => simp only [decide_eq_true_eq]

theorem Path.slashParts_eq_fields (cs : List Char) :
    slashParts cs = Account.fields (· = '/') cs := by
  induction cs with
  | nil => rfl
  | cons c cs ih =>
    rw [slashParts, Account.fields, ih]
    cases Account.fields (· = '/') cs with
    | nil => rfl
    | cons part parts => simp only [decide_eq_true_eq]

end Ident160
