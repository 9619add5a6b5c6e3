import Ident160.Proofs.Decoding
import Ident160.Proofs.Layers

/-!
The places of the settings. Each of the three settings has a section and a name there in a
document, and a variable in the environment. A document is read as the settings that stand at these
places, and whatever else it holds does not count.
-/

namespace Ident160

open Document

inductive Setting where
  | uppercase
  | showLimbs
  | seed
deriving DecidableEq

namespace Setting

def sectionName : Setting → String
  | .uppercase | .showLimbs => "display"
  | .seed => "random"

def name : Setting → String
  | .uppercase => "uppercase"
  | .showLimbs => "show_limbs"
  | .seed => "seed"

def path : Setting → String
  | .uppercase => "display.uppercase"
  | .showLimbs => "display.show_limbs"
  | .seed => "random.seed"

def variableName : Setting → String
  | .uppercase => "UINT160_PRINTER_DISPLAY__UPPERCASE"
  | .showLimbs => "UINT160_PRINTER_DISPLAY__SHOW_LIMBS"
  | .seed => "UINT160_PRINTER_RANDOM__SEED"

theorem ofName_path (p : Setting) :
    KeyPath.ofName p.path = [.key p.sectionName, .key p.name] := by
  cases p <;> decide +kernel

/-- The variable of a setting is for the path of the setting. -/
theorem settingName_variableName (p : Setting) :
    Variables.settingName p.variableName = some p.path := by
  cases p <;> decide +kernel

/-- No two settings have the same place. -/
theorem eq_of_places {p q : Setting} (hsection : p.sectionName = q.sectionName)
    (hname : p.name = q.name) : p = q := by
  cases p <;> cases q <;> simp [sectionName, name] at hsection hname <;> rfl

theorem not_isBare_path (p : Setting) : ¬ IsBare p.path := by
  cases p <;> decide +kernel

def valueIn (p : Setting) (v : Value) : Option Value :=
  (v.lookup p.sectionName).bind fun members => members.lookup p.name

/-- What an entry gives the setting: the value itself, or the last one in its section. -/
def givenBy (p : Setting) (entry : String × Value) : Option Value :=
  if entry.1 = p.path then some entry.2
  else if entry.1 = p.sectionName then entry.2.entries.reverse.lookup p.name
  else none

theorem givenBy_path (p q : Setting) (v : Value) :
    p.givenBy (q.path, v) = if p = q then some v else none := by
  cases p <;> cases q <;> rfl

theorem givenBy_bare (p : Setting) {key : String} (hbare : IsBare key) (v : Value) :
    p.givenBy (key, v) =
      if key = p.sectionName then v.entries.reverse.lookup p.name else none := by
  have hne : key ≠ p.path := by
    rintro rfl
    exact p.not_isBare_path hbare
  exact if_neg hne

end Setting

/-- An entry is the path of a setting with its value, or has a bare name. Under the name of a
section it is a table, in which no setting is a table again. -/
inductive IsOrderly : String × Value → Prop where
  | path (p : Setting) {v : Value} (hplain : v.IsPlain) : IsOrderly (p.path, v)
  | bare {key : String} {v : Value} (hbare : IsBare key)
      (htable : ∀ p : Setting, key = p.sectionName →
        ∃ es, v = .table es ∧ ∀ w, (p.name, w) ∈ es → w.IsPlain) : IsOrderly (key, v)

theorem IsOrderly.not_index_mem {entry : String × Value} (h : IsOrderly entry) (i : Int) :
    .index i ∉ KeyPath.ofName entry.1 := by
  cases h with
  | path p hplain => simp [p.ofName_path]
  | bare hbare htable => simp [ofName_of_bare hbare]

/-- Every section is there, and is a table. -/
def HasSections (v : Value) : Prop :=
  ∀ p : Setting, ∃ es, v.lookup p.sectionName = some (.table es)

theorem lookup_getD (found : Option Value) (name : String) :
    (found.getD .null).entries.lookup name = found.bind fun v => v.lookup name := by
  cases found with
  | none => rfl
  | some v => rfl

theorem lookup_coverAt_path (below : Value) (q : Setting) (v : Value) (name : String) :
    (coverAt below (q.path, v)).lookup name =
      if name = q.sectionName then
        some (.table (Value.alterEntry q.name (Value.cover v)
          ((below.lookup q.sectionName).getD .null).entries))
      else below.lookup name :=
  @lookup_coverAt (q.path, v) _ _ q.ofName_path below name

theorem lookup_coverAt_bare (below : Value) {key : String} (hbare : IsBare key) (v : Value)
    (name : String) :
    (coverAt below (key, v)).lookup name =
      if name = key then some (Value.cover v ((below.lookup key).getD .null))
      else below.lookup name :=
  @lookup_coverAt (key, v) _ _ (ofName_of_bare hbare) below name

/-- An entry gives a setting its value, or leaves it alone. -/
theorem valueIn_coverAt {entry : String × Value} (h : IsOrderly entry) (below : Value)
    (p : Setting) : p.valueIn (coverAt below entry) = (p.givenBy entry).or (p.valueIn below) := by
  cases h with
  | @path q v hplain =>
    rw [Setting.valueIn, lookup_coverAt_path, Setting.givenBy_path]
    by_cases hsection : p.sectionName = q.sectionName
    · have hmember := lookup_alterEntry q.name (Value.cover v)
        ((below.lookup q.sectionName).getD .null).entries p.name
      rw [cover_plain hplain, lookup_getD, ← hsection] at hmember
      rw [if_pos hsection, Option.bind_some, ← hsection]
      by_cases hname : p.name = q.name
      · rw [if_pos (Setting.eq_of_places hsection hname), Option.some_or]
        rwa [if_pos hname] at hmember
      · have hne : p ≠ q := fun heq => hname (heq ▸ rfl)
        rw [if_neg hne, Option.none_or]
        rwa [if_neg hname] at hmember
    · have hne : p ≠ q := fun heq => hsection (heq ▸ rfl)
      rw [if_neg hsection, if_neg hne, Option.none_or, Setting.valueIn]
  | @bare key v hbare htable =>
    rw [Setting.valueIn, lookup_coverAt_bare below hbare, Setting.givenBy_bare p hbare]
    by_cases hsection : key = p.sectionName
    · obtain ⟨es, rfl, hplain⟩ := htable p hsection
      subst hsection
      rw [if_pos rfl, if_pos rfl, Option.bind_some, Setting.valueIn, ← lookup_getD]
      exact lookup_coverEntries hplain _
    · rw [if_neg hsection, if_neg (Ne.symm hsection), Option.none_or, Setting.valueIn]

/-- Orderly entries do not replace a section. -/
theorem hasSections_coverAt {entry : String × Value} (h : IsOrderly entry) {below : Value}
    (hbelow : HasSections below) : HasSections (coverAt below entry) := by
  intro p
  cases h with
  | @path q v hplain =>
    rw [lookup_coverAt_path]
    split
    · exact ⟨_, rfl⟩
    · exact hbelow p
  | @bare key v hbare htable =>
    rw [lookup_coverAt_bare below hbare]
    split
    · next hsection =>
      obtain ⟨es, rfl, -⟩ := htable p hsection.symm
      obtain ⟨members, hmembers⟩ :=
        coverEntries_eq_table es ((below.lookup key).getD .null).entries
      exact ⟨members, congrArg some hmembers⟩
    · exact hbelow p

/-- A layer of orderly entries gives a setting what its last entry for the setting gives, or leaves
it alone. -/
theorem coverAll_orderly {es : Entries} (h : ∀ entry ∈ es, IsOrderly entry) {below : Value}
    (hbelow : HasSections below) :
    HasSections (coverAll below es) ∧
      ∀ p : Setting,
        p.valueIn (coverAll below es) = (es.reverse.findSome? p.givenBy).or (p.valueIn below) := by
  -- the entry in front is laid first, so the induction is over the document below
  induction es generalizing below with
  | nil => exact ⟨hbelow, fun p => rfl⟩
  | cons entry es ih =>
    obtain ⟨hentry, hrest⟩ := List.forall_mem_cons.mp h
    obtain ⟨hsections, hvalues⟩ := ih hrest (hasSections_coverAt hentry hbelow)
    refine ⟨hsections, fun p => ?_⟩
    rw [coverAll_cons, hvalues, valueIn_coverAt hentry, List.reverse_cons, List.findSome?_append,
      Option.or_assoc, List.findSome?_singleton]

end Ident160
