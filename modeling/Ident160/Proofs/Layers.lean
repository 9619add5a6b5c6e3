import Ident160.Document.KeyPath
import Mathlib.Data.List.TakeWhile

/-!
How a layer changes a document. An entry changes what stands under the first name of its path, and
nothing else; what it makes of that depends on nothing else either. In a table that is laid over
another, the last value that a name has counts. A layer fits a document if there is room for the
arrays on the paths of its entries, and only an index beyond the bound can take more room.
-/

namespace Ident160.Document

open Value

/-- The value is no table, so that it covers whatever stood in its place. -/
def Value.IsPlain : Value → Prop
  | .table _ => False
  | _ => True

theorem cover_plain {v : Value} (h : v.IsPlain) (below : Value) : cover v below = v := by
  cases v with
  | table es => exact h.elim
  | null | boolean b | integer n | float x | text s | array items => simp [cover]

/-! ### Entries -/

theorem lookup_cons (key : String) (v : Value) (es : Entries) (name : String) :
    List.lookup name ((key, v) :: es) = if name = key then some v else es.lookup name := by
  by_cases h : name = key
  · simp [h]
  · rw [List.lookup_cons, beq_false_of_ne h, if_neg h]

theorem mem_of_lookup {es : Entries} {name : String} {v : Value} (h : es.lookup name = some v) :
    (name, v) ∈ es := by
  obtain ⟨front, back, rfl, -⟩ := List.lookup_eq_some_iff.mp h
  simp

theorem lookup_of_mem {es : Entries} {name : String} {v : Value} (h : (name, v) ∈ es) :
    ∃ w, es.lookup name = some w := by
  rw [← Option.isSome_iff_exists, List.lookup_isSome_iff]
  exact ⟨(name, v), h, beq_self_eq_true name⟩

theorem lookup_alterEntry (name : String) (f : Value → Value) (es : Entries) (key : String) :
    (alterEntry name f es).lookup key =
      if key = name then some (f ((es.lookup name).getD .null)) else es.lookup key := by
  induction es with
  | nil => exact lookup_cons name _ [] key
  | cons entry es ih =>
    obtain ⟨first, v⟩ := entry
    rw [alterEntry]
    by_cases hfirst : first = name
    · subst hfirst
      rw [if_pos rfl, lookup_cons, lookup_cons, lookup_cons, if_pos rfl, Option.getD_some]
      by_cases hkey : key = first
      · rw [if_pos hkey, if_pos hkey]
      · rw [if_neg hkey, if_neg hkey, if_neg hkey]
    · rw [if_neg hfirst, lookup_cons, lookup_cons, lookup_cons, if_neg (Ne.symm hfirst), ih]
      by_cases hkey : key = first
      · subst hkey
        rw [if_pos rfl, if_neg hfirst, if_pos rfl]
      · rw [if_neg hkey, if_neg hkey]

/-- A table over a table: a name has its last value in the upper one, or else its value in the
lower one. -/
theorem lookup_coverEntries {name : String} {es : Entries}
    (h : ∀ v, (name, v) ∈ es → v.IsPlain) (below : Entries) :
    (coverEntries es below).lookup name = (es.reverse.lookup name).or (below.lookup name) := by
  induction es generalizing below with
  | nil => rfl
  | cons entry es ih =>
    obtain ⟨first, v⟩ := entry
    have hrest : ∀ w, (name, w) ∈ es → w.IsPlain := fun w hw => h w (List.mem_cons_of_mem _ hw)
    rw [coverEntries, ih hrest, lookup_alterEntry, List.reverse_cons, List.lookup_append,
      Option.or_assoc, lookup_cons]
    by_cases hname : name = first
    · subst hname
      rw [if_pos rfl, if_pos rfl, cover_plain (h v List.mem_cons_self), Option.some_or]
    · rw [if_neg hname, if_neg hname, List.lookup_nil, Option.none_or]

theorem coverEntries_eq_table (es below : Entries) :
    ∃ members, coverEntries es below = .table members := by
  induction es generalizing below with
  | nil => exact ⟨below, rfl⟩
  | cons entry es ih => exact ih (alterEntry entry.1 (cover entry.2) below)

/-! ### Paths -/

/-- A path starts with a name, whether the text has the form of a path or not. -/
theorem ofName_starts (name : String) :
    ∃ key path, KeyPath.ofName name = .key key :: path := by
  unfold KeyPath.ofName KeyPath.read
  cases KeyPath.readName name.toList with
  | none => exact ⟨name, [], rfl⟩
  | some found =>
    obtain ⟨first, rest⟩ := found
    cases hsteps : KeyPath.readSteps rest.length rest with
    | none => exact ⟨name, [], by simp [hsteps]⟩
    | some path => exact ⟨first, path, by simp [hsteps]⟩

/-- The name has only the characters of a name, and so is no path. -/
def IsBare (name : String) : Prop := name.toList.all KeyPath.isNameChar = true

instance (name : String) : Decidable (IsBare name) := inferInstanceAs (Decidable (_ = true))

/-- A bare name stands for itself. -/
theorem ofName_of_bare {name : String} (hbare : IsBare name) :
    KeyPath.ofName name = [.key name] := by
  have h : ∀ c ∈ name.toList, KeyPath.isNameChar c = true := List.all_eq_true.mp hbare
  have htake : name.toList.takeWhile KeyPath.isNameChar = name.toList :=
    List.takeWhile_eq_self_iff.mpr h
  have hdrop : name.toList.dropWhile KeyPath.isNameChar = [] := List.dropWhile_eq_nil_iff.mpr h
  unfold KeyPath.ofName KeyPath.read KeyPath.readName
  rw [htake, hdrop]
  cases hchars : name.toList with
  | nil => rfl
  | cons c cs =>
    have hname : String.ofList (c :: cs) = name := by rw [← hchars, String.ofList_toList]
    simp [KeyPath.readSteps, hname]

/-- An entry is laid under the first name of its path, and leaves all other names alone. -/
theorem lookup_coverAt {entry : String × Value} {key : String} {path : List Step}
    (h : KeyPath.ofName entry.1 = .key key :: path) (below : Value) (name : String) :
    (coverAt below entry).lookup name =
      if name = key then some (alterAt path (cover entry.2) ((below.lookup key).getD .null))
      else below.lookup name := by
  rw [coverAt, alter, h, alterAt]
  exact lookup_alterEntry key _ below.entries name

/-- What an entry makes of a name depends on what stood under this name only. -/
theorem lookup_coverAt_congr {v w : Value} {name : String} (h : v.lookup name = w.lookup name)
    (entry : String × Value) : (coverAt v entry).lookup name = (coverAt w entry).lookup name := by
  obtain ⟨key, path, hpath⟩ := ofName_starts entry.1
  rw [lookup_coverAt hpath, lookup_coverAt hpath]
  by_cases hname : name = key
  · subst hname
    rw [if_pos rfl, if_pos rfl, h]
  · rw [if_neg hname, if_neg hname, h]

/-! ### Layers -/

theorem coverAll_cons (below : Value) (entry : String × Value) (es : Entries) :
    coverAll below (entry :: es) = coverAll (coverAt below entry) es := rfl

theorem coverAll_append (below : Value) (front back : Entries) :
    coverAll below (front ++ back) = coverAll (coverAll below front) back :=
  List.foldl_append

theorem lookup_coverAll_congr {v w : Value} {name : String} (h : v.lookup name = w.lookup name)
    (es : Entries) : (coverAll v es).lookup name = (coverAll w es).lookup name := by
  induction es generalizing v w with
  | nil => exact h
  | cons entry es ih => exact ih (lookup_coverAt_congr h entry)

/-- The entries whose paths start elsewhere leave a name alone. -/
theorem lookup_coverAll_of_aside {es : Entries} {name : String}
    (h : ∀ entry ∈ es, (KeyPath.ofName entry.1).head? ≠ some (.key name)) (below : Value) :
    (coverAll below es).lookup name = below.lookup name := by
  induction es generalizing below with
  | nil => rfl
  | cons entry es ih =>
    obtain ⟨hentry, hrest⟩ := List.forall_mem_cons.mp h
    obtain ⟨key, path, hpath⟩ := ofName_starts entry.1
    have hne : name ≠ key := by
      intro heq
      rw [hpath, heq] at hentry
      exact hentry rfl
    rw [coverAll_cons, ih hrest, lookup_coverAt hpath, if_neg hne]

/-! ### Room -/

section

variable {capacity : Nat}

/-- There is room for all arrays that the layer makes longer. -/
def Fits (capacity : Nat) (below : Value) (es : Entries) : Prop :=
  coverAllWithin capacity below es = some (coverAll below es)

theorem fits_nil (capacity : Nat) (below : Value) : Fits capacity below [] := rfl

theorem fits_cons {below : Value} {entry : String × Value} {es : Entries} :
    Fits capacity below (entry :: es) ↔
      addressable capacity (KeyPath.ofName entry.1) below = true ∧
        Fits capacity (coverAt below entry) es := by
  rw [Fits, coverAllWithin, List.foldlM_cons, coverWithin]
  split
  · next hroom => simp only [hroom, true_and]; rfl
  · next hroom => simp [hroom]

theorem fits_append {below : Value} {front back : Entries} :
    Fits capacity below (front ++ back) ↔
      Fits capacity below front ∧ Fits capacity (coverAll below front) back := by
  induction front generalizing below with
  | nil => exact ⟨fun h => ⟨rfl, h⟩, fun h => h.2⟩
  | cons entry front ih =>
    rw [List.cons_append, fits_cons, fits_cons, ih, coverAll_cons, and_assoc]

/-- A layer within the bound is laid like one without a bound. -/
theorem coverAllWithin_eq_some_iff {below v : Value} {es : Entries} :
    coverAllWithin capacity below es = some v ↔
      Fits capacity below es ∧ coverAll below es = v := by
  constructor
  · intro h
    have hsame : coverAll below es = v := by
      induction es generalizing below with
      | nil => exact Option.some.inj h
      | cons entry es ih =>
        obtain ⟨middle, hentry, hrest⟩ := Option.bind_eq_some_iff.mp h
        rw [coverWithin] at hentry
        split at hentry
        · obtain rfl := Option.some.inj hentry
          exact ih hrest
        · cases hentry
    refine ⟨?_, hsame⟩
    rw [Fits, hsame]
    exact h
  · rintro ⟨hfits, rfl⟩
    exact hfits

/-- Where no index on the path is too great, no array grows beyond the bound. -/
theorem addressable_of_within {path : List Step}
    (h : ∀ i, Step.index i ∈ path → itemsFor i ≤ capacity) (v : Value) :
    addressable capacity path v = true := by
  induction path generalizing v with
  | nil => rfl
  | cons step path ih =>
    have hpath := ih fun i hi => h i (List.mem_cons_of_mem _ hi)
    cases step with
    | key name => exact hpath _
    | index i =>
      have hroom : itemsFor i ≤ max capacity v.items.length :=
        le_trans (h i List.mem_cons_self) (le_max_left _ _)
      simp only [addressable, hpath, hroom, decide_true, Bool.and_true]

/-- Entries without great indices fit everywhere. -/
theorem fits_of_within {es : Entries}
    (h : ∀ entry ∈ es, ∀ i, Step.index i ∈ KeyPath.ofName entry.1 → itemsFor i ≤ capacity)
    (below : Value) : Fits capacity below es := by
  induction es generalizing below with
  | nil => exact fits_nil capacity below
  | cons entry es ih =>
    obtain ⟨hentry, hrest⟩ := List.forall_mem_cons.mp h
    exact fits_cons.mpr ⟨addressable_of_within hentry below, ih hrest _⟩

/-- Where a layer does not fit, one of its entries has an index that is too great. -/
theorem exists_index_of_not_fits {below : Value} {es : Entries} (h : ¬ Fits capacity below es) :
    ∃ entry ∈ es, ∃ i, Step.index i ∈ KeyPath.ofName entry.1 ∧ capacity < itemsFor i := by
  by_contra hnone
  refine h (fits_of_within ?_ below)
  intro entry hentry i hi
  by_contra hgreat
  exact hnone ⟨entry, hentry, i, hi, Nat.lt_of_not_le hgreat⟩

/-- Whether there is room for an entry depends on what stands under the first name only. -/
theorem addressable_congr {v w : Value} {key : String} {path : List Step}
    (h : v.lookup key = w.lookup key) :
    addressable capacity (.key key :: path) v = addressable capacity (.key key :: path) w := by
  rw [addressable, addressable, h]

/-- A layer that leaves a name aside fits as well if something else stands under this name. -/
theorem Fits.congr_aside {v w : Value} {name : String} {es : Entries} (hfits : Fits capacity v es)
    (haside : ∀ entry ∈ es, (KeyPath.ofName entry.1).head? ≠ some (.key name))
    (h : ∀ other, other ≠ name → v.lookup other = w.lookup other) : Fits capacity w es := by
  induction es generalizing v w with
  | nil => exact fits_nil capacity w
  | cons entry es ih =>
    obtain ⟨hentry, hrest⟩ := List.forall_mem_cons.mp haside
    obtain ⟨key, path, hpath⟩ := ofName_starts entry.1
    obtain ⟨hroom, hfits⟩ := fits_cons.mp hfits
    have hne : key ≠ name := by
      rintro rfl
      rw [hpath] at hentry
      exact hentry rfl
    refine fits_cons.mpr ⟨?_, ih hfits hrest ?_⟩
    · rw [hpath] at hroom ⊢
      rw [← addressable_congr (h key hne)]
      exact hroom
    · intro other hother
      exact lookup_coverAt_congr (h other hother) entry

end

end Ident160.Document
