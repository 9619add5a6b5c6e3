import Ident160.Proofs.DocumentPlaces
import Ident160.Proofs.SettingPlaces
import Ident160.Proofs.VariableValues

/-!
Which layer a setting comes from. The environment, the user's file and the defaults may each have a
value for it, and the first of them that has one decides, for each setting on its own. A chosen file
stands over the defaults alone.
-/

namespace Ident160

open Document

structure Choices where
  uppercase : Option Bool := none
  showLimbs : Option Bool := none
  seed : Option UInt64 := none

namespace Choices

def value (c : Choices) : Setting → Option Value
  | .uppercase => c.uppercase.map .boolean
  | .showLimbs => c.showLimbs.map .boolean
  | .seed => c.seed.map fun seed => .integer seed.toNat

/-- The choices of two layers together: the lower one counts where the upper one has no value. -/
def overlay (upper lower : Choices) : Choices where
  uppercase := upper.uppercase.or lower.uppercase
  showLimbs := upper.showLimbs.or lower.showLimbs
  seed := upper.seed.or lower.seed

def settings (c : Choices) : Settings where
  display := { uppercase := c.uppercase.getD true, showLimbs := c.showLimbs.getD true }
  random := { seed := c.seed }

theorem value_overlay (upper lower : Choices) (p : Setting) :
    (upper.overlay lower).value p = (upper.value p).or (lower.value p) := by
  cases p with
  | uppercase => cases h : upper.uppercase <;> simp [value, overlay, h]
  | showLimbs => cases h : upper.showLimbs <;> simp [value, overlay, h]
  | seed => cases h : upper.seed <;> simp [value, overlay, h]

/-- The value of a setting is no table. -/
theorem isPlain_of_value {c : Choices} {p : Setting} {v : Value} (h : c.value p = some v) :
    v.IsPlain := by
  cases p <;>
  · obtain ⟨_, -, rfl⟩ := Option.map_eq_some_iff.mp h
    trivial

end Choices

/-! ### Defaults -/

def Setting.default : Setting → Value
  | .uppercase | .showLimbs => .boolean true
  | .seed => .null

theorem defaultDocument_eq : Settings.defaultDocument = .table ({} : Settings).entries := by
  have hdisplay : KeyPath.ofName "display" = [.key "display"] :=
    ofName_of_bare (by decide +kernel)
  have hrandom : KeyPath.ofName "random" = [.key "random"] := ofName_of_bare (by decide +kernel)
  simp only [Settings.defaultDocument, Settings.entries, coverAll_cons, coverAt, hdisplay, hrandom]
  rfl

theorem decodeTruth_choice (choice : Option Bool) :
    Settings.decodeTruth true ((choice.map Value.boolean).or (some (.boolean true))) =
      .ok (choice.getD true) := by
  cases choice <;> rfl

theorem decodeSeed_choice (choice : Option UInt64) :
    Settings.decodeSeed ((choice.map fun seed => Value.integer seed.toNat).or (some .null)) =
      .ok choice := by
  cases choice with
  | none => rfl
  | some seed => simp [Settings.decodeSeed, Settings.seedOf]

/-- The document has every section, and in it the chosen value of each setting, or its default. -/
structure Holds (v : Value) (c : Choices) : Prop where
  sections : HasSections v
  values : ∀ p : Setting, p.valueIn v = (c.value p).or (some p.default)

/-- A document is read as the settings that it holds. -/
theorem Holds.decode {v : Value} {c : Choices} (h : Holds v c) :
    Settings.decode v = .ok c.settings := by
  obtain ⟨display, hdisplay⟩ := h.sections .uppercase
  obtain ⟨random, hrandom⟩ := h.sections .seed
  have hmember : ∀ {p : Setting} {es : Entries}, v.lookup p.sectionName = some (.table es) →
      es.lookup p.name = (c.value p).or (some p.default) := by
    intro p es hes
    rw [← h.values p, Setting.valueIn, hes]
    rfl
  -- the first two settings share a section, which is therefore looked up once
  have huppercase : display.lookup "uppercase" = _ := hmember (p := .uppercase) hdisplay
  have hshowLimbs : display.lookup "show_limbs" = _ := hmember (p := .showLimbs) hdisplay
  have hseed : random.lookup "seed" = _ := hmember (p := .seed) hrandom
  dsimp only [Setting.sectionName] at hdisplay hrandom
  rw [Settings.decode_eq_ok_iff, hdisplay, hrandom, Option.getD_some, Option.getD_some,
    Settings.decodeDisplay_table, Settings.decodeRandom_table, huppercase, hshowLimbs, hseed]
  exact ⟨⟨decodeTruth_choice c.uppercase, decodeTruth_choice c.showLimbs⟩,
    decodeSeed_choice c.seed⟩

theorem holds_defaultDocument : Holds Settings.defaultDocument {} := by
  rw [defaultDocument_eq]
  constructor
  · intro p
    cases p <;> exact ⟨_, rfl⟩
  · intro p
    cases p <;> rfl

/-! ### Layers -/

/-- The layer gives each setting the value that is chosen for it, and no other. -/
structure Gives (es : Entries) (c : Choices) : Prop where
  orderly : ∀ entry ∈ es, IsOrderly entry
  last : ∀ p : Setting, es.reverse.findSome? p.givenBy = c.value p

/-- A document under a layer holds what the layer gives, and else what it held. -/
theorem Holds.cover {v : Value} {es : Entries} {below above : Choices} (h : Holds v below)
    (hes : Gives es above) : Holds (coverAll v es) (above.overlay below) := by
  obtain ⟨hsections, hvalues⟩ := coverAll_orderly hes.orderly h.sections
  refine ⟨hsections, fun p => ?_⟩
  rw [hvalues, hes.last, h.values, Choices.value_overlay, Option.or_assoc]

/-- Settings have no arrays, and so always fit. -/
theorem Gives.fits {es : Entries} {c : Choices} (h : Gives es c) (capacity : Nat)
    (below : Value) : Fits capacity below es := by
  apply fits_of_within
  intro entry hentry i hi
  exact absurd hi ((h.orderly entry hentry).not_index_mem i)

theorem findSome?_eq_of_iff {α β : Type} {f : α → Option β} {l : List α} {found : Option β}
    (h : ∀ b, found = some b ↔ ∃ a ∈ l, f a = some b) : l.findSome? f = found := by
  cases hfirst : l.findSome? f with
  | none =>
    rw [List.findSome?_eq_none_iff] at hfirst
    symm
    rw [Option.eq_none_iff_forall_ne_some]
    intro b hb
    obtain ⟨a, ha, hfa⟩ := (h b).mp hb
    rw [hfirst a ha] at hfa
    cases hfa
  | some b =>
    obtain ⟨a, ha, hfa⟩ := List.exists_of_findSome?_eq_some hfirst
    exact ((h b).mpr ⟨a, ha, hfa⟩).symm

namespace Choices

variable {c : Choices} {es : Entries}

/-- The sections of a document are tables, its other names lead nowhere else, and the values that
stand for settings are these choices. -/
structure GivenBy (c : Choices) (es : Entries) : Prop where
  bare : ∀ entry ∈ es, IsBare entry.1
  tables : ∀ (p : Setting) (v : Value), (p.sectionName, v) ∈ es → ∃ members, v = .table members
  values : ∀ (p : Setting) (v : Value), c.value p = some v ↔
    ∃ members, (p.sectionName, .table members) ∈ es ∧ (p.name, v) ∈ members

/-- Such a document has orderly entries only. -/
theorem GivenBy.orderly (h : c.GivenBy es) : ∀ entry ∈ es, IsOrderly entry := by
  rintro ⟨key, v⟩ hmem
  refine .bare (h.bare _ hmem) ?_
  rintro p rfl
  obtain ⟨members, rfl⟩ := h.tables p v hmem
  exact ⟨members, rfl, fun w hw => isPlain_of_value ((h.values p w).mpr ⟨members, hmem, hw⟩)⟩

theorem GivenBy.gives (h : c.GivenBy es) : Gives es c := by
  refine ⟨h.orderly, fun p => findSome?_eq_of_iff fun v => ?_⟩
  simp only [List.mem_reverse]
  constructor
  · intro hv
    obtain ⟨members, hsection, hmem⟩ := (h.values p v).mp hv
    obtain ⟨w, hw⟩ := lookup_of_mem (List.mem_reverse.mpr hmem)
    have hw' := (h.values p w).mpr ⟨members, hsection, List.mem_reverse.mp (mem_of_lookup hw)⟩
    obtain rfl : w = v := Option.some.inj (hw'.symm.trans hv)
    refine ⟨_, hsection, ?_⟩
    rw [Setting.givenBy_bare p (h.bare _ hsection), if_pos rfl]
    exact hw
  · rintro ⟨⟨key, w⟩, hmem, hgiven⟩
    rw [Setting.givenBy_bare p (h.bare _ hmem)] at hgiven
    split at hgiven
    · next hkey =>
      subst hkey
      obtain ⟨members, rfl⟩ := h.tables p w hmem
      exact (h.values p v).mpr
        ⟨members, hmem, List.mem_reverse.mp (mem_of_lookup hgiven)⟩
    · cases hgiven

/-! ### Variables -/

/-- Every variable is for one of the settings, or its name does not start with the program's own
words in any letter case. The texts of the former spell these choices. -/
structure SetBy (c : Choices) (environment : List (String × String)) : Prop where
  known : ∀ entry ∈ environment, (∃ p : Setting, entry.1 = p.variableName) ∨
    ¬ Variables.ownWords <+: entry.1.toList.map Char.toLower
  spelled : ∀ (p : Setting) (text : String), (p.variableName, text) ∈ environment →
    ∃ v, Variables.Spells text v
  values : ∀ (p : Setting) (v : Value), c.value p = some v ↔
    ∃ text, (p.variableName, text) ∈ environment ∧ Variables.Spells text v

variable {environment : List (String × String)}

/-- Of the variables, exactly those of chosen settings become entries. -/
theorem SetBy.mem_entries (h : c.SetBy environment) {entry : String × Value} :
    entry ∈ Variables.entries environment ↔
      ∃ (p : Setting) (v : Value), c.value p = some v ∧ entry = (p.path, v) := by
  constructor
  · intro hmem
    obtain ⟨⟨name, text⟩, hvariable, hentry⟩ := List.mem_filterMap.mp hmem
    obtain ⟨path, hpath, rfl⟩ := Option.map_eq_some_iff.mp hentry
    rcases h.known _ hvariable with ⟨p, hname⟩ | hforeign
    · dsimp only at hname
      subst hname
      obtain ⟨v, hspells⟩ := h.spelled p text hvariable
      rw [p.settingName_variableName] at hpath
      refine ⟨p, v, (h.values p v).mpr ⟨text, hvariable, hspells⟩, ?_⟩
      rw [hspells.valueOf_eq, Option.some.inj hpath]
    · exact absurd (Variables.ownWords_starts hpath) hforeign
  · rintro ⟨p, v, hv, rfl⟩
    obtain ⟨text, hvariable, hspells⟩ := (h.values p v).mp hv
    refine List.mem_filterMap.mpr ⟨(p.variableName, text), hvariable, ?_⟩
    simp only [p.settingName_variableName, hspells.valueOf_eq, Option.map_some]

theorem SetBy.orderly (h : c.SetBy environment) :
    ∀ entry ∈ Variables.entries environment, IsOrderly entry := by
  intro entry hmem
  obtain ⟨p, v, hv, rfl⟩ := h.mem_entries.mp hmem
  exact .path p (isPlain_of_value hv)

theorem SetBy.gives (h : c.SetBy environment) : Gives (Variables.entries environment) c := by
  refine ⟨h.orderly, fun p => findSome?_eq_of_iff fun v => ?_⟩
  simp only [List.mem_reverse]
  constructor
  · intro hv
    refine ⟨(p.path, v), h.mem_entries.mpr ⟨p, v, hv, rfl⟩, ?_⟩
    rw [Setting.givenBy_path, if_pos rfl]
  · rintro ⟨entry, hmem, hgiven⟩
    obtain ⟨q, w, hw, rfl⟩ := h.mem_entries.mp hmem
    rw [Setting.givenBy_path] at hgiven
    split at hgiven
    · next heq =>
      subst heq
      exact hw.trans hgiven
    · cases hgiven

end Choices

/-! ### Loading -/

/-- Each setting on its own is the value of its variable, or else the value in the user's file, or
else the default. A file that is named instead stands over the defaults alone. -/
theorem settings_by_last_layer (loader : Loader) :
    (∀ (host : Host) (es : Entries) (file environment : Choices),
      host.pathExists Host.systemFile = false → host.userEntries loader = .ok es →
      file.GivenBy es → environment.SetBy host.environment →
      host.load loader = .ok {
        display := {
          uppercase := (environment.uppercase.or file.uppercase).getD true
          showLimbs := (environment.showLimbs.or file.showLimbs).getD true }
        random := { seed := environment.seed.or file.seed } }) ∧
      ∀ (host : Host) (path : String) (es : Entries) (file : Choices),
        host.requiredEntries loader path = .ok es → file.GivenBy es →
        host.loadFrom loader path = .ok {
          display := {
            uppercase := file.uppercase.getD true
            showLimbs := file.showLimbs.getD true }
          random := { seed := file.seed } } := by
  refine ⟨?_, ?_⟩
  · intro host es file environment hsystem huser hfile hvariables
    have hnone : host.optionalEntries loader Host.systemFile = .ok [] :=
      Host.optionalEntries_of_absent hsystem
    have hholds := (holds_defaultDocument.cover hfile.gives).cover hvariables.gives
    have hlayers := hholds.decode
    simp only [Choices.settings, Choices.overlay, Option.or_none] at hlayers
    refine Host.load_eq_ok_iff.mpr ⟨[], hnone, es, huser, ?_⟩
    rw [Settings.ofLayers_eq_ok_iff]
    simp only [List.flatten_cons, List.flatten_nil, List.nil_append, List.append_nil, fits_append,
      coverAll_append]
    exact ⟨⟨hfile.gives.fits _ _, hvariables.gives.fits _ _⟩, hlayers⟩
  · intro host path es file hfound hfile
    have hlayer := (holds_defaultDocument.cover hfile.gives).decode
    simp only [Choices.settings, Choices.overlay, Option.or_none] at hlayer
    refine Host.loadFrom_eq_ok_iff.mpr ⟨es, hfound, ?_⟩
    rw [Settings.ofLayers_eq_ok_iff, List.flatten_cons, List.flatten_nil, List.append_nil]
    exact ⟨hfile.gives.fits _ _, hlayer⟩

/-- A file that sets two of the settings, and a variable that sets one of them anew. -/
theorem settings_of_file_and_variable :
    let files : FileTree := ⟨[
      (["home", "uint160-printer", "config.toml"],
        .file "color = 'red'\n[display]\nuppercase = false\n[random]\nseed = 7\n"),
      (["home", "uint160-printer"], .directory), (["home"], .directory)]⟩
    let host : Host := {
      environment := [("HOME", "/"), ("UINT160_PRINTER_RANDOM__SEED", "42"),
        ("XDG_CONFIG_HOME", "/home")]
      files }
    host.load .plain = .ok ⟨⟨false, true⟩, ⟨some 42⟩⟩ ∧
      host.loadFrom .plain "/home/uint160-printer/config" = .ok ⟨⟨false, true⟩, ⟨some 7⟩⟩ := by
  intro files host
  let es : Entries := [("color", .text "red"), ("display", .table [("uppercase", .boolean false)]),
    ("random", .table [("seed", .integer 7)])]
  let file : Choices := { uppercase := some false, seed := some 7 }
  let environment : Choices := { seed := some 42 }
  have hfile : file.GivenBy es := by
    constructor
    · decide +kernel
    · intro p v hmem
      cases p <;> simp [es, Setting.sectionName] at hmem <;> exact ⟨_, hmem⟩
    · intro p v
      cases p <;> simp [es, file, Choices.value, Setting.sectionName, Setting.name, eq_comm]
  have hspells : Variables.Spells "42" (.integer 42) :=
    ⟨42, _, rfl, by decide, Digit.writes_decimal 42, .inl rfl⟩
  have htext : ∀ {p : Setting} {text : String}, (p.variableName, text) ∈ host.environment →
      p = .seed ∧ text = "42" := by
    intro p text hmem
    cases p <;> simp_all [host, Setting.variableName]
  have henvironment : environment.SetBy host.environment := by
    constructor
    · simp only [host, List.forall_mem_cons]
      exact ⟨.inr (by decide +kernel), .inl ⟨.seed, rfl⟩, .inr (by decide +kernel),
        List.forall_mem_nil _⟩
    · intro p text hmem
      exact ⟨_, (htext hmem).2 ▸ hspells⟩
    · intro p v
      constructor
      · intro hv
        cases p with
        | seed => exact ⟨"42", by decide, Option.some.inj hv ▸ hspells⟩
        | uppercase | showLimbs => cases hv
      · rintro ⟨text, hmem, hv⟩
        obtain ⟨rfl, rfl⟩ := htext hmem
        exact congrArg some (hspells.valueOf_eq.symm.trans hv.valueOf_eq)
  obtain ⟨hload, hloadFrom⟩ := settings_by_last_layer .plain
  exact ⟨hload host es file environment (by decide +kernel) (by decide +kernel) hfile henvironment,
    hloadFrom host "/home/uint160-printer/config" es file (by decide +kernel) hfile⟩

end Ident160
