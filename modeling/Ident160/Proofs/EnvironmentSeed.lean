import Ident160.Proofs.RunCourses
import Ident160.Proofs.SeedRounding
import Ident160.Proofs.SettingPlaces
import Ident160.Proofs.VariableValues

/-!
The seed that an environment variable sets. Beside settings that load without it, the variable
changes the seed and nothing else. Its digits hold every seed below 2^63; a greater one takes the
way over floating point, and comes out as the nearest multiple of 2048.
-/

namespace Ident160

open Document

/-- The seed that is read from the digits of a seed. -/
def heldSeed (seed : UInt64) : UInt64 :=
  if seed.toNat < 2 ^ 63 then seed else UInt64.ofNat (Binary64.roundedSeed seed.toNat)

/-- The seeds that are read as they are. The greatest is one of them only because the number that
it is rounded to is out of range. -/
theorem heldSeed_eq_iff (seed : UInt64) :
    heldSeed seed = seed ↔
      seed.toNat < 2 ^ 63 ∨ 2048 ∣ seed.toNat ∨ seed.toNat = 2 ^ 64 - 1 := by
  have hrounded := Binary64.roundedSeed_eq_iff seed.toNat_lt
  have hrange := Binary64.roundedSeed_lt seed.toNat
  unfold heldSeed
  split
  · next hsmall => simp only [hsmall, true_or]
  · next hlarge =>
    rw [or_iff_right hlarge, ← hrounded, ← UInt64.toNat_inj, UInt64.toNat_ofNat_of_lt' hrange]

/-- The value of a seed in digits is no table, and is read as the seed that is held. -/
theorem decodeSeed_decimalText (seed : UInt64) :
    (Variables.valueOf (Digit.decimalText seed.toNat)).IsPlain ∧
      Settings.decodeSeed (some (Variables.valueOf (Digit.decimalText seed.toNat))) =
        .ok (some (heldSeed seed)) := by
  have hwrites : Digit.Writes (Digit.decimalText seed.toNat).toList seed.toNat := by
    rw [Digit.decimalText, String.toList_ofList]
    exact Digit.writes_decimal seed.toNat
  rw [Variables.valueOf_of_writes hwrites, heldSeed]
  split
  · exact ⟨trivial, by simp [Settings.decodeSeed, Settings.seedOf]⟩
  · next hlarge =>
    have hdecimal := Binary64.ofDecimal_integer (by omega) seed.toNat_lt
    have hrounded := Binary64.toUInt64_ofRatio (Nat.not_lt.mp hlarge) seed.toNat_lt
    refine ⟨trivial, ?_⟩
    rw [hdecimal]
    simp only [Settings.decodeSeed, Settings.seedOf, hrounded]

/-! ### The document -/

/-- A seed among the entries of a layer is the seed of the document, whatever was there for it, if
no entry behind it is for the same section. -/
theorem decode_insert_seed {below v : Value} {front back : Entries} {seed : UInt64}
    {settings : Settings} (hplain : v.IsPlain)
    (hseed : Settings.decodeSeed (some v) = .ok (some seed))
    (haside : ∀ entry ∈ back, (KeyPath.ofName entry.1).head? ≠ some (.key "random"))
    (h : Settings.decode (coverAll below (front ++ back)) = .ok settings) :
    Settings.decode (coverAll below (front ++ (Setting.seed.path, v) :: back)) =
      .ok { settings with random := ⟨some seed⟩ } := by
  rw [coverAll_append] at h ⊢
  rw [coverAll_cons]
  generalize coverAll below front = low at h ⊢
  have hdisplay : (coverAll (coverAt low (Setting.seed.path, v)) back).lookup "display" =
      (coverAll low back).lookup "display" := by
    apply lookup_coverAll_congr
    rw [lookup_coverAt_path, if_neg (by decide)]
  -- nothing behind the seed touches its section, so the section is as the seed has left it
  have hrandom : (coverAll (coverAt low (Setting.seed.path, v)) back).lookup "random" =
      some (.table (Value.alterEntry "seed" (Value.cover v)
        ((low.lookup "random").getD .null).entries)) := by
    rw [lookup_coverAll_of_aside haside, lookup_coverAt_path]
    rfl
  rw [Settings.decode_eq_ok_iff] at h ⊢
  refine ⟨?_, ?_⟩
  · rw [hdisplay]
    exact h.1
  · rw [hrandom, Option.getD_some, Settings.decodeRandom_table, lookup_alterEntry, if_pos rfl,
      cover_plain hplain]
    exact hseed

/-- There is room for the seed, and no less room for what is behind it. -/
theorem fits_insert_seed {capacity : Nat} {below v : Value} {front back : Entries}
    (haside : ∀ entry ∈ back, (KeyPath.ofName entry.1).head? ≠ some (.key "random"))
    (h : Fits capacity below (front ++ back)) :
    Fits capacity below (front ++ (Setting.seed.path, v) :: back) := by
  obtain ⟨hfront, hback⟩ := fits_append.mp h
  refine fits_append.mpr ⟨hfront, fits_cons.mpr ⟨?_, hback.congr_aside haside ?_⟩⟩
  · apply addressable_of_within
    intro i hi
    simp [Setting.ofName_path] at hi
  · intro other hother
    rw [lookup_coverAt_path]
    exact (if_neg hother).symm

/-! ### The host -/

section

variable {host : Host} {loader : Loader} {before after : List (String × String)} {text : String}

/-- The variable for the seed has no part in where the user's file is. -/
theorem userEntries_insert
    (henvironment : host.environment = before ++ (Setting.seed.variableName, text) :: after) :
    ({ host with environment := before ++ after } : Host).userEntries loader =
      host.userEntries loader := by
  have hlookup : ∀ name, name ≠ Setting.seed.variableName →
      (before ++ after).lookup name = host.environment.lookup name := by
    intro name hne
    rw [henvironment, List.lookup_append, List.lookup_append, List.lookup_cons,
      beq_false_of_ne hne]
  have hhome := hlookup "HOME" (by decide)
  have hconfig := hlookup "XDG_CONFIG_HOME" (by decide)
  have hfile : ({ host with environment := before ++ after } : Host).userFile? =
      host.userFile? := by
    simp only [Host.userFile?, Host.userDirectory?, Host.configDirectory?, Host.homeDirectory?,
      Host.lookupVariable, hhome, hconfig]
  rw [Host.userEntries, hfile]
  rfl

/-- Under the variable, settings that load without it load as well, and differ in the seed alone. -/
theorem load_of_seed_variable {seed : UInt64} {settings : Settings}
    (henvironment : host.environment =
      before ++ (Setting.seed.variableName, Digit.decimalText seed.toNat) :: after)
    (haside : ∀ entry ∈ Variables.entries after,
      (KeyPath.ofName entry.1).head? ≠ some (.key "random"))
    (hload : ({ host with environment := before ++ after } : Host).load loader = .ok settings) :
    host.load loader = .ok { settings with random := ⟨some (heldSeed seed)⟩ } := by
  obtain ⟨system, hsystem, user, huser, hlayers⟩ := Host.load_eq_ok_iff.mp hload
  obtain ⟨hplain, hseed⟩ := decodeSeed_decimalText seed
  rw [userEntries_insert henvironment] at huser
  refine Host.load_eq_ok_iff.mpr ⟨system, hsystem, user, huser, ?_⟩
  rw [Settings.ofLayers_eq_ok_iff] at hlayers ⊢
  simp only [List.flatten_cons, List.flatten_nil, List.append_nil, Variables.entries_append,
    ← List.append_assoc] at hlayers
  simp only [List.flatten_cons, List.flatten_nil, List.append_nil, henvironment,
    Variables.entries_append,
    Variables.entries_cons_of_settingName (Setting.settingName_variableName .seed),
    ← List.append_assoc]
  exact ⟨fits_insert_seed haside hlayers.1, decode_insert_seed hplain hseed haside hlayers.2⟩

end

/-- Let the settings load without the variable for the seed, and no other variable be for the same
section. With the variable they are the same but for the seed, which is the seed written there
exactly if it is below 2^63, a multiple of 2048 or the greatest seed. Runs that draw without a seed
of their own are the runs that are asked to draw from the seed in force. -/
theorem seed_variable_held {loader : Loader} {host : Host} {before after : List (String × String)}
    {seed : UInt64} {settings : Settings}
    (henvironment : host.environment =
      before ++ (Setting.seed.variableName, Digit.decimalText seed.toNat) :: after)
    (haside : ∀ entry ∈ Variables.entries (before ++ after),
      (KeyPath.ofName entry.1).head? ≠ some (.key "random"))
    (hload : ({ host with environment := before ++ after } : Host).load loader = .ok settings) :
    host.load loader = .ok { settings with random := ⟨some (heldSeed seed)⟩ } ∧
      (heldSeed seed = seed ↔
        seed.toNat < 2 ^ 63 ∨ 2048 ∣ seed.toNat ∨ seed.toNat = 2 ^ 64 - 1) ∧
      ∀ (libraries : Libraries) (entropy : ChaCha.Key) (sink : Sink) (count : Nat)
          (args others : List String), libraries.loader = loader →
        Line.read args = .ok ⟨none, false, some (.random none count)⟩ →
        Line.read others = .ok ⟨none, false, some (.random (some (heldSeed seed)) count)⟩ →
        run libraries host entropy sink args = run libraries host entropy sink others := by
  rw [Variables.entries_append] at haside
  have hloaded := load_of_seed_variable henvironment
    (fun entry hentry => haside entry (List.mem_append_right _ hentry)) hload
  refine ⟨hloaded, heldSeed_eq_iff seed, ?_⟩
  rintro libraries entropy sink count args others rfl hargs hothers
  have hsettings : host.settings libraries.loader none = _ := hloaded
  have hasked : run libraries host entropy sink others = _ :=
    run_of_settings hothers nofun hsettings sink
  -- the seed in force is the one that is asked for, so the same is noted down, and found
  rw [hasked, run_of_settings hargs nofun hsettings sink,
    libraries.outcome_args_congr host.environment args others]
  rfl

/-- A seed above 63 bits that is a multiple of 2048, with a file that sets another one. -/
theorem seed_variable_held_multiple :
    let files : FileTree := ⟨[
      (["home", "uint160-printer", "config.toml"], .file "[random]\nseed = 7\n"),
      (["home", "uint160-printer"], .directory), (["home"], .directory)]⟩
    let host : Host := {
      environment := [("XDG_CONFIG_HOME", "/home"), ("HOME", "/"),
        ("UINT160_PRINTER_RANDOM__SEED", "9223372036854777856"),
        ("UINT160_PRINTER_DISPLAY__UPPERCASE", "false")]
      files }
    host.load .plain = .ok ⟨⟨false, true⟩, ⟨some 9223372036854777856⟩⟩ ∧
      ∀ entropy sink, run .plain host entropy sink ["random", "-n", "3"] =
        run .plain host entropy sink ["random", "-n", "3", "--seed", "9223372036854777856"] := by
  intro files host
  let before := [("XDG_CONFIG_HOME", "/home"), ("HOME", "/")]
  let after := [("UINT160_PRINTER_DISPLAY__UPPERCASE", "false")]
  obtain ⟨hload, hheld, hruns⟩ := @seed_variable_held .plain host before after 9223372036854777856
    ⟨⟨false, true⟩, ⟨some 7⟩⟩ (by decide +kernel) (by decide +kernel) (by decide +kernel)
  rw [hheld.mpr (Or.inr (Or.inl (by decide)))] at hload hruns
  exact ⟨hload, fun entropy sink =>
    hruns .plain entropy sink 3 _ _ rfl (by decide +kernel) (by decide +kernel)⟩

/-- An odd seed above 63 bits is lost without a word. -/
theorem odd_seed_variable_lost :
    let host : Host := { environment := [("UINT160_PRINTER_RANDOM__SEED", "9223372036854775809")] }
    let entropy : ChaCha.Key := Vector.replicate 8 0
    host.load .plain = .ok ⟨{}, ⟨some 9223372036854775808⟩⟩ ∧
      (run .plain host entropy .working ["random"]).ending = .done ∧
      (run .plain host entropy .working ["random"]).written ≠
        (run .plain host entropy .working ["random", "--seed", "9223372036854775809"]).written := by
  decide +kernel

end Ident160
