import Ident160.Proofs.Decoding
import Ident160.Proofs.DescriptionLines
import Ident160.Proofs.RunCourses

/-!
Two runs of one command line under settings that differ in one place. What is found is the same in
both, so the runs differ only in how it is shown: the letter case changes letters into letters, and
the limbs stand below the first line of a description. A seed is not shown at all. With the version
flag nothing is looked for, and the settings do not count.
-/

namespace Ident160

/-! ### The letter case -/

theorem lowercaseText_append (text behind : String) :
    lowercaseText (text ++ behind) = lowercaseText text ++ lowercaseText behind := by
  simp only [lowercaseText, String.toList_append, List.map_append, String.ofList_append]

theorem map_toLower_decimal (n : Nat) :
    (Digit.decimal n).map Char.toLower = Digit.decimal n :=
  (Digit.writes_decimal n).toLower_eq

namespace Listing

theorem map_toLower_padLeft (width : Nat) (text : List Char) :
    (padLeft width text).map Char.toLower = padLeft width (text.map Char.toLower) := by
  have hblank : Char.toLower ' ' = ' ' := by decide
  rw [padLeft, padLeft, List.map_append, List.map_replicate, List.length_map, hblank]

theorem map_toLower_headLine (head rest : List Char) :
    (headLine head rest).map Char.toLower =
      headLine (head.map Char.toLower) (rest.map Char.toLower) := by
  have hbold : "\x1b[1m".toList.map Char.toLower = "\x1b[1m".toList := by decide
  have hplain : "\x1b[22m".toList.map Char.toLower = "\x1b[22m".toList := by decide
  have hend : ['\n'].map Char.toLower = ['\n'] := by decide
  unfold headLine
  simp only [List.map_append, hbold, hplain, hend]

theorem map_toLower_limbLine (i : Nat) (piece : List Char) (word : UInt32) :
    (limbLine i piece word).map Char.toLower = limbLine i (piece.map Char.toLower) word := by
  have hlabel : "  limb[".toList.map Char.toLower = "  limb[".toList := by decide
  have hindex : "]  ".toList.map Char.toLower = "]  ".toList := by decide
  have hgap : "  ".toList.map Char.toLower = "  ".toList := by decide
  have hend : ['\n'].map Char.toLower = ['\n'] := by decide
  unfold limbLine
  simp only [List.map_append, map_toLower_decimal, map_toLower_padLeft, hlabel, hindex, hgap, hend]

/-- Around the pieces there is nothing in the lines of the limbs that has a letter case. -/
theorem map_toLower_limbLines (pieces : List (List Char)) (d : Description) :
    (limbLines pieces d).map Char.toLower =
      limbLines (pieces.map fun piece => piece.map Char.toLower) d := by
  have hruler : ruler.map Char.toLower = ruler := by decide
  have hlabel : "  bit length: ".toList.map Char.toLower = "  bit length: ".toList := by decide
  have hend : ['\n'].map Char.toLower = ['\n'] := by decide
  have hlength : (bitLengthLine d.bitLength).map Char.toLower = bitLengthLine d.bitLength := by
    unfold bitLengthLine
    simp only [List.map_append, map_toLower_decimal, hlabel, hend]
  simp only [limbLines, List.map_append, hruler, hlength, List.map_flatMap, map_toLower_limbLine,
    List.zip_map_left, List.zipIdx_map, List.flatMap_map]
  rfl

/-- The numbers of a list have no letter case. -/
theorem lowercaseText_itemsFrom (index : Nat) (values : List String) :
    lowercaseText (itemsFrom index values) = itemsFrom index (values.map lowercaseText) := by
  induction values generalizing index with
  | nil => rfl
  | cons value values ih =>
    have hnumber :
        lowercaseText (Digit.decimalText (index + 1)) = Digit.decimalText (index + 1) := by
      rw [lowercaseText, Digit.decimalText, String.toList_ofList, map_toLower_decimal]
    have hdot : lowercaseText ". " = ". " := by decide
    have hend : lowercaseText "\n" = "\n" := by decide
    simp only [itemsFrom, item, List.map_cons, lowercaseText_append, hnumber, hdot, hend, ih]

end Listing

namespace Settings

variable {settings settings' : Settings}

def lowered (settings : Settings) : Settings where
  display := { uppercase := false, showLimbs := settings.display.showLimbs }
  random := settings.random

theorem map_toLower_digits (settings : Settings) (a : Ident) :
    (settings.digits a).map Char.toLower = settings.lowered.digits a := by
  rw [digits, digits, describe_hex, describe_hex, String.toList_ofList, String.toList_ofList,
    Ident.wordsDigits_toLower]
  rfl

theorem lowercaseText_hex (settings : Settings) (a : Ident) :
    lowercaseText (settings.describe a).hex = (settings.lowered.describe a).hex := by
  have hdigits := settings.map_toLower_digits a
  rw [digits, digits] at hdigits
  rw [lowercaseText, hdigits, String.ofList_toList]

theorem map_toLower_described (settings : Settings) (a : Ident) (showLimbs : Bool) :
    (settings.described a showLimbs).map Char.toLower = settings.lowered.described a showLimbs := by
  have hdigits := settings.map_toLower_digits a
  cases showLimbs with
  | false =>
    simp only [described, Bool.false_eq_true, if_false, List.append_nil,
      Listing.map_toLower_headLine, List.map_take, List.map_drop, hdigits]
  | true =>
    simp only [described, if_true, List.map_append, Listing.map_toLower_headLine,
      Listing.map_toLower_limbLines, List.map_map, Function.comp_def, List.map_take, List.map_drop,
      hdigits]
    rfl

/-- In lowercase a finding is shown as by the settings for lowercase. -/
theorem lowercaseText_shown (settings : Settings) (finding : Finding) :
    lowercaseText (settings.shown finding) = settings.lowered.shown finding := by
  cases finding with
  | rendered a =>
    have hend : lowercaseText "\n" = "\n" := by decide
    rw [shown, shown, lowercaseText_append, lowercaseText_hex, hend]
  | described a =>
    rw [shown, shown, lowercaseText, String.toList_ofList, map_toLower_described]
    rfl
  | listed values =>
    simp only [shown, Listing.items, Listing.lowercaseText_itemsFrom, List.map_map,
      Function.comp_def, lowercaseText_hex]

theorem shown_congr (h : settings.display = settings'.display) (finding : Finding) :
    settings.shown finding = settings'.shown finding := by
  obtain ⟨display, random⟩ := settings
  obtain ⟨display', random'⟩ := settings'
  dsimp only at h
  subst h
  cases finding <;> rfl

/-- Settings that show the same limbs show a finding alike but for the letter case. -/
theorem lowercaseText_shown_congr (h : settings.display.showLimbs = settings'.display.showLimbs)
    (finding : Finding) :
    lowercaseText (settings.shown finding) = lowercaseText (settings'.shown finding) := by
  rw [lowercaseText_shown, lowercaseText_shown]
  apply shown_congr
  rw [lowered, lowered, h]

end Settings

/-! ### The limbs -/

/-- A text up to its first line break, with the break. -/
def firstLine (text : String) : String :=
  let isInside : Char → Bool := fun c => c ≠ '\n'
  String.ofList (text.toList.takeWhile isInside ++ (text.toList.dropWhile isInside).take 1)

theorem firstLine_of_break {line : List Char} (h : '\n' ∉ line) (behind : List Char) :
    firstLine (String.ofList (line ++ '\n' :: behind)) = String.ofList (line ++ ['\n']) := by
  have hinside : ∀ c ∈ line, decide (c ≠ '\n') = true :=
    fun c hc => decide_eq_true fun heq => h (heq ▸ hc)
  rw [firstLine, String.toList_ofList, List.takeWhile_append_of_pos hinside,
    List.dropWhile_append_of_pos hinside]
  simp

namespace Settings

variable {settings settings' : Settings}

/-- The digits depend on the letter case only. -/
theorem hex_congr (h : settings.display.uppercase = settings'.display.uppercase) (a : Ident) :
    (settings.describe a).hex = (settings'.describe a).hex := by
  rw [describe_hex, describe_hex, letterCase, letterCase, h]

/-- The limbs stand below the first line. -/
theorem firstLine_described (settings : Settings) (a : Ident) (showLimbs : Bool) :
    firstLine (String.ofList (settings.described a showLimbs)) =
      String.ofList (settings.described a false) := by
  let line := Listing.headText ((settings.digits a).take 8) ((settings.digits a).drop 8)
  have hfirst : settings.described a false = line ++ ['\n'] := by
    rw [described_eq_unlines]
    exact unlines_singleton line
  have hbelow : ∃ behind, settings.described a showLimbs = line ++ '\n' :: behind := by
    rw [described_eq_unlines, describedLines]
    exact ⟨_, unlines_cons line _⟩
  obtain ⟨behind, hbehind⟩ := hbelow
  rw [hbehind, hfirst, firstLine_of_break (settings.newline_not_mem_first a)]

/-- Without the limbs only the first line of a description is shown. -/
theorem shown_described_of_limbs (hcase : settings.display.uppercase = settings'.display.uppercase)
    (hhidden : settings'.display.showLimbs = false) (a : Ident) :
    settings'.shown (.described a) = firstLine (settings.shown (.described a)) := by
  rw [shown, shown, firstLine_described, hhidden, described, described, digits, digits,
    hex_congr hcase]
  rfl

/-- Nothing but a description shows limbs. -/
theorem shown_congr_of_case (h : settings.display.uppercase = settings'.display.uppercase)
    {finding : Finding} (hplain : ∀ a, finding ≠ .described a) :
    settings.shown finding = settings'.shown finding := by
  cases finding with
  | rendered a => rw [shown, shown, hex_congr h]
  | described a => exact absurd rfl (hplain a)
  | listed values => simp only [shown, hex_congr h]

end Settings

/-! ### Two runs -/

/-- Two runs end alike, and tell the same about it where the log is not shown. -/
structure EndsAlike (host host' : Host) (outcome outcome' : Outcome) : Prop where
  ending : outcome.ending = outcome'.ending
  told : host.IsQuiet → host'.IsQuiet → outcome.errorWritten = outcome'.errorWritten

section

variable {libraries : Libraries} {host host' : Host} {entropy entropy' : ChaCha.Key}
  {args : List String} {invocation : Invocation}

theorem endsAlike_of_ending (hread : Line.read args = .ok invocation)
    (h : (run libraries host entropy .working args).ending =
      (run libraries host' entropy' .working args).ending) :
    EndsAlike host host' (run libraries host entropy .working args)
      (run libraries host' entropy' .working args) :=
  ⟨h, fun hquiet hquiet' => errorWritten_congr hread hread hquiet hquiet' h⟩

/-- Behind the version flag nothing else of a command line is looked at. -/
theorem run_of_version (hread : Line.read args = .ok invocation)
    (hversion : invocation.version = true) :
    run libraries host entropy .working args =
      ⟨.done, Release.current.report, libraries.logText host.environment [], host⟩ := by
  have hperform : libraries.perform entropy invocation = Work.display Release.current.report := by
    simp only [Libraries.perform, hversion, if_true]
  rw [run_eq hread, hperform, libraries.outcome_display_working]

section

variable {path : Option String} {command : Command} {settings settings' : Settings}
  (hread : Line.read args = .ok ⟨path, false, some command⟩)
  (hconfig : ∀ init, command ≠ .config init)
  (hsettings : host.settings libraries.loader path = .ok settings)
  (hsettings' : host'.settings libraries.loader path = .ok settings')
  (hfind : command.find settings entropy = command.find settings' entropy')

include hread hconfig hsettings hsettings' hfind

/-- Two runs of a command line that carries out a command find the same, or fail in the same way,
if what is drawn has the same seed. So they end alike, and what they write is what the two settings
make of one finding, or nothing. -/
theorem runs_of_command :
    let outcome := run libraries host entropy .working args
    let outcome' := run libraries host' entropy' .working args
    EndsAlike host host' outcome outcome' ∧
      ((outcome.written = "" ∧ outcome'.written = "") ∨
        ∃ finding, (command.Describes ↔ ∃ a, finding = .described a) ∧
          outcome.written = settings.shown finding ∧
          outcome'.written = settings'.shown finding) := by
  intro outcome outcome'
  cases hfound : command.find settings entropy with
  | error fault =>
    have houtcome : outcome = _ := run_of_fault hread hconfig hsettings hfound .working
    have houtcome' : outcome' = _ :=
      run_of_fault hread hconfig hsettings' (hfind.symm.trans hfound) .working
    refine ⟨endsAlike_of_ending hread ?_, Or.inl ?_⟩
    · exact (congrArg Outcome.ending houtcome).trans (congrArg Outcome.ending houtcome').symm
    · rw [houtcome, houtcome']
      exact ⟨rfl, rfl⟩
  | ok finding =>
    have houtcome : outcome = _ := run_of_found hread hconfig hsettings hfound
    have houtcome' : outcome' = _ :=
      run_of_found hread hconfig hsettings' (hfind.symm.trans hfound)
    refine ⟨endsAlike_of_ending hread ?_, Or.inr ⟨finding, Command.describes_iff hfound, ?_⟩⟩
    · exact (congrArg Outcome.ending houtcome).trans (congrArg Outcome.ending houtcome').symm
    · rw [houtcome, houtcome']
      exact ⟨rfl, rfl⟩

/-- What is found is shown alike but for the case of its letters. -/
theorem runs_under_letter_case
    (hlimbs : settings.display.showLimbs = settings'.display.showLimbs) :
    let outcome := run libraries host entropy .working args
    let outcome' := run libraries host' entropy' .working args
    EndsAlike host host' outcome outcome' ∧
      lowercaseText outcome.written = lowercaseText outcome'.written := by
  intro outcome outcome'
  obtain ⟨halike, hwritten⟩ := runs_of_command hread hconfig hsettings hsettings' hfind
  refine ⟨halike, ?_⟩
  rcases hwritten with ⟨hempty, hempty'⟩ | ⟨finding, _, hshown, hshown'⟩
  · rw [hempty, hempty']
  · rw [hshown, hshown', Settings.lowercaseText_shown_congr hlimbs]

/-- A description keeps its first line, and all else is shown as with the limbs. -/
theorem runs_without_limbs (hcase : settings.display.uppercase = settings'.display.uppercase)
    (hhidden : settings'.display.showLimbs = false) :
    let outcome := run libraries host entropy .working args
    let outcome' := run libraries host' entropy' .working args
    EndsAlike host host' outcome outcome' ∧
      (command.Describes → outcome'.written = firstLine outcome.written) ∧
      (¬ command.Describes → outcome'.written = outcome.written) := by
  intro outcome outcome'
  obtain ⟨halike, hwritten⟩ := runs_of_command hread hconfig hsettings hsettings' hfind
  refine ⟨halike, ?_, ?_⟩
  · intro hdescribes
    rcases hwritten with ⟨hempty, hempty'⟩ | ⟨finding, hiff, hshown, hshown'⟩
    · rw [hempty, hempty']
      decide
    · obtain ⟨a, rfl⟩ := hiff.mp hdescribes
      rw [hshown, hshown', Settings.shown_described_of_limbs hcase hhidden]
  · intro hplain
    rcases hwritten with ⟨hempty, hempty'⟩ | ⟨finding, hiff, hshown, hshown'⟩
    · rw [hempty, hempty']
    · rw [hshown, hshown', Settings.shown_congr_of_case hcase]
      intro a hdescribed
      exact hplain (hiff.mpr ⟨a, hdescribed⟩)

theorem runs_under_display (hdisplay : settings.display = settings'.display) :
    let outcome := run libraries host entropy .working args
    let outcome' := run libraries host' entropy' .working args
    EndsAlike host host' outcome outcome' ∧ outcome.written = outcome'.written := by
  intro outcome outcome'
  obtain ⟨halike, hwritten⟩ := runs_of_command hread hconfig hsettings hsettings' hfind
  refine ⟨halike, ?_⟩
  rcases hwritten with ⟨hempty, hempty'⟩ | ⟨finding, _, hshown, hshown'⟩
  · rw [hempty, hempty']
  · rw [hshown, hshown', Settings.shown_congr hdisplay]

end

end

/-- What two runs of one command line have in common if their settings differ in one place. Under
another letter case they end alike and write the same but for the case, identifiers that are drawn
having a seed. Without the limbs a description is its first line, and all else is the same. With
another seed everything is the same, unless identifiers are drawn and no seed is asked for. The
version flag puts its report in place of all that. -/
theorem settings_change_what_they_name (libraries : Libraries) (host host' : Host)
    (entropy entropy' : ChaCha.Key) (args : List String) (invocation : Invocation)
    (command : Command) (settings settings' : Settings) (hread : Line.read args = .ok invocation)
    (hcommand : invocation.command = some command) (hconfig : ∀ init, command ≠ .config init)
    (hsettings : host.settings libraries.loader invocation.configPath = .ok settings)
    (hsettings' : host'.settings libraries.loader invocation.configPath = .ok settings') :
    let outcome := run libraries host entropy .working args
    let outcome' := run libraries host' entropy' .working args
    (command.Seeded settings → settings.random = settings'.random →
      settings.display.showLimbs = settings'.display.showLimbs →
      EndsAlike host host' outcome outcome' ∧
        lowercaseText outcome.written = lowercaseText outcome'.written) ∧
    (command.Seeded settings → settings.random = settings'.random →
      settings.display.uppercase = settings'.display.uppercase →
      settings'.display.showLimbs = false →
      EndsAlike host host' outcome outcome' ∧
        (command.Describes → invocation.version = false →
          outcome'.written = firstLine outcome.written) ∧
        (¬ command.Describes ∨ invocation.version = true →
          outcome'.written = outcome.written)) ∧
    (settings.display = settings'.display → (∀ count, command ≠ .random none count) →
      EndsAlike host host' outcome outcome' ∧ outcome.written = outcome'.written) := by
  intro outcome outcome'
  obtain ⟨path, version, _⟩ := invocation
  dsimp only at hcommand hsettings hsettings' ⊢
  subst hcommand
  cases version with
  | true =>
    have houtcome : outcome = _ := run_of_version hread rfl
    have houtcome' : outcome' = _ := run_of_version hread rfl
    have halike : EndsAlike host host' outcome outcome' := endsAlike_of_ending hread
      ((congrArg Outcome.ending houtcome).trans (congrArg Outcome.ending houtcome').symm)
    have hwritten : outcome.written = outcome'.written := by rw [houtcome, houtcome']
    exact ⟨fun _ _ _ => ⟨halike, congrArg lowercaseText hwritten⟩,
      fun _ _ _ _ => ⟨halike, nofun, fun _ => hwritten.symm⟩, fun _ _ => ⟨halike, hwritten⟩⟩
  | false =>
    refine ⟨?_, ?_, ?_⟩
    · intro hseed hsame hlimbs
      exact runs_under_letter_case hread hconfig hsettings hsettings'
        (Command.find_congr_of_seeded entropy entropy' hseed hsame) hlimbs
    · intro hseed hsame hcase hhidden
      obtain ⟨halike, hfirst, hrest⟩ := runs_without_limbs hread hconfig hsettings hsettings'
        (Command.find_congr_of_seeded entropy entropy' hseed hsame) hcase hhidden
      exact ⟨halike, fun hdescribes _ => hfirst hdescribes,
        fun hplain => hrest (hplain.resolve_right Bool.false_ne_true)⟩
    · intro hdisplay hasked
      exact runs_under_display hread hconfig hsettings hsettings'
        (Command.find_congr_of_asked entropy entropy' hasked) hdisplay

/-- One key under the defaults, in lowercase, without its limbs, and with a seed. -/
theorem key_under_other_settings :
    let host : Host := { environment := [("HOME", "/home/u")] }
    let lower : Host := { environment := [("UINT160_PRINTER_DISPLAY__UPPERCASE", "false")] }
    let bare : Host := { environment := [("UINT160_PRINTER_DISPLAY__SHOW_LIMBS", "false")] }
    let seeded : Host := { environment := [("UINT160_PRINTER_RANDOM__SEED", "7")] }
    let entropy : ChaCha.Key := Vector.replicate 8 0
    let args := ["hash", "abc"]
    (run .plain bare entropy .working args).written =
        "\x1b[1mA9993E36\x1b[22m4706816ABA3E25717850C26C9CD0D89D\n" ∧
      (run .plain bare entropy .working args).written =
        firstLine (run .plain host entropy .working args).written ∧
      lowercaseText (run .plain host entropy .working args).written =
        lowercaseText (run .plain lower entropy .working args).written ∧
      (run .plain host entropy .working args).written =
        (run .plain seeded entropy .working args).written ∧
      (run .plain host entropy .working args).errorWritten =
        (run .plain seeded entropy .working args).errorWritten := by
  intro host lower bare seeded entropy args
  have hread : Line.read args = .ok ⟨none, false, some (.hash "abc")⟩ := by decide +kernel
  have hhost : host.settings .plain none = .ok {} := by decide +kernel
  have hlower : lower.settings .plain none = .ok ⟨⟨false, true⟩, ⟨none⟩⟩ := by decide +kernel
  have hbare : bare.settings .plain none = .ok ⟨⟨true, false⟩, ⟨none⟩⟩ := by decide +kernel
  have hseeded : seeded.settings .plain none = .ok ⟨⟨true, true⟩, ⟨some 7⟩⟩ := by decide +kernel
  have hdraws : (Command.hash "abc").Seeded {} := nofun
  obtain ⟨hcase, _⟩ := settings_change_what_they_name .plain host lower entropy entropy args _ _ _ _
    hread rfl nofun hhost hlower
  obtain ⟨_, hlimbs, _⟩ := settings_change_what_they_name .plain host bare entropy entropy args
    _ _ _ _ hread rfl nofun hhost hbare
  obtain ⟨_, _, hseed⟩ := settings_change_what_they_name .plain host seeded entropy entropy args
    _ _ _ _ hread rfl nofun hhost hseeded
  obtain ⟨_, hfirst, _⟩ := hlimbs hdraws rfl rfl rfl
  obtain ⟨halike, hsame⟩ := hseed rfl nofun
  exact ⟨by decide +kernel, hfirst trivial rfl, (hcase hdraws rfl rfl).2, hsame,
    halike.told rfl rfl⟩

/-- The version flag stands before the key. Its report has more than one line, with the limbs and
without them. -/
theorem version_report_in_full :
    let host : Host := { environment := [("HOME", "/home/u")] }
    let bare : Host := { environment := [("UINT160_PRINTER_DISPLAY__SHOW_LIMBS", "false")] }
    let entropy : ChaCha.Key := Vector.replicate 8 0
    let args := ["-v", "hash", "abc"]
    Line.read args = .ok ⟨none, true, some (.hash "abc")⟩ ∧
      host.settings .plain none = .ok ⟨⟨true, true⟩, ⟨none⟩⟩ ∧
      bare.settings .plain none = .ok ⟨⟨true, false⟩, ⟨none⟩⟩ ∧
      firstLine (run .plain host entropy .working args).written = "uint160-printer\n" ∧
      (run .plain bare entropy .working args).written ≠
        firstLine (run .plain host entropy .working args).written := by
  decide +kernel

end Ident160
