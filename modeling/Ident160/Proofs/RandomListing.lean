import Ident160.Proofs.RunCourses
import Ident160.Proofs.TextLines
import Ident160.Proofs.VariableValues

/-!
The listing of drawn identifiers. Items are written one by one while the stream goes on, and a
counter goes with them; what has been written in the end is the numbered list of the identifiers
drawn at once. So the lines are numbered from one on without a gap, and each can be read back as
the identifier at its place of the stream.
-/

namespace Ident160

namespace Listing

def itemText (index : Nat) (value : String) : String :=
  Digit.decimalText (index + 1) ++ ". " ++ value

theorem toList_item (index : Nat) (value : String) :
    (item index value).toList = (itemText index value).toList ++ ['\n'] := by
  rw [item, itemText, String.toList_append]
  rfl

/-- The items from a number on are lines, with the counter one ahead at each. -/
theorem toList_itemsFrom (value : Nat → String) (index n : Nat) :
    (itemsFrom index ((List.range' index n).map value)).toList =
      unlines ((List.range' index n).map fun i => (itemText i (value i)).toList) := by
  induction n generalizing index with
  | zero => rfl
  | succ n ih =>
    rw [List.range'_succ, List.map_cons, List.map_cons, itemsFrom, String.toList_append, ih,
      toList_item, unlines_cons, List.append_assoc]
    rfl

theorem newline_not_mem_itemText {value : String} (h : '\n' ∉ value.toList) (index : Nat) :
    '\n' ∉ (itemText index value).toList := by
  have hnumber : '\n' ∉ Digit.decimal (index + 1) := Digit.not_mem_decimal (by decide) _
  have hdot : '\n' ∉ ". ".toList := by decide
  simp only [itemText, Digit.decimalText, String.toList_append, String.toList_ofList,
    List.mem_append, hnumber, hdot, h, or_self, not_false_eq_true]

end Listing

open Listing (itemText)

/-- A numbered list has a line for each value. -/
theorem Settings.linesOf_items (settings : Settings) (stream : Nat → Ident) (count : Nat) :
    linesOf (Listing.items ((List.range count).map fun i =>
        (settings.describe (stream i)).hex)).toList =
      (List.range count).map fun i => (itemText i (settings.describe (stream i)).hex).toList := by
  rw [Listing.items, List.range_eq_range', Listing.toList_itemsFrom]
  apply linesOf_unlines
  intro line hline
  obtain ⟨i, _, rfl⟩ := List.mem_map.mp hline
  exact Listing.newline_not_mem_itemText (settings.not_mem_digits (stream i) (by decide)) i

/-- With a seed in force, asked for or else configured, drawing identifiers gets done and writes
the numbered list of the seed's first identifiers, as the settings show them. Its lines are as many
as were asked for, numbered from one on, and each tells the identifier at its place. -/
theorem random_writes_listing {libraries : Libraries} {host : Host} {entropy : ChaCha.Key}
    {args : List String} {path : Option String} {asked : Option UInt64} {count : Nat}
    {settings : Settings} {seed : UInt64}
    (hread : Line.read args = .ok ⟨path, false, some (.random asked count)⟩)
    (hsettings : host.settings libraries.loader path = .ok settings)
    (hseed : asked.or settings.random.seed = some seed) (entropy' : ChaCha.Key) :
    let outcome := run libraries host entropy .working args
    let drawn := settings.drawMany (some seed) entropy' count
    let stream := settings.drawAt (some seed) entropy'
    outcome.ending.exitCode = 0 ∧ (host.IsQuiet → outcome.errorWritten = "") ∧
      outcome.written = Listing.items (drawn.map fun a => (settings.describe a).hex) ∧
      drawn = (List.range count).map stream ∧ 1 ≤ count ∧ count ≤ maxRandomCount ∧
      linesOf outcome.written.toList = (List.range count).map (fun i =>
        (Digit.decimalText (i + 1) ++ ". " ++ (settings.describe (stream i)).hex).toList) ∧
      ∀ i, Ident.read (settings.describe (stream i)).hex = .ok (stream i) := by
  intro outcome drawn stream
  have hgiven : (some seed).or settings.random.seed = some seed := rfl
  have hmany : settings.drawMany asked entropy count = drawn :=
    (Settings.drawMany_of_seed hseed entropy count).trans
      (Settings.drawMany_of_seed hgiven entropy' count).symm
  have hstream : drawn = (List.range count).map stream := by
    have hat : stream = _ := Settings.drawAt_of_seed hgiven entropy'
    rw [hat]
    exact Settings.drawMany_of_seed hgiven entropy' count
  have hfind : (Command.random asked count).find settings entropy = .ok (.listed drawn) := by
    rw [← hmany]
    rfl
  have hrun : outcome = _ := run_of_found hread nofun hsettings hfind
  have hwritten : outcome.written =
      Listing.items (drawn.map fun a => (settings.describe a).hex) := by
    rw [hrun]
    rfl
  obtain ⟨hpos, hlimit⟩ := Line.count_range hread rfl
  refine ⟨by rw [hrun]; rfl, ?_, hwritten, hstream, hpos, hlimit, ?_,
    fun i => settings.read_describe_hex (stream i)⟩
  · intro hquiet
    rw [hrun]
    exact libraries.logText_of_unset hquiet _
  · rw [hwritten, hstream, List.map_map]
    exact settings.linesOf_items stream count

/-- Two identifiers of a configured seed, in lowercase. -/
theorem two_items_of_configured_seed :
    let host : Host := { environment :=
      [("UINT160_PRINTER_DISPLAY__UPPERCASE", "false"), ("UINT160_PRINTER_RANDOM__SEED", "7")] }
    let entropy : ChaCha.Key := Vector.replicate 8 0
    let outcome := run .plain host entropy .working ["random", "-n", "2"]
    let settings : Settings := ⟨⟨false, true⟩, ⟨some 7⟩⟩
    let stream := settings.drawAt (some 7) entropy
    outcome.ending.exitCode = 0 ∧ linesOf outcome.written.toList =
      [("1. " ++ (settings.describe (stream 0)).hex).toList,
        ("2. " ++ (settings.describe (stream 1)).hex).toList] := by
  intro host entropy outcome settings stream
  have hread : Line.read ["random", "-n", "2"] = .ok ⟨none, false, some (.random none 2)⟩ := by
    decide +kernel
  have hsettings : host.settings Libraries.plain.loader none = .ok settings := by decide +kernel
  obtain ⟨hcode, -, -, -, -, -, hlines, -⟩ :=
    @random_writes_listing .plain host entropy _ _ _ _ _ _ hread hsettings rfl entropy
  exact ⟨hcode, hlines⟩

end Ident160
