import Ident160.Proofs.FormatLines
import Ident160.Proofs.LimbArguments
import Ident160.Proofs.RunCourses

/-!
Rendering limbs from the arguments of the line and from a list. With the same limbs the two runs
are the same in everything but their logs, since a list is noted down when it has been read. A list
that gets rendered has five literals, which are limbs as they stand; five arguments that get
rendered are limbs, but a plus sign makes an argument no literal.
-/

namespace Ident160

open LimbList

/-! ### The limbs -/

theorem length_of_identOfWords {words : List UInt32} {a : Ident} (h : identOfWords words = .ok a) :
    words.length = 5 := by
  by_contra hlength
  have hnone : Ident.ofWords? words = none := dif_neg hlength
  rw [identOfWords, hnone] at h
  cases h

theorem toList_joined (args : List String) :
    (" ".intercalate args).toList = [' '].intercalate (args.map String.toList) := by
  rw [String.toList_intercalate]
  rfl

/-- Texts are literals exactly if they are limbs on their own and have no plus signs. -/
theorem readLimbs_iff {args : List String} {words : List UInt32} :
    Line.Accepted.readLimbs args = .ok words ∧ (∀ arg ∈ args, '+' ∉ arg.toList) ↔
      List.Forall₂ (fun text word => ∃ literal, IsLiteral text literal ∧
        literal.value = word.toNat) (args.map String.toList) words := by
  have hliteral : ∀ (arg : String) (word : UInt32),
      ('+' ∉ arg.toList ∧ readLimb arg = .ok word ↔
        ∃ literal, IsLiteral arg.toList literal ∧ literal.value = word.toNat) := by
    intro arg word
    rw [← readLimbChars_iff, readLimb_eq_ok_iff, and_comm]
  simp only [List.forall₂_map_left_iff, ← hliteral, List.forall₂_and_left]
  rw [Line.Accepted.readLimbs_eq_ok_iff, and_comm]

/-- A list of plain texts is read as if each text were read on its own, but for plus signs. -/
theorem read_joined_iff {args : List String} {words : List UInt32}
    (hplain : ∀ arg ∈ args, Plain arg.toList) (hlength : words.length = args.length) :
    LimbList.read (" ".intercalate args) = .ok words ↔
      Line.Accepted.readLimbs args = .ok words ∧ ∀ arg ∈ args, '+' ∉ arg.toList := by
  have hplain' : ∀ text ∈ args.map String.toList, Plain text := by
    intro text htext
    obtain ⟨arg, harg, rfl⟩ := List.mem_map.mp htext
    exact hplain arg harg
  rw [LimbList.read, toList_joined, readChars_joined_iff hplain' (by simpa using hlength),
    readLimbs_iff]

/-- There are no two limbs in a plain text, as nothing parts them. -/
theorem length_le_one_of_plain {text : String} {words : List UInt32} (hplain : Plain text.toList)
    (h : LimbList.read text = .ok words) : words.length ≤ 1 := by
  obtain ⟨literals, hderives, hvalues⟩ := readChars_eq_ok_iff.mp h
  have hpieces := hderives.pieces_forall₂ fun c hc => (hplain c hc).2
  rw [pieces_of_unbroken fun c hc => (hplain c hc).1] at hpieces
  have hcount := congrArg List.length hvalues
  rw [List.length_map, List.length_map, ← hpieces.length_eq] at hcount
  rw [← hcount]
  exact List.length_filter_le _ _

theorem shapeOf_of_digit {arg : String} {d : Char} {rest : List Char}
    (h : arg.toList = d :: rest) (hd : d.isDigit = true) :
    Line.State.shapeOf arg = .plain := by
  have hdash : d ≠ '-' := by
    rintro rfl
    exact absurd hd (by decide)
  unfold Line.State.shapeOf
  split
  · next heq => exact absurd (List.cons.inj (h.symm.trans heq)).1 hdash
  · next heq => exact absurd (List.cons.inj (h.symm.trans heq)).1 hdash
  · next heq => exact absurd (List.cons.inj (h.symm.trans heq)).1 hdash
  · rfl

theorem joined_starts (arg : String) (others : List String) :
    ∃ rest, (" ".intercalate (arg :: others)).toList = arg.toList ++ rest := by
  rw [toList_joined]
  cases others with
  | nil => exact ⟨[], by rw [List.map_singleton, List.intercalate_singleton, List.append_nil]⟩
  | cons next others =>
    rw [List.map_cons, List.map_cons, List.intercalate_cons_cons, List.append_assoc]
    exact ⟨_, rfl⟩

/-- Limbs without plus signs do not look like options, alone or in a list. -/
theorem shapes_plain {args : List String} {limbs : List UInt32}
    (hlimbs : Line.Accepted.readLimbs args = .ok limbs) (hplus : ∀ arg ∈ args, '+' ∉ arg.toList)
    (hne : args ≠ []) :
    (∀ arg ∈ args, Line.State.shapeOf arg = .plain) ∧
      Line.State.shapeOf (" ".intercalate args) = .plain := by
  have hhead : ∀ arg ∈ args, ∃ d rest, arg.toList = d :: rest ∧ d.isDigit = true := by
    intro arg harg
    obtain ⟨word, hword⟩ := Line.Accepted.limb_of_readLimbs hlimbs arg harg
    obtain ⟨literal, hlit, _⟩ := readLimbChars_iff.mp ⟨readLimb_eq_ok_iff.mp hword, hplus arg harg⟩
    exact hlit.head
  refine ⟨?_, ?_⟩
  · intro arg harg
    obtain ⟨d, rest, heq, hd⟩ := hhead arg harg
    exact shapeOf_of_digit heq hd
  · obtain ⟨arg, others, rfl⟩ := List.exists_cons_of_ne_nil hne
    obtain ⟨d, rest, heq, hd⟩ := hhead arg (by simp)
    obtain ⟨behind, hjoined⟩ := joined_starts arg others
    rw [heq, List.cons_append] at hjoined
    exact shapeOf_of_digit hjoined hd

/-! ### The runs -/

section

variable {libraries : Libraries} {host : Host} {entropy : ChaCha.Key} {sink : Sink}
  {args : List String}

/-- Only command lines that are accepted get done. -/
theorem read_of_done (h : (run libraries host entropy sink args).ending = .done) :
    ∃ invocation, Line.read args = .ok invocation := by
  cases hread : Line.read args with
  | error fault =>
    rw [run, hread] at h
    cases h
  | ok invocation => exact ⟨invocation, rfl⟩

/-- A run gets limbs rendered only if they make an identifier. -/
theorem ident_of_done {path : Option String} {limbs : List UInt32} {list : Option String}
    (hread : Line.read args = .ok ⟨path, false, some (.format limbs list)⟩)
    (h : (run libraries host entropy sink args).ending = .done) :
    ∃ a, identOfLimbs limbs list = .ok a := by
  obtain ⟨settings, finding, _, hfind⟩ := found_of_done hread (by simp) h
  obtain ⟨a, ha, _⟩ := map_eq_ok_iff.mp hfind
  exact ⟨a, mapError_eq_ok_iff.mp ha⟩

theorem words_of_ident {text : String} {limbs : List UInt32} {a : Ident}
    (h : identOfLimbs limbs (some text) = .ok a) :
    ∃ words, LimbList.read text = .ok words ∧ words.length = 5 := by
  rw [identOfLimbs] at h
  split at h
  · cases h
  · next words hwords => exact ⟨words, hwords, length_of_identOfWords h⟩

theorem words_of_listed {text : String}
    (h : (run libraries host entropy sink ["format", "--list", text]).ending = .done) :
    ∃ words, LimbList.read text = .ok words ∧ words.length = 5 := by
  obtain ⟨invocation, hread⟩ := read_of_done h
  obtain ⟨_, rfl⟩ := Line.read_list_eq_ok_iff.mp hread
  obtain ⟨a, ha⟩ := ident_of_done hread h
  exact words_of_ident ha

/-- A list among plain arguments has too few limbs, so five limbs leave no room for options. -/
theorem limbs_of_direct (hplain : ∀ arg ∈ args, Plain arg.toList) (hfive : args.length = 5)
    (h : (run libraries host entropy sink ("format" :: args)).ending = .done) :
    ∃ limbs, Line.Accepted.readLimbs args = .ok limbs := by
  obtain ⟨invocation, hread⟩ := read_of_done h
  obtain ⟨a, _, _, rfl⟩ := Line.read_format_eq_ok_iff.mp hread
  obtain ⟨found, hfound⟩ := ident_of_done hread h
  cases hlist : a.list with
  | some text =>
    have hpieces : ∀ arg ∈ args, ∀ value : String,
        value.toList <:+ arg.toList → Plain value.toList :=
      fun arg harg value hvalue c hc => hplain arg harg c (hvalue.mem hc)
    have hcommand : some (Command.format a.limbs a.list) = some (.format a.limbs (some text)) := by
      rw [hlist]
    have htext : Plain text.toList := Line.list_of_read hread hcommand hpieces
    rw [hlist] at hfound
    obtain ⟨words, hwords, hall⟩ := words_of_ident hfound
    have hmost := length_le_one_of_plain htext hwords
    omega
  | none =>
    rw [hlist] at hfound
    have hcount : a.limbs.length = args.length := by
      rw [length_of_identOfWords hfound, hfive]
    exact ⟨a.limbs, (Line.limbs_of_read hread rfl hcount).2⟩

end

/-- With the same limbs both runs are the same, also in how they fail, as far as the log is not
shown. -/
theorem listed_like_direct (libraries : Libraries) (host : Host) (entropy : ChaCha.Key)
    (sink : Sink) {args : List String} {limbs : List UInt32}
    (hplain : ∀ arg ∈ args, Plain arg.toList) (hne : args ≠ [])
    (hlimbs : Line.Accepted.readLimbs args = .ok limbs)
    (hplus : ∀ arg ∈ args, '+' ∉ arg.toList) :
    let direct := run libraries host entropy sink ("format" :: args)
    let listed := run libraries host entropy sink ["format", "--list", " ".intercalate args]
    listed.ending = direct.ending ∧ listed.written = direct.written ∧ listed.host = direct.host ∧
      (host.IsQuiet → listed = direct) := by
  intro direct listed
  obtain ⟨hshapes, hshape⟩ := shapes_plain hlimbs hplus hne
  have hlength : limbs.length = args.length :=
    (Line.Accepted.readLimbs_eq_ok_iff.mp hlimbs).length_eq.symm
  have hlist := (read_joined_iff hplain hlength).mpr ⟨hlimbs, hplus⟩
  have hlisted := Line.read_list_eq_ok_iff.mpr ⟨hshape, rfl⟩
  refine runs_of_find_eq hlisted (Line.read_limbs hshapes hlimbs) nofun nofun ?_ sink
  intro settings
  simp only [Command.find, identOfLimbs, hlist]

/-- The two ways of giving limbs agree on texts without plus signs. A plus sign, alone or behind
the mark of hexadecimal, is taken by the reader of single limbs only. -/
theorem limbs_agree_without_plus (libraries : Libraries) (host : Host) (entropy : ChaCha.Key)
    (sink : Sink) :
    (∀ (text : String) (word : UInt32), Plain text.toList →
      (LimbList.read text = .ok [word] ↔ readLimb text = .ok word ∧ '+' ∉ text.toList)) ∧
    ∀ args : List String, args.length = 5 → (∀ arg ∈ args, Plain arg.toList) →
      let direct := run libraries host entropy sink ("format" :: args)
      let listed := run libraries host entropy sink ["format", "--list", " ".intercalate args]
      (listed.ending = .done ↔ direct.ending = .done ∧ ∀ arg ∈ args, '+' ∉ arg.toList) ∧
        (listed.ending = .done → listed.written = direct.written ∧ listed.host = direct.host ∧
          (host.IsQuiet → listed = direct)) := by
  refine ⟨fun text word hplain => read_single_iff hplain, ?_⟩
  intro args hfive hplain direct listed
  have hne : args ≠ [] := by
    rintro rfl
    simp at hfive
  have hplus : listed.ending = .done →
      ∃ limbs, Line.Accepted.readLimbs args = .ok limbs ∧ ∀ arg ∈ args, '+' ∉ arg.toList := by
    intro h
    obtain ⟨words, hwords, hlength⟩ := words_of_listed h
    exact ⟨words, (read_joined_iff hplain (by omega)).mp hwords⟩
  refine ⟨⟨?_, ?_⟩, ?_⟩
  · intro h
    obtain ⟨limbs, hlimbs, hplus⟩ := hplus h
    obtain ⟨hending, _⟩ := listed_like_direct libraries host entropy sink hplain hne hlimbs hplus
    exact ⟨hending ▸ h, hplus⟩
  · rintro ⟨h, hplus⟩
    obtain ⟨limbs, hlimbs⟩ := limbs_of_direct hplain hfive h
    obtain ⟨hending, _⟩ := listed_like_direct libraries host entropy sink hplain hne hlimbs hplus
    exact hending.trans h
  · intro h
    obtain ⟨limbs, hlimbs, hplus⟩ := hplus h
    obtain ⟨_, hwritten, hhost, hquiet⟩ :=
      listed_like_direct libraries host entropy sink hplain hne hlimbs hplus
    exact ⟨hwritten, hhost, hquiet⟩

/-- Limbs in both radices, one of them behind the capital mark. -/
theorem limbs_agree_on_five :
    let host : Host := { environment := [("HOME", "/home/u")] }
    let entropy : ChaCha.Key := Vector.replicate 8 0
    let args := ["1", "007", "0xff", "0XdeadBEEF", "4294967295"]
    (∀ arg ∈ args, Plain arg.toList) ∧
      (run .plain host entropy .working ("format" :: args)).ending = .done ∧
      run .plain host entropy .working ["format", "--list", " ".intercalate args] =
        run .plain host entropy .working ("format" :: args) ∧
      LimbList.read "0xff" = .ok [255] := by
  intro host entropy args
  have hplain : ∀ arg ∈ args, Plain arg.toList := by decide
  have hdone : (run .plain host entropy .working ("format" :: args)).ending = .done := by
    decide +kernel
  have hplus : ∀ arg ∈ args, '+' ∉ arg.toList := by decide
  have hlimb : readLimb "0xff" = .ok 255 ∧ '+' ∉ "0xff".toList := by decide
  obtain ⟨hsingle, hruns⟩ := limbs_agree_without_plus .plain host entropy .working
  obtain ⟨hiff, hsame⟩ := hruns args rfl hplain
  obtain ⟨_, _, hquiet⟩ := hsame (hiff.mpr ⟨hdone, hplus⟩)
  refine ⟨hplain, hdone, hquiet rfl, ?_⟩
  exact (hsingle "0xff" 255 (hplain "0xff" (by decide))).mpr hlimb

/-- A plus sign is fine in an argument, and unexpected in a list. -/
theorem plus_sign_tells_readers_apart :
    let host : Host := { environment := [("HOME", "/home/u")] }
    let entropy : ChaCha.Key := Vector.replicate 8 0
    let direct := run .plain host entropy .working ["format", "+1", "2", "3", "4", "5"]
    let listed := run .plain host entropy .working ["format", "--list", "+1 2 3 4 5"]
    readLimb "+1" = .ok 1 ∧ LimbList.read "+1" = .error (.unexpected ['+', '1']) ∧
      direct.ending.exitCode = 0 ∧ listed.ending.exitCode = 1 := by
  decide +kernel

end Ident160
