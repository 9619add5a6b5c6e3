import Ident160.Proofs.FirstShapes

/-!
What a refused limb list is told. A text outside the notation is told the rest at which reading
stopped, which is found behind the leading blanks, behind what the first fitting alternative takes
and behind the blanks that follow. A text of the notation is told its first limb of more than 32
bits. Nothing else can be at fault: the digits of a literal are sound, however many there are.
-/

namespace Ident160.LimbList

/-- Behind what is taken and the blanks around it, the text goes on with this rest. -/
inductive StopsBefore : List Char → List Char → Prop
  | intro (before front after rest : List Char) (literals : List Literal)
      (before_blank : Blanks before) (before_all : Ends isBlank (front ++ (after ++ rest)))
      (takes : Takes front (after ++ rest) literals) (after_blank : Blanks after)
      (after_all : Ends isBlank rest) (nonempty : rest ≠ []) :
      StopsBefore (before ++ (front ++ (after ++ rest))) rest

/-- The first literal of the list that needs more than 32 bits. -/
inductive FirstTooWide : List Literal → Literal → Prop
  | intro (before after : List Literal) (literal : Literal)
      (fit : ∀ other ∈ before, other.value < 2 ^ 32) (too_wide : 2 ^ 32 ≤ literal.value) :
      FirstTooWide (before ++ literal :: after) literal

/-! ### Texts outside the notation -/

/-- A text that goes on behind what is taken is refused there. -/
theorem readLiterals_of_stopsBefore {text rest : List Char} (h : StopsBefore text rest) :
    readLiterals text = .error (.unexpected rest) := by
  cases h with
  | intro before front after rest literals hbefore hall htakes hafter hends hne =>
    rw [readLiterals_eq, skipBlanks_append hbefore, skipBlanks_of_ends hall,
      readShape_of_takes htakes, skipBlanks_append hafter, skipBlanks_of_ends hends]
    cases rest with
    | nil => exact absurd rfl hne
    | cons c rest => rfl

theorem stopsBefore_of_readLiterals {text : List Char} {fault : Fault}
    (h : readLiterals text = .error fault) :
    ∃ rest, StopsBefore text rest ∧ fault = .unexpected rest := by
  obtain ⟨before, hbefore, htext⟩ := exists_blanks text
  obtain ⟨front, hfront, htakes⟩ :=
    readShape_eq_iff.mp (Prod.eta (readShape (skipBlanks text))).symm
  obtain ⟨after, hafter, hrest⟩ := exists_blanks (readShape (skipBlanks text)).2
  have hall := ends_skipBlanks text
  have hends := ends_skipBlanks (readShape (skipBlanks text)).2
  rw [readLiterals_eq] at h
  split at h
  · simp at h
  · next c rest hskip =>
    rw [hskip] at hrest hends
    rw [hrest] at hfront htakes
    rw [hfront] at htext hall
    rw [htext]
    exact ⟨c :: rest, .intro _ _ _ _ _ hbefore hall htakes hafter hends (List.cons_ne_nil _ _),
      (Except.error.inj h).symm⟩

/-- Nothing but what is left over can be wrong with a text as a list of literals. -/
theorem readLiterals_eq_error_iff {text : List Char} {fault : Fault} :
    readLiterals text = .error fault ↔
      ∃ rest, StopsBefore text rest ∧ fault = .unexpected rest := by
  constructor
  · exact stopsBefore_of_readLiterals
  · intro h
    obtain ⟨rest, hstops, rfl⟩ := h
    exact readLiterals_of_stopsBefore hstops

theorem StopsBefore.not_derives {text rest : List Char} (h : StopsBefore text rest) :
    ¬ ∃ literals, Derives text literals := by
  intro hderives
  obtain ⟨literals, hliterals⟩ := hderives
  have hread := readLiterals_of_derives hliterals
  rw [readLiterals_of_stopsBefore h] at hread
  contradiction

/-- Where nothing of the notation begins, the bare list takes nothing. -/
theorem takes_nothing {text : List Char} (hdump : ¬ Begins IsDump text)
    (hbracketed : ¬ Begins IsBracketed text) (hliteral : ¬ Begins IsLiteral text) :
    Takes [] text [] := by
  refine .elements hdump hbracketed .none ?_
  intro other behind limbs htext hlimbs
  cases hlimbs with
  | none => exact ⟨Nat.le_refl _, Nat.le_refl _⟩
  | some limb rest literal literals hlit _ =>
    rw [List.nil_append, List.append_assoc] at htext
    exact absurd ⟨limb, rest ++ behind, literal, htext, hlit⟩ hliteral

theorem derives_of_blanks {text : List Char} (h : Blanks text) : Derives text [] := by
  have hderives := Derives.elements text [] [] [] h .none blanks_nil
  rwa [List.append_nil, List.append_nil] at hderives

/-! ### Limbs of more than 32 bits -/

theorem word_of_value_lt {text : List Char} {literal : Literal} (h : IsLiteral text literal)
    (hvalue : literal.value < 2 ^ 32) : ∃ word, literal.word = .ok word :=
  ⟨UInt32.ofNat literal.value, (word_eq_ok_iff h).mpr (UInt32.toNat_ofNat_of_lt hvalue).symm⟩

theorem word_eq_error_iff {text : List Char} {literal : Literal} {fault : Fault}
    (h : IsLiteral text literal) :
    literal.word = .error fault ↔ 2 ^ 32 ≤ literal.value ∧ fault = .tooWide literal := by
  constructor
  · intro hword
    constructor
    · by_contra hlt
      obtain ⟨word, hok⟩ := word_of_value_lt h (Nat.lt_of_not_le hlt)
      rw [hword] at hok
      contradiction
    · unfold Literal.word at hword
      split at hword
      · simp at hword
      · exact (Except.error.inj hword).symm
  · intro hfault
    obtain ⟨hwide, rfl⟩ := hfault
    have hnot : ∀ word, literal.word ≠ .ok word := by
      intro word hok
      have hlt := word.toNat_lt
      rw [← (word_eq_ok_iff h).mp hok] at hlt
      omega
    unfold Literal.word at hnot ⊢
    split
    · next word hread => exact absurd (by rw [hread]) (hnot word)
    · rfl

theorem firstTooWide_cons {first literal : Literal} {literals : List Literal} :
    FirstTooWide (first :: literals) literal ↔
      2 ^ 32 ≤ first.value ∧ first = literal ∨
        first.value < 2 ^ 32 ∧ FirstTooWide literals literal := by
  constructor
  · intro h
    generalize htext : first :: literals = whole at h
    cases h with
    | intro before after literal hfit hwide =>
      cases before with
      | nil =>
        obtain ⟨rfl, -⟩ := List.cons.inj htext
        exact Or.inl ⟨hwide, rfl⟩
      | cons other before =>
        obtain ⟨rfl, rfl⟩ := List.cons.inj htext
        obtain ⟨hfirst, hbefore⟩ := List.forall_mem_cons.mp hfit
        exact Or.inr ⟨hfirst, .intro before after literal hbefore hwide⟩
  · intro h
    rcases h with ⟨hwide, rfl⟩ | ⟨hfirst, hrest⟩
    · exact .intro [] literals first (by simp) hwide
    · cases hrest with
      | intro before after literal hfit hwide =>
        exact .intro (first :: before) after literal (List.forall_mem_cons.mpr ⟨hfirst, hfit⟩) hwide

theorem not_firstTooWide_nil (literal : Literal) : ¬ FirstTooWide [] literal := by
  intro h
  generalize htext : [] = whole at h
  cases h with
  | intro before after literal => exact List.append_ne_nil_of_right_ne_nil _ (by simp) htext.symm

/-- The first literal that is too wide is told. -/
theorem literalWords_eq_error_iff {literals : List Literal} {fault : Fault}
    (h : ∀ literal ∈ literals, ∃ limb, IsLiteral limb literal) :
    literalWords literals = .error fault ↔
      ∃ literal, FirstTooWide literals literal ∧ fault = .tooWide literal := by
  induction literals with
  | nil => simp [literalWords, not_firstTooWide_nil]
  | cons first literals ih =>
    obtain ⟨⟨limb, hlit⟩, hrest⟩ := List.forall_mem_cons.mp h
    simp only [firstTooWide_cons]
    rcases Nat.lt_or_ge first.value (2 ^ 32) with hfits | hwide
    · obtain ⟨word, hword⟩ := word_of_value_lt hlit hfits
      have htail : literalWords (first :: literals) = (literalWords literals).map (word :: ·) := by
        rw [literalWords, hword]
      have hmap : (literalWords literals).map (word :: ·) = .error fault ↔
          literalWords literals = .error fault := by
        cases literalWords literals <;> simp [Except.map]
      rw [htail, hmap, ih hrest]
      simp [hfits, Nat.not_le_of_lt hfits]
    · have hword : first.word = .error (.tooWide first) :=
        (word_eq_error_iff hlit).mpr ⟨hwide, rfl⟩
      have hhead : literalWords (first :: literals) = .error (.tooWide first) := by
        rw [literalWords, hword]
      rw [hhead]
      simp [hwide, Nat.not_lt_of_le hwide, eq_comm]

/-! ### Messages -/

theorem readChars_eq_error_iff {text : List Char} {fault : Fault} :
    readChars text = .error fault ↔
      (∃ rest, StopsBefore text rest ∧ fault = .unexpected rest) ∨
        ∃ literals literal, Derives text literals ∧ FirstTooWide literals literal ∧
          fault = .tooWide literal := by
  rw [readChars_eq, bind_eq_error_iff, readLiterals_eq_error_iff]
  refine or_congr_right ⟨?_, ?_⟩
  · rintro ⟨literals, hread, hwords⟩
    have hderives := readLiterals_eq_ok_iff.mp hread
    obtain ⟨literal, hwide, rfl⟩ := (literalWords_eq_error_iff hderives.isLiteral).mp hwords
    exact ⟨literals, literal, hderives, hwide, rfl⟩
  · rintro ⟨literals, literal, hderives, hwide, rfl⟩
    exact ⟨literals, readLiterals_eq_ok_iff.mpr hderives,
      (literalWords_eq_error_iff hderives.isLiteral).mpr ⟨literal, hwide, rfl⟩⟩

/-- Where the notation takes nothing, the whole rest is unexpected. -/
theorem fault_of_takes_nothing {before behind : List Char} {fault : Fault}
    (h : readChars (before ++ behind) = .error fault) (hbefore : Blanks before)
    (hends : Ends isBlank behind) (htakes : Takes [] behind []) : fault = .unexpected behind := by
  by_cases hne : behind = []
  · rw [hne, List.append_nil, readChars_eq,
      readLiterals_of_derives (derives_of_blanks hbefore)] at h
    cases h
  · have hstops : StopsBefore (before ++ behind) behind :=
      .intro before [] [] behind [] hbefore hends htakes blanks_nil hends hne
    rw [readChars_eq, readLiterals_of_stopsBefore hstops] at h
    exact (Except.error.inj h).symm

theorem detail_unexpected (rest : List Char) :
    (Fault.unexpected rest).detail = "unexpected input at `" ++ String.ofList rest ++ "`" := rfl

theorem detail_tooWide (literal : Literal) :
    (Fault.tooWide literal).detail =
      "limb " ++ String.ofList literal.shown ++ " does not fit in 32 bits" := rfl

/-- No reading ends for want of more input: what is not taken is refused where it stands. -/
theorem detail_ne_incomplete {text : List Char} {fault : Fault}
    (h : readChars text = .error fault) : fault.detail ≠ "incomplete input" := by
  have hincomplete : "incomplete input".toList = 'i' :: "ncomplete input".toList := by
    decide +kernel
  intro hdetail
  have hchars := congrArg String.toList hdetail
  rcases readChars_eq_error_iff.mp h with ⟨rest, _, rfl⟩ | ⟨_, literal, _, _, rfl⟩
  · have hmessage : "unexpected input at `".toList = 'u' :: "nexpected input at `".toList := by
      decide +kernel
    rw [detail_unexpected, String.toList_append, String.toList_append, hmessage,
      hincomplete] at hchars
    exact absurd (List.cons.inj hchars).1 (by decide)
  · have hmessage : "limb ".toList = 'l' :: "imb ".toList := by decide +kernel
    rw [detail_tooWide, String.toList_append, String.toList_append, hmessage, hincomplete] at hchars
    exact absurd (List.cons.inj hchars).1 (by decide)

/-- A refused text is either no limb list or one with a limb of more than 32 bits. In the first
case the message quotes the rest at which reading stops, which is the whole text behind its blanks
where nothing of the notation begins; in the second case it quotes the first such limb. Reading
never asks for more input. -/
theorem detail_tells_rest_or_limb {text : String} {fault : Fault} (h : read text = .error fault) :
    Xor
      ((¬ ∃ literals, Derives text.toList literals) ∧ ∃ rest, StopsBefore text.toList rest ∧
        fault.detail = "unexpected input at `" ++ String.ofList rest ++ "`")
      (∃ literals literal, Derives text.toList literals ∧ FirstTooWide literals literal ∧
        fault.detail = "limb " ++ String.ofList literal.shown ++ " does not fit in 32 bits") ∧
    (∀ before behind, text.toList = before ++ behind → Blanks before → Ends isBlank behind →
      ¬ Begins IsDump behind → ¬ Begins IsBracketed behind → ¬ Begins IsLiteral behind →
      fault.detail = "unexpected input at `" ++ String.ofList behind ++ "`") ∧
    fault.detail ≠ "incomplete input" := by
  refine ⟨?_, ?_, detail_ne_incomplete h⟩
  · rcases readChars_eq_error_iff.mp h with hunexpected | hlimb
    · obtain ⟨rest, hstops, rfl⟩ := hunexpected
      refine Or.inl ⟨⟨hstops.not_derives, rest, hstops, rfl⟩, fun hother => ?_⟩
      obtain ⟨literals, _, hderives, _⟩ := hother
      exact hstops.not_derives ⟨literals, hderives⟩
    · obtain ⟨literals, literal, hderives, hwide, rfl⟩ := hlimb
      exact Or.inr ⟨⟨literals, literal, hderives, hwide, rfl⟩,
        fun hother => hother.1 ⟨literals, hderives⟩⟩
  · intro before behind htext hbefore hends hdump hbracketed hliteral
    have htakes := takes_nothing hdump hbracketed hliteral
    rw [read, htext] at h
    rw [fault_of_takes_nothing h hbefore hends htakes, detail_unexpected]

/-- A list that stops at a comma with no limb behind it, and one with a limb too wide behind the
capital mark. -/
theorem comma_left_over_and_wide_limb :
    (∃ rest, StopsBefore " 1 2 , x".toList rest ∧
      "unexpected input at `, x`" = "unexpected input at `" ++ String.ofList rest ++ "`") ∧
    ∃ literals literal, Derives "[7 0X100000000]".toList literals ∧
      FirstTooWide literals literal ∧ "limb 0x100000000 does not fit in 32 bits" =
        "limb " ++ String.ofList literal.shown ++ " does not fit in 32 bits" := by
  constructor
  · have hread : readLiterals " 1 2 , x".toList = .error (.unexpected [',', ' ', 'x']) := by
      decide +kernel
    have hrefused : read " 1 2 , x" = .error (.unexpected [',', ' ', 'x']) := by decide +kernel
    rcases (detail_tells_rest_or_limb hrefused).1 with houtside | hinside
    · exact houtside.1.2
    · obtain ⟨⟨literals, _, hderives, _⟩, _⟩ := hinside
      rw [readLiterals_of_derives hderives] at hread
      contradiction
  · have hread : readLiterals "[7 0X100000000]".toList =
        .ok [.decimal ['7'], .hex "100000000".toList] := by decide +kernel
    have hrefused : read "[7 0X100000000]" = .error (.tooWide (.hex "100000000".toList)) := by
      decide +kernel
    rcases (detail_tells_rest_or_limb hrefused).1 with houtside | hinside
    · exact absurd ⟨_, derives_of_readLiterals hread⟩ houtside.1.1
    · exact hinside.1

end Ident160.LimbList
