import Ident160.Proofs.LineInvariants

/-!
Command lines that ask for limbs to be rendered. Where all arguments are limbs, they are collected
one by one and judged at the end. An argument that looks like an option is no limb, and no later
argument makes up for it. A list that looks like an option is not even taken for the list.
-/

namespace Ident160.Line

namespace State

/-! ### Limbs one by one -/

/-- The line behind `format` when it has brought nothing but texts for limbs. -/
def collecting (texts : List String) : State :=
  { pending := if texts = [] then none else some ⟨.limbs, texts, false⟩ }

theorem collecting_limbCount (texts : List String) :
    (collecting texts).limbCount = texts.length := by
  by_cases htexts : texts = []
  · subst htexts
    rfl
  · simp only [collecting, htexts, if_false, limbCount, List.length_nil, Nat.zero_add]

theorem readArgument_collecting (texts : List String) {arg : String} (h : shapeOf arg = .plain) :
    (collecting texts).readArgument (.behind .format) arg = .ok (collecting (texts ++ [arg])) := by
  have hpositional : (collecting texts).readPositional (.behind .format) arg =
      .ok (collecting (texts ++ [arg])) := by
    cases texts <;> rfl
  have htrailing : (collecting texts).trailing = false := rfl
  simp only [readArgument, htrailing, Bool.false_eq_true, if_false, h]
  split
  · next slot values hpending =>
    cases texts with
    | nil => simp [collecting] at hpending
    | cons text texts => simp [collecting] at hpending
  · exact hpositional

/-- Collected limbs are judged one by one, and fill their slot if there are any. -/
theorem settle_collecting (texts : List String) :
    (collecting texts).settle.map State.accepted =
      (Accepted.readLimbs texts).map fun limbs =>
        { filled := if texts = [] then [] else [.limbs], limbs := limbs } := by
  cases texts with
  | nil => rfl
  | cons text texts =>
    have hsettle : (collecting (text :: texts)).settle.map State.accepted =
        Accepted.accept {} .limbs (text :: texts) := by
      simp only [collecting, settle, reduceCtorEq, if_false]
      cases Accepted.accept {} .limbs (text :: texts) <;> rfl
    rw [hsettle]
    simp only [Accepted.accept, List.nil_append, reduceCtorEq, if_false]
    cases Accepted.readLimbs (text :: texts) <;> rfl

end State

/-- Arguments that do not look like options are all limbs. -/
theorem readArguments_collecting (texts : List String) {args : List String}
    (h : ∀ arg ∈ args, State.shapeOf arg = .plain) :
    readArguments (.behind .format) (State.collecting texts) args =
      (State.collecting (texts ++ args)).settle.map State.accepted := by
  induction args generalizing texts with
  | nil => rw [readArguments, List.append_nil]
  | cons arg args ih =>
    obtain ⟨harg, hargs⟩ := List.forall_mem_cons.mp h
    rw [readArguments, State.readArgument_collecting texts harg]
    dsimp only
    rw [ih (texts ++ [arg]) hargs, List.append_assoc, List.singleton_append]

/-- A line with as many limbs as arguments has no options among them: each would cost one. -/
theorem plain_of_all_limbs (texts : List String) {args : List String} {a : Accepted}
    (h : readArguments (.behind .format) (State.collecting texts) args = .ok a)
    (hcount : a.limbs.length = texts.length + args.length) :
    ∀ arg ∈ args, State.shapeOf arg = .plain := by
  induction args generalizing texts with
  | nil => simp
  | cons arg args ih =>
    rw [List.length_cons] at hcount
    obtain ⟨t, hread, hlast⟩ := readArguments_cons h
    by_cases hshape : State.shapeOf arg = .plain
    · rw [State.readArgument_collecting texts hshape, Except.ok.injEq] at hread
      subst hread
      refine List.forall_mem_cons.mpr ⟨hshape, ih (texts ++ [arg]) hlast ?_⟩
      rw [List.length_append, List.length_singleton]
      omega
    · have hprepared := State.readArgument_prepared rfl hshape hread
      have hsame := State.prepared_limbCount hprepared
      have hrest := readArguments_limbs_le hlast
      rw [State.collecting_limbCount] at hsame
      omega

/-! ### A list -/

namespace State

/-- A list that is still awaited cannot be judged. -/
theorem awaiting_of_prepared {s t : State} {arg : List Char}
    (hs : s.pending = some ⟨.list, [], true⟩) (h : Prepared arg s t) :
    t.pending = some ⟨.list, [], true⟩ := by
  induction h with
  | refl => exact hs
  | @tail m t _ hstep ih =>
    cases hstep with
    | settle _ hsettle =>
      have hstuck : m.settle = .error .emptyValue := by
        simp only [settle, ih]
        rfl
      simp [hstuck] at hsettle
    | fill _ _ _ _ hclosed _ _ => simp [hclosed] at ih
    | await _ _ hclosed => simp [hclosed] at ih
    | trail => exact ih

end State

/-- The text behind `--list` is the list if it is plain, and otherwise nothing is. -/
theorem readArguments_list_eq_ok_iff {text : String} {a : Accepted} :
    readArguments (.behind .format) {} ["--list", text] = .ok a ↔
      State.shapeOf text = .plain ∧ a = { filled := [.list], list := some text } := by
  have hawait : readArguments (.behind .format) {} ["--list", text] =
      readArguments (.behind .format) { pending := some ⟨.list, [], true⟩ } [text] := rfl
  rw [hawait, readArguments]
  by_cases hshape : State.shapeOf text = .plain
  · have hread : State.readArgument { pending := some ⟨.list, [], true⟩ } (.behind .format) text =
        .ok { pending := some ⟨.list, [text], false⟩ } := by
      simp only [State.readArgument, Bool.false_eq_true, if_false, hshape]
      rfl
    have hsettle : State.settle { pending := some ⟨.list, [text], false⟩ } =
        .ok { accepted := { filled := [.list], list := some text } } := rfl
    simp only [hread, readArguments, hsettle, Except.map, Except.ok.injEq, hshape, true_and]
    exact eq_comm
  · simp only [hshape, false_and, iff_false]
    intro h
    split at h
    · simp at h
    · next s hread =>
      have hstuck := State.awaiting_of_prepared rfl (State.readArgument_prepared rfl hshape hread)
      have hsettle : s.settle = .error .emptyValue := by
        simp only [State.settle, hstuck]
        rfl
      simp [readArguments, hsettle, Except.map] at h

/-! ### Whole lines -/

/-- A line for `format` is what stands behind it, once there are no gaps. -/
theorem read_format_eq_ok_iff {args : List String} {invocation : Invocation} :
    read ("format" :: args) = .ok invocation ↔
      ∃ a, readArguments (.behind .format) {} args = .ok a ∧ Verb.format.check a = .ok () ∧
        invocation = ⟨a.configPath, false, some (.format a.limbs a.list)⟩ := by
  have hread : read ("format" :: args) =
      (readCommand .format args).map fun r => ⟨r.2, false, some r.1⟩ := by
    have hfront : read ("format" :: args) =
        (readCommand .format args >>= fun r => .ok ⟨r.2 <|> none, false, some r.1⟩) := rfl
    rw [hfront]
    cases readCommand .format args with
    | error fault => rfl
    | ok r => simp [bind, Except.bind, Except.map]
  rw [hread, map_eq_ok_iff]
  constructor
  · intro h
    obtain ⟨⟨command, path⟩, hcommand, rfl⟩ := h
    obtain ⟨a, haccepted, hcheck, rfl, rfl⟩ := readCommand_accepted hcommand
    exact ⟨a, haccepted, hcheck, rfl⟩
  · intro h
    obtain ⟨a, haccepted, hcheck, rfl⟩ := h
    refine ⟨(.format a.limbs a.list, a.configPath), ?_, rfl⟩
    rw [readCommand, haccepted]
    simp only [bind, Except.bind, hcheck]
    rfl

/-- Arguments that do not look like options and are limbs make a line. -/
theorem read_limbs {args : List String} {limbs : List UInt32}
    (hshape : ∀ arg ∈ args, State.shapeOf arg = .plain)
    (hlimbs : Accepted.readLimbs args = .ok limbs) :
    read ("format" :: args) = .ok ⟨none, false, some (.format limbs none)⟩ := by
  have haccepted := readArguments_collecting [] hshape
  rw [State.settle_collecting, List.nil_append, hlimbs] at haccepted
  refine read_format_eq_ok_iff.mpr ⟨_, haccepted, ?_, rfl⟩
  cases args <;> rfl

/-- If all arguments of a line are limbs, there is nothing else on it. -/
theorem limbs_of_read {args : List String} {invocation : Invocation} {limbs : List UInt32}
    {list : Option String} (h : read ("format" :: args) = .ok invocation)
    (hcommand : invocation.command = some (.format limbs list))
    (hcount : limbs.length = args.length) :
    (∀ arg ∈ args, State.shapeOf arg = .plain) ∧ Accepted.readLimbs args = .ok limbs := by
  obtain ⟨a, haccepted, _, rfl⟩ := read_format_eq_ok_iff.mp h
  obtain ⟨rfl, rfl⟩ := Command.format.inj (Option.some.inj hcommand)
  have hstart : readArguments (.behind .format) (State.collecting []) args = .ok a := haccepted
  have hshape := plain_of_all_limbs [] hstart (by simpa using hcount)
  rw [readArguments_collecting [] hshape, State.settle_collecting, List.nil_append] at hstart
  obtain ⟨limbs, hlimbs, rfl⟩ := map_eq_ok_iff.mp hstart
  exact ⟨hshape, hlimbs⟩

theorem read_list_eq_ok_iff {text : String} {invocation : Invocation} :
    read ["format", "--list", text] = .ok invocation ↔
      State.shapeOf text = .plain ∧
        invocation = ⟨none, false, some (.format [] (some text))⟩ := by
  rw [read_format_eq_ok_iff]
  constructor
  · intro h
    obtain ⟨a, haccepted, _, rfl⟩ := h
    obtain ⟨hshape, rfl⟩ := readArguments_list_eq_ok_iff.mp haccepted
    exact ⟨hshape, rfl⟩
  · intro h
    obtain ⟨hshape, rfl⟩ := h
    exact ⟨_, readArguments_list_eq_ok_iff.mpr ⟨hshape, rfl⟩, rfl, rfl⟩

/-- The list of a line is the end of one of its arguments. -/
theorem list_of_read {P : String → Prop} {args : List String} {invocation : Invocation}
    {limbs : List UInt32} {text : String} (h : read ("format" :: args) = .ok invocation)
    (hcommand : invocation.command = some (.format limbs (some text)))
    (hargs : ∀ arg ∈ args, ∀ value : String, value.toList <:+ arg.toList → P value) : P text := by
  obtain ⟨a, haccepted, _, rfl⟩ := read_format_eq_ok_iff.mp h
  obtain ⟨_, hlist⟩ := Command.format.inj (Option.some.inj hcommand)
  exact (sound_of_readArguments hargs State.sound_empty haccepted).list text hlist

end Ident160.Line
