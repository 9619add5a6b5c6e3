import Ident160.Proofs.LineReading
import Mathlib.Data.List.Forall2

/-!
What holds of every line that is accepted. The count of identifiers stays in its range, a kept
list is the end of some argument, and a line has no more limbs than arguments. Each of these holds
of the empty state and is kept by every move, so it holds when the line is over.
-/

namespace Ident160.Line

/-! ### Accepting values -/

theorem readCount_range {text : String} {n : Nat} (h : readCount text = .ok n) :
    1 ≤ n ∧ n ≤ maxRandomCount := by
  unfold readCount at h
  split at h
  · simp at h
  · next m _ =>
    split at h
    · next hrange =>
      rw [← Except.ok.inj h]
      omega
    · simp at h

namespace Accepted

variable {a b : Accepted} {slot : Slot} {values : List String} {P : String → Prop}

theorem readLimbs_eq_ok_iff {texts : List String} {limbs : List UInt32} :
    readLimbs texts = .ok limbs ↔
      List.Forall₂ (fun text limb => readLimb text = .ok limb) texts limbs := by
  induction texts generalizing limbs with
  | nil => simp [readLimbs, eq_comm]
  | cons text texts ih =>
    rw [readLimbs]
    cases hlimb : readLimb text with
    | error cause =>
      simp only [reduceCtorEq, false_iff]
      intro h
      cases h with
      | cons hhead _ => simp [hlimb] at hhead
    | ok limb =>
      dsimp only
      rw [map_eq_ok_iff]
      constructor
      · intro h
        obtain ⟨rest, hrest, rfl⟩ := h
        exact .cons hlimb (ih.mp hrest)
      · intro h
        cases h with
        | @cons _ found _ rest hhead htail =>
          obtain rfl := Except.ok.inj (hlimb.symm.trans hhead)
          exact ⟨rest, ih.mpr htail, rfl⟩

theorem limb_of_readLimbs {texts : List String} {limbs : List UInt32}
    (h : readLimbs texts = .ok limbs) : ∀ text ∈ texts, ∃ limb, readLimb text = .ok limb := by
  have hread := readLimbs_eq_ok_iff.mp h
  clear h
  induction hread with
  | nil => simp
  | cons hhead _ ih => exact List.forall_mem_cons.mpr ⟨⟨_, hhead⟩, ih⟩

theorem accept_limbs (h : a.accept .limbs values = .ok b) :
    ∃ limbs, readLimbs values = .ok limbs ∧
      b = { a with filled := .limbs :: a.filled, limbs := a.limbs ++ limbs } := by
  obtain ⟨limbs, hlimbs, hpure⟩ := bind_eq_ok_iff.mp h
  exact ⟨limbs, hlimbs, (Except.ok.inj hpure).symm⟩

/-- The parts of the line with which its readers are concerned: a count is put in only if it is in
range, a list is put in as it stands, and limbs are not put in one by one. -/
theorem store_kept {value : String} (h : a.store slot value = .ok b) :
    b.limbs = a.limbs ∧ (b.count = a.count ∨ 1 ≤ b.count ∧ b.count ≤ maxRandomCount) ∧
      (b.list = a.list ∨ b.list = some value) := by
  cases slot with
  | configPath =>
    simp only [store] at h
    split at h
    · simp at h
    · rw [← Except.ok.inj h]
      simp
  | seed =>
    simp only [store] at h
    split at h
    · simp at h
    · rw [← Except.ok.inj h]
      simp
  | count =>
    simp only [store] at h
    split at h
    · simp at h
    · next count hcount =>
      rw [← Except.ok.inj h]
      exact ⟨rfl, Or.inr (readCount_range hcount), Or.inl rfl⟩
  | limbs | version | help | init | list | hex | left | right | text =>
    rw [← Except.ok.inj h]
    simp

theorem accept_kept (hslot : slot ≠ .limbs) (h : a.accept slot values = .ok b) :
    b.limbs = a.limbs ∧ (b.count = a.count ∨ 1 ≤ b.count ∧ b.count ≤ maxRandomCount) ∧
      (b.list = a.list ∨ ∃ value ∈ values, b.list = some value) := by
  unfold accept at h
  split at h
  · simp at h
  · exact absurd rfl hslot
  · split at h
    · split at h
      · simp at h
      · next value rest =>
        split at h
        · simp at h
        · obtain ⟨hlimbs, hcount, hlist⟩ := store_kept h
          exact ⟨hlimbs, hcount, hlist.imp id fun hvalue => ⟨value, by simp, hvalue⟩⟩
    · split at h
      · simp at h
      · rw [← Except.ok.inj h]
        simp

/-- The count is in range, and a list has a given property. -/
structure Sound (P : String → Prop) (a : Accepted) : Prop where
  count_pos : 1 ≤ a.count
  count_le : a.count ≤ maxRandomCount
  list : ∀ text ∈ a.list, P text

theorem sound_empty : Sound P {} :=
  ⟨by decide, by decide, by simp⟩

theorem sound_of_accept (ha : a.Sound P) (hvalues : ∀ value ∈ values, P value)
    (h : a.accept slot values = .ok b) : b.Sound P := by
  by_cases hslot : slot = .limbs
  · subst hslot
    obtain ⟨limbs, _, rfl⟩ := accept_limbs h
    exact ⟨ha.count_pos, ha.count_le, ha.list⟩
  · obtain ⟨_, hcount, hlist⟩ := accept_kept hslot h
    have hpos := ha.count_pos
    have hle := ha.count_le
    refine ⟨by omega, by omega, ?_⟩
    intro text htext
    rcases hlist with hlist | ⟨value, hmem, hlist⟩
    · exact ha.list text (hlist ▸ htext)
    · rw [hlist] at htext
      rw [← Option.some.inj htext]
      exact hvalues value hmem

end Accepted

namespace State

variable {s t : State} {P : String → Prop}

/-- So far the count is in range, and the list and all that is being collected have a given
property. -/
structure Sound (P : String → Prop) (s : State) : Prop where
  accepted : s.accepted.Sound P
  values : ∀ p ∈ s.pending, ∀ value ∈ p.values, P value

theorem sound_empty : Sound P {} := ⟨Accepted.sound_empty, by simp⟩

theorem sound_of_settle (hs : s.Sound P) (h : s.settle = .ok t) : t.Sound P := by
  unfold settle at h
  split at h
  · rw [← Except.ok.inj h]
    exact hs
  · next p hpending =>
    obtain ⟨a, haccept, rfl⟩ := map_eq_ok_iff.mp h
    exact ⟨Accepted.sound_of_accept hs.accepted (hs.values p hpending) haccept, by simp⟩

theorem sound_of_prepares {arg : List Char}
    (harg : ∀ value : String, value.toList <:+ arg → P value) (hs : s.Sound P)
    (h : Prepares arg s t) : t.Sound P := by
  cases h with
  | settle _ hsettle => exact sound_of_settle hs hsettle
  | fill slot values a _ _ hpieces haccept =>
    have hvalues : ∀ value ∈ values, P value := fun value hmem => harg value (hpieces value hmem)
    exact ⟨Accepted.sound_of_accept hs.accepted hvalues haccept, hs.values⟩
  | await slot _ _ => exact ⟨hs.accepted, by simp⟩
  | trail => exact ⟨hs.accepted, hs.values⟩

theorem sound_of_collects {arg : String} (harg : P arg) (hs : s.Sound P) (h : Collects arg s t) :
    t.Sound P := by
  refine ⟨?_, ?_⟩
  · cases h <;> exact hs.accepted
  · cases h with
    | opens slot position _ => simpa using harg
    | joins slot values awaits hopened =>
      have hvalues := hs.values _ hopened
      intro p hp
      rw [← Option.some.inj hp]
      intro value hvalue
      rcases List.mem_append.mp hvalue with hold | hnew
      · exact hvalues value hold
      · rw [List.mem_singleton.mp hnew]
        exact harg

theorem sound_of_readArgument {scope : Scope} {arg : String}
    (harg : ∀ value : String, value.toList <:+ arg.toList → P value) (hs : s.Sound P)
    (h : s.readArgument scope arg = .ok t) : t.Sound P := by
  obtain ⟨m, hprepared, hm⟩ := readArgument_moves h
  have hsound : m.Sound P := by
    clear hm
    induction hprepared with
    | refl => exact hs
    | tail _ hstep ih => exact sound_of_prepares harg ih hstep
  rcases hm with rfl | hcollects
  · exact hsound
  · exact sound_of_collects (harg arg List.suffix_rfl) hsound hcollects

end State

/-- What holds for every end of an argument holds for every value of the line. -/
theorem sound_of_readArguments {scope : Scope} {s : State} {args : List String} {a : Accepted}
    {P : String → Prop}
    (hargs : ∀ arg ∈ args, ∀ value : String, value.toList <:+ arg.toList → P value)
    (hs : s.Sound P) (h : readArguments scope s args = .ok a) : a.Sound P := by
  induction args generalizing s with
  | nil =>
    obtain ⟨t, hsettle, rfl⟩ := readArguments_nil h
    exact (State.sound_of_settle hs hsettle).accepted
  | cons arg args ih =>
    obtain ⟨harg, hrest⟩ := List.forall_mem_cons.mp hargs
    obtain ⟨t, hread, hlast⟩ := readArguments_cons h
    exact ih hrest (State.sound_of_readArgument harg hs hread) hlast

/-! ### Limbs -/

namespace State

variable {s t : State}

/-- How many limbs have been given so far, judged or not. -/
def limbCount (s : State) : Nat :=
  s.accepted.limbs.length +
    match s.pending with
    | some ⟨.limbs, values, _⟩ => values.length
    | _ => 0

theorem limbCount_of_closed (h : s.pending = none) : s.limbCount = s.accepted.limbs.length := by
  simp only [limbCount, h, Nat.add_zero]

theorem limbCount_of_other {p : Pending} (h : s.pending = some p) (hslot : p.slot ≠ .limbs) :
    s.limbCount = s.accepted.limbs.length := by
  obtain ⟨slot, values, awaits⟩ := p
  cases slot with
  | limbs => exact absurd rfl hslot
  | _ => simp only [limbCount, h, Nat.add_zero]

/-- Judging limbs makes them as many words. -/
theorem settle_limbCount (h : s.settle = .ok t) : t.limbCount = s.limbCount := by
  rw [limbCount_of_closed (settle_pending h)]
  unfold settle at h
  split at h
  · next hnone =>
    rw [← Except.ok.inj h, limbCount_of_closed hnone]
  · next p hpending =>
    obtain ⟨a, haccept, rfl⟩ := map_eq_ok_iff.mp h
    by_cases hslot : p.slot = .limbs
    · obtain ⟨slot, values, awaits⟩ := p
      obtain rfl := hslot
      obtain ⟨limbs, hlimbs, rfl⟩ := Accepted.accept_limbs haccept
      have hlength : values.length = limbs.length :=
        (Accepted.readLimbs_eq_ok_iff.mp hlimbs).length_eq
      simp only [limbCount, hpending, List.length_append]
      omega
    · rw [limbCount_of_other hpending hslot]
      rw [(Accepted.accept_kept hslot haccept).1]

theorem prepares_limbCount {arg : List Char} (h : Prepares arg s t) :
    t.limbCount = s.limbCount := by
  cases h with
  | settle _ hsettle => exact settle_limbCount hsettle
  | fill slot values a hslot hclosed _ haccept =>
    have hfilled : limbCount { s with accepted := a } = a.limbs.length :=
      limbCount_of_closed hclosed
    rw [hfilled, limbCount_of_closed hclosed, (Accepted.accept_kept hslot haccept).1]
  | await slot hslot hclosed =>
    rw [limbCount_of_closed hclosed, limbCount_of_other rfl hslot]
  | trail => rfl

theorem prepared_limbCount {arg : List Char} (h : Prepared arg s t) :
    t.limbCount = s.limbCount := by
  induction h with
  | refl => rfl
  | tail _ hstep ih => rw [prepares_limbCount hstep, ih]

theorem collects_limbCount {arg : String} (h : Collects arg s t) :
    t.limbCount ≤ s.limbCount + 1 := by
  cases h with
  | opens slot position hclosed =>
    rw [limbCount_of_closed hclosed]
    cases slot <;> simp [limbCount]
  | joins slot values awaits hopened =>
    by_cases hslot : slot = .limbs
    · subst hslot
      simp only [limbCount, hopened, List.length_append, List.length_singleton]
      omega
    · rw [limbCount_of_other rfl hslot, limbCount_of_other hopened hslot]
      exact Nat.le_succ _

/-- An argument gives one limb at most. -/
theorem readArgument_limbCount {scope : Scope} {arg : String}
    (h : s.readArgument scope arg = .ok t) : t.limbCount ≤ s.limbCount + 1 := by
  obtain ⟨m, hprepared, hm⟩ := readArgument_moves h
  rw [← prepared_limbCount hprepared]
  rcases hm with rfl | hcollects
  · omega
  · exact collects_limbCount hcollects

end State

/-- A line has no more limbs than arguments. -/
theorem readArguments_limbs_le {scope : Scope} {s : State} {args : List String} {a : Accepted}
    (h : readArguments scope s args = .ok a) : a.limbs.length ≤ s.limbCount + args.length := by
  induction args generalizing s with
  | nil =>
    obtain ⟨t, hsettle, rfl⟩ := readArguments_nil h
    rw [← State.settle_limbCount hsettle, State.limbCount_of_closed (State.settle_pending hsettle)]
    omega
  | cons arg args ih =>
    obtain ⟨t, hread, hlast⟩ := readArguments_cons h
    have hrest := ih hlast
    have hstep := State.readArgument_limbCount hread
    rw [List.length_cons]
    omega

/-! ### Commands -/

/-- A command is made of values that have been accepted and checked as a whole. -/
theorem readCommand_accepted {verb : Verb} {args : List String} {command : Command}
    {path : Option String} (h : readCommand verb args = .ok (command, path)) :
    ∃ a, readArguments (.behind verb) {} args = .ok a ∧ verb.check a = .ok () ∧
      command = verb.command a ∧ path = a.configPath := by
  obtain ⟨a, hread, hrest⟩ := bind_eq_ok_iff.mp h
  obtain ⟨_, hcheck, hpure⟩ := bind_eq_ok_iff.mp hrest
  obtain ⟨rfl, rfl⟩ := Prod.mk.inj (Except.ok.inj hpure)
  exact ⟨a, hread, hcheck, rfl, rfl⟩

/-- A command on the line has been read from the words behind its subcommand. -/
theorem readFront_command {s : State} {args : List String} {invocation : Invocation}
    {command : Command} (h : readFront s args = .ok invocation)
    (hcommand : invocation.command = some command) :
    ∃ verb words path, readCommand verb words = .ok (command, path) := by
  induction args generalizing s with
  | nil =>
    rw [readFront] at h
    obtain ⟨t, _, rfl⟩ := map_eq_ok_iff.mp h
    simp at hcommand
  | cons arg args ih =>
    rw [readFront] at h
    dsimp only at h
    split at h
    · next verb _ =>
      obtain ⟨⟨found, path⟩, hread, hrest⟩ := bind_eq_ok_iff.mp h
      obtain ⟨t, _, hpure⟩ := bind_eq_ok_iff.mp hrest
      rw [← Except.ok.inj hpure] at hcommand
      obtain rfl := Option.some.inj hcommand
      exact ⟨verb, args, path, hread⟩
    · split at h
      · simp at h
      · split at h
        · simp at h
        · exact ih h

/-- A command line never asks for no identifiers at all, nor for more than the limit. -/
theorem count_range {args : List String} {invocation : Invocation} {seed : Option UInt64} {n : Nat}
    (h : read args = .ok invocation) (hrandom : invocation.command = some (.random seed n)) :
    1 ≤ n ∧ n ≤ maxRandomCount := by
  obtain ⟨verb, words, path, hread⟩ := readFront_command h hrandom
  obtain ⟨a, haccepted, _, hcommand, _⟩ := readCommand_accepted hread
  have hsound : a.Sound fun _ => True :=
    sound_of_readArguments (fun _ _ _ _ => trivial) State.sound_empty haccepted
  cases verb with
  | random =>
    obtain ⟨_, rfl⟩ := Command.random.inj hcommand
    exact ⟨hsound.count_pos, hsound.count_le⟩
  | format | parse | distance | hash | config => simp [Verb.command] at hcommand

end Ident160.Line
