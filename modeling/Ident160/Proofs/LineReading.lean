import Ident160.Command.Line
import Ident160.Proofs.Results
import Mathlib.Logic.Relation

/-!
What reading an argument does to the state of the line. Before an argument is kept as a value, a
few moves prepare for it: what came before is judged, options are filled or opened, a double dash
is noted. Then the argument joins a collection, or it was an option and all of it is used up. An
invariant of the line is an invariant of these moves.
-/

namespace Ident160.Line

namespace State

/-- A move that an argument causes and that does not keep the argument as a value. A slot that is
filled at once takes only what the argument ends in, and limbs are never filled at once. -/
inductive Prepares (arg : List Char) (s : State) : State → Prop
  | settle (t : State) (settled : s.settle = .ok t) : Prepares arg s t
  | fill (slot : Slot) (values : List String) (a : Accepted) (not_limbs : slot ≠ .limbs)
      (closed : s.pending = none) (pieces : ∀ value ∈ values, value.toList <:+ arg)
      (accepted : s.accepted.accept slot values = .ok a) : Prepares arg s { s with accepted := a }
  | await (slot : Slot) (not_limbs : slot ≠ .limbs) (closed : s.pending = none) :
      Prepares arg s { s with pending := some ⟨slot, [], true⟩ }
  | trail : Prepares arg s { s with trailing := true }

/-- The argument is kept as a value, in a new collection or in the open one. -/
inductive Collects (arg : String) (s : State) : State → Prop
  | opens (slot : Slot) (position : Nat) (closed : s.pending = none) :
      Collects arg s { s with pending := some ⟨slot, [arg], false⟩, position := position }
  | joins (slot : Slot) (values : List String) (awaits : Bool)
      (opened : s.pending = some ⟨slot, values, awaits⟩) :
      Collects arg s { s with pending := some ⟨slot, values ++ [arg], false⟩ }

/-- The moves that an argument causes without being kept. -/
abbrev Prepared (arg : List Char) : State → State → Prop := Relation.ReflTransGen (Prepares arg)

variable {s t : State} {scope : Scope} {slot : Slot} {arg : List Char}

theorem settle_pending (h : s.settle = .ok t) : t.pending = none := by
  unfold settle at h
  split at h
  · next hnone =>
    rw [← Except.ok.inj h]
    exact hnone
  · obtain ⟨a, _, rfl⟩ := map_eq_ok_iff.mp h
    rfl

theorem fill_prepared {values : List String} (hslot : slot ≠ .limbs)
    (hvalues : ∀ value ∈ values, value.toList <:+ arg) (h : s.fill slot values = .ok t) :
    Prepared arg s t := by
  obtain ⟨m, hsettle, hfill⟩ := bind_eq_ok_iff.mp h
  obtain ⟨a, haccept, hpure⟩ := bind_eq_ok_iff.mp hfill
  rw [← Except.ok.inj hpure]
  have hclosed := settle_pending hsettle
  exact .tail (.single (.settle m hsettle)) (.fill slot values a hslot hclosed hvalues haccept)

theorem await_prepared (hslot : slot ≠ .limbs) (h : s.await slot = .ok t) : Prepared arg s t := by
  obtain ⟨m, hsettle, rfl⟩ := map_eq_ok_iff.mp h
  exact .tail (.single (.settle m hsettle)) (.await slot hslot (settle_pending hsettle))

/-! ### Options -/

/-- No option is for limbs. -/
theorem slot_ne_limbs_of_mem_choices {choice : Choice} (h : choice ∈ scope.choices) :
    choice.slot ≠ .limbs := by
  have hall : ∀ choice ∈ scope.choices, choice.slot ≠ .limbs := by
    rcases scope with _ | verb
    · decide
    · cases verb <;> decide
  exact hall choice h

theorem readLong_prepared {name : String} {value : Option String}
    (hvalue : ∀ v ∈ value, v.toList <:+ arg) (h : s.readLong scope name value = .ok t) :
    Prepared arg s t := by
  unfold readLong at h
  split at h
  · simp at h
  · next choice hfind =>
    have hslot := slot_ne_limbs_of_mem_choices (List.mem_of_find?_eq_some hfind)
    split at h
    · split at h
      · next v =>
        have hpiece : ∀ u ∈ [v], u.toList <:+ arg := by
          intro u hu
          rw [List.mem_singleton] at hu
          exact hvalue u (by simp [hu])
        exact fill_prepared hslot hpiece h
      · exact await_prepared hslot h
    · split at h
      · simp at h
      · exact fill_prepared hslot (by simp) h

theorem attached_suffix {cs value : List Char} (h : attached cs = some value) : value <:+ cs := by
  unfold attached at h
  split at h
  · simp at h
  · rw [← Option.some.inj h]
    exact List.suffix_cons _ _
  · obtain rfl := Option.some.inj h
    exact List.suffix_rfl

/-- The letters of an argument keep nothing of it but an end. -/
theorem readLetters_prepared {cs : List Char} (hcs : cs <:+ arg)
    (h : readLetters scope s cs = .ok t) : Prepared arg s t := by
  induction cs generalizing s with
  | nil =>
    rw [readLetters, Except.ok.injEq] at h
    rw [h]
  | cons c cs ih =>
    have htail : cs <:+ arg := (List.suffix_cons c cs).trans hcs
    unfold readLetters at h
    split at h
    · simp at h
    · next choice hfind =>
      have hslot := slot_ne_limbs_of_mem_choices (List.mem_of_find?_eq_some hfind)
      split at h
      · split at h
        · next value hattached =>
          refine fill_prepared hslot ?_ h
          intro v hv
          rw [List.mem_singleton.mp hv, String.toList_ofList]
          exact (attached_suffix hattached).trans htail
        · exact await_prepared hslot h
      · split at h
        · simp at h
        · next m hfill => exact (fill_prepared hslot (by simp) hfill).trans (ih htail h)

/-! ### Arguments -/

theorem splitName_suffix {cs : List Char} {value : String} (h : (splitName cs).2 = some value) :
    value.toList <:+ cs := by
  have hsuffix : cs.dropWhile (· ≠ '=') <:+ cs := List.dropWhile_suffix _
  unfold splitName at h
  split at h
  · simp at h
  · next c rest hdrop =>
    rw [← Option.some.inj h, String.toList_ofList]
    rw [hdrop] at hsuffix
    exact (List.suffix_cons c rest).trans hsuffix

theorem shapeOf_long_suffix {arg name : String} {value : Option String}
    (h : shapeOf arg = .long name value) : ∀ v ∈ value, v.toList <:+ arg.toList := by
  intro v hv
  unfold shapeOf at h
  split at h
  · simp at h
  · next cs _ heq =>
    obtain ⟨_, hvalue⟩ := Shape.long.inj h
    rw [heq]
    refine (splitName_suffix (hvalue.trans hv)).trans ?_
    exact (List.suffix_cons '-' cs).trans (List.suffix_cons '-' _)
  · simp at h
  · simp at h

theorem shapeOf_letters_suffix {arg : String} {cs : List Char} (h : shapeOf arg = .letters cs) :
    cs <:+ arg.toList := by
  unfold shapeOf at h
  split at h
  · simp at h
  · simp at h
  · next heq =>
    rw [heq, ← Shape.letters.inj h]
    exact List.suffix_cons _ _
  · simp at h

/-- A value without a name is kept, after what was open has been closed. -/
theorem readPositional_collects {arg : String} (h : s.readPositional scope arg = .ok t) :
    ∃ m, Prepared arg.toList s m ∧ Collects arg m t := by
  unfold readPositional at h
  split at h
  · split at h
    · simp at h
    · dsimp only at h
      split at h <;> simp at h
  · split at h
    · next values awaits hpending =>
      rw [← Except.ok.inj h]
      exact ⟨s, .refl, .joins .limbs values awaits hpending⟩
    · obtain ⟨m, hsettle, rfl⟩ := map_eq_ok_iff.mp h
      exact ⟨m, .single (.settle m hsettle), .opens .limbs m.position (settle_pending hsettle)⟩
  · next slot _ _ =>
    obtain ⟨m, hsettle, rfl⟩ := map_eq_ok_iff.mp h
    exact ⟨m, .single (.settle m hsettle), .opens slot _ (settle_pending hsettle)⟩

/-- An argument that looks like an option is used up, unless options have ended. -/
theorem readArgument_prepared {arg : String} (htrailing : s.trailing = false)
    (hshape : shapeOf arg ≠ .plain) (h : s.readArgument scope arg = .ok t) :
    Prepared arg.toList s t := by
  simp only [readArgument, htrailing, Bool.false_eq_true, if_false] at h
  split at h
  · rw [← Except.ok.inj h]
    exact .single (.trail)
  · next name value hlong => exact readLong_prepared (shapeOf_long_suffix hlong) h
  · next cs hletters => exact readLetters_prepared (shapeOf_letters_suffix hletters) h
  · next hplain => exact absurd hplain hshape

/-- Any other argument is kept, after what prepares for it. -/
theorem readArgument_moves {arg : String} (h : s.readArgument scope arg = .ok t) :
    ∃ m, Prepared arg.toList s m ∧ (t = m ∨ Collects arg m t) := by
  by_cases htrailing : s.trailing = true
  · rw [readArgument, if_pos htrailing] at h
    obtain ⟨m, hprepared, hcollects⟩ := readPositional_collects h
    exact ⟨m, hprepared, Or.inr hcollects⟩
  · by_cases hshape : shapeOf arg = .plain
    · rw [readArgument, if_neg htrailing, hshape] at h
      dsimp only at h
      split at h
      · next slot values hpending =>
        rw [← Except.ok.inj h]
        exact ⟨s, .refl, Or.inr (.joins slot values true hpending)⟩
      · obtain ⟨m, hprepared, hcollects⟩ := readPositional_collects h
        exact ⟨m, hprepared, Or.inr hcollects⟩
    · exact ⟨t, readArgument_prepared (by simpa using htrailing) hshape h, Or.inl rfl⟩

end State

/-! ### Lines -/

variable {scope : Scope} {s : State} {a : Accepted}

theorem readArguments_nil (h : readArguments scope s [] = .ok a) :
    ∃ t, s.settle = .ok t ∧ t.accepted = a := by
  rw [readArguments] at h
  exact map_eq_ok_iff.mp h

theorem readArguments_cons {arg : String} {args : List String}
    (h : readArguments scope s (arg :: args) = .ok a) :
    ∃ t, s.readArgument scope arg = .ok t ∧ readArguments scope t args = .ok a := by
  rw [readArguments] at h
  split at h
  · simp at h
  · next t hread => exact ⟨t, hread, h⟩

end Ident160.Line
