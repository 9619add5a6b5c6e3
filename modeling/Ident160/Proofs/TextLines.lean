import Ident160.Proofs.Fields

/-!
Texts by their lines. Every line of an output is ended by a line break, so the lines that were put
together are the lines found again, as long as none of them has a break inside.
-/

namespace Ident160

/-- The lines of a text. Each is ended by a line break; what follows the last one is a line only if
it is not empty. -/
def linesOf (text : List Char) : List (List Char) :=
  let fields := Account.fields (· = '\n') text
  if fields.getLast? = some [] then fields.dropLast else fields

def unlines (lines : List (List Char)) : List Char := lines.flatMap (· ++ ['\n'])

theorem unlines_cons (line : List Char) (lines : List (List Char)) :
    unlines (line :: lines) = line ++ '\n' :: unlines lines := by
  rw [unlines, List.flatMap_cons, List.append_assoc]
  rfl

theorem unlines_singleton (line : List Char) : unlines [line] = line ++ ['\n'] :=
  unlines_cons line []

theorem unlines_append (lines others : List (List Char)) :
    unlines (lines ++ others) = unlines lines ++ unlines others :=
  List.flatMap_append

theorem unlines_map {α : Type} (f : α → List Char) (items : List α) :
    unlines (items.map f) = items.flatMap fun item => f item ++ ['\n'] := by
  rw [unlines, List.flatMap_map]

theorem fields_unlines {lines : List (List Char)} (h : ∀ line ∈ lines, '\n' ∉ line) :
    Account.fields (· = '\n') (unlines lines) = lines ++ [[]] := by
  induction lines with
  | nil => rfl
  | cons line lines ih =>
    obtain ⟨hline, hlines⟩ := List.forall_mem_cons.mp h
    have hunbroken : ∀ c ∈ line, decide (c = '\n') = false :=
      fun c hc => decide_eq_false fun heq => hline (heq ▸ hc)
    rw [unlines_cons, Account.fields_append (by decide), Account.fields_of_unbroken hunbroken,
      ih hlines]
    rfl

/-- Lines without breaks in them are the lines of their text. -/
theorem linesOf_unlines {lines : List (List Char)} (h : ∀ line ∈ lines, '\n' ∉ line) :
    linesOf (unlines lines) = lines := by
  rw [linesOf, fields_unlines h, List.getLast?_concat, if_pos rfl, List.dropLast_concat]

end Ident160
