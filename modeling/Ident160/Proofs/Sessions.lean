import Ident160.Command.Run
import Ident160.Proofs.Descriptions

/-!
How the steps of a run change its session. A step that is done hands its value and the session on,
and one that is stopped leaves the session as it is for good. Texts that are displayed one behind
the other are displayed as one text, whatever the console does with it, and so are the items of a
list.
-/

namespace Ident160

/-! ### Consoles -/

namespace Console

variable {e : SystemError}

/-- The error is not noticed by output for the user: its reader has gone, or the text is lost. -/
def Unnoticed (e : SystemError) : Prop :=
  e.code = SystemError.brokenPipe ∨ e.code = SystemError.badDescriptor

theorem print_of_unnoticed (h : Unnoticed e) (written text : String) :
    print ⟨.failing e, written⟩ text = .ok ⟨.failing e, written⟩ := by
  by_cases hbad : e.code = SystemError.badDescriptor
  · simp only [print, write, hbad, if_true]
  · have hpipe := h.resolve_right hbad
    simp only [print, write, if_neg hbad, if_pos hpipe]

theorem print_of_noticed (h : ¬ Unnoticed e) (written text : String) :
    print ⟨.failing e, written⟩ text = .error e := by
  obtain ⟨hpipe, hbad⟩ := not_or.mp h
  simp only [print, write, if_neg hbad, if_neg hpipe]

end Console

/-! ### Steps -/

namespace Work

variable {α β : Type} {session left : Session}

theorem bind_of_ok {work : Work α} {a : α} (h : work session = .ok a left) (next : α → Work β) :
    (work >>= next) session = next a left := by
  simp only [bind, EStateM.bind, h]

theorem bind_of_error {work : Work α} {stop : Stop} (h : work session = .error stop left)
    (next : α → Work β) : (work >>= next) session = .error stop left := by
  simp only [bind, EStateM.bind, h]

theorem bind_notes (records : List LogRecord) (next : Unit → Work β) (session : Session) :
    (notes records >>= next) session =
      next () { session with log := session.log ++ records } := rfl

theorem bind_note (r : LogRecord) (next : Unit → Work β) (session : Session) :
    (note r >>= next) session = next () { session with log := session.log ++ [r] } := rfl

theorem bind_assoc (work : Work α) (next : α → Work β) {γ : Type} (last : β → Work γ) :
    work >>= next >>= last = work >>= fun a => next a >>= last := by
  funext session
  cases h : work session with
  | ok a left =>
    rw [bind_of_ok h]
    simp only [bind, EStateM.bind, h]
  | error stop left =>
    rw [bind_of_error h]
    simp only [bind, EStateM.bind, h]

theorem bind_pure (work : Work Unit) : (work >>= fun _ => pure ()) = work := by
  funext session
  cases h : work session with
  | ok a left =>
    rw [bind_of_ok h]
    rfl
  | error stop left => rw [bind_of_error h]

/-! ### Displayed texts -/

variable {host : Host} {log : List LogRecord} {written : String} {e : SystemError}

theorem display_working (text : String) :
    display text ⟨host, ⟨.working, written⟩, log⟩ =
      .ok () ⟨host, ⟨.working, written ++ text⟩, log⟩ := rfl

/-- An error that is not noticed costs the text, and nothing else. -/
theorem display_of_unnoticed (h : Console.Unnoticed e) (text : String) :
    display text ⟨host, ⟨.failing e, written⟩, log⟩ =
      .ok () ⟨host, ⟨.failing e, written⟩, log⟩ := by
  simp only [display, Console.print_of_unnoticed h]

/-- An error that is noticed stops the work with the same fault everywhere. -/
theorem display_of_noticed (h : ¬ Console.Unnoticed e) (text : String) :
    display text ⟨host, ⟨.failing e, written⟩, log⟩ =
      .error (.failed (.output e)) ⟨host, ⟨.failing e, written⟩, log⟩ := by
  simp only [display, Console.print_of_noticed h]

/-- Two texts one behind the other are as good as one, on whatever sink. -/
theorem display_bind (first second : String) :
    (display first >>= fun _ => display second) = display (first ++ second) := by
  funext session
  obtain ⟨host, ⟨sink, written⟩, log⟩ := session
  cases sink with
  | working =>
    rw [bind_of_ok (display_working first), display_working, display_working, String.append_assoc]
  | failing e =>
    by_cases h : Console.Unnoticed e
    · rw [bind_of_ok (display_of_unnoticed h first), display_of_unnoticed h, display_of_unnoticed h]
    · rw [bind_of_error (display_of_noticed h first), display_of_noticed h]

/-- Items that are displayed one by one, if there are any, are displayed as their list. -/
theorem displayItems_eq (settings : Settings) (index n : Nat) (k : Keystream) (hn : 1 ≤ n) :
    displayItems settings index n k =
      display (Listing.itemsFrom index
        ((k.idents n).map fun a => (settings.describe a).hex)) := by
  induction n generalizing index k with
  | zero => omega
  | succ n ih =>
    rw [displayItems, Keystream.idents, List.map_cons, Listing.itemsFrom]
    cases n with
    | zero =>
      rw [Keystream.idents, List.map_nil, Listing.itemsFrom, String.append_empty]
      exact bind_pure _
    | succ n =>
      dsimp only
      rw [ih (index + 1) k.nextIdent.2 (by omega), display_bind]

/-- A value has a description, so that it is displayed. -/
theorem displayValue_eq (settings : Settings) (a : Ident) :
    displayValue settings a =
      display (String.ofList (settings.described a settings.display.showLimbs)) := by
  rw [displayValue, settings.describe_eq]

end Work

end Ident160
