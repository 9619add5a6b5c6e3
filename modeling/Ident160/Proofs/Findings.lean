import Ident160.Proofs.SeededDraws
import Ident160.Proofs.Sessions

/-!
What a command finds, and how settings show it. A command looks for an identifier to render, for
one to describe, or for a list of them. Settings have no part in this but for a seed, and what has
been found is all that they show. To carry out a command is to do the one behind the other, with a
few records noted down before.
-/

namespace Ident160

inductive Finding where
  | rendered (a : Ident)
  | described (a : Ident)
  | listed (values : List Ident)

/-- The identifier with the given words, if there are five. -/
def identOfWords (words : List UInt32) : Except RenderError Ident :=
  match Ident.ofWords? words with
  | some a => .ok a
  | none => .error (.wrongCount ⟨words.length⟩)

/-- The identifier that limbs make, or those of a list if there is one. -/
def identOfLimbs (limbs : List UInt32) : Option String → Except RenderError Ident
  | none => identOfWords limbs
  | some text =>
    match LimbList.read text with
    | .error fault => .error (.badList fault)
    | .ok words => identOfWords words

namespace Settings

variable (settings : Settings)

theorem renderLimbs_eq (limbs : List UInt32) :
    settings.renderLimbs limbs = (identOfWords limbs).map fun a => (settings.describe a).hex := by
  cases hwords : Ident.ofWords? limbs with
  | none => simp only [renderLimbs, renderWordList, identOfWords, hwords, Except.map]
  | some a =>
    simp only [renderLimbs, renderWordList, identOfWords, hwords, Except.map]
    rfl

def shown : Finding → String
  | .rendered a => (settings.describe a).hex ++ "\n"
  | .described a => String.ofList (settings.described a settings.display.showLimbs)
  | .listed values => Listing.items (values.map fun a => (settings.describe a).hex)

end Settings

namespace Command

/-- The command tells one identifier in full. -/
def Describes : Command → Prop
  | .parse _ | .distance _ _ | .hash _ => True
  | .format _ _ | .random _ _ | .config _ => False

/-- Identifiers that the command draws have a seed, asked for or else set. -/
def Seeded (command : Command) (settings : Settings) : Prop :=
  ∀ asked count, command = .random asked count →
    ∃ seed, asked.or settings.random.seed = some seed

def find (settings : Settings) (entropy : ChaCha.Key) : Command → Except RunFault Finding
  | .format limbs list => ((identOfLimbs limbs list).mapError .limbs).map .rendered
  | .parse hex => ((Ident.read hex).mapError (.identifier hex)).map .described
  | .distance a b => do
    let first ← (Ident.read a).mapError (.identifier a)
    let second ← (Ident.read b).mapError (.identifier b)
    return .described (first.distance second)
  | .random seed count => .ok (.listed ((settings.keystream seed entropy).idents count))
  | .hash text => .ok (.described (Sha1.digestText text))
  | .config _ => .ok (.listed [])

variable {settings : Settings} {entropy : ChaCha.Key} {command : Command} {finding : Finding}

/-- Only a command that tells one identifier in full finds one to describe. -/
theorem describes_iff (h : command.find settings entropy = .ok finding) :
    command.Describes ↔ ∃ a, finding = .described a := by
  cases command with
  | format limbs list =>
    obtain ⟨a, _, rfl⟩ := map_eq_ok_iff.mp h
    simp [Describes]
  | parse hex =>
    obtain ⟨a, _, rfl⟩ := map_eq_ok_iff.mp h
    simp [Describes]
  | distance a b =>
    obtain ⟨first, _, h⟩ := bind_eq_ok_iff.mp h
    obtain ⟨second, _, h⟩ := bind_eq_ok_iff.mp h
    obtain rfl := Except.ok.inj h
    simp [Describes]
  | random seed count =>
    obtain rfl := Except.ok.inj h
    simp [Describes]
  | hash text =>
    obtain rfl := Except.ok.inj h
    simp [Describes]
  | config init =>
    obtain rfl := Except.ok.inj h
    simp [Describes]

/-- Under a seed, what is found depends neither on the other settings nor on the entropy. -/
theorem find_congr {settings' : Settings} (entropy' : ChaCha.Key)
    (h : ∀ asked count, command = .random asked count →
      ∃ seed, asked.or settings.random.seed = some seed ∧
        asked.or settings'.random.seed = some seed) :
    command.find settings entropy = command.find settings' entropy' := by
  cases command with
  | random asked count =>
    obtain ⟨seed, hseed, hseed'⟩ := h asked count rfl
    rw [find, find, Settings.keystream_of_seed hseed, Settings.keystream_of_seed hseed']
  | format | parse | distance | hash | config => rfl

/-- Settings count for what is found only as the seed of a draw. -/
theorem find_congr_of_seeded {settings' : Settings} (entropy entropy' : ChaCha.Key)
    (hseed : command.Seeded settings) (hsame : settings.random = settings'.random) :
    command.find settings entropy = command.find settings' entropy' := by
  refine find_congr entropy' fun asked count hrandom => ?_
  obtain ⟨seed, hseed⟩ := hseed asked count hrandom
  exact ⟨seed, hseed, hsame ▸ hseed⟩

/-- A draw that asks for a seed does not look for another one. -/
theorem find_congr_of_asked {settings' : Settings} (entropy entropy' : ChaCha.Key)
    (hasked : ∀ count, command ≠ .random none count) :
    command.find settings entropy = command.find settings' entropy' := by
  refine find_congr entropy' fun asked count hrandom => ?_
  cases asked with
  | none => exact absurd hrandom (hasked count)
  | some seed => exact ⟨seed, rfl, rfl⟩

def records (settings : Settings) : Command → List LogRecord
  | .format limbs none => [.formatting limbs.length]
  | .format _ (some text) =>
    match LimbList.read text with
    | .ok limbs => [.parsed limbs, .formatting limbs.length]
    | .error _ => []
  | .random seed _ => (settings.effectiveSeed seed).toList.map .seeding
  | .parse _ | .distance _ _ | .hash _ | .config _ => []

/-- Limbs are noted down before they are judged. -/
theorem renderLimbs_bind (settings : Settings) (limbs : List UInt32) (session : Session) :
    (Work.renderLimbs settings limbs >>= fun hex => Work.display (hex ++ "\n")) session =
      (Work.take .failed (((identOfWords limbs).mapError RunFault.limbs).map .rendered) >>=
        fun finding => Work.display (settings.shown finding))
      { session with log := session.log ++ [.formatting limbs.length] } := by
  rw [Work.renderLimbs, Work.bind_assoc, Work.bind_note, settings.renderLimbs_eq]
  cases identOfWords limbs <;> rfl

/-- To carry out a command is to note down something, to find something and to show it. The items
of a list are shown all at once, if it has any. -/
theorem execute_eq (settings : Settings) (entropy : ChaCha.Key) {command : Command}
    (hconfig : ∀ init, command ≠ .config init)
    (hcount : ∀ seed n, command = .random seed n → 1 ≤ n) (session : Session) :
    command.execute settings entropy session =
      (Work.take .failed (command.find settings entropy) >>= fun finding =>
        Work.display (settings.shown finding))
      { session with log := session.log ++ command.records settings } := by
  cases command with
  | format limbs list =>
    cases list with
    | none => exact renderLimbs_bind settings limbs session
    | some text =>
      cases hwords : LimbList.read text with
      | error fault =>
        simp only [execute, Work.renderLimbList, find, identOfLimbs, records, hwords,
          List.append_nil]
        rfl
      | ok words =>
        have hrendered := renderLimbs_bind settings words
          { session with log := session.log ++ [.parsed words] }
        simp only [execute, Work.renderLimbList, find, identOfLimbs, records, hwords]
        rw [List.append_assoc] at hrendered
        exact hrendered
  | parse hex =>
    simp only [execute, find, records, Work.readIdent, Work.displayValue_eq, List.append_nil]
    cases Ident.read hex <;> rfl
  | distance a b =>
    simp only [execute, find, records, Work.readIdent, Work.displayValue_eq, List.append_nil]
    cases Ident.read a with
    | error e => rfl
    | ok first => cases Ident.read b <;> rfl
  | random seed count =>
    have hlist := Work.displayItems_eq settings 0 count (settings.keystream seed entropy)
      (hcount seed count rfl)
    rw [execute, Work.keystream, Work.bind_assoc, Work.bind_notes]
    exact congrFun hlist _
  | hash text =>
    simp only [execute, find, records, Work.displayValue_eq, List.append_nil]
    rfl
  | config init => exact absurd rfl (hconfig init)

end Command

end Ident160
