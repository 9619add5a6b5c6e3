import Ident160.Proofs.RunCourses

/-!
What becomes of a run whose output is not taken. Nearly all output is displayed, and display takes
a missing reader for success and tells every other error in the same words, but for one that nobody
is told of. Two texts are written without it: the help that stands in for a missing command, and
the report on the settings.
-/

namespace Ident160

open Work

variable {host left : Host} {written text : String} {log : List LogRecord} {e : SystemError}

theorem write_of_badDescriptor (h : e.code = SystemError.badDescriptor)
    (stop : SystemError → Stop) :
    write stop text ⟨host, ⟨.failing e, written⟩, log⟩ =
      .ok () ⟨host, ⟨.failing e, written⟩, log⟩ := by
  simp only [write, Console.write, if_pos h]

theorem write_of_error (h : e.code ≠ SystemError.badDescriptor) (stop : SystemError → Stop) :
    write stop text ⟨host, ⟨.failing e, written⟩, log⟩ =
      .error (stop e) ⟨host, ⟨.failing e, written⟩, log⟩ := by
  simp only [write, Console.write, if_neg h]

theorem RunFault.message_output (e : SystemError) :
    (RunFault.output e).message = "Error writing output: " ++ e.message := rfl

theorem RunFault.message_help (e : SystemError) : (RunFault.help e).message = e.message := rfl

namespace Libraries

variable (libraries : Libraries) (args : List String)

theorem endingText_output (e : SystemError) :
    libraries.endingText args (.failed (.output e)) =
      "Error: Error writing output: " ++ e.message ++ "\n" := by
  have hwords : "Error: " ++ "Error writing output: " = "Error: Error writing output: " := by decide
  rw [endingText_failed, RunFault.message_output, ← String.append_assoc, hwords]

/-- The bare error is too short to be the same report. -/
theorem endingText_help_ne (e : SystemError) :
    libraries.endingText args (.failed (.help e)) ≠
      "Error: Error writing output: " ++ e.message ++ "\n" := by
  intro h
  have hlength := congrArg String.length h
  have hcommon : "Error: Error writing output: ".length = 29 := by decide
  have hbare : "Error: ".length = 7 := by decide
  rw [endingText_failed, RunFault.message_help] at hlength
  simp only [String.length_append] at hlength
  omega

end Libraries

/-! ### Whole runs -/

section

variable {libraries : Libraries} {host left : Host} {entropy : ChaCha.Key} {args : List String}
  {invocation : Invocation} {text : String} {stop : SystemError → Stop} {e : SystemError}
  (hread : Line.read args = .ok invocation) (hquiet : host.IsQuiet)

include hread hquiet

/-- A run whose output is displayed gets done without a reader. -/
theorem run_displayed_of_unnoticed
    (h : (libraries.perform entropy invocation).ComesTo host (display text) left)
    (he : Console.Unnoticed e) :
    run libraries host entropy (.failing e) args = ⟨.done, "", "", left⟩ :=
  run_of_output hread hquiet h fun _ => display_of_unnoticed he text

/-- A run whose output is displayed tells any error that is noticed. -/
theorem run_displayed_of_noticed
    (h : (libraries.perform entropy invocation).ComesTo host (display text) left)
    (he : ¬ Console.Unnoticed e) :
    (run libraries host entropy (.failing e) args).ending.exitCode = 1 ∧
      (run libraries host entropy (.failing e) args).errorWritten =
        "Error: Error writing output: " ++ e.message ++ "\n" := by
  obtain ⟨log, hrun⟩ := run_of_comesTo hread h
  rw [hrun, display_of_noticed he]
  refine ⟨rfl, ?_⟩
  simp only [Libraries.outcome, Session.outcome, Stop.ending, libraries.logText_of_unset hquiet,
    libraries.endingText_output, String.empty_append]

/-- Output that is written directly meets every error but one, and tells it in words of its own. -/
theorem run_direct_of_error
    (h : (libraries.perform entropy invocation).ComesTo host (write stop text) left)
    (hstop : (∀ e, stop e = .failed (.help e)) ∨ ∀ e, stop e = .crashed (.report e))
    (he : e.code ≠ SystemError.badDescriptor) :
    (run libraries host entropy (.failing e) args).ending.exitCode ≠ 0 ∧
      ((run libraries host entropy (.failing e) args).ending.exitCode = 1 →
        (run libraries host entropy (.failing e) args).errorWritten ≠
          "Error: Error writing output: " ++ e.message ++ "\n") := by
  obtain ⟨log, hrun⟩ := run_of_comesTo hread h
  rw [hrun, write_of_error he]
  rcases hstop with hhelp | hreport
  · simp only [hhelp, Libraries.outcome, Session.outcome, Stop.ending,
      libraries.logText_of_unset hquiet, String.empty_append]
    exact ⟨Nat.one_ne_zero, fun _ => libraries.endingText_help_ne args e⟩
  · simp only [hreport, Libraries.outcome, Session.outcome, Stop.ending, Ending.exitCode]
    exact ⟨by decide, fun hcode => absurd hcode (by decide)⟩

/-- Not even output that is written directly meets a bad descriptor. -/
theorem run_direct_of_badDescriptor
    (h : (libraries.perform entropy invocation).ComesTo host (write stop text) left)
    (he : e.code = SystemError.badDescriptor) :
    run libraries host entropy (.failing e) args = ⟨.done, "", "", left⟩ :=
  run_of_output hread hquiet h fun _ => write_of_badDescriptor he stop

end

theorem exitCode_of_stopsAt {libraries : Libraries} {host left : Host} {entropy : ChaCha.Key}
    {args : List String} {invocation : Invocation} {stop : Stop}
    (hread : Line.read args = .ok invocation)
    (h : (libraries.perform entropy invocation).StopsAt host stop left) (sink : Sink) :
    (run libraries host entropy sink args).ending.exitCode ≠ 0 := by
  obtain ⟨log, hrun⟩ := run_of_stopsAt hread h
  rw [hrun]
  cases stop <;> nofun

/-- A run that is done on a working output displays a text, or else writes one directly. -/
theorem comesTo_of_done {libraries : Libraries} {host : Host} {entropy : ChaCha.Key}
    {args : List String} {invocation : Invocation} (hread : Line.read args = .ok invocation)
    (hwork : (run libraries host entropy .working args).ending.exitCode = 0) :
    (¬ invocation.WritesDirectly ∧ ∃ text left,
        (libraries.perform entropy invocation).ComesTo host (display text) left) ∨
      invocation.WritesDirectly ∧ ∃ text stop,
        ((∀ e, stop e = .failed (.help e)) ∨ ∀ e, stop e = .crashed (.report e)) ∧
          (libraries.perform entropy invocation).ComesTo host (write stop text) host := by
  cases libraries.course host entropy hread with
  | displayed text hindirect hfits hcomes => exact Or.inl ⟨hindirect, text, host, hcomes⟩
  | saved path changed hsaves hcreate hcomes =>
    exact Or.inl ⟨hsaves.not_writesDirectly, _, changed, hcomes⟩
  | direct text stop hdirect hstop hcomes => exact Or.inr ⟨hdirect, text, stop, hstop, hcomes⟩
  | unsaved fault left hsaves hcreate hstops =>
    exact absurd hwork (exitCode_of_stopsAt hread hstops .working)
  | failed fault hfits hstops => exact absurd hwork (exitCode_of_stopsAt hread hstops .working)
  | overlong hoverlong hstops => exact absurd hwork (exitCode_of_stopsAt hread hstops .working)

/-- A command line that would be carried out well on a working output does so without a reader and
tells any other error in the common words, unless its output is written directly: then it does
neither. A bad descriptor is never told. All this is said of runs whose log is not shown. -/
theorem output_faults_told_alike (libraries : Libraries) (host : Host) (entropy : ChaCha.Key)
    (args : List String) (invocation : Invocation) (hread : Line.read args = .ok invocation)
    (hquiet : host.IsQuiet)
    (hwork : (run libraries host entropy .working args).ending.exitCode = 0) :
    let outcome e := run libraries host entropy (.failing e) args
    (∀ e, e.code = SystemError.brokenPipe →
      ((outcome e).ending.exitCode = 0 ∧ (outcome e).errorWritten = "" ↔
        ¬ invocation.WritesDirectly)) ∧
    (∀ e, e.code ≠ SystemError.brokenPipe → e.code ≠ SystemError.badDescriptor →
      ((outcome e).ending.exitCode = 1 ∧
          (outcome e).errorWritten = "Error: Error writing output: " ++ e.message ++ "\n" ↔
        ¬ invocation.WritesDirectly)) ∧
    ∀ e, e.code = SystemError.badDescriptor →
      (outcome e).ending.exitCode = 0 ∧ (outcome e).errorWritten = "" := by
  intro outcome
  rcases comesTo_of_done hread hwork with
    ⟨hindirect, text, left, hcomes⟩ | ⟨hdirect, text, stop, hstop, hcomes⟩
  · refine ⟨?_, ?_, ?_⟩
    · intro e hpipe
      have hrun : outcome e = _ := run_displayed_of_unnoticed hread hquiet hcomes (Or.inl hpipe)
      rw [hrun]
      exact iff_of_true ⟨rfl, rfl⟩ hindirect
    · intro e hpipe hbad
      exact iff_of_true
        (run_displayed_of_noticed hread hquiet hcomes (not_or.mpr ⟨hpipe, hbad⟩)) hindirect
    · intro e hbad
      have hrun : outcome e = _ := run_displayed_of_unnoticed hread hquiet hcomes (Or.inr hbad)
      rw [hrun]
      exact ⟨rfl, rfl⟩
  · refine ⟨?_, ?_, ?_⟩
    · intro e hpipe
      have hbad : e.code ≠ SystemError.badDescriptor := by
        rw [hpipe]
        decide
      obtain ⟨hcode, _⟩ := run_direct_of_error hread hquiet hcomes hstop hbad
      exact iff_of_false (fun h => hcode h.1) (not_not.mpr hdirect)
    · intro e _ hbad
      obtain ⟨_, htold⟩ := run_direct_of_error hread hquiet hcomes hstop hbad
      exact iff_of_false (fun h => htold h.1 h.2) (not_not.mpr hdirect)
    · intro e hbad
      have hrun : outcome e = _ := run_direct_of_badDescriptor hread hquiet hcomes hbad
      rw [hrun]
      exact ⟨rfl, rfl⟩

/-- Two seeded identifiers are drawn as well without a reader, and a full disk is told. -/
theorem output_faults_of_two_draws :
    let host : Host := { environment := [("HOME", "/home/u")] }
    let entropy : ChaCha.Key := Vector.replicate 8 0
    let args := ["random", "-s", "7", "-n", "2"]
    let outcome sink := run .plain host entropy sink args
    Line.read args = .ok ⟨none, false, some (.random (some 7) 2)⟩ ∧ host.IsQuiet ∧
      (outcome .working).ending.exitCode = 0 ∧
      (outcome (.failing { code := 32, words := "Broken pipe" })).ending.exitCode = 0 ∧
      (outcome (.failing { code := 28, words := "No space left on device" })).errorWritten =
        "Error: Error writing output: No space left on device (os error 28)\n" := by
  intro host entropy args outcome
  have hread : Line.read args = .ok ⟨none, false, some (.random (some 7) 2)⟩ := by decide +kernel
  have hwork : (outcome .working).ending.exitCode = 0 := by decide +kernel
  have hdisplayed :
      ¬ Invocation.WritesDirectly ⟨none, false, some (.random (some 7) 2)⟩ := by
    simp [Invocation.WritesDirectly]
  obtain ⟨hpipe, hother, _⟩ :=
    output_faults_told_alike .plain host entropy args _ hread rfl hwork
  have hfull := hother { code := 28, words := "No space left on device" } (by decide) (by decide)
  refine ⟨hread, rfl, hwork, ((hpipe _ rfl).mpr hdisplayed).1,
    (hfull.mpr hdisplayed).2.trans ?_⟩
  decide +kernel

/-- Without a command, and for the settings report, a missing reader is a fault. -/
theorem direct_output_fails_without_reader :
    let host : Host := { environment := [("HOME", "/home/u")] }
    let entropy : ChaCha.Key := Vector.replicate 8 0
    let closed : Sink := .failing { code := 32, words := "Broken pipe" }
    (run .plain host entropy .working []).ending.exitCode = 0 ∧
      (run .plain host entropy closed []).ending.exitCode = 1 ∧
      (run .plain host entropy closed []).errorWritten = "Error: Broken pipe (os error 32)\n" ∧
      (run .plain host entropy .working ["config"]).ending.exitCode = 0 ∧
      (run .plain host entropy closed ["config"]).ending.exitCode = 101 := by
  decide +kernel

end Ident160
