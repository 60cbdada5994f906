import CairoAsm.Proofs.Command.Loading
import CairoAsm.Proofs.Listing.Rows
import CairoAsm.Proofs.Text.Streams

/-!
What a run on a file reports. It ends its log with what it has listed, or with the file that cannot
be loaded, and then tells why.
-/
namespace CairoAsm.Command
open Text

/-! ### Lines -/

theorem logLine_listed (file : String) (instructions words : Nat) :
    logLine (.listed file instructions words) =
      "INFO:root:" ++ file ++ ": " ++ instructions.repr ++ " instructions, " ++ words.repr
        ++ " words\n" := by
  have parts : logLine (.listed file instructions words) = "INFO" ++ ":root:" ++
      (file ++ ": " ++ instructions.repr ++ " instructions, " ++ words.repr ++ " words") ++ "\n" :=
    rfl
  rw [parts, ← String.toList_inj]
  simp

theorem logLine_cannotLoad (file : String) :
    logLine (.cannotLoad file) = "ERROR:root:Cannot load " ++ file ++ "\n" := by
  have parts : logLine (.cannotLoad file) =
      "ERROR" ++ ":root:" ++ ("Cannot load " ++ file) ++ "\n" := rfl
  rw [parts, ← String.toList_inj]
  simp

theorem logText_append (log : List Event) (e : Event) :
    logText (log ++ [e]) = logText log ++ logLine e := by
  simp [logText, String.join]

/-- A text that is empty or ends its last line. -/
def EndsLine (text : String) : Prop := text = "" ∨ text.toList.getLast? = some '\n'

theorem endsLine_logText (log : List Event) : EndsLine (logText log) := by
  rcases List.eq_nil_or_concat log with rfl | ⟨log, e, rfl⟩
  · exact .inl rfl
  · refine .inr ?_
    rw [List.concat_eq_append, logText_append, logLine, ← String.append_assoc,
      String.toList_append]
    exact List.getLast?_concat

/-- A text that goes elsewhere than to a screen. -/
def plainText (text : String) : String := String.ofList (stripControls text.toList)

theorem stripControls_append_of_notMem {cs : List Char} (plain : '\x1b' ∉ cs) (ds : List Char) :
    stripControls (cs ++ ds) = cs ++ stripControls ds := by
  induction cs with
  | nil => rfl
  | cons c cs ih =>
    obtain ⟨other, plain⟩ := List.ne_and_not_mem_of_not_mem_cons plain
    rw [List.cons_append, stripControls_cons (controlSequence?_of_ne other.symm _), ih plain,
      List.cons_append]

theorem printed_error (message : String) :
    Report.printed ("Error: " ++ message) = "Error: " ++ plainText message ++ "\n" := by
  have lead : stripControls ("Error: " ++ message).toList =
      "Error: ".toList ++ stripControls message.toList := by
    rw [String.toList_append]
    exact stripControls_append_of_notMem (by decide) message.toList
  rw [Report.printed, lead, ← String.toList_inj]
  simp [plainText]

/-! ### Reports -/

namespace Report

/-- The report of a run that lists a program: the log ends with how much was listed. -/
structure Lists (r : Report) (s : Settings) (file : String) (p : Program) : Prop where
  exitCode : r.exitCode = 0
  stdout : ∃ text, (p.listing s).result = .ok text ∧ r.stdout = plainText text ++ "\n"
  stderr : ∃ earlier, EndsLine earlier ∧
    r.stderr = earlier ++ ("INFO:root:" ++ file ++ ": " ++ p.length.repr ++ " instructions, "
      ++ p.size.repr ++ " words\n")

/-- The report of a run that refuses a file: nothing is printed but why. -/
structure Refuses (r : Report) (file message : String) : Prop where
  exitCode : r.exitCode = 1
  stdout : r.stdout = ""
  stderr : ∃ earlier, EndsLine earlier ∧
    r.stderr = earlier ++ ("ERROR:root:Cannot load " ++ file ++ "\n" ++
      ("Error: " ++ plainText message ++ "\n"))

theorem stderr_listed (log : List Event) (output : Option String) (file : String)
    (instructions words : Nat) :
    stderr ⟨log ++ [.listed file instructions words], output, none⟩ =
      logText log ++ ("INFO:root:" ++ file ++ ": " ++ instructions.repr ++ " instructions, "
        ++ words.repr ++ " words\n") := by
  have line := logText_append log (.listed file instructions words)
  rw [logLine_listed] at line
  rw [← line]
  exact String.append_empty

theorem stderr_cannotLoad (log : List Event) (output : Option String) (file message : String) :
    stderr ⟨log ++ [.cannotLoad file], output, some message⟩ =
      logText log ++ ("ERROR:root:Cannot load " ++ file ++ "\n" ++
        ("Error: " ++ plainText message ++ "\n")) := by
  have line := logText_append log (.cannotLoad file)
  rw [logLine_cannotLoad] at line
  rw [← String.append_assoc, ← line, ← printed_error]
  rfl

end Report

theorem visible_append {e : Event} (shown : e.severity ≠ .debug) (s : Settings)
    (log : List Event) : visible s (log ++ [e]) = visible s log ++ [e] := by
  unfold visible
  split
  · rfl
  · rw [List.filter_append, List.filter_cons_of_pos (by simpa using shown), List.filter_nil]

/-! ### Runs -/

section
variable {host : Host} {s : Settings} {path : String} {bytes : List UInt8}

open Report

/-- The reports on a program that was loaded, down to its addresses. -/
def workLog (host : Host) (path : String) (bytes : List UInt8) (p : Program) : List Event :=
  (load host path bytes).log ++ p.offsets.log

/-- A program that was loaded is listed. -/
theorem work_of_loaded {p : Program} (loaded : (load host path bytes).result = .ok p) :
    work host s path bytes =
      ⟨workLog host path bytes p ++ [.listed (Path.base path) p.length p.size],
        .ok (p.fullListing s)⟩ := by
  have short := ((result_load_eq_ok_iff path).mp loaded).withinDigits
  have listed : ((p.listing s).mapError fun _ => LoadError.abort .oversizedInteger).result =
      .ok (p.fullListing s) :=
    mapError_eq_ok_iff.mpr (Program.listing_eq_ok_iff.mpr ⟨short, rfl⟩)
  rw [work, Traced.bind_of_ok loaded, Traced.bind_of_ok listed]
  have log := p.log_listing s
  simp only [Traced.mapError, log, workLog, List.append_assoc]
  rfl

theorem work_of_failed {e : LoadError} (failed : (load host path bytes).result = .error e) :
    work host s path bytes = ⟨(load host path bytes).log, .error e⟩ := by
  rw [work, Traced.bind_of_error failed]

theorem list_of_loaded {p : Program} (loaded : (load host path bytes).result = .ok p)
    (whole : hasHalfPair bytes = false) :
    list host s path bytes = .finished
      ⟨visible s (workLog host path bytes p) ++ [.listed (Path.base path) p.length p.size],
        some (p.fullListing s), none⟩ := by
  have shown := visible_append (e := .listed (Path.base path) p.length p.size) nofun s
    (workLog host path bytes p)
  rw [list, work_of_loaded loaded, conclude, ← shown]
  simp only [whole]
  rfl

theorem list_of_failed {e : LoadError} {message : String}
    (failed : (load host path bytes).result = .error e)
    (described : e.message host (Path.base path) = .ok message)
    (whole : hasHalfPair bytes = false) :
    list host s path bytes = .finished
      ⟨visible s (load host path bytes).log ++ [.cannotLoad (Path.base path)], none,
        some message⟩ := by
  have shown := visible_append (e := .cannotLoad (Path.base path)) nofun s
    (load host path bytes).log
  rw [list, work_of_failed failed, conclude, ← shown]
  simp only [described, whole]
  rfl

/-- A file that is too much for the host aborts the run while it is loaded. -/
theorem list_of_tooMuch {cause : Abort} (tooMuch : TooMuch host bytes cause) :
    list host s path bytes = .aborted cause (visible s [.loading (Path.tidy path)]) := by
  have failed := (result_load_eq_abort_iff path).mpr tooMuch
  have log : (load host path bytes).log = [.loading (Path.tidy path)] :=
    log_load_of_error (loadData_eq_abort_iff.mpr tooMuch)
  simp only [list, work_of_failed failed, conclude, log]
  rfl

theorem lists_of_loaded {p : Program} (loaded : (load host path bytes).result = .ok p)
    (whole : hasHalfPair bytes = false) :
    ∃ r, list host s path bytes = .finished r ∧ r.Lists s (Path.base path) p := by
  have short := ((result_load_eq_ok_iff path).mp loaded).withinDigits
  refine ⟨_, list_of_loaded loaded whole, rfl, ?_, _, endsLine_logText _, stderr_listed _ _ _ _ _⟩
  exact ⟨p.fullListing s, Program.listing_eq_ok_iff.mpr ⟨short, rfl⟩, rfl⟩

theorem refuses_of_failed {e : LoadError} {message : String}
    (failed : (load host path bytes).result = .error e)
    (described : e.message host (Path.base path) = .ok message)
    (whole : hasHalfPair bytes = false) :
    ∃ r, list host s path bytes = .finished r ∧ r.Refuses (Path.base path) message :=
  ⟨_, list_of_failed failed described whole, rfl, rfl, _, endsLine_logText _,
    stderr_cannotLoad _ _ _ _⟩

end
end CairoAsm.Command
