import CairoAsm.Proofs.Command.Exported

/-!
How a run ends, told from what its file holds. A program is listed. Any other file is refused with
the message of the first stage that fails, and nothing of it is printed.
-/
namespace CairoAsm.Command
open Text

/-- The text of a file has a whole number in it with more digits than are read. -/
def HasLongLiteral (bytes : List UInt8) : Prop :=
  ∃ cs, HasText bytes cs ∧ ∃ t ∈ Json.Token.ofText (some digitLimit) cs, t.lexeme = .oversized

section
variable {host : Host} {disk : Disk} {args words : List String} {path : String}
  {bytes : List UInt8} {cs : List Char} {v : Json} {p : Program} {cause : Abort}

theorem TooMuch.hasLongLiteral (tooMuch : TooMuch host bytes .oversizedInteger) :
    HasLongLiteral bytes := by
  obtain ⟨cs, e, text, known, unread⟩ := tooMuch
  cases known
  exact ⟨cs, text, Json.exists_oversized_of_read unread⟩

/-- A file without long numbers is too much for a host only by its nesting. -/
theorem not_tooMuch (short : ¬HasLongLiteral bytes)
    (shallow : ¬TooMuch host bytes .nestedTooDeep) : ∀ cause, ¬TooMuch host bytes cause := by
  intro cause tooMuch
  cases cause with
  | oversizedInteger => exact short tooMuch.hasLongLiteral
  | nestedTooDeep => exact shallow tooMuch
  | nullCharacter =>
    obtain ⟨_, _, _, ⟨⟩, _⟩ := tooMuch

theorem not_hasLongLiteral_of_read (text : HasText bytes cs)
    (parsed : Json.read host.limits cs = .ok v) : ¬HasLongLiteral bytes := by
  rintro ⟨ds, other, t, member, oversized⟩
  obtain rfl := text.unique other
  exact Json.not_oversized_of_read parsed member oversized

theorem not_tooMuch_of_read (text : HasText bytes cs) (parsed : Json.read host.limits cs = .ok v) :
    ¬TooMuch host bytes cause := by
  rintro ⟨ds, e, other, _, unread⟩
  obtain rfl := text.unique other
  cases parsed.symm.trans unread

/-- A run lists the program that a file holds, or else names the first stage that fails; of a file
without a program nothing is printed. Only control sequences are left out of what is shown. -/
theorem listed_or_first_failure_named (asks : Asks args words path)
    (found : disk.entry path = .file bytes) (short : ¬HasLongLiteral bytes)
    (whole : hasHalfPair bytes = false) (shallow : ¬TooMuch host bytes .nestedTooDeep) :
    ∃ r, run host disk args = .finished r ∧
      (∀ p, Holds host bytes p → r.Lists (settingsOf words) (Path.base path) p ∧
        ∃ text, (p.listing (settingsOf words)).result = .ok text ∧
          (r.stdout = text ++ "\n" ↔ p.ShownInFull)) ∧
      ((¬∃ p, Holds host bytes p) → ∃ message, FailsWith host (Path.base path) bytes message ∧
        r.Refuses (Path.base path) message ∧
        (plainText message = message ↔ hasControl message.toList = false)) ∧
      (r.stdout ≠ "" → ∃ p, Holds host bytes p) := by
  rw [run_of_asks asks found]
  rcases load_cases host path (Path.base path) bytes with
    ⟨p, loaded⟩ | ⟨e, message, failed, described⟩ | ⟨cause, tooMuch⟩
  · have holds := (result_load_eq_ok_iff path).mp loaded
    obtain ⟨r, finished, lists⟩ := lists_of_loaded (s := settingsOf words) loaded whole
    refine ⟨r, finished, ?_, fun empty => absurd ⟨p, holds⟩ empty, fun _ => ⟨p, holds⟩⟩
    intro q other
    cases loaded.symm.trans ((result_load_eq_ok_iff path).mpr other)
    obtain ⟨text, listed, _⟩ := lists.stdout
    exact ⟨lists, text, listed, lists.stdout_eq_iff listed⟩
  · have fails := (failsWith_iff path).mpr ⟨e, failed, described⟩
    obtain ⟨r, finished, refuses⟩ :=
      refuses_of_failed (s := settingsOf words) failed described whole
    refine ⟨r, finished, fun p holds => absurd ⟨p, holds⟩ fails.not_holds, fun _ => ?_, ?_⟩
    · refine ⟨message, fails, refuses, ?_⟩
      rw [← stripControls_eq_self_iff, ← String.toList_inj, plainText, String.toList_ofList]
    · exact fun printed => absurd refuses.stdout printed
  · exact absurd ((result_load_eq_abort_iff path).mp tooMuch) (not_tooMuch short shallow cause)

end

/-- An object that stands for no program. -/
def misclassed (name : String) : Json := .obj [("Class", .str name)]

section
variable {host : Host} {name : String}

theorem restorable_misclassed (name : String) : (misclassed name).Restorable digitLimit 1 := by
  simp [misclassed, Json.Restorable, Json.RestorableFields]

theorem read_misclassed (host : Host) (name : String) :
    Json.read host.limits (misclassed name).written.toList = .ok (misclassed name) :=
  read_fileOf (restorable_misclassed name) (Nat.le_trans (by decide) host.roomy)

/-- The file of such an object is refused, and its class is told as it is. -/
theorem failsWith_misclassed (host : Host) (file name : String) (other : name ≠ "CasmProgram") :
    FailsWith host file (fileOf (misclassed name)) ("Expected a program, got " ++ name) := by
  have items : Program.instructionData (misclassed name) = .error (.notProgram (.str name)) := by
    have named : (Json.obj [("Class", .str name)]).get "Class" = .ok (.str name) := rfl
    simp only [misclassed, Program.instructionData, named, ok_bind]
    split
    · rename_i same
      exact absurd (Json.str.inj same) other
    · rfl
  have failed : (Program.ofJson (misclassed name)).result =
      .error (.fault (.notProgram (.str name))) := by
    simp only [Program.ofJson, Traced.result_bind, Traced.result_lift, items]
    rfl
  exact .importing (hasText_fileOf (restorable_misclassed name)) (read_misclassed host name) failed
    rfl

end

theorem listed_or_first_failure_named_both :
    (∃ r, let disk := Disk.ofFiles "home" [("/p.json", fileOf hinted.toJson)]
      let args := ["--sizes", "/p.json", "--offsets", "--sizes"]
      Asks args ["--sizes", "--offsets", "--sizes"] "/p.json" ∧
      disk.entry "/p.json" = .file (fileOf hinted.toJson) ∧
      ¬HasLongLiteral (fileOf hinted.toJson) ∧ hasHalfPair (fileOf hinted.toJson) = false ∧
      ¬TooMuch plainHost (fileOf hinted.toJson) .nestedTooDeep ∧
      run plainHost disk args = .finished r ∧
      r.stdout = "      %\x7b x = 1 %\x7d\n0000: ap += -7, ap++  // size 2\n") ∧
    ∃ r, let bytes := fileOf (misclassed "Ret")
      Asks ["p.json"] [] "p.json" ∧ (diskOf bytes).entry "p.json" = .file bytes ∧
      ¬HasLongLiteral bytes ∧ hasHalfPair bytes = false ∧
      ¬TooMuch plainHost bytes .nestedTooDeep ∧
      run plainHost (diskOf bytes) ["p.json"] = .finished r ∧
      r.Refuses "p.json" "Expected a program, got Ret" := by
  constructor
  · have asks : Asks ["--sizes", "/p.json", "--offsets", "--sizes"]
        ["--sizes", "--offsets", "--sizes"] "/p.json" :=
      ⟨by decide, by decide, .among ["--sizes"] ["--offsets", "--sizes"] (.inr (by decide))⟩
    have found : (Disk.ofFiles "home" [("/p.json", fileOf hinted.toJson)]).entry "/p.json" =
        .file (fileOf hinted.toJson) :=
      entry_ofFiles_root "p.json" (by decide) (by decide)
    have holds := holds_exported plainHost withinDigits_hinted
    obtain ⟨cs, v, text, parsed, _⟩ := id holds
    have short := not_hasLongLiteral_of_read text parsed
    have whole := hasHalfPair_exported withinDigits_hinted
    have shallow : ¬TooMuch plainHost (fileOf hinted.toJson) .nestedTooDeep :=
      not_tooMuch_of_read text parsed
    obtain ⟨r, finished, listed, _⟩ :=
      listed_or_first_failure_named asks found short whole shallow
    obtain ⟨_, shown, lines, full⟩ := listed hinted holds
    have written : (hinted.listing ⟨true, true, false⟩).result =
        .ok "      %\x7b x = 1 %\x7d\n0000: ap += -7, ap++  // size 2" := by decide +kernel
    cases written.symm.trans lines
    exact ⟨r, asks, found, short, whole, shallow, finished, full.mpr (by decide)⟩
  · have found := entry_diskOf (fileOf (misclassed "Ret"))
    have text := hasText_fileOf (restorable_misclassed "Ret")
    have parsed := read_misclassed plainHost "Ret"
    have short := not_hasLongLiteral_of_read text parsed
    have whole := hasHalfPair_fileOf (restorable_misclassed "Ret")
    have shallow : ¬TooMuch plainHost (fileOf (misclassed "Ret")) .nestedTooDeep :=
      not_tooMuch_of_read text parsed
    have fails := failsWith_misclassed plainHost "p.json" "Ret" (by decide)
    obtain ⟨r, finished, _, refused, _⟩ :=
      listed_or_first_failure_named asks_file found short whole shallow
    obtain ⟨message, fails', refuses, _⟩ := refused fails.not_holds
    rw [fails'.unique fails] at refuses
    exact ⟨r, asks_file, found, short, whole, shallow, finished, refuses⟩

/-- Neither a hint nor a message is shown with the control sequences it has. -/
theorem control_sequences_left_out :
    (∃ r text, let p := returning "\x1b[31mx"
      let bytes := fileOf p.toJson
      Holds plainHost bytes p ∧ ¬HasLongLiteral bytes ∧ hasHalfPair bytes = false ∧
      run plainHost (diskOf bytes) ["p.json"] = .finished r ∧
      (p.listing {}).result = .ok text ∧ r.stdout ≠ text ++ "\n") ∧
    ∃ r, let bytes := fileOf (misclassed "\x1b[31mx")
      FailsWith plainHost "p.json" bytes "Expected a program, got \x1b[31mx" ∧
      ¬HasLongLiteral bytes ∧ hasHalfPair bytes = false ∧
      run plainHost (diskOf bytes) ["p.json"] = .finished r ∧
      ¬"Error: Expected a program, got \x1b[31mx\n".toList <:+ r.stderr.toList := by
  constructor
  · have digits := withinDigits_returning "\x1b[31mx"
    have holds := holds_exported plainHost digits
    obtain ⟨cs, v, text, parsed, _⟩ := id holds
    have short := not_hasLongLiteral_of_read text parsed
    have loaded := (result_load_eq_ok_iff "p.json").mpr holds
    obtain ⟨r, finished, lists⟩ := lists_of_loaded (s := {}) loaded (hasHalfPair_exported digits)
    obtain ⟨shown, listed, _⟩ := lists.stdout
    have leftOut : ¬(returning "\x1b[31mx").ShownInFull := by decide
    refine ⟨r, shown, holds, short, hasHalfPair_exported digits, ?_, listed, ?_⟩
    · exact (run_of_asks asks_file (entry_diskOf _)).trans finished
    · exact fun same => leftOut ((lists.stdout_eq_iff listed).mp same)
  · have fails := failsWith_misclassed plainHost "p.json" "\x1b[31mx" (by decide)
    have text := hasText_fileOf (restorable_misclassed "\x1b[31mx")
    have short := not_hasLongLiteral_of_read text (read_misclassed plainHost "\x1b[31mx")
    have whole := hasHalfPair_fileOf (restorable_misclassed "\x1b[31mx")
    obtain ⟨e, failed, described⟩ := (failsWith_iff "p.json").mp fails
    obtain ⟨r, finished, refuses⟩ := refuses_of_failed (s := {}) failed described whole
    refine ⟨r, fails, short, whole, (run_of_asks asks_file (entry_diskOf _)).trans finished, ?_⟩
    intro complete
    obtain ⟨earlier, _, stderr⟩ := refuses.stderr
    have shown : "Error: Expected a program, got x\n".toList <:+ r.stderr.toList := by
      rw [stderr, ← String.append_assoc, String.toList_append]
      exact List.suffix_append _ _
    rcases List.suffix_or_suffix_of_suffix complete shown with impossible | impossible
    · exact absurd impossible (by decide)
    · exact absurd impossible (by decide)

end CairoAsm.Command
