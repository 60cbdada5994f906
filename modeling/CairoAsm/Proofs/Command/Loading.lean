import CairoAsm.Command.Run
import CairoAsm.Proofs.Schema.Kept
import CairoAsm.Proofs.Text.Lines
import CairoAsm.Proofs.Text.Utf8

/-!
What is loaded from a file, stage by stage. A file holds a program if its bytes are text, the text
is JSON and the JSON is that program. Else it fails with the message of the first of these that is
not so, unless the text has too long a number in it or is nested too deep to be read.
-/
namespace CairoAsm.Command
open Text

/-- What a host can read. -/
abbrev Host.limits (host : Host) : Json.Limits := ⟨some digitLimit, some host.nesting⟩

section
variable {host : Host} {bytes : List UInt8} {file message path : String} {cs : List Char} {v : Json}
  {p : Program} {cause : Abort}

/-- The text of a file has one kind of line breaks, whichever the file has. -/
def HasText (bytes : List UInt8) (cs : List Char) : Prop :=
  ∃ text : String, bytes = text.toUTF8.data.toList ∧ unifyBreaks text.toList = cs

theorem hasText_iff_decode :
    HasText bytes cs ↔ ∃ raw, Utf8.decode bytes = .ok raw ∧ unifyBreaks raw = cs := by
  constructor
  · rintro ⟨text, rfl, unified⟩
    exact ⟨text.toList, Utf8.decode_toUTF8 text, unified⟩
  · rintro ⟨raw, decoded, unified⟩
    exact ⟨String.ofList raw, Utf8.decode_eq_ok_iff.mp decoded, by rwa [String.toList_ofList]⟩

theorem HasText.unique {ds : List Char} (text : HasText bytes cs) (other : HasText bytes ds) :
    cs = ds := by
  obtain ⟨raw, decoded, rfl⟩ := hasText_iff_decode.mp text
  obtain ⟨raw', decoded', rfl⟩ := hasText_iff_decode.mp other
  rw [decoded] at decoded'
  cases decoded'
  rfl

theorem hasText_toUTF8 {text : String} (noReturn : '\r' ∉ text.toList) :
    HasText text.toUTF8.data.toList text.toList :=
  ⟨text, rfl, unifyBreaks_eq_self noReturn⟩

theorem undecoded_or_hasText (bytes : List UInt8) :
    (∃ failure, Utf8.decode bytes = .error failure) ∨ ∃ cs, HasText bytes cs := by
  cases decoded : Utf8.decode bytes with
  | error failure => exact .inl ⟨failure, rfl⟩
  | ok raw => exact .inr ⟨unifyBreaks raw, hasText_iff_decode.mpr ⟨raw, decoded, rfl⟩⟩

theorem hasHalfPair_of_hasText (text : HasText bytes cs) :
    hasHalfPair bytes = Json.hasHalfPair (some digitLimit) cs := by
  obtain ⟨raw, decoded, rfl⟩ := hasText_iff_decode.mp text
  simp only [hasHalfPair, decoded]

theorem loadData_of_hasText (text : HasText bytes cs) : loadData host bytes = parse host cs := by
  obtain ⟨raw, decoded, rfl⟩ := hasText_iff_decode.mp text
  rw [loadData, decoded]
  rfl

theorem loadData_of_undecoded {failure : Utf8.Failure}
    (undecoded : Utf8.decode bytes = .error failure) :
    loadData host bytes = .error (.notUtf8 failure) := by
  rw [loadData, undecoded]
  rfl

theorem parse_eq_ok_iff : parse host cs = .ok v ↔ Json.read host.limits cs = .ok v := by
  unfold parse
  split <;> simp_all

theorem parse_eq_notJson_iff {description : String} :
    parse host cs = .error (.notJson description) ↔
      ∃ problem position, Json.read host.limits cs = .error (.malformed problem position) ∧
        problem.describe cs position = description := by
  unfold parse
  split <;> simp_all

/-- Why a text that is too much for a host is not read. -/
def Abort.readError? : Abort → Option Json.ReadError
  | .oversizedInteger => some .oversizedInteger
  | .nestedTooDeep => some .nestedTooDeep
  | .nullCharacter => none

theorem parse_eq_abort_iff :
    parse host cs = .error (.abort cause) ↔
      ∃ e, cause.readError? = some e ∧ Json.read host.limits cs = .error e := by
  unfold parse
  split <;> cases cause <;> simp_all [Abort.readError?]

/-- A text is parsed, or it is not JSON, or it is too much for the host. -/
theorem parse_cases (host : Host) (cs : List Char) :
    (∃ v, parse host cs = .ok v) ∨ (∃ description, parse host cs = .error (.notJson description)) ∨
      ∃ cause, parse host cs = .error (.abort cause) := by
  unfold parse
  split <;> simp

/-- Bytes are loaded, or the failure has a message, or their text is too much for the host. -/
theorem loadData_cases (host : Host) (bytes : List UInt8) :
    (∃ v, loadData host bytes = .ok v) ∨
      (∃ e, loadData host bytes = .error e ∧ ∀ file, ∃ message, e.message host file = .ok message) ∨
      ∃ cause, loadData host bytes = .error (.abort cause) := by
  rcases undecoded_or_hasText bytes with ⟨failure, undecoded⟩ | ⟨cs, text⟩
  · exact .inr (.inl ⟨_, loadData_of_undecoded undecoded, fun file => ⟨_, rfl⟩⟩)
  · rw [loadData_of_hasText text]
    rcases parse_cases host cs with parsed | ⟨description, notJson⟩ | tooMuch
    · exact .inl parsed
    · exact .inr (.inl ⟨_, notJson, fun file => ⟨_, rfl⟩⟩)
    · exact .inr (.inr tooMuch)

theorem loadData_eq_ok_iff :
    loadData host bytes = .ok v ↔ ∃ cs, HasText bytes cs ∧ Json.read host.limits cs = .ok v := by
  constructor
  · intro loaded
    rcases undecoded_or_hasText bytes with ⟨failure, undecoded⟩ | ⟨cs, text⟩
    · rw [loadData_of_undecoded undecoded] at loaded
      cases loaded
    · rw [loadData_of_hasText text] at loaded
      exact ⟨cs, text, parse_eq_ok_iff.mp loaded⟩
  · intro ⟨cs, text, parsed⟩
    rw [loadData_of_hasText text]
    exact parse_eq_ok_iff.mpr parsed

/-- A file is too much for a host if its text is. -/
def TooMuch (host : Host) (bytes : List UInt8) (cause : Abort) : Prop :=
  ∃ cs e, HasText bytes cs ∧ cause.readError? = some e ∧ Json.read host.limits cs = .error e

theorem loadData_eq_abort_iff :
    loadData host bytes = .error (.abort cause) ↔ TooMuch host bytes cause := by
  constructor
  · intro failed
    rcases undecoded_or_hasText bytes with ⟨failure, undecoded⟩ | ⟨cs, text⟩
    · rw [loadData_of_undecoded undecoded] at failed
      cases failed
    · rw [loadData_of_hasText text] at failed
      obtain ⟨e, known, unread⟩ := parse_eq_abort_iff.mp failed
      exact ⟨cs, e, text, known, unread⟩
  · intro ⟨cs, e, text, known, unread⟩
    rw [loadData_of_hasText text]
    exact parse_eq_abort_iff.mpr ⟨e, known, unread⟩

/-- No number in what was loaded is too long to be shown. -/
theorem withinDigits_of_loadData (loaded : loadData host bytes = .ok v) :
    WithinDigits digitLimit v.integers := by
  obtain ⟨cs, _, parsed⟩ := loadData_eq_ok_iff.mp loaded
  exact Json.withinDigits_of_read parsed

theorem result_load : (load host path bytes).result =
    loadData host bytes >>= fun v => (Program.ofJson v).result.mapError .ofFailure := by
  simp only [load, Traced.result_bind, Traced.result_report, Traced.result_lift]
  rfl

theorem log_load_of_error {e : LoadError} (failed : loadData host bytes = .error e) :
    (load host path bytes).log = [.loading (Path.tidy path)] := by
  simp only [load, failed]
  rfl

def Holds (host : Host) (bytes : List UInt8) (p : Program) : Prop :=
  ∃ cs v, HasText bytes cs ∧ Json.read host.limits cs = .ok v ∧ (Program.ofJson v).result = .ok p

/-- What is told of a file that holds no program: of the stages that fail only the first. -/
inductive FailsWith (host : Host) (file : String) (bytes : List UInt8) : String → Prop
  | decoding {failure : Utf8.Failure} (undecoded : Utf8.decode bytes = .error failure) :
    FailsWith host file bytes (file ++ " is not UTF-8 text: " ++ failure.message)
  | parsing {cs : List Char} {problem : Json.Problem} {position : Nat} (text : HasText bytes cs)
    (malformed : Json.read host.limits cs = .error (.malformed problem position)) :
    FailsWith host file bytes (file ++ " is not valid JSON: " ++ problem.describe cs position)
  | importing {cs : List Char} {v : Json} {f : Fault} {message : String} (text : HasText bytes cs)
    (parsed : Json.read host.limits cs = .ok v)
    (failed : (Program.ofJson v).result = .error (.fault f))
    (told : f.message host.unprintable = .ok message) : FailsWith host file bytes message

/-- What is loaded from a file is the program it holds. -/
theorem result_load_eq_ok_iff (path : String) :
    (load host path bytes).result = .ok p ↔ Holds host bytes p := by
  simp only [result_load, bind_eq_ok_iff, mapError_eq_ok_iff, loadData_eq_ok_iff]
  constructor
  · rintro ⟨v, ⟨cs, text, parsed⟩, imported⟩
    exact ⟨cs, v, text, parsed, imported⟩
  · rintro ⟨cs, v, text, parsed, imported⟩
    exact ⟨v, ⟨cs, text, parsed⟩, imported⟩

/-- No number of a program that a file holds is too long to be written. -/
theorem Holds.withinDigits (holds : Holds host bytes p) : WithinDigits digitLimit p.integers := by
  obtain ⟨cs, v, _, parsed, imported⟩ := holds
  have part := Program.integers_subset_of_readFrom
    (Program.ofJson_eq_ok_iff_readFrom.mp imported).1
  exact (Json.withinDigits_of_read parsed).mono part

/-- Loading a file fails as its reading does, or by a fault of what was read. -/
theorem result_load_eq_error_iff {e : LoadError} (path : String) :
    (load host path bytes).result = .error e ↔ loadData host bytes = .error e ∨
      ∃ v f, loadData host bytes = .ok v ∧ (Program.ofJson v).result = .error (.fault f) ∧
        .fault f = e := by
  simp only [result_load, bind_eq_error_iff, mapError_eq_error_iff]
  constructor
  · rintro (failed | ⟨v, loaded, failure, failed, rfl⟩)
    · exact .inl failed
    · obtain ⟨f, _, rfl, _⟩ := Program.exists_told_of_ofJson (withinDigits_of_loadData loaded)
        failed host.unprintable
      exact .inr ⟨v, f, loaded, failed, rfl⟩
  · rintro (failed | ⟨v, f, loaded, failed, rfl⟩)
    · exact .inl failed
    · exact .inr ⟨v, loaded, .fault f, failed, rfl⟩

/-- The message of a failed loading is that of the first stage that fails. -/
theorem failsWith_iff (path : String) :
    FailsWith host file bytes message ↔
      ∃ e, (load host path bytes).result = .error e ∧ e.message host file = .ok message := by
  simp only [result_load_eq_error_iff]
  constructor
  · intro fails
    cases fails with
    | decoding undecoded => exact ⟨_, .inl (loadData_of_undecoded undecoded), rfl⟩
    | parsing text malformed =>
      refine ⟨.notJson _, .inl ?_, rfl⟩
      rw [loadData_of_hasText text]
      exact parse_eq_notJson_iff.mpr ⟨_, _, malformed, rfl⟩
    | importing text parsed failed told =>
      refine ⟨_, .inr ⟨_, _, loadData_eq_ok_iff.mpr ⟨_, text, parsed⟩, failed, rfl⟩, ?_⟩
      exact mapError_eq_ok_iff.mpr told
  · rintro ⟨e, failed | ⟨v, f, loaded, failed, rfl⟩, described⟩
    · rcases undecoded_or_hasText bytes with ⟨failure, undecoded⟩ | ⟨cs, text⟩
      · rw [loadData_of_undecoded undecoded] at failed
        cases failed
        cases described
        exact .decoding undecoded
      · rw [loadData_of_hasText text] at failed
        rcases parse_cases host cs with ⟨v, parsed⟩ | ⟨description, notJson⟩ | ⟨cause, tooMuch⟩
        · cases parsed.symm.trans failed
        · cases notJson.symm.trans failed
          cases described
          obtain ⟨problem, position, malformed, rfl⟩ := parse_eq_notJson_iff.mp notJson
          exact .parsing text malformed
        · -- What is too much for the host has no message.
          cases tooMuch.symm.trans failed
          cases described
    · obtain ⟨cs, text, parsed⟩ := loadData_eq_ok_iff.mp loaded
      exact .importing text parsed failed (mapError_eq_ok_iff.mp described)

theorem FailsWith.not_holds (fails : FailsWith host file bytes message) :
    ¬∃ p, Holds host bytes p := by
  rintro ⟨p, holds⟩
  obtain ⟨e, failed, _⟩ := (failsWith_iff file).mp fails
  rw [(result_load_eq_ok_iff file).mpr holds] at failed
  cases failed

theorem FailsWith.unique {other : String} (fails : FailsWith host file bytes message)
    (fails' : FailsWith host file bytes other) : message = other := by
  obtain ⟨e, failed, described⟩ := (failsWith_iff file).mp fails
  obtain ⟨e', failed', described'⟩ := (failsWith_iff file).mp fails'
  rw [failed] at failed'
  cases failed'
  exact Except.ok.inj (described.symm.trans described')

/-- A file holds a program, or fails with a message, or is too much for the host. -/
theorem load_cases (host : Host) (path file : String) (bytes : List UInt8) :
    (∃ p, (load host path bytes).result = .ok p) ∨
      (∃ e message, (load host path bytes).result = .error e ∧
        e.message host file = .ok message) ∨
      ∃ cause, (load host path bytes).result = .error (.abort cause) := by
  have failing {e : LoadError} (failed : loadData host bytes = .error e) :
      (load host path bytes).result = .error e :=
    (result_load_eq_error_iff path).mpr (.inl failed)
  rcases loadData_cases host bytes with ⟨v, loaded⟩ | ⟨e, failed, described⟩ | ⟨cause, tooMuch⟩
  · cases imported : (Program.ofJson v).result with
    | ok p =>
      obtain ⟨cs, text, parsed⟩ := loadData_eq_ok_iff.mp loaded
      exact .inl ⟨p, (result_load_eq_ok_iff path).mpr ⟨cs, v, text, parsed, imported⟩⟩
    | error failure =>
      obtain ⟨f, message, rfl, told⟩ := Program.exists_told_of_ofJson
        (withinDigits_of_loadData loaded) imported host.unprintable
      refine .inr (.inl ⟨.fault f, message, ?_, mapError_eq_ok_iff.mpr told⟩)
      exact (result_load_eq_error_iff path).mpr (.inr ⟨v, f, loaded, imported, rfl⟩)
  · obtain ⟨message, described⟩ := described file
    exact .inr (.inl ⟨e, message, failing failed, described⟩)
  · exact .inr (.inr ⟨cause, failing tooMuch⟩)

theorem result_load_eq_abort_iff (path : String) :
    (load host path bytes).result = .error (.abort cause) ↔ TooMuch host bytes cause := by
  rw [result_load_eq_error_iff, ← loadData_eq_abort_iff]
  constructor
  · rintro (failed | ⟨_, _, _, _, ⟨⟩⟩)
    exact failed
  · exact .inl

end
end CairoAsm.Command
