import CairoAsm.Proofs.Command.Arguments
import CairoAsm.Proofs.Command.Reports
import CairoAsm.Proofs.Text.Printable
import Mathlib.Logic.Basic

/-!
How a run on a file ends. It lists the program of the file or refuses the file with a message. It
does neither if a number in the file is too long or its arrays and objects are nested too deep.
-/
namespace CairoAsm.Command
open Text

section
variable {host : Host} {disk : Disk} {args words : List String} {path : String}
  {bytes : List UInt8} {cause : Abort}

/-- A text is too much for a host by one of its numbers or by its nesting. -/
theorem TooMuch.exists_text (tooMuch : TooMuch host bytes cause) :
    ∃ cs, HasText bytes cs ∧
      (cause = .oversizedInteger ∧ Json.HasLongNumber digitLimit cs ∨
        cause = .nestedTooDeep ∧ host.nesting < cs.countP Json.isOpening) := by
  obtain ⟨cs, e, text, known, unread⟩ := tooMuch
  refine ⟨cs, text, ?_⟩
  cases cause with
  | oversizedInteger =>
    cases known
    exact .inl ⟨rfl, Json.hasLongNumber_of_read unread⟩
  | nestedTooDeep =>
    cases known
    exact .inr ⟨rfl, Json.lt_countP_isOpening_of_read unread⟩
  | nullCharacter => cases known

theorem run_of_tooMuch (asks : Asks args words path) (found : disk.entry path = .file bytes)
    (tooMuch : TooMuch host bytes cause) :
    run host disk args =
      .aborted cause (visible (settingsOf words) [.loading (Path.tidy path)]) := by
  rw [run_of_asks asks found]
  exact list_of_tooMuch tooMuch

/-- A run on a file lists the program in it or refuses the file, never both; only too long a number
or too deep a nesting aborts it. -/
theorem ends_by_listing_or_refusal (asks : Asks args words path)
    (found : disk.entry path = .file bytes) (whole : hasHalfPair bytes = false) :
    ((∃ r, run host disk args = .finished r ∧
        Xor (∃ p, Holds host bytes p ∧ r.Lists (settingsOf words) (Path.base path) p)
          (∃ message, FailsWith host (Path.base path) bytes message ∧
            r.Refuses (Path.base path) message)) ↔
      ∀ cause, ¬TooMuch host bytes cause) ∧
    ∀ cause, TooMuch host bytes cause →
      run host disk args =
        .aborted cause (visible (settingsOf words) [.loading (Path.tidy path)]) ∧
      ∃ cs, HasText bytes cs ∧
        (cause = .oversizedInteger ∧ Json.HasLongNumber digitLimit cs ∨
          cause = .nestedTooDeep ∧ host.nesting < cs.countP Json.isOpening) := by
  refine ⟨⟨?_, ?_⟩, fun cause tooMuch => ⟨run_of_tooMuch asks found tooMuch, tooMuch.exists_text⟩⟩
  · rintro ⟨r, finished, _⟩ cause tooMuch
    rw [run_of_tooMuch asks found tooMuch] at finished
    cases finished
  · intro fits
    rw [run_of_asks asks found]
    rcases load_cases host path (Path.base path) bytes with
      ⟨p, loaded⟩ | ⟨e, message, failed, described⟩ | ⟨cause, tooMuch⟩
    · have holds := (result_load_eq_ok_iff path).mp loaded
      obtain ⟨r, finished, lists⟩ := lists_of_loaded (s := settingsOf words) loaded whole
      refine ⟨r, finished, .inl ⟨⟨p, holds, lists⟩, ?_⟩⟩
      rintro ⟨_, _, refuses⟩
      exact absurd (lists.exitCode.symm.trans refuses.exitCode) (by decide)
    · have fails := (failsWith_iff path).mpr ⟨e, failed, described⟩
      obtain ⟨r, finished, refuses⟩ :=
        refuses_of_failed (s := settingsOf words) failed described whole
      refine ⟨r, finished, .inr ⟨⟨message, fails, refuses⟩, ?_⟩⟩
      rintro ⟨_, _, lists⟩
      exact absurd (refuses.exitCode.symm.trans lists.exitCode) (by decide)
    · exact absurd ((result_load_eq_abort_iff path).mp tooMuch) (fits cause)

end

/-- A host that shows every character as it is. -/
def plainHost : Host := ⟨900, Nat.le_add_left 7 893, fun _ => false⟩

/-- A disk with one file, in the working directory. -/
def diskOf (bytes : List UInt8) : Disk := Disk.ofFiles "home" [("p.json", bytes)]

theorem entry_diskOf (bytes : List UInt8) : (diskOf bytes).entry "p.json" = .file bytes :=
  entry_ofFiles_single (by decide) (by decide)

theorem asks_file : Asks ["p.json"] [] "p.json" := asks_alone (.inr (by decide)) (by decide)

theorem ends_by_listing_or_refusal_not_utf8 :
    Asks ["--sizes", "p.json"] ["--sizes"] "p.json" ∧
      (diskOf [0xff, 0xfe, 0x5b]).entry "p.json" = .file [0xff, 0xfe, 0x5b] ∧
      hasHalfPair [0xff, 0xfe, 0x5b] = false ∧
      ∃ r message, run plainHost (diskOf [0xff, 0xfe, 0x5b]) ["--sizes", "p.json"] = .finished r ∧
        FailsWith plainHost "p.json" [0xff, 0xfe, 0x5b] message ∧ r.Refuses "p.json" message := by
  have asks : Asks ["--sizes", "p.json"] ["--sizes"] "p.json" :=
    ⟨by decide, by decide, .among ["--sizes"] [] (.inr (by decide))⟩
  have found := entry_diskOf [0xff, 0xfe, 0x5b]
  have undecoded : Utf8.decode [0xff, 0xfe, 0x5b] = .error ⟨.invalidStart, 0, 1, 0xff⟩ := rfl
  have fails : FailsWith plainHost "p.json" [0xff, 0xfe, 0x5b] _ := .decoding undecoded
  have fits (cause : Abort) : ¬TooMuch plainHost [0xff, 0xfe, 0x5b] cause := by
    rintro ⟨_, _, text, _⟩
    obtain ⟨_, decoded, _⟩ := hasText_iff_decode.mp text
    cases undecoded.symm.trans decoded
  obtain ⟨r, finished, ends⟩ := (ends_by_listing_or_refusal asks found rfl).1.mpr fits
  refine ⟨asks, found, rfl, r, ?_⟩
  rcases ends with ⟨⟨p, holds, _⟩, _⟩ | ⟨⟨message, fails, refuses⟩, _⟩
  · exact absurd ⟨p, holds⟩ fails.not_holds
  · exact ⟨message, finished, fails, refuses⟩

/-- A whole number with one digit too many. -/
def longNumber : String := String.ofList ('1' :: List.replicate digitLimit '0')

theorem tooMuch_longNumber (host : Host) :
    TooMuch host longNumber.toUTF8.data.toList .oversizedInteger := by
  obtain ⟨n, _, digits⟩ := Json.Token.exists_natRepr_eq digitLimit
  have text : longNumber = n.repr := by
    rw [longNumber, ← digits, String.ofList_toList]
  have long : digitLimit < n.repr.length := by
    rw [← String.length_toList, digits, List.length_cons, List.length_replicate]
    exact Nat.lt_succ_self digitLimit
  have noReturn : '\r' ∉ n.repr.toList := (printable_natRepr n).notMem (by decide)
  rw [text]
  exact ⟨_, _, hasText_toUTF8 noReturn, rfl, Json.read_natRepr_long long _⟩

/-- Arrays that are opened and never closed, one more than a host can nest. -/
def brackets (host : Host) : String := String.ofList (List.replicate (host.nesting + 1) '[')

theorem tooMuch_brackets (host : Host) :
    TooMuch host (brackets host).toUTF8.data.toList .nestedTooDeep := by
  have noReturn : '\r' ∉ (brackets host).toList := by
    rw [brackets, String.toList_ofList]
    intro member
    exact absurd (List.eq_of_mem_replicate member) (by decide)
  refine ⟨_, _, hasText_toUTF8 noReturn, rfl, ?_⟩
  rw [brackets, String.toList_ofList]
  exact Json.read_brackets _ _

/-- The runs on such a number and on such arrays list nothing and refuse nothing. -/
theorem longNumber_aborts :
    let bytes := longNumber.toUTF8.data.toList
    let deep := (brackets plainHost).toUTF8.data.toList
    (diskOf bytes).entry "p.json" = .file bytes ∧
      run plainHost (diskOf bytes) ["p.json"] = .aborted .oversizedInteger [] ∧
      (diskOf deep).entry "p.json" = .file deep ∧
      run plainHost (diskOf deep) ["p.json"] = .aborted .nestedTooDeep [] := by
  intro bytes deep
  have found := entry_diskOf bytes
  have found' := entry_diskOf deep
  exact ⟨found, run_of_tooMuch asks_file found (tooMuch_longNumber plainHost), found',
    run_of_tooMuch asks_file found' (tooMuch_brackets plainHost)⟩

end CairoAsm.Command
