import CairoAsm.Proofs.Command.Faults
import CairoAsm.Proofs.Listing.Shown
import CairoAsm.Proofs.Schema.Integers
import CairoAsm.Proofs.Schema.RoundTrip

/-!
Exported programs listed from a file. The written export of a program is loaded as that program, so
the run lists it; the listing is printed in full unless code of a hint has a control sequence in it.
-/
namespace CairoAsm.Command
open Text

/-- The bytes of a file in which a value is written. -/
def fileOf (v : Json) : List UInt8 := v.written.toUTF8.data.toList

section
variable {host : Host} {v : Json} {room : Nat} {p : Program}

theorem hasText_fileOf (restorable : v.Restorable digitLimit room) :
    HasText (fileOf v) v.written.toList :=
  hasText_toUTF8 ((Json.printable_written v restorable).notMem (by decide))

theorem read_fileOf (restorable : v.Restorable digitLimit room) (fits : room ≤ host.nesting) :
    Json.read host.limits v.written.toList = .ok v :=
  Json.read_written restorable fits

theorem hasHalfPair_fileOf (restorable : v.Restorable digitLimit room) :
    hasHalfPair (fileOf v) = false := by
  rw [hasHalfPair_of_hasText (hasText_fileOf restorable)]
  exact Json.hasHalfPair_written restorable

theorem restorable_exported (short : WithinDigits digitLimit p.integers) :
    p.toJson.Restorable digitLimit 7 :=
  Program.restorable_toJson.mpr short

theorem hasHalfPair_exported (short : WithinDigits digitLimit p.integers) :
    hasHalfPair (fileOf p.toJson) = false :=
  hasHalfPair_fileOf (restorable_exported short)

/-- The file of an exported program holds it. -/
theorem holds_exported (host : Host) (short : WithinDigits digitLimit p.integers) :
    Holds host (fileOf p.toJson) p := by
  have restorable := restorable_exported short
  have imported : (Program.ofJson p.toJson).result = .ok p :=
    p.ofJson_toJson_iff.mpr (short.mono p.bodyIntegers_subset)
  exact ⟨_, _, hasText_fileOf restorable, read_fileOf restorable host.roomy, imported⟩

/-- What is printed of a listing is all of it if no hint brings in a control sequence. -/
theorem Report.Lists.stdout_eq_iff {r : Report} {s : Settings} {file text : String}
    (lists : r.Lists s file p) (listed : (p.listing s).result = .ok text) :
    r.stdout = text ++ "\n" ↔ p.ShownInFull := by
  obtain ⟨text', listed', stdout⟩ := lists.stdout
  cases listed.symm.trans listed'
  obtain ⟨_, rfl⟩ := Program.listing_eq_ok_iff.mp listed
  rw [stdout, ← p.stripControls_fullListing_iff s, ← String.toList_inj]
  simp [plainText]

variable {disk : Disk} {args words : List String} {path : String}

/-- A run on the file of an exported program lists it, and prints the listing in full unless a hint
brings in a control sequence. -/
theorem exported_program_listed (host : Host) (asks : Asks args words path)
    (short : WithinDigits digitLimit p.integers)
    (found : disk.entry path = .file (fileOf p.toJson)) :
    ∃ r text, run host disk args = .finished r ∧
      r.Lists (settingsOf words) (Path.base path) p ∧
      (p.listing (settingsOf words)).result = .ok text ∧
      (r.stdout = text ++ "\n" ↔ p.ShownInFull) := by
  have loaded := (result_load_eq_ok_iff path).mpr (holds_exported host short)
  obtain ⟨r, finished, lists⟩ :=
    lists_of_loaded (s := settingsOf words) loaded (hasHalfPair_exported short)
  obtain ⟨text, listed, _⟩ := lists.stdout
  rw [run_of_asks asks found]
  exact ⟨r, text, finished, lists, listed, lists.stdout_eq_iff listed⟩

end

/-- Moves `ap` back after a hint. -/
def hinted : Program := ⟨[⟨.addAp (.atom (.immediate (-7))), true, [.verbatim "x = 1"]⟩]⟩

theorem withinDigits_hinted : WithinDigits digitLimit hinted.integers := by
  intro n member
  obtain rfl : n = -7 := List.mem_singleton.mp member
  decide

theorem exported_program_listed_hinted :
    Asks ["--offsets", "p.json", "-vv"] ["--offsets", "-vv"] "p.json" ∧
      WithinDigits digitLimit hinted.integers ∧
      (diskOf (fileOf hinted.toJson)).entry "p.json" = .file (fileOf hinted.toJson) ∧
      ∃ r, run plainHost (diskOf (fileOf hinted.toJson)) ["--offsets", "p.json", "-vv"] =
          .finished r ∧ r.exitCode = 0 ∧
        r.stdout = "      %\x7b x = 1 %\x7d\n0000: ap += -7, ap++\n" := by
  have asks : Asks ["--offsets", "p.json", "-vv"] ["--offsets", "-vv"] "p.json" :=
    ⟨by decide, by decide, .among ["--offsets"] ["-vv"] (.inr (by decide))⟩
  have found := entry_diskOf (fileOf hinted.toJson)
  obtain ⟨r, text, finished, lists, listed, full⟩ :=
    exported_program_listed plainHost asks withinDigits_hinted found
  have lines : (hinted.listing ⟨true, false, true⟩).result =
      .ok "      %\x7b x = 1 %\x7d\n0000: ap += -7, ap++" := by decide +kernel
  cases lines.symm.trans listed
  exact ⟨asks, withinDigits_hinted, found, r, finished, lists.exitCode, full.mpr (by decide)⟩

/-- A program that does nothing but return after a hint. -/
def returning (source : String) : Program := ⟨[⟨.ret, false, [.verbatim source]⟩]⟩

theorem withinDigits_returning (source : String) :
    WithinDigits digitLimit (returning source).integers := nofun

/-- Code with a control sequence in it is not printed in full. -/
theorem returning_not_in_full :
    let p := returning "\x1b[1mx"
    ∃ r text, run plainHost (diskOf (fileOf p.toJson)) ["p.json"] = .finished r ∧
      (p.listing {}).result = .ok text ∧ r.stdout ≠ text ++ "\n" := by
  intro p
  obtain ⟨r, text, finished, _, listed, full⟩ := exported_program_listed plainHost
    asks_file (withinDigits_returning "\x1b[1mx") (entry_diskOf (fileOf p.toJson))
  have leftOut : ¬p.ShownInFull := by decide
  exact ⟨r, text, finished, listed, fun same => leftOut (full.mp same)⟩

end CairoAsm.Command
