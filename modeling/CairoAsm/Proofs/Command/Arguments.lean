import CairoAsm.Command.Run

/-!
What arguments ask for. Switches may stand anywhere around the file and more than once, so only
which of them occur counts.
-/
namespace CairoAsm.Command

/-- Letters v may be joined behind one dash. -/
def isVerbose (w : String) : Bool :=
  w = "--verbose" ||
    match w.toList with
    | '-' :: letters => letters ≠ [] && letters.all (· = 'v')
    | _ => false

/-- The words that turn on something in a listing. -/
def isSwitch (w : String) : Bool := w = "--offsets" || w = "--sizes" || isVerbose w

def settingsOf (words : List String) : Settings :=
  ⟨"--offsets" ∈ words, "--sizes" ∈ words, words.any isVerbose⟩

/-- A file name that is not taken for flags: it is a dash alone or has none in front. -/
def NoFlags (path : String) : Prop := path = "-" ∨ path.toList.head? ≠ some '-'

/-- Switches and a file as arguments: the file stands among them or behind a double dash, and a
double dash may also end them. -/
inductive Arranged (path : String) : List String → List String → Prop
  | among (before after : List String) (plain : NoFlags path) :
    Arranged path (before ++ after) (before ++ path :: after)
  | ended (before after : List String) (plain : NoFlags path) :
    Arranged path (before ++ after) (before ++ path :: (after ++ ["--"]))
  | behind (words : List String) : Arranged path words (words ++ ["--", path])

/-- The arguments are switches and a file. No path has a null character in it. -/
structure Asks (args words : List String) (path : String) : Prop where
  known : ∀ w ∈ words, isSwitch w
  pathLike : '\x00' ∉ path.toList
  arranged : Arranged path words args

theorem asks_alone {path : String} (plain : NoFlags path) (pathLike : '\x00' ∉ path.toList) :
    Asks [path] [] path :=
  ⟨nofun, pathLike, .among [] [] plain⟩

/-- Flags are turned on by words. -/
structure TurnsOn (words : List String) (fs : List Flag) : Prop where
  offsets : .offsets ∈ fs ↔ "--offsets" ∈ words
  sizes : .sizes ∈ fs ↔ "--sizes" ∈ words
  verbose : .verbose ∈ fs ↔ words.any isVerbose
  help : .help ∉ fs

section
variable {words more : List String} {fs gs : List Flag} {w path : String} {args : List String}

theorem turnsOn_nil : TurnsOn [] [] := ⟨by simp, by simp, by simp, by simp⟩

theorem TurnsOn.append (first : TurnsOn words fs) (second : TurnsOn more gs) :
    TurnsOn (words ++ more) (fs ++ gs) where
  offsets := by rw [List.mem_append, List.mem_append, first.offsets, second.offsets]
  sizes := by rw [List.mem_append, List.mem_append, first.sizes, second.sizes]
  verbose := by
    rw [List.mem_append, List.any_append, Bool.or_eq_true, first.verbose, second.verbose]
  help := by
    rw [List.mem_append]
    exact not_or.mpr ⟨first.help, second.help⟩

theorem TurnsOn.settings (on : TurnsOn words fs) (files : List String) :
    Arguments.settings ⟨fs, files⟩ = settingsOf words := by
  simp only [Arguments.settings, settingsOf, on.offsets, on.sizes, on.verbose, Bool.decide_eq_true]

theorem mapM_ofLetter? {letters : List Char} (known : letters.all (· = 'v')) :
    letters.mapM Flag.ofLetter? = some (letters.map fun _ => .verbose) := by
  induction letters with
  | nil => rfl
  | cons c letters ih =>
    simp only [List.all_cons, Bool.and_eq_true, decide_eq_true_eq] at known
    obtain ⟨rfl, known⟩ := known
    rw [List.mapM_cons, ih known]
    rfl

theorem ofString?_verbose (known : isVerbose w) :
    ∃ fs, Argument.ofString? w = some (.flags fs) ∧ fs ≠ [] ∧ ∀ f ∈ fs, f = .verbose := by
  rw [isVerbose, Bool.or_eq_true, decide_eq_true_eq] at known
  rcases known with rfl | known
  · exact ⟨[.verbose], rfl, by simp, by simp⟩
  · split at known
    · rename_i letters text
      simp only [Bool.and_eq_true, decide_eq_true_eq] at known
      obtain ⟨nonempty, known⟩ := known
      obtain ⟨c, rest, rfl⟩ := List.exists_cons_of_ne_nil nonempty
      have parsed := mapM_ofLetter? known
      obtain ⟨first, -⟩ := List.forall_mem_cons.mp (List.all_eq_true.mp known)
      obtain rfl : c = 'v' := by simpa using first
      have flags : Argument.ofString? w = some (.flags (('v' :: rest).map fun _ => .verbose)) := by
        simp only [Argument.ofString?, text]
        exact congrArg (Option.map Argument.flags) parsed
      exact ⟨_, flags, by simp, by simp⟩
    · cases known

theorem turnsOn_switch (known : isSwitch w) :
    ∃ fs, Argument.ofString? w = some (.flags fs) ∧ TurnsOn [w] fs := by
  by_cases verbose : isVerbose w
  · obtain ⟨fs, parsed, some, all⟩ := ofString?_verbose verbose
    have offsets : w ≠ "--offsets" := by
      rintro rfl
      exact absurd verbose (by decide)
    have sizes : w ≠ "--sizes" := by
      rintro rfl
      exact absurd verbose (by decide)
    have only {f : Flag} (other : f ≠ .verbose) : f ∉ fs := fun member => other (all f member)
    obtain ⟨f, member⟩ := List.exists_mem_of_ne_nil fs some
    refine ⟨fs, parsed, ?_, ?_, ?_, only (by decide)⟩
    · simp [only, offsets.symm]
    · simp [only, sizes.symm]
    · simp [verbose, all f member ▸ member]
  · simp only [isSwitch, verbose, Bool.or_false, Bool.or_eq_true, decide_eq_true_eq] at known
    rcases known with rfl | rfl
    · exact ⟨[.offsets], rfl, by decide, by decide, by decide, by decide⟩
    · exact ⟨[.sizes], rfl, by decide, by decide, by decide, by decide⟩

theorem ofString?_file (plain : NoFlags path) :
    Argument.ofString? path = some (.file path) := by
  rcases plain with rfl | plain
  · rfl
  · unfold Argument.ofString?
    split
    · simp_all
    · simp_all
    · simp_all
    · rfl

namespace Arguments

/-- Switches in front of other arguments add their flags. -/
theorem exists_ofStrings?_switches (known : ∀ w ∈ words, isSwitch w) :
    ∃ fs, TurnsOn words fs ∧ ∀ rest a, ofStrings? rest = some a →
      ofStrings? (words ++ rest) = some { a with flags := fs ++ a.flags } := by
  induction words with
  | nil => exact ⟨[], turnsOn_nil, fun _ _ parsed => parsed⟩
  | cons w words ih =>
    obtain ⟨first, known⟩ := List.forall_mem_cons.mp known
    obtain ⟨fs, parsed, on⟩ := turnsOn_switch first
    obtain ⟨gs, on', others⟩ := ih known
    refine ⟨fs ++ gs, on.append on', ?_⟩
    intro rest a after
    rw [List.cons_append, ofStrings?, parsed, others rest a after]
    simp

theorem ofStrings?_file (plain : NoFlags path) {rest : List String}
    {a : Arguments} (after : ofStrings? rest = some a) :
    ofStrings? (path :: rest) = some { a with files := path :: a.files } := by
  rw [ofStrings?, ofString?_file plain, after]
  rfl

end Arguments

theorem exists_ofStrings? (asks : Asks args words path) :
    ∃ fs, TurnsOn words fs ∧ Arguments.ofStrings? args = some ⟨fs, [path]⟩ := by
  obtain ⟨known, _, arranged⟩ := asks
  have around (before after rest : List String) (known : ∀ w ∈ before ++ after, isSwitch w)
      (plain : NoFlags path)
      (nothing : Arguments.ofStrings? rest = some ⟨[], []⟩) :
      ∃ fs, TurnsOn (before ++ after) fs ∧
        Arguments.ofStrings? (before ++ path :: (after ++ rest)) = some ⟨fs, [path]⟩ := by
    obtain ⟨front, back⟩ := List.forall_mem_append.mp known
    obtain ⟨fs, on, first⟩ := Arguments.exists_ofStrings?_switches front
    obtain ⟨gs, on', last⟩ := Arguments.exists_ofStrings?_switches back
    refine ⟨fs ++ gs, on.append on', ?_⟩
    have file := Arguments.ofStrings?_file plain (last rest _ nothing)
    rw [first _ _ file]
    simp
  have behind {words : List String} (known : ∀ w ∈ words, isSwitch w) :
      ∃ fs, TurnsOn words fs ∧
        Arguments.ofStrings? (words ++ ["--", path]) = some ⟨fs, [path]⟩ := by
    obtain ⟨fs, on, first⟩ := Arguments.exists_ofStrings?_switches known
    refine ⟨fs, on, ?_⟩
    rw [first ["--", path] ⟨[], [path]⟩ rfl, List.append_nil]
  cases arranged with
  | among before after plain =>
    have parsed := around before after [] known plain rfl
    rwa [List.append_nil] at parsed
  | ended before after plain => exact around before after ["--"] known plain rfl
  | behind => exact behind known

theorem plan_of_asks (asks : Asks args words path) : plan args = .ok (settingsOf words, path) := by
  obtain ⟨fs, on, parsed⟩ := exists_ofStrings? asks
  simp only [plan, parsed, if_neg on.help, if_neg asks.pathLike, if_true, on.settings]

theorem run_of_asks {host : Host} {disk : Disk} {bytes : List UInt8} (asks : Asks args words path)
    (found : disk.entry path = .file bytes) :
    run host disk args = list host (settingsOf words) path bytes := by
  rw [run, plan_of_asks asks]
  dsimp only
  rw [found]
  rfl

end

/-! ### A file alone -/

section
variable {name home : String} {bytes : List UInt8}

theorem parts_of_plain (plain : '/' ∉ name.toList) : Path.parts name = [name] := by
  simp [Path.parts, List.splitOn_eq_singleton plain]

theorem root_of_plain (plain : '/' ∉ name.toList) : Path.root name = "" := by
  unfold Path.root
  split
  · simp_all
  · simp_all
  · simp_all
  · rfl

theorem names_of_plain (plain : '/' ∉ name.toList) (named : name ∉ ["", ".", ".."]) :
    Path.names name = [name] := by
  simp only [List.mem_cons, List.not_mem_nil, or_false, not_or] at named
  rw [Path.names, parts_of_plain plain, List.filter_cons_of_pos (by simp [named]), List.filter_nil]

/-- A file in the working directory is found under its name. -/
theorem entry_ofFiles_single (plain : '/' ∉ name.toList) (named : name ∉ ["", ".", ".."]) :
    (Disk.ofFiles home [(name, bytes)]).entry name = .file bytes := by
  have names := names_of_plain plain named
  simp only [List.mem_cons, List.not_mem_nil, or_false, not_or] at named
  simp [Disk.ofFiles, Disk.write, Disk.entry, Disk.start, root_of_plain plain, names,
    parts_of_plain plain, Folder.writeFrom, Folder.walk, named]

/-- A file under the root is found by its absolute path. -/
theorem entry_ofFiles_root (name : String) (plain : '/' ∉ name.toList)
    (named : name ∉ ["", ".", ".."]) :
    (Disk.ofFiles home [("/" ++ name, bytes)]).entry ("/" ++ name) = .file bytes := by
  have parts : Path.parts ("/" ++ name) = ["", name] := by
    simp [Path.parts, List.splitOn_cons_eq_if_modifyHead, List.splitOn_eq_singleton plain]
  have absolute : Path.root ("/" ++ name) = "/" := by
    unfold Path.root
    split <;> simp_all
  simp only [List.mem_cons, List.not_mem_nil, or_false, not_or] at named
  have names : Path.names ("/" ++ name) = [name] := by
    simp [Path.names, parts, named]
  simp [Disk.ofFiles, Disk.write, Disk.entry, Disk.start, absolute, names, parts,
    Folder.writeFrom, Folder.walk, named]

end
end CairoAsm.Command
