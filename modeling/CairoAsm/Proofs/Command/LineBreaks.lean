import CairoAsm.Proofs.Command.Faults

/-!
The line breaks of a file. Whether a text has LF, CR LF or CR in its file makes no difference to a
run, and faults are placed where they are in the text.
-/
namespace CairoAsm

namespace Text
variable {style t : String}

def breakStyles : List String := ["\n", "\r\n", "\r"]

/-- The text with other breaks in the place of LF. -/
def withBreaks (style t : String) : String :=
  String.ofList (t.toList.flatMap fun c => if c = '\n' then style.toList else [c])

/-- A break is one LF, unless it is a CR and the text goes on with LF. -/
theorem unifyBreaks_style_append (known : style ∈ breakStyles) {rest : List Char}
    (apart : style = "\r" → rest.head? ≠ some '\n') :
    unifyBreaks (style.toList ++ rest) = '\n' :: unifyBreaks rest := by
  simp only [breakStyles, List.mem_cons, List.not_mem_nil, or_false] at known
  obtain rfl | rfl | rfl := known
  · exact unifyBreaks_cons (by decide) rest
  · exact unifyBreaks_crlf rest
  · exact unifyBreaks_cr (apart rfl)

theorem head?_flatMap_breaks_ne (cs : List Char) :
    (cs.flatMap fun c => if c = '\n' then "\r".toList else [c]).head? ≠ some '\n' := by
  cases cs with
  | nil => exact nofun
  | cons c cs =>
    by_cases feed : c = '\n'
    · simp [feed]
    · simp [feed]

theorem unifyBreaks_withBreaks (known : style ∈ breakStyles) (plain : '\r' ∉ t.toList) :
    unifyBreaks (withBreaks style t).toList = t.toList := by
  rw [withBreaks, String.toList_ofList]
  generalize t.toList = cs at plain
  induction cs with
  | nil => rfl
  | cons c cs ih =>
    obtain ⟨other, plain⟩ := List.ne_and_not_mem_of_not_mem_cons plain
    rw [List.flatMap_cons]
    by_cases feed : c = '\n'
    · have apart : style = "\r" →
          (cs.flatMap fun c => if c = '\n' then style.toList else [c]).head? ≠ some '\n' := by
        intro same
        rw [same]
        exact head?_flatMap_breaks_ne cs
      rw [if_pos feed, unifyBreaks_style_append known apart, ih plain, feed]
    · rw [if_neg feed, List.singleton_append, unifyBreaks_cons (Ne.symm other), ih plain]

end Text

namespace Command
open Text
variable {host : Host} {bytes bytes' : List UInt8} {f g : Folder} {d e : Disk}
  {found found' : Entry}

/-- The bytes of a text in UTF-8. -/
def bytesOf (t : String) : List UInt8 := t.toUTF8.data.toList

theorem hasText_withBreaks {style t : String} (known : style ∈ breakStyles)
    (plain : '\r' ∉ t.toList) : HasText (bytesOf (withBreaks style t)) t.toList :=
  ⟨withBreaks style t, rfl, unifyBreaks_withBreaks known plain⟩

/-- The text of bytes with one kind of line breaks, or why they are not text. -/
def readText (bytes : List UInt8) : Except Utf8.Failure (List Char) :=
  (Utf8.decode bytes).map unifyBreaks

theorem readText_of_hasText {cs : List Char} (text : HasText bytes cs) :
    readText bytes = .ok cs := by
  obtain ⟨raw, decoded, rfl⟩ := hasText_iff_decode.mp text
  rw [readText, decoded]
  rfl

theorem loadData_eq_readText (host : Host) (bytes : List UInt8) :
    loadData host bytes = (readText bytes).mapError .notUtf8 >>= parse host := by
  rw [loadData, readText]
  cases Utf8.decode bytes <;> rfl

theorem hasHalfPair_eq_readText (bytes : List UInt8) :
    hasHalfPair bytes =
      ((readText bytes).toOption.map (Json.hasHalfPair (some digitLimit))).getD false := by
  rw [hasHalfPair, readText]
  cases Utf8.decode bytes <;> rfl

/-- A run looks at no more of a file than its text. -/
theorem list_of_readText_eq (same : readText bytes = readText bytes') (s : Settings)
    (path : String) : list host s path bytes = list host s path bytes' := by
  simp only [list, work, load, loadData_eq_readText, hasHalfPair_eq_readText, same]

/-- Found on two disks: the same, or files of one text. -/
inductive Entry.Alike : Entry → Entry → Prop
  | missing : Alike .missing .missing
  | directory : Alike .directory .directory
  | file {bytes bytes' : List UInt8} (same : readText bytes = readText bytes') :
    Alike (.file bytes) (.file bytes')

/-- Folders with the same names in them, and files of the same texts. -/
structure Folder.Alike (f g : Folder) : Prop where
  directories : f.directories = g.directories
  files : List.Forall₂ (fun a b => a.1 = b.1 ∧ readText a.2 = readText b.2) f.files g.files

namespace Folder

theorem Alike.refl (f : Folder) : f.Alike f :=
  ⟨rfl, List.forall₂_same.mpr fun _ _ => ⟨rfl, rfl⟩⟩

theorem Alike.writeFrom (alike : f.Alike g) (same : readText bytes = readText bytes')
    (place names : List String) :
    (f.writeFrom place bytes names).Alike (g.writeFrom place bytes' names) := by
  induction names generalizing f g place with
  | nil => exact alike
  | cons name rest ih =>
    cases rest with
    | nil => exact ⟨alike.directories, .cons ⟨rfl, same⟩ alike.files⟩
    | cons next rest =>
      by_cases up : name = ".."
      · simp only [Folder.writeFrom, if_pos up]
        exact ih alike place.dropLast
      · have inside : Folder.Alike { f with directories := (place ++ [name]) :: f.directories }
            { g with directories := (place ++ [name]) :: g.directories } :=
          ⟨congrArg ((place ++ [name]) :: ·) alike.directories, alike.files⟩
        simp only [Folder.writeFrom, if_neg up]
        exact ih inside (place ++ [name])

theorem Alike.lookup (alike : f.Alike g) (names : List String) :
    (f.files.lookup names = none ∧ g.files.lookup names = none) ∨
      ∃ bytes bytes', f.files.lookup names = some bytes ∧ g.files.lookup names = some bytes' ∧
        readText bytes = readText bytes' := by
  obtain ⟨_, files⟩ := alike
  generalize f.files = fs at files
  generalize g.files = gs at files
  induction files with
  | nil => exact .inl ⟨rfl, rfl⟩
  | @cons a b fs gs first _ ih =>
    obtain ⟨key, bytes⟩ := a
    obtain ⟨key', bytes'⟩ := b
    obtain ⟨same, loaded⟩ := first
    subst same
    by_cases here : names = key
    · subst here
      exact .inr ⟨bytes, bytes', by simp, by simp, loaded⟩
    · have elsewhere : (names == key) = false := beq_false_of_ne here
      simpa only [List.lookup_cons, elsewhere] using ih

/-- The same names lead through both folders. -/
theorem Alike.walk (alike : f.Alike g) (names path : List String) :
    (f.walk names path).Alike (g.walk names path) := by
  induction path generalizing names with
  | nil => exact .directory
  | cons name rest ih =>
    rw [Folder.walk, Folder.walk]
    by_cases still : name = "" ∨ name = "."
    · simp only [if_pos still]
      exact ih names
    by_cases up : name = ".."
    · simp only [if_neg still, if_pos up]
      exact ih names.dropLast
    simp only [if_neg still, if_neg up]
    cases alike.lookup (names ++ [name]) with
    | inl none =>
      simp only [none.1, none.2, alike.directories]
      split
      · exact ih (names ++ [name])
      · exact .missing
    | inr both =>
      obtain ⟨bytes, bytes', found, found', same⟩ := both
      simp only [found, found']
      split
      · exact .file same
      · exact .missing

end Folder

/-- Disks with one working directory and the same texts. -/
structure Disk.Alike (d e : Disk) : Prop where
  folder : d.folder.Alike e.folder
  home : d.home = e.home

namespace Disk

theorem Alike.refl (d : Disk) : d.Alike d := ⟨.refl d.folder, rfl⟩

theorem Alike.start (alike : d.Alike e) (path : String) : d.start path = e.start path := by
  simp only [Disk.start, alike.home]

theorem Alike.write (alike : d.Alike e) (same : readText bytes = readText bytes')
    (path : String) : (d.write path bytes).Alike (e.write path bytes') := by
  refine ⟨?_, alike.home⟩
  simp only [Disk.write, alike.start path]
  exact alike.folder.writeFrom same _ _

theorem Alike.entry (alike : d.Alike e) (path : String) :
    (d.entry path).Alike (e.entry path) := by
  simp only [Disk.entry, alike.start path]
  exact alike.folder.walk _ _

end Disk

theorem Entry.Alike.execute (alike : found.Alike found') (s : Settings) (path : String) :
    Command.execute host s path found = Command.execute host s path found' := by
  cases alike with
  | missing => rfl
  | directory => rfl
  | file same => exact list_of_readText_eq same s path

theorem Disk.Alike.run (alike : d.Alike e) (args : List String) :
    Command.run host d args = Command.run host e args := by
  unfold Command.run
  cases plan args with
  | error outcome => rfl
  | ok asked => exact (alike.entry asked.2).execute asked.1 asked.2

/-- A run does not notice which breaks a file has, wherever it stands, and it tells a fault in the
text by its place there. -/
theorem break_style_unnoticed {style t : String} (known : style ∈ breakStyles)
    (plain : '\r' ∉ t.toList) (host : Host) (disk : Disk) (path : String) (args : List String) :
    run host (disk.write path (bytesOf (withBreaks style t))) args =
        run host (disk.write path (bytesOf t)) args ∧
      ∀ problem position,
        Json.read host.limits t.toList = .error (.malformed problem position) →
          ∀ file, FailsWith host file (bytesOf (withBreaks style t))
            (file ++ " is not valid JSON: " ++ problem.describe t.toList position) := by
  have text := hasText_withBreaks known plain
  have unstyled : HasText (bytesOf t) t.toList := hasText_toUTF8 plain
  constructor
  · have same : readText (bytesOf (withBreaks style t)) = readText (bytesOf t) := by
      rw [readText_of_hasText text, readText_of_hasText unstyled]
    exact ((Disk.Alike.refl disk).write same path).run args
  · intro problem position malformed file
    exact .parsing text malformed

/-- A string with a break in it that should not be there. -/
theorem break_style_unnoticed_crlf :
    let t := "[\n\"a\n"
    let disk := Disk.ofFiles "home" []
    "\r\n" ∈ breakStyles ∧ '\r' ∉ t.toList ∧ withBreaks "\r\n" t = "[\r\n\"a\r\n" ∧
      run plainHost (disk.write "/home/p.json" (bytesOf (withBreaks "\r\n" t)))
          ["-v", "p.json"] =
        run plainHost (disk.write "/home/p.json" (bytesOf t)) ["-v", "p.json"] ∧
      Json.read plainHost.limits t.toList = .error (.malformed .controlCharacter 4) ∧
      FailsWith plainHost "p.json" (bytesOf (withBreaks "\r\n" t))
        "p.json is not valid JSON: Invalid control character at: line 2 column 3 (char 4)" := by
  intro t disk
  have known : "\r\n" ∈ breakStyles := by decide
  have plain : '\r' ∉ t.toList := by decide
  have chars : t.toList = ['[', '\n', '"', 'a', '\n'] := by decide
  have malformed : Json.read plainHost.limits t.toList =
      .error (.malformed .controlCharacter 4) := by
    rw [chars]
    rfl
  have told : "p.json" ++ " is not valid JSON: " ++
      Json.Problem.controlCharacter.describe t.toList 4 =
        "p.json is not valid JSON: Invalid control character at: line 2 column 3 (char 4)" := by
    decide +kernel
  obtain ⟨same, fails⟩ :=
    break_style_unnoticed known plain plainHost disk "/home/p.json" ["-v", "p.json"]
  exact ⟨known, plain, by decide, same, malformed, told ▸ fails _ _ malformed "p.json"⟩

end Command
end CairoAsm
