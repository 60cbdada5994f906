namespace CairoAsm.Text

/-- The lines of a text; every text has at least one. -/
def lines (s : String) : List String :=
  (s.toList.splitOn '\n').map String.ofList

def unlines (ls : List String) : String := "\n".intercalate ls

theorem unlines_lines (s : String) : unlines (lines s) = s := by
  apply String.toList_inj.mp
  simp [unlines, lines, String.toList_intercalate, List.map_map, Function.comp_def,
    List.intercalate_splitOn]

theorem lines_unlines {ls : List String} (h : ∀ l ∈ ls, '\n' ∉ l.toList) (nonempty : ls ≠ []) :
    lines (unlines ls) = ls := by
  have cut : (unlines ls).toList.splitOn '\n' = ls.map String.toList := by
    simp only [unlines, String.toList_intercalate]
    exact List.splitOn_intercalate '\n' (by simpa using h) (by simpa using nonempty)
  simp [lines, cut, List.map_map, Function.comp_def]

/-- CR LF and CR are line breaks too, and each becomes a single LF; `done` is in reverse. -/
def unifyBreaksOnto (done : List Char) : List Char → List Char
  | [] => done.reverse
  | '\r' :: '\n' :: rest => unifyBreaksOnto ('\n' :: done) rest
  | '\r' :: rest => unifyBreaksOnto ('\n' :: done) rest
  | c :: rest => unifyBreaksOnto (c :: done) rest

/-- The text with LF as its only line break. -/
def unifyBreaks (cs : List Char) : List Char := unifyBreaksOnto [] cs

theorem unifyBreaksOnto_append (done before cs : List Char) :
    unifyBreaksOnto (done ++ before) cs = before.reverse ++ unifyBreaksOnto done cs := by
  fun_induction unifyBreaksOnto done cs with
  | case1 => simp [unifyBreaksOnto]
  | case2 done rest ih => simpa [unifyBreaksOnto] using ih
  | case3 done rest other ih =>
    rw [unifyBreaksOnto]
    · simpa using ih
    · exact other
  | case4 done c rest other other' ih =>
    rw [unifyBreaksOnto]
    · simpa using ih
    · exact other
    · exact other'

theorem unifyBreaks_crlf (rest : List Char) :
    unifyBreaks ('\r' :: '\n' :: rest) = '\n' :: unifyBreaks rest := by
  simpa [unifyBreaks, unifyBreaksOnto] using unifyBreaksOnto_append [] ['\n'] rest

theorem unifyBreaks_cr {rest : List Char} (alone : rest.head? ≠ some '\n') :
    unifyBreaks ('\r' :: rest) = '\n' :: unifyBreaks rest := by
  have step : unifyBreaksOnto [] ('\r' :: rest) = unifyBreaksOnto ['\n'] rest := by
    rw [unifyBreaksOnto]
    rintro tail rfl
    exact alone rfl
  simpa [unifyBreaks, step] using unifyBreaksOnto_append [] ['\n'] rest

theorem unifyBreaks_cons {c : Char} (h : c ≠ '\r') (rest : List Char) :
    unifyBreaks (c :: rest) = c :: unifyBreaks rest := by
  have step : unifyBreaksOnto [] (c :: rest) = unifyBreaksOnto [c] rest := by
    rw [unifyBreaksOnto]
    · exact fun _ same => absurd same h
    · exact h
  simpa [unifyBreaks, step] using unifyBreaksOnto_append [] [c] rest

theorem unifyBreaks_eq_self {cs : List Char} (h : '\r' ∉ cs) : unifyBreaks cs = cs := by
  induction cs with
  | nil => rfl
  | cons c rest ih =>
    have hc : c ≠ '\r' := fun same => h (same ▸ List.mem_cons_self)
    rw [unifyBreaks_cons hc, ih (fun member => h (List.mem_cons_of_mem c member))]

end CairoAsm.Text
