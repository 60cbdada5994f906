import CairoAsm.Proofs.Json.Tokens
import CairoAsm.Proofs.Traced

/-!
Where the limits of reading come in. A text is refused for the size of a number only if more digits
than the limit allows stand in it in one row, and for its nesting only if it has more opening
brackets than may be open.
-/
namespace CairoAsm.Json

/-- A row of more than `limit` digits stands in the text. -/
def HasLongNumber (limit : Nat) (cs : List Char) : Prop :=
  ∃ ds, ds <:+: cs ∧ (∀ c ∈ ds, c.isDigit) ∧ limit < ds.length

theorem HasLongNumber.mono {limit : Nat} {cs ds : List Char} (h : HasLongNumber limit cs)
    (inside : cs <:+: ds) : HasLongNumber limit ds := by
  obtain ⟨number, place, digits, long⟩ := h
  exact ⟨number, place.trans inside, digits, long⟩

namespace Token
variable {limit : Nat}

theorem mem_scan {position skip : Nat} {done : List Token} {cs : List Char} {t : Token}
    (member : t ∈ scan (some limit) position skip done cs) :
    t ∈ done ∨ ∃ c rest, c :: rest <:+ cs ∧
      t.lexeme = (lexemeAt (some limit) t.position c rest).1 := by
  induction cs generalizing position skip done with
  | nil => exact .inl (List.mem_reverse.mp member)
  | cons c cs ih =>
    have later : (∃ d rest, d :: rest <:+ cs ∧
        t.lexeme = (lexemeAt (some limit) t.position d rest).1) →
        ∃ d rest, d :: rest <:+ c :: cs ∧
          t.lexeme = (lexemeAt (some limit) t.position d rest).1 := by
      rintro ⟨d, rest, place, lexeme⟩
      exact ⟨d, rest, place.trans (List.suffix_cons c cs), lexeme⟩
    cases skip with
    | succ skip => exact (ih member).imp_right later
    | zero =>
      rw [scan] at member
      split at member
      · exact (ih member).imp_right later
      · rcases ih member with here | there
        · rcases List.mem_cons.mp here with rfl | before
          · exact .inr ⟨c, cs, List.suffix_refl _, rfl⟩
          · exact .inl before
        · exact .inr (later there)

theorem quotedText_cases (start position skip : Nat) (whole : Bool) (done cs : List Char) :
    (∃ s whole', (quotedText start position skip whole done cs).1 = .text s whole') ∨
      ∃ problem place, (quotedText start position skip whole done cs).1 =
        .brokenText problem place := by
  induction cs generalizing position skip whole done with
  | nil => exact .inr ⟨_, _, rfl⟩
  | cons c cs ih =>
    cases skip with
    | succ skip => exact ih _ _ _ _
    | zero =>
      rw [quotedText]
      split
      · exact .inl ⟨_, _, rfl⟩
      split
      · split
        · exact ih _ _ _ _
        · exact ih _ _ _ _
        · exact .inr ⟨_, _, rfl⟩
        · exact .inr ⟨_, _, rfl⟩
        · exact .inr ⟨_, _, rfl⟩
      split
      · exact .inr ⟨_, _, rfl⟩
      · exact ih _ _ _ _

theorem hasLongNumber_of_number? {negative : Bool} {cs : List Char} {n : Nat}
    (h : number? (some limit) negative cs = some (.oversized, n)) : HasLongNumber limit cs := by
  obtain ⟨ds, start, digits, long⟩ := digits_of_number?_oversized h
  exact ⟨ds, start.isInfix, digits, long⟩

theorem hasLongNumber_of_scalar? {cs : List Char} {n : Nat}
    (h : scalar? (some limit) cs = some (.oversized, n)) : HasLongNumber limit cs := by
  unfold scalar? at h
  split at h
  · simp at h
  · split at h
    · rename_i rest
      obtain ⟨⟨l, length⟩, read, same⟩ := Option.map_eq_some_iff.mp h
      obtain ⟨rfl, _⟩ := Prod.mk.inj same
      exact (hasLongNumber_of_number? read).mono (List.suffix_cons '-' _).isInfix
    · exact hasLongNumber_of_number? h

theorem hasLongNumber_of_lexemeAt {position : Nat} {c : Char} {rest : List Char}
    (h : (lexemeAt (some limit) position c rest).1 = .oversized) :
    HasLongNumber limit (c :: rest) := by
  unfold lexemeAt at h
  split at h
  · cases h
  · cases h
  · cases h
  · cases h
  · cases h
  · cases h
  · obtain ⟨_, _, text⟩ | ⟨_, _, broken⟩ :=
      quotedText_cases position (position + 1) 0 true [] rest
    · cases text.symm.trans h
    · cases broken.symm.trans h
  · split at h
    · rename_i l length read
      obtain rfl : l = .oversized := h
      exact hasLongNumber_of_scalar? read
    · cases h

end Token

namespace Reader

theorem beginValue_ne_oversized {stack : List Frame} {t : Token} (h : t.lexeme ≠ .oversized) :
    beginValue stack t ≠ .error .oversizedInteger := by
  unfold beginValue
  split
  · nofun
  · nofun
  · nofun
  · nofun
  · nofun
  · rename_i oversized
    exact absurd oversized h
  · nofun

theorem lexeme_of_step_oversized {r : Reader} {t : Token}
    (h : r.step t = .error .oversizedInteger) : t.lexeme = .oversized := by
  apply Classical.byContradiction
  intro other
  have begins : ∀ stack, beginValue stack t ≠ .error .oversizedInteger :=
    fun _ => beginValue_ne_oversized other
  unfold step at h
  cases r with
  | value stack => exact begins stack h
  | firstItem stack =>
    dsimp only at h
    split at h
    · cases h
    · exact begins _ h
  | key first fields stack =>
    dsimp only at h
    split at h
    · cases h
    · cases h
    · split at h <;> cases h
    · cases h
  | colon fields name stack =>
    dsimp only at h
    split at h <;> cases h
  | afterItem items stack =>
    dsimp only at h
    split at h <;> cases h
  | afterField fields stack =>
    dsimp only at h
    split at h <;> cases h
  | done v => cases h

/-- Nowhere does an oversized number let a text go on. -/
theorem step_oversized_ne_ok {t : Token} (oversized : t.lexeme = .oversized) (r s : Reader) :
    r.step t ≠ .ok s := by
  cases r <;> simp [step, beginValue, oversized, fail]

end Reader

theorem exists_step_of_foldlM_eq_error {f : β → α → Except ε β} {b : β} {xs : List α} {e : ε}
    (h : xs.foldlM f b = .error e) : ∃ c x, x ∈ xs ∧ f c x = .error e := by
  induction xs generalizing b with
  | nil => cases h
  | cons x xs ih =>
    rw [List.foldlM_cons] at h
    cases step : f b x with
    | error e' =>
      rw [step] at h
      cases h
      exact ⟨b, x, List.mem_cons_self, step⟩
    | ok c =>
      rw [step] at h
      obtain ⟨d, y, member, failed⟩ := ih h
      exact ⟨d, y, List.mem_cons_of_mem x member, failed⟩

theorem exists_step_of_foldlM_eq_ok {f : β → α → Except ε β} {b b' : β} {xs : List α} {x : α}
    (h : xs.foldlM f b = .ok b') (member : x ∈ xs) : ∃ c d, f c x = .ok d := by
  induction xs generalizing b with
  | nil => cases member
  | cons y xs ih =>
    obtain ⟨c, step, rest⟩ := bind_eq_ok_iff.mp (List.foldlM_cons.symm.trans h)
    rcases List.mem_cons.mp member with rfl | later
    · exact ⟨b, c, step⟩
    · exact ih rest later

/-- No number in a text that is read is too long. -/
theorem not_oversized_of_read {limits : Limits} {cs : List Char} {v : Json}
    (h : read limits cs = .ok v) {t : Token} (member : t ∈ Token.ofText limits.digits cs) :
    t.lexeme ≠ .oversized := by
  intro oversized
  unfold read at h
  split at h
  · cases h
  · obtain ⟨last, run, _⟩ := bind_eq_ok_iff.mp h
    obtain ⟨r, s, step⟩ := exists_step_of_foldlM_eq_ok run member
    exact Reader.step_oversized_ne_ok oversized r s (Reader.stepWithin_eq_ok_iff.mp step).1

theorem foldlM_of_read_eq_error {limits : Limits} {cs : List Char} {e : ReadError}
    (h : read limits cs = .error e) (notMalformed : ∀ problem k, e ≠ .malformed problem k) :
    (Token.ofText limits.digits cs).foldlM (Reader.stepWithin limits.nesting) (.value []) =
      .error e := by
  unfold read at h
  split at h
  · cases h
    exact absurd rfl (notMalformed _ _)
  · rcases bind_eq_error_iff.mp h with run | ⟨last, _, finish⟩
    · exact run
    · cases last <;> cases finish <;> exact absurd rfl (notMalformed _ _)

/-- A text is refused for a number that is too long only if it has one. -/
theorem exists_oversized_of_read {limits : Limits} {cs : List Char}
    (h : read limits cs = .error .oversizedInteger) :
    ∃ t ∈ Token.ofText limits.digits cs, t.lexeme = .oversized := by
  obtain ⟨r, t, member, failed⟩ :=
    exists_step_of_foldlM_eq_error (foldlM_of_read_eq_error h nofun)
  rcases Reader.stepWithin_eq_error_iff.mp failed with step | ⟨_, _, _, other⟩
  · exact ⟨t, member, Reader.lexeme_of_step_oversized step⟩
  · cases other

theorem hasLongNumber_of_read {limit : Nat} {nesting : Option Nat} {cs : List Char}
    (h : read ⟨some limit, nesting⟩ cs = .error .oversizedInteger) : HasLongNumber limit cs := by
  obtain ⟨t, member, oversized⟩ := exists_oversized_of_read h
  rcases Token.mem_scan member with done | ⟨c, rest, place, lexeme⟩
  · cases done
  · rw [oversized] at lexeme
    exact (Token.hasLongNumber_of_lexemeAt lexeme.symm).mono place.isInfix

/-- A number that is too long is refused where it stands alone. -/
theorem read_natRepr_long {limit n : Nat} (long : limit < n.repr.length) (nesting : Option Nat) :
    read ⟨some limit, nesting⟩ n.repr.toList = .error .oversizedInteger := by
  obtain ⟨c, cs, same, digit, length⟩ := Token.natRepr_eq_cons n
  have number := Token.number?_natRepr (some limit) false n Token.endsNumber_nil
  rw [Token.wholeNumber_natRepr_long false long, List.append_nil, same, length] at number
  have found : Token.lexemeAt (some limit) 0 c (cs ++ []) = (.oversized, cs.length) := by
    rw [List.append_nil]
    exact Token.lexemeAt_digit digit number 0
  have tokens : Token.ofText (some limit) (c :: cs) = [⟨.oversized, 0⟩] := by
    have first := Token.scan_token (Token.isBlank_of_isDigit digit) found
    rwa [List.append_nil] at first
  have noMark : (c :: cs).head? ≠ some '\ufeff' :=
    fun mark => Token.ne_of_isDigit digit rfl (Option.some.inj mark)
  rw [same, read, if_neg noMark, tokens]
  rfl

/-! ### Nesting -/

def Lexeme.opens : Lexeme → Bool
  | .arrayOpen | .objectOpen => true
  | _ => false

def isOpening (c : Char) : Bool := c = '[' || c = '\x7b'

namespace Token
variable {limit : Option Nat}

theorem wholeNumber_cases (limit : Option Nat) (negative : Bool) (digits : List Char) :
    wholeNumber limit negative digits = .oversized ∨
      ∃ v, wholeNumber limit negative digits = .scalar v := by
  unfold wholeNumber
  split
  · exact .inl rfl
  · exact .inr ⟨_, rfl⟩

theorem not_opens_of_number? {negative : Bool} {cs : List Char} {l : Lexeme} {n : Nat}
    (h : number? limit negative cs = some (l, n)) : l.opens = false := by
  unfold number? at h
  dsimp only at h
  split at h
  · cases h
  · split at h
    · cases h
      rfl
    · split at h
      · cases h
        rcases wholeNumber_cases limit negative (wholeDigits cs) with long | ⟨v, whole⟩
        · rw [long]
          rfl
        · rw [whole]
          rfl
      · cases h
        rfl

theorem not_opens_of_scalar? {cs : List Char} {l : Lexeme} {n : Nat}
    (h : scalar? limit cs = some (l, n)) : l.opens = false := by
  unfold scalar? at h
  split at h
  · cases h
    rfl
  · split at h
    · obtain ⟨⟨l', length⟩, read, same⟩ := Option.map_eq_some_iff.mp h
      cases same
      exact not_opens_of_number? read
    · exact not_opens_of_number? h

theorem isOpening_of_lexemeAt {position : Nat} {c : Char} {rest : List Char}
    (h : (lexemeAt limit position c rest).1.opens) : isOpening c := by
  unfold lexemeAt at h
  split at h
  · rfl
  · cases h
  · rfl
  · cases h
  · cases h
  · cases h
  · obtain ⟨_, _, text⟩ | ⟨_, _, broken⟩ :=
      quotedText_cases position (position + 1) 0 true [] rest
    · rw [text] at h
      cases h
    · rw [broken] at h
      cases h
  · split at h
    · rename_i l length read
      cases (not_opens_of_scalar? read).symm.trans h
    · cases h

/-- A token that opens something is a bracket of its own. -/
theorem countP_opens_scan_le (limit : Option Nat) (position skip : Nat) (cs : List Char) :
    (scan limit position skip [] cs).countP (fun t => t.lexeme.opens) ≤ cs.countP isOpening := by
  induction cs generalizing position skip with
  | nil => exact Nat.le_refl 0
  | cons c cs ih =>
    have later (k : Nat) : (scan limit (position + 1) k [] cs).countP (fun t => t.lexeme.opens) ≤
        (c :: cs).countP isOpening :=
      Nat.le_trans (ih _ _) (List.sublist_cons_self c cs).countP_le
    cases skip with
    | succ skip => exact later skip
    | zero =>
      rw [scan]
      split
      · exact later 0
      · change (scan limit (position + 1) (lexemeAt limit position c cs).2
          [⟨(lexemeAt limit position c cs).1, position⟩] cs).countP _ ≤ _
        rw [scan_done, List.reverse_singleton, List.singleton_append, List.countP_cons,
          List.countP_cons]
        refine Nat.add_le_add (ih _ _) ?_
        split
        · rename_i opens
          exact Nat.le_of_eq (if_pos (isOpening_of_lexemeAt opens)).symm
        · exact Nat.zero_le _

end Token

namespace Reader

theorem depth_beginValue_le {stack : List Frame} {t : Token} {next : Reader}
    (step : beginValue stack t = .ok next) :
    next.depth ≤ stack.length + if t.lexeme.opens then 1 else 0 := by
  unfold beginValue at step
  split at step
  · cases step
    rw [depth_complete]
    exact Nat.le_add_right _ _
  · cases step
    rw [depth_complete]
    exact Nat.le_add_right _ _
  · rename_i opens
    cases step
    rw [opens]
    exact Nat.le_refl _
  · rename_i opens
    cases step
    rw [opens]
    exact Nat.le_refl _
  · cases step
  · cases step
  · cases step

theorem depth_step_le {r next : Reader} {t : Token} (step : r.step t = .ok next) :
    next.depth ≤ r.depth + if t.lexeme.opens then 1 else 0 := by
  unfold Reader.step at step
  cases r with
  | value stack => exact depth_beginValue_le step
  | firstItem stack =>
    dsimp only at step
    split at step
    · cases step
      rw [depth_complete]
      exact Nat.le_add_right_of_le (Nat.le_succ _)
    · exact depth_beginValue_le step
  | key first fields stack =>
    dsimp only at step
    split at step
    · cases step
      exact Nat.le_add_right _ _
    · cases step
    · split at step
      · cases step
        rw [depth_complete]
        exact Nat.le_add_right_of_le (Nat.le_succ _)
      · cases step
    · cases step
  | colon fields name stack =>
    dsimp only at step
    split at step
    · cases step
      exact Nat.le_add_right _ _
    · cases step
  | afterItem items stack =>
    dsimp only at step
    split at step
    · cases step
      rw [depth_complete]
      exact Nat.le_add_right_of_le (Nat.le_succ _)
    · cases step
      exact Nat.le_add_right _ _
    · cases step
  | afterField fields stack =>
    dsimp only at step
    split at step
    · cases step
      rw [depth_complete]
      exact Nat.le_add_right_of_le (Nat.le_succ _)
    · cases step
      exact Nat.le_add_right _ _
    · cases step
  | done v => cases step

theorem step_ne_nestedTooDeep (r : Reader) (t : Token) : r.step t ≠ .error .nestedTooDeep := by
  have begins (stack : List Frame) : beginValue stack t ≠ .error .nestedTooDeep := by
    unfold beginValue
    split <;> nofun
  unfold Reader.step
  cases r with
  | value stack => exact begins stack
  | firstItem stack =>
    dsimp only
    split
    · nofun
    · exact begins _
  | key first fields stack =>
    dsimp only
    split
    · nofun
    · nofun
    · split <;> nofun
    · nofun
  | colon fields name stack =>
    dsimp only
    split <;> nofun
  | afterItem items stack =>
    dsimp only
    split <;> nofun
  | afterField fields stack =>
    dsimp only
    split <;> nofun
  | done v => nofun

/-- What is open when a text is refused for its nesting was open before or opened by its tokens. -/
theorem lt_of_foldlM_nestedTooDeep {nesting : Nat} {r : Reader} {ts : List Token}
    (h : ts.foldlM (stepWithin (some nesting)) r = .error .nestedTooDeep) :
    nesting < r.depth + ts.countP (fun t => t.lexeme.opens) := by
  induction ts generalizing r with
  | nil => cases h
  | cons t ts ih =>
    rw [List.foldlM_cons, bind_eq_error_iff] at h
    rw [List.countP_cons]
    rcases h with failed | ⟨next, step, rest⟩
    · rcases stepWithin_eq_error_iff.mp failed with step | ⟨next, step, ⟨n, ⟨⟩, deeper⟩, _⟩
      · exact absurd step (r.step_ne_nestedTooDeep t)
      · have grown := depth_step_le step
        omega
    · have later := ih rest
      have grown := depth_step_le (stepWithin_eq_ok_iff.mp step).1
      omega

end Reader

/-- A text is refused for its nesting only if it has more opening brackets than may be open. -/
theorem lt_countP_isOpening_of_read {nesting : Nat} {digits : Option Nat} {cs : List Char}
    (h : read ⟨digits, some nesting⟩ cs = .error .nestedTooDeep) :
    nesting < cs.countP isOpening := by
  have open_ := Reader.lt_of_foldlM_nestedTooDeep (foldlM_of_read_eq_error h nofun)
  have brackets := Token.countP_opens_scan_le digits 0 0 cs
  rw [Reader.depth, List.length_nil, Nat.zero_add] at open_
  exact Nat.lt_of_lt_of_le open_ brackets

/-- Arrays that are only opened are read until too many of them are open. -/
theorem foldlM_brackets {nesting k : Nat} {digits : Option Nat} {r : Reader} {stack : List Frame}
    {position : Nat} (begins : r.Begins stack) (fits : stack.length ≤ nesting)
    (deep : nesting < stack.length + k) :
    (Token.scan digits position 0 [] (List.replicate k '[')).foldlM
      (Reader.stepWithin (some nesting)) r = .error .nestedTooDeep := by
  induction k generalizing r stack position with
  | zero => exact absurd deep (Nat.not_lt.mpr fits)
  | succ k ih =>
    have bracket : Token.lexemeAt digits position '[' ([] ++ List.replicate k '[') =
        (.arrayOpen, ([] : List Char).length) := rfl
    have tokens : Token.scan digits position 0 [] (List.replicate (k + 1) '[') =
        ⟨.arrayOpen, position⟩ :: Token.scan digits (position + 1) 0 [] (List.replicate k '[') :=
      Token.scan_token rfl bracket
    have step : r.step ⟨.arrayOpen, position⟩ = .ok (.firstItem stack) := begins _ nofun
    rw [tokens, List.foldlM_cons]
    by_cases last : stack.length = nesting
    · have deeper : nesting < (Reader.firstItem stack).depth := by
        rw [Reader.depth, last]
        exact Nat.lt_succ_self nesting
      rw [Reader.stepWithin_eq_error_iff.mpr (.inr ⟨_, step, ⟨nesting, rfl, deeper⟩, rfl⟩)]
      rfl
    · have roomy : (Reader.firstItem stack).Roomy (some nesting) := by
        rintro _ ⟨⟩
        rw [Reader.depth]
        omega
      rw [Reader.stepWithin_eq_ok_iff.mpr ⟨step, roomy⟩]
      refine ih (Reader.begins_firstItem stack) ?_ ?_
      · rw [List.length_cons]
        omega
      · rw [List.length_cons]
        omega

theorem read_brackets (digits : Option Nat) (nesting : Nat) :
    read ⟨digits, some nesting⟩ (List.replicate (nesting + 1) '[') = .error .nestedTooDeep := by
  have noMark : (List.replicate (nesting + 1) '[').head? ≠ some '\ufeff' := by
    simp [List.replicate_succ]
  have tokens : (Token.scan digits 0 0 [] (List.replicate (nesting + 1) '[')).foldlM
      (Reader.stepWithin (some nesting)) (.value []) = .error .nestedTooDeep :=
    foldlM_brackets (Reader.begins_value []) (Nat.zero_le nesting) (by simp)
  simp only [read, if_neg noMark, Token.ofText, tokens]
  rfl

end CairoAsm.Json
