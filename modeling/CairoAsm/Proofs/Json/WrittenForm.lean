import CairoAsm.Proofs.Json.Tokens
import CairoAsm.Proofs.Text.Printable

/-!
JSON values read back from their written form: the text of a value takes a reader that waits for a
value to the same reader with the value complete.
-/
namespace CairoAsm.Json
open Text

mutual

/-- No floating numbers, no key twice, no whole number of more than `limit` digits, and arrays and
objects nested no deeper than there is room. -/
def Restorable (limit : Nat) : Nat → Json → Prop
  | _, .null | _, .bool _ | _, .str _ => True
  | _, .int n => n.natAbs.repr.length ≤ limit
  | _, .float _ => False
  | 0, .arr _ | 0, .obj _ => False
  | room + 1, .arr items => RestorableItems limit room items
  | room + 1, .obj fields =>
    (fields.map Prod.fst).Nodup ∧ RestorableFields limit room fields

def RestorableItems (limit : Nat) : Nat → List Json → Prop
  | _, [] => True
  | room, v :: rest => Restorable limit room v ∧ RestorableItems limit room rest

def RestorableFields (limit : Nat) : Nat → List (String × Json) → Prop
  | _, [] => True
  | room, (_, v) :: rest => Restorable limit room v ∧ RestorableFields limit room rest

end

theorem Fields.put_of_notMem {fields : Fields} {key : String} (v : Json)
    (fresh : key ∉ fields.map Prod.fst) : fields.put key v = fields ++ [(key, v)] := by
  induction fields with
  | nil => rfl
  | cons f rest ih =>
    obtain ⟨name, old⟩ := f
    obtain ⟨other, fresh⟩ := List.ne_and_not_mem_of_not_mem_cons fresh
    rw [Fields.put, if_neg (Ne.symm other), ih fresh, List.cons_append]

theorem notMem_of_nodup_keys {done more : Fields} {k : String} {v : Json}
    (distinct : ((done ++ (k, v) :: more).map Prod.fst).Nodup) : k ∉ done.map Prod.fst := by
  rw [List.map_append, List.map_cons, List.nodup_append] at distinct
  exact fun member => distinct.2.2 k member k List.mem_cons_self rfl

theorem toList_commaSeparated (s t : String) (more : List String) :
    (", ".intercalate (s :: t :: more)).toList =
      s.toList ++ ([','] ++ ([' '] ++ (", ".intercalate (t :: more)).toList)) := by
  rw [String.intercalate_cons_of_ne_nil (List.cons_ne_nil t more)]
  simp

section
variable {limit nesting : Nat} {stack : List Frame} {rest : List Char}

theorem endsNumber_comma (cs rest : List Char) : Token.EndsNumber ([','] ++ cs ++ rest) :=
  Token.endsNumber_cons (by decide) (cs ++ rest)

theorem Reader.roomy_of_depth {r : Reader} (within : r.depth ≤ nesting) :
    r.Roomy (some nesting) := by
  rintro n ⟨⟩
  exact within

theorem Reader.roomy_complete (v : Json) (within : stack.length ≤ nesting) :
    (complete v stack).Roomy (some nesting) :=
  roomy_of_depth (by rwa [depth_complete])

/-- A field is its key, a colon and its value. -/
theorem reads_field {k : String} {v : Json} {done : Fields}
    (value : Reads ⟨some limit, some nesting⟩ (.value (.object done k :: stack)) v.written.toList
      rest (.complete v (.object done k :: stack)))
    (fresh : k ∉ done.map Prod.fst) (first : Bool) (within : stack.length + 1 ≤ nesting) :
    Reads ⟨some limit, some nesting⟩ (.key first done stack)
      (writtenText k ++ ": " ++ v.written).toList rest
      (.afterField (done ++ [(k, v)]) stack) := by
  have text : (writtenText k ++ ": " ++ v.written).toList =
      (writtenText k).toList ++ ([':'] ++ ([' '] ++ v.written.toList)) := by simp
  have last : Reader.complete v (.object done k :: stack) =
      .afterField (done ++ [(k, v)]) stack := by
    rw [Reader.complete, Fields.put_of_notMem v fresh]
  rw [text, ← last]
  exact (reads_writtenText k (fun _ => rfl) (Reader.roomy_of_depth within)).append
    ((reads_mark rfl (fun _ _ => rfl) rfl (fun _ => rfl) (Reader.roomy_of_depth within)).append
      (reads_blank.append value))

mutual

theorem reads_written : ∀ (v : Json) {room : Nat} {r : Reader} {stack : List Frame}
    {rest : List Char}, v.Restorable limit room → stack.length + room ≤ nesting →
      r.Begins stack → Token.EndsNumber rest →
        Reads ⟨some limit, some nesting⟩ r v.written.toList rest (.complete v stack)
  | .null, _, _, _, _, _, fits, begins, _ =>
    reads_scalar begins rfl (fun _ => rfl) (Reader.roomy_complete .null (by omega))
  | .bool true, _, _, _, _, _, fits, begins, _ =>
    reads_scalar begins rfl (fun _ => rfl) (Reader.roomy_complete (.bool true) (by omega))
  | .bool false, _, _, _, _, _, fits, begins, _ =>
    reads_scalar begins rfl (fun _ => rfl) (Reader.roomy_complete (.bool false) (by omega))
  | .int n, _, _, _, _, restorable, fits, begins, ends => by
    rw [Restorable] at restorable
    exact reads_repr rfl begins restorable ends (Reader.roomy_complete (.int n) (by omega))
  | .float _, _, _, _, _, impossible, _, _, _ => by
    rw [Restorable] at impossible
    exact impossible.elim
  | .str s, _, _, _, _, _, fits, begins, _ =>
    reads_writtenText s (fun _ => begins _ nofun) (Reader.roomy_complete (.str s) (by omega))
  | .arr items, room, r, stack, rest, restorable, fits, begins, _ => by
    cases room with
    | zero => exact restorable.elim
    | succ room =>
      rw [Restorable] at restorable
      have fitsInside : stack.length + 1 + room ≤ nesting := by omega
      have opened : ∀ cs,
          Reads ⟨some limit, some nesting⟩ r ['['] cs (.firstItem stack) := fun cs =>
        reads_mark rfl (fun _ _ => rfl) rfl (fun _ => begins _ nofun)
          (Reader.roomy_of_depth (show stack.length + 1 ≤ nesting by omega))
      have text : (Json.arr items).written.toList =
          ['['] ++ ((", ".intercalate (writtenItems items)).toList ++ [']']) := by
        simp [written]
      rw [text]
      cases items with
      | nil =>
        exact (opened _).append (reads_mark rfl (fun _ _ => rfl) rfl (fun _ => rfl)
          (Reader.roomy_complete (.arr []) (by omega)))
      | cons v items =>
        have inner := reads_items (v :: items) (List.cons_ne_nil v items) restorable fitsInside
          (Reader.begins_firstItem stack)
          (Token.endsNumber_cons (c := ']') (by decide) rest)
        have closed : Reads ⟨some limit, some nesting⟩
            (.afterItem ((v :: items).reverse ++ []) stack) [']'] rest
            (.complete (.arr (v :: items)) stack) := by
          refine reads_mark rfl (fun _ _ => rfl) rfl (fun _ => ?_)
            (Reader.roomy_complete (.arr (v :: items)) (by omega))
          have order : (v :: items).reverse.reverse = v :: items := List.reverse_reverse _
          rw [List.append_nil]
          exact congrArg (fun vs => Except.ok (Reader.complete (.arr vs) stack)) order
        exact (opened _).append (inner.append closed)
  | .obj fields, room, r, stack, rest, restorable, fits, begins, _ => by
    cases room with
    | zero => exact restorable.elim
    | succ room =>
      rw [Restorable] at restorable
      have fitsInside : stack.length + 1 + room ≤ nesting := by omega
      have opened : ∀ cs,
          Reads ⟨some limit, some nesting⟩ r ['\x7b'] cs (.key true [] stack) := fun cs =>
        reads_mark rfl (fun _ _ => rfl) rfl (fun _ => begins _ nofun)
          (Reader.roomy_of_depth (show stack.length + 1 ≤ nesting by omega))
      have closes : (Reader.complete (.obj fields) stack).Roomy (some nesting) :=
        Reader.roomy_complete (.obj fields) (by omega)
      have text : (Json.obj fields).written.toList =
          ['\x7b'] ++ ((", ".intercalate (writtenFields fields)).toList ++ ['\x7d']) := by
        simp [written]
      rw [text]
      cases fields with
      | nil => exact (opened _).append (reads_mark rfl (fun _ _ => rfl) rfl (fun _ => rfl) closes)
      | cons f fields =>
        have distinct : (([] ++ f :: fields).map Prod.fst).Nodup := restorable.1
        have inner := reads_fields (f :: fields) (List.cons_ne_nil f fields) distinct restorable.2
          fitsInside true (Token.endsNumber_cons (c := '\x7d') (by decide) rest)
        exact (opened _).append
          (inner.append (reads_mark rfl (fun _ _ => rfl) rfl (fun _ => rfl) closes))

theorem reads_items : ∀ (items : List Json) {room : Nat} {r : Reader} {done : List Json}
    {stack : List Frame} {rest : List Char}, items ≠ [] → RestorableItems limit room items →
      stack.length + 1 + room ≤ nesting →
        r.Begins (.array done :: stack) → Token.EndsNumber rest →
          Reads ⟨some limit, some nesting⟩ r (", ".intercalate (writtenItems items)).toList rest
            (.afterItem (items.reverse ++ done) stack)
  | [], _, _, _, _, _, nonempty, _, _, _, _ => absurd rfl nonempty
  | [v], room, _, done, stack, _, _, restorable, fits, begins, ends => by
    have text : ", ".intercalate (writtenItems [v]) = v.written := by simp [writtenItems]
    have inside : (Frame.array done :: stack).length + room ≤ nesting := fits
    rw [text]
    exact reads_written v restorable.1 inside begins ends
  | v :: w :: more, room, r, done, stack, rest, _, restorable, fits, begins, ends => by
    have inside : (Frame.array done :: stack).length + room ≤ nesting := fits
    have first := reads_written v restorable.1 inside begins (endsNumber_comma
      ([' '] ++ (", ".intercalate (writtenItems (w :: more))).toList) rest)
    have others := reads_items (w :: more) (List.cons_ne_nil w more) restorable.2 fits
      (Reader.begins_value (.array (v :: done) :: stack)) ends
    have order : (v :: w :: more).reverse ++ done = (w :: more).reverse ++ v :: done := by simp
    have open_ : (Reader.value (.array (v :: done) :: stack)).Roomy (some nesting) :=
      Reader.roomy_of_depth (Nat.le_of_add_right_le fits)
    rw [writtenItems, writtenItems, toList_commaSeparated, order]
    exact first.append ((reads_mark rfl (fun _ _ => rfl) rfl (fun _ => rfl) open_).append
      (reads_blank.append others))

theorem reads_fields : ∀ (fields : Fields) {room : Nat} {done : Fields} {stack : List Frame}
    {rest : List Char}, fields ≠ [] → ((done ++ fields).map Prod.fst).Nodup →
      RestorableFields limit room fields → stack.length + 1 + room ≤ nesting →
        ∀ first : Bool, Token.EndsNumber rest →
          Reads ⟨some limit, some nesting⟩ (.key first done stack)
            (", ".intercalate (writtenFields fields)).toList rest
            (.afterField (done ++ fields) stack)
  | [], _, _, _, _, nonempty, _, _, _, _, _ => absurd rfl nonempty
  | [(k, v)], room, done, stack, rest, _, distinct, restorable, fits, first, ends => by
    have text : ", ".intercalate (writtenFields [(k, v)]) = writtenText k ++ ": " ++ v.written := by
      simp [writtenFields]
    have inside : (Frame.object done k :: stack).length + room ≤ nesting := fits
    have value := reads_written v restorable.1 inside
      (Reader.begins_value (.object done k :: stack)) ends
    rw [text]
    exact reads_field value (notMem_of_nodup_keys distinct) first (Nat.le_of_add_right_le fits)
  | (k, v) :: (k', v') :: more, room, done, stack, rest, _, distinct, restorable, fits, first,
      ends => by
    have inside : (Frame.object done k :: stack).length + room ≤ nesting := fits
    have value := reads_written v restorable.1 inside
      (Reader.begins_value (.object done k :: stack))
      (endsNumber_comma
        ([' '] ++ (", ".intercalate (writtenFields ((k', v') :: more))).toList) rest)
    have within : stack.length + 1 ≤ nesting := Nat.le_of_add_right_le fits
    have one := reads_field value (notMem_of_nodup_keys distinct) first within
    have regroup : done ++ (k, v) :: (k', v') :: more = (done ++ [(k, v)]) ++ (k', v') :: more := by
      simp
    rw [regroup] at distinct
    have others := reads_fields ((k', v') :: more) (List.cons_ne_nil _ more) distinct restorable.2
      fits false ends
    have text : (", ".intercalate (writtenFields ((k, v) :: (k', v') :: more))).toList =
        (writtenText k ++ ": " ++ v.written).toList ++
          ([','] ++ ([' '] ++ (", ".intercalate (writtenFields ((k', v') :: more))).toList)) := by
      simp only [writtenFields, toList_commaSeparated]
    rw [text, regroup]
    exact one.append ((reads_mark rfl (fun _ _ => rfl) rfl (fun _ => rfl)
      (Reader.roomy_of_depth within)).append (reads_blank.append others))

end
end

/-! ### The whole text -/

theorem printable_hex {u : Nat} (h : u < 0x10000) {c : Char} (member : c ∈ hex 4 u) :
    32 ≤ c.toNat ∧ c.toNat < 127 := by
  have digits : ∀ d < 16, 32 ≤ (Nat.digitChar d).toNat ∧ (Nat.digitChar d).toNat < 127 := by decide
  rw [hex_four h] at member
  simp only [List.mem_cons, List.not_mem_nil, or_false] at member
  rcases member with rfl | rfl | rfl | rfl
  · exact digits _ (by omega)
  · exact digits _ (by omega)
  · exact digits _ (by omega)
  · exact digits _ (by omega)

theorem lt_of_mem_units {c : Char} {u : Nat} (h : u ∈ units c) : u < 0x10000 := by
  have scalar : c.toNat < 0xd800 ∨ 0xdfff < c.toNat ∧ c.toNat < 0x110000 := c.valid
  unfold units at h
  split at h
  · rw [List.mem_singleton.mp h]
    assumption
  · simp only [List.mem_cons, List.not_mem_nil, or_false] at h
    omega

theorem printable_writtenChar {c d : Char} (member : d ∈ writtenChar c) :
    32 ≤ d.toNat ∧ d.toNat < 127 := by
  obtain ⟨x, whole, _, known⟩ | ⟨whole, _, _, printable⟩ | whole := Token.writtenChar_cases c
  · have names : Printable "\"\\nrtfb" := by decide
    rw [whole] at member
    rcases List.mem_cons.mp member with rfl | member
    · decide
    · rw [List.mem_singleton.mp member]
      exact printable_iff.mp names x (by simpa using known)
  · rw [whole] at member
    rw [List.mem_singleton.mp member]
    exact printable
  · rw [whole] at member
    obtain ⟨u, unit, member⟩ := List.mem_flatMap.mp member
    rcases List.mem_cons.mp member with rfl | member
    · decide
    rcases List.mem_cons.mp member with rfl | member
    · decide
    · exact printable_hex (lt_of_mem_units unit) member

theorem printable_writtenText (s : String) : Printable (writtenText s) := by
  rw [printable_iff, writtenText_toList]
  intro c member
  simp only [List.mem_cons, List.mem_append, List.not_mem_nil, or_false] at member
  rcases member with rfl | member | rfl
  · decide
  · obtain ⟨d, _, member⟩ := List.mem_flatMap.mp member
    exact printable_writtenChar member
  · decide

theorem printable_commaSeparated {ss : List String} (h : ∀ s ∈ ss, Printable s) :
    Printable (", ".intercalate ss) := by
  induction ss with
  | nil => decide
  | cons s ss ih =>
    obtain ⟨first, others⟩ := List.forall_mem_cons.mp h
    cases ss with
    | nil => simpa using first
    | cons t more =>
      rw [String.intercalate_cons_of_ne_nil (List.cons_ne_nil t more)]
      exact printable_append.mpr ⟨printable_append.mpr ⟨first, by decide⟩, ih others⟩

section
variable {limit : Nat}

mutual

theorem printable_written : ∀ (v : Json) {room : Nat}, v.Restorable limit room →
    Printable v.written
  | .null, _, _ => by decide
  | .bool true, _, _ => by decide
  | .bool false, _, _ => by decide
  | .int n, _, _ => printable_repr n
  | .float _, _, impossible => by
    rw [Restorable] at impossible
    exact impossible.elim
  | .str s, _, _ => printable_writtenText s
  | .arr items, room, restorable => by
    cases room with
    | zero => exact restorable.elim
    | succ room =>
      rw [Restorable] at restorable
      have inner := printable_commaSeparated (printable_items items restorable)
      simp only [written, printable_append]
      exact ⟨⟨by decide, inner⟩, by decide⟩
  | .obj fields, room, restorable => by
    cases room with
    | zero => exact restorable.elim
    | succ room =>
      rw [Restorable] at restorable
      have inner := printable_commaSeparated (printable_fields fields restorable.2)
      simp only [written, printable_append]
      exact ⟨⟨by decide, inner⟩, by decide⟩

theorem printable_items : ∀ (items : List Json) {room : Nat}, RestorableItems limit room items →
    ∀ s ∈ writtenItems items, Printable s
  | [], _, _ => nofun
  | v :: rest, _, restorable =>
    List.forall_mem_cons.mpr ⟨printable_written v restorable.1, printable_items rest restorable.2⟩

theorem printable_fields : ∀ (fields : Fields) {room : Nat}, RestorableFields limit room fields →
    ∀ s ∈ writtenFields fields, Printable s
  | [], _, _ => nofun
  | (k, v) :: rest, _, restorable => by
    have value := printable_written v restorable.1
    refine List.forall_mem_cons.mpr ⟨?_, printable_fields rest restorable.2⟩
    exact printable_append.mpr
      ⟨printable_append.mpr ⟨printable_writtenText k, by decide⟩, value⟩

end

theorem reads_whole {v : Json} {room nesting : Nat} (restorable : v.Restorable limit room)
    (fits : room ≤ nesting) :
    Reads ⟨some limit, some nesting⟩ (.value []) v.written.toList [] (.done v) := by
  have inside : ([] : List Frame).length + room ≤ nesting := by simpa using fits
  exact reads_written v restorable inside (Reader.begins_value []) Token.endsNumber_nil

/-- A value is read back from its written form. -/
theorem read_written {v : Json} {room nesting : Nat} (restorable : v.Restorable limit room)
    (fits : room ≤ nesting) : read ⟨some limit, some nesting⟩ v.written.toList = .ok v := by
  have noMark : v.written.toList.head? ≠ some '\ufeff' := by
    intro mark
    have printable := printable_iff.mp (printable_written v restorable) '\ufeff'
      (List.mem_of_head? mark)
    exact absurd printable.2 (by decide)
  have tokens := (reads_whole restorable fits).takes 0
  rw [List.append_nil] at tokens
  have complete : (Token.ofText (some limit) v.written.toList).foldlM
      (Reader.stepWithin (some nesting)) (.value []) = .ok (.done v) := tokens
  simp only [read, if_neg noMark, complete]
  rfl

/-- No text in a written form is cut. -/
theorem hasHalfPair_written {v : Json} {room : Nat} (restorable : v.Restorable limit room) :
    hasHalfPair (some limit) v.written.toList = false := by
  have tokens := (reads_whole restorable (Nat.le_refl room)).whole 0
  rw [List.append_nil] at tokens
  exact tokens

end
end CairoAsm.Json
