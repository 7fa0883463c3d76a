import BoardSupport.Text.Fields

/-!
# Lines Put Together and Taken Apart

What the fields of a line are, in general and when the line was put together from
parts.

A line is cut at separators only, so writing one between two lines gives the
fields of the first and then those of the second, whatever either of them
holds. A part that was written as a key, an equals sign and a value is one
field again, provided neither the key nor the value can be mistaken for more
than one part: no separator stands in either, and no equals sign in the key. A
value may hold equals signs, since only the first one counts.

Where a key is given more than once, readers go by the field that comes last.

## Main definitions

* `Text.Omits`: No field of a line has some key.
* `Text.last?`: The value that is given last for a key.

## Theorems

* `Text.split_eq_splitOn`, `Text.cut?_eq`: Cutting in terms of the library.
* `Text.fields_eq`: Which fields a line has.
* `Text.last?_cons`, `Text.last?_eq_none_iff`, `Text.exists_of_last?`: What is given
  last.
* `Text.split_append`: Cutting two lines with a separator between them.
* `Text.split_eq_singleton`: A line without a separator is one piece.
* `Text.cut?_append`: A piece is cut at the first mark.
* `Text.fields_append`: The fields of two lines with a separator between them.
* `Text.omits_append`: The keys that two such lines omit.
* `Text.fields_pair`: A key and a value written as a field.
-/

namespace BoardSupport

namespace Text

/-- No field of the line has this key. -/
def Omits (line key : String) : Prop :=
  ∀ f ∈ fields line, f.key ≠ key.toList

instance (line key : String) : Decidable (Omits line key) :=
  inferInstanceAs (Decidable (∀ f ∈ fields line, f.key ≠ key.toList))

/-- The value that is given last for a key. -/
def last? (key : String) (fs : List Field) : Option (List Char) :=
  ((fs.filter fun f => f.key = key.toList).getLast?).map (·.value)

theorem last?_cons (key : String) (f : Field) (rest : List Field) :
    last? key (f :: rest) =
      (last? key rest).or (if f.key = key.toList then some f.value else none) := by
  unfold last?
  rw [List.filter_cons]
  by_cases hkey : f.key = key.toList
  · rw [if_pos (decide_eq_true hkey), if_pos hkey, List.getLast?_cons]
    cases (rest.filter fun f => f.key = key.toList).getLast? with
    | none => rfl
    | some g => rfl
  · rw [if_neg (by simpa using hkey), if_neg hkey, Option.or_none]

/-- Nothing is given for a key that is omitted. -/
theorem last?_eq_none_iff (key : String) (fs : List Field) :
    last? key fs = none ↔ ∀ f ∈ fs, f.key ≠ key.toList := by
  rw [last?, Option.map_eq_none_iff, List.getLast?_eq_none_iff, List.filter_eq_nil_iff]
  simp only [decide_eq_true_eq]

/-- What is given last for a key is given in some field. -/
theorem exists_of_last? (key : String) (fs : List Field) (value : List Char)
    (h : last? key fs = some value) : ∃ f ∈ fs, f.key = key.toList ∧ f.value = value := by
  obtain ⟨f, hf, hvalue⟩ := Option.map_eq_some_iff.mp h
  obtain ⟨hmem, hkey⟩ := List.mem_filter.mp (List.mem_of_getLast? hf)
  exact ⟨f, hmem, of_decide_eq_true hkey, hvalue⟩

-- Even the empty line is a piece.
theorem split_ne_nil (separator : Char) (line : List Char) : split separator line ≠ [] := by
  cases line with
  | nil => exact List.cons_ne_nil _ _
  | cons c rest =>
      rw [split]
      by_cases hc : c = separator
      · rw [if_pos hc]
        exact List.cons_ne_nil _ _
      · rw [if_neg hc]
        cases split separator rest with
        | nil => exact List.cons_ne_nil _ _
        | cons piece pieces => exact List.cons_ne_nil _ _

/-- A line is cut as the library cuts lists. -/
theorem split_eq_splitOn (separator : Char) (line : List Char) :
    split separator line = line.splitOn separator := by
  induction line with
  | nil => rfl
  | cons c rest ih =>
      have hcons : (c :: rest).splitOn separator =
          if c == separator then [] :: rest.splitOn separator
          else (rest.splitOn separator).modifyHead (List.cons c) :=
        List.splitOnP_cons_eq_if_modifyHead c rest
      rw [hcons, split, ← ih]
      by_cases hc : c = separator
      · rw [if_pos hc, if_pos (beq_iff_eq.mpr hc)]
      · rw [if_neg hc, if_neg (mt beq_iff_eq.mp hc)]
        cases hrest : split separator rest with
        | nil => exact absurd hrest (split_ne_nil separator rest)
        | cons piece pieces => rfl

/-- A piece that holds the mark is cut at the first one, and no other piece is cut. -/
theorem cut?_eq (mark : Char) (piece : List Char) :
    cut? mark piece =
      if mark ∈ piece then
        some (piece.takeWhile (· ≠ mark), (piece.dropWhile (· ≠ mark)).tail)
      else none := by
  induction piece with
  | nil => rfl
  | cons c rest ih =>
      rw [cut?, ih]
      by_cases hc : c = mark
      · have hmem : mark ∈ c :: rest := hc ▸ List.mem_cons_self
        rw [if_pos hc, if_pos hmem, List.takeWhile_cons_of_neg (by simp [hc]),
          List.dropWhile_cons_of_neg (by simp [hc])]
        rfl
      · have hmem : mark ∈ c :: rest ↔ mark ∈ rest :=
          List.mem_cons.trans (or_iff_right fun heq => hc heq.symm)
        rw [if_neg hc]
        by_cases hrest : mark ∈ rest
        · rw [if_pos hrest, if_pos (hmem.mpr hrest), List.takeWhile_cons_of_pos (by simp [hc]),
            List.dropWhile_cons_of_pos (by simp [hc])]
          rfl
        · rw [if_neg hrest, if_neg (mt hmem.mp hrest)]
          rfl

/-- The fields of a line are its pieces between separators that hold an equals sign, each
    divided at the first one. -/
theorem fields_eq (line : String) :
    fields line =
      ((line.toList.splitOn '&').filter ('=' ∈ ·)).map fun piece =>
        ⟨piece.takeWhile (· ≠ '='), (piece.dropWhile (· ≠ '=')).tail⟩ := by
  rw [fields, split_eq_splitOn]
  induction line.toList.splitOn '&' with
  | nil => rfl
  | cons piece pieces ih =>
      rw [List.filterMap_cons, List.filter_cons, cut?_eq, ih]
      by_cases hmark : '=' ∈ piece
      · rw [if_pos hmark, if_pos (decide_eq_true hmark)]
        rfl
      · rw [if_neg hmark, if_neg (by simpa using hmark)]
        rfl

/-- Two lines with a separator between them have the pieces of both. -/
theorem split_append (separator : Char) (first rest : List Char) :
    split separator (first ++ separator :: rest) =
      split separator first ++ split separator rest := by
  induction first with
  | nil => simp only [List.nil_append, split, if_true, List.cons_append]
  | cons c more ih =>
      rw [List.cons_append, split, split, ih]
      by_cases hc : c = separator
      · rw [if_pos hc, if_pos hc, List.cons_append]
      · rw [if_neg hc, if_neg hc]
        -- The character goes in front of the first piece, which is one of the
        -- first line on both sides.
        cases hmore : split separator more with
        | nil => exact absurd hmore (split_ne_nil separator more)
        | cons piece pieces => rfl

theorem split_eq_singleton (separator : Char) (line : List Char) (h : separator ∉ line) :
    split separator line = [line] := by
  induction line with
  | nil => rfl
  | cons c rest ih =>
      have hc : c ≠ separator := fun heq => h (heq ▸ List.mem_cons_self)
      have hrest : separator ∉ rest := fun hmem => h (List.mem_cons_of_mem c hmem)
      rw [split, if_neg hc, ih hrest]

/-- A piece is cut at the first mark. -/
theorem cut?_append (mark : Char) (key value : List Char) (h : mark ∉ key) :
    cut? mark (key ++ mark :: value) = some (key, value) := by
  induction key with
  | nil => rw [List.nil_append, cut?, if_pos rfl]
  | cons c rest ih =>
      have hc : c ≠ mark := fun heq => h (heq ▸ List.mem_cons_self)
      have hrest : mark ∉ rest := fun hmem => h (List.mem_cons_of_mem c hmem)
      rw [List.cons_append, cut?, if_neg hc, ih hrest, Option.map_some]

/-- Two lines with a separator between them have the fields of both. -/
theorem fields_append (first rest : String) :
    fields (first ++ "&" ++ rest) = fields first ++ fields rest := by
  have hline : (first ++ "&" ++ rest).toList = first.toList ++ '&' :: rest.toList := by
    rw [String.toList_append, String.toList_append, List.append_assoc]
    rfl
  rw [fields, hline, split_append, List.filterMap_append]
  rfl

/-- Two lines with a separator between them omit what both omit. -/
theorem omits_append (first rest key : String) :
    Omits (first ++ "&" ++ rest) key ↔ Omits first key ∧ Omits rest key := by
  unfold Omits
  rw [fields_append]
  exact List.forall_mem_append

/-- A key and a value written as a field are that field. -/
theorem fields_pair (key value : String) (hkey : '&' ∉ key.toList) (hmark : '=' ∉ key.toList)
    (hvalue : '&' ∉ value.toList) :
    fields (key ++ "=" ++ value) = [⟨key.toList, value.toList⟩] := by
  have hline : (key ++ "=" ++ value).toList = key.toList ++ '=' :: value.toList := by
    rw [String.toList_append, String.toList_append, List.append_assoc]
    rfl
  have hpiece : '&' ∉ key.toList ++ '=' :: value.toList := by
    intro hmem
    rcases List.mem_append.mp hmem with hmem | hmem
    · exact hkey hmem
    · rcases List.mem_cons.mp hmem with heq | hmem
      · exact absurd heq (by decide)
      · exact hvalue hmem
  rw [fields, hline, split_eq_singleton _ _ hpiece, List.filterMap_cons, cut?_append _ _ _ hmark,
    List.filterMap_nil]
  rfl

end Text

end BoardSupport
