import FlowRelay.Proofs.Text.Lossy

/-!
# FlowRelay.Proofs.Text.Margin

Blanks and separators: what trimming and splitting do not see.

1. *Blanks* (`trim_insert`): more blanks among those at an end of a text are trimmed with them.
2. *Separators* (`splitOn_append_cons`): at a separator a text falls apart.
3. *Items* (`items_insert`): blanks at an end of the whole are at an end of an item.
4. *Small letters* (`trim_lowerAscii`, `items_lowerAscii`): letters may be made small before or
   after.
-/

namespace FlowRelay.Text

variable {text before after front back pad : List Char} {s c : Char}

/-! ## Blanks -/

/-- **Blanks**: at an end of a text, or among the blanks there, more of them are trimmed. -/
theorem trim_insert (hpad : Blank pad) (h : Blank front ∨ Blank back) :
    trim (front ++ pad ++ back) = trim (front ++ back) := by
  cases h with
  | inl hfront =>
      rw [List.append_assoc, trim_blank_append hfront, trim_blank_append hpad,
        trim_blank_append hfront]
  | inr hback =>
      rw [trim_append_blank hback, trim_append_blank hpad, trim_append_blank hback]

theorem trim_trim (text : List Char) : trim (trim text) = trim text := by
  obtain ⟨before, after, htext, hbefore, hafter⟩ := exists_trim text
  conv_rhs => rw [htext, trim_append_blank hafter, trim_blank_append hbefore]

/-! ## Separators -/

theorem splitOn.go_eq_splitOnPPrepend (text piece : List Char) :
    splitOn.go s piece text = text.splitOnPPrepend (· == s) piece := by
  induction text generalizing piece with
  | nil => rfl
  | cons c text ih =>
      rw [splitOn.go, List.splitOnPPrepend_cons_eq_if, ih, ih]
      simp only [beq_iff_eq]
      rfl

theorem splitOn_eq (s : Char) (text : List Char) : splitOn s text = text.splitOn s :=
  splitOn.go_eq_splitOnPPrepend text []

/-- **Separators**: at a separator a text falls apart. -/
theorem splitOn_append_cons (s : Char) (text more : List Char) :
    splitOn s (text ++ s :: more) = splitOn s text ++ splitOn s more := by
  simp only [splitOn_eq, List.splitOn_append_cons_self]

theorem splitOn_of_notMem (h : s ∉ text) : splitOn s text = [text] := by
  rw [splitOn_eq, List.splitOn_eq_singleton h]

/-- Splitting a text leaves one piece at least. -/
theorem splitOn_ne_nil (s : Char) (text : List Char) : splitOn s text ≠ [] := by
  rw [splitOn_eq, List.splitOn]
  exact List.splitOnP_ne_nil _ text

/-- Behind its last separator a text has none. -/
theorem exists_last (h : s ∈ text) : ∃ xs ys, text = xs ++ s :: ys ∧ s ∉ ys := by
  obtain ⟨xs, ys, hsplit, hxs⟩ := List.eq_append_cons_of_mem (List.mem_reverse.mpr h)
  refine ⟨ys.reverse, xs.reverse, ?_, by simpa using hxs⟩
  rw [← List.reverse_reverse text, hsplit]
  simp

/-! ## Items -/

/-- The pieces between the separators, without the blanks around them. -/
def items (s : Char) (text : List Char) : List (List Char) := (splitOn s text).map trim

/-- Items are separated by the separator alone. -/
theorem items_append_cons (s : Char) (text more : List Char) :
    items s (text ++ s :: more) = items s text ++ items s more := by
  rw [items, splitOn_append_cons, List.map_append, items, items]

theorem items_of_notMem (h : s ∉ text) : items s text = [trim text] := by
  rw [items, splitOn_of_notMem h, List.map_singleton]

/-- **Items**: at an end of a text, or among the blanks there, more of them are trimmed with those
of an item. -/
theorem items_insert (hs : isBlank s = false) (hpad : Blank pad) (h : Blank front ∨ Blank back) :
    items s (front ++ pad ++ back) = items s (front ++ back) := by
  have hpad' := hpad.notMem hs
  cases h with
  | inl hfront =>
      have hfront' := hfront.notMem hs
      by_cases hmem : s ∈ back
      · -- The blanks belong to the first item.
        obtain ⟨xs, ys, rfl, hxs⟩ := List.eq_append_cons_of_mem hmem
        have hwith : s ∉ front ++ pad ++ xs := by simp [hfront', hpad', hxs]
        have hwithout : s ∉ front ++ xs := by simp [hfront', hxs]
        rw [← List.append_assoc, ← List.append_assoc, items_append_cons, items_append_cons,
          items_of_notMem hwith, items_of_notMem hwithout, trim_insert hpad (.inl hfront)]
      · rw [items_of_notMem (by simp [hfront', hpad', hmem]),
          items_of_notMem (by simp [hfront', hmem]), trim_insert hpad (.inl hfront)]
  | inr hback =>
      have hback' := hback.notMem hs
      by_cases hmem : s ∈ front
      · -- The blanks belong to the last item.
        obtain ⟨xs, ys, rfl, hys⟩ := exists_last hmem
        have hwith : s ∉ ys ++ pad ++ back := by simp [hback', hpad', hys]
        have hwithout : s ∉ ys ++ back := by simp [hback', hys]
        simp only [List.append_assoc, List.cons_append, items_append_cons] at hwith ⊢
        rw [items_of_notMem hwith, items_of_notMem hwithout, ← List.append_assoc,
          trim_insert hpad (.inr hback)]
      · rw [items_of_notMem (by simp [hback', hpad', hmem]),
          items_of_notMem (by simp [hback', hmem]), trim_insert hpad (.inr hback)]

/-- Trimming the whole only trims items. -/
theorem items_trim (hs : isBlank s = false) (text : List Char) :
    items s (trim text) = items s text := by
  obtain ⟨before, after, htext, hbefore, hafter⟩ := exists_trim text
  calc items s (trim text)
      = items s ([] ++ before ++ trim text) := (items_insert hs hbefore (.inl blank_nil)).symm
    _ = items s (before ++ trim text ++ []) := by simp
    _ = items s (before ++ trim text ++ after ++ []) :=
        (items_insert hs hafter (.inr blank_nil)).symm
    _ = items s text := by rw [List.append_nil, ← htext]

/-! ## Small letters -/

/-- Blanks are blank in lower case, and nothing else is. -/
theorem isBlank_toLower (c : Char) : isBlank c.toLower = isBlank c := by
  simp only [isBlank, toNat_toLower]
  grind

theorem dropWhile_lowerAscii (text : List Char) :
    (lowerAscii text).dropWhile isBlank = lowerAscii (text.dropWhile isBlank) := by
  simp only [lowerAscii, List.dropWhile_map, Function.comp_def, isBlank_toLower]

/-- **Small letters**: letters may be made small before trimming or after. -/
theorem trim_lowerAscii (text : List Char) : trim (lowerAscii text) = lowerAscii (trim text) := by
  have hreverse (text : List Char) : (lowerAscii text).reverse = lowerAscii text.reverse :=
    List.map_reverse.symm
  simp only [trim, dropWhile_lowerAscii, hreverse]

theorem lowerAscii_lowerAscii (text : List Char) :
    lowerAscii (lowerAscii text) = lowerAscii text := by
  have hletter (c : Char) : c.toLower.toLower = c.toLower := by
    rw [← Char.toNat_inj, toNat_toLower, toNat_toLower]
    split_ifs <;> omega
  simp only [lowerAscii, List.map_map, Function.comp_def, hletter]

/-- Nothing but itself becomes a character in front of the letters. -/
theorem toLower_eq_iff (hs : s.toNat < 65) : c.toLower = s ↔ c = s := by
  rw [← Char.toNat_inj, ← Char.toNat_inj, toNat_toLower]
  split <;> omega

/-- Lower case neither brings nor takes a character in front of the letters. -/
theorem mem_lowerAscii (hs : s.toNat < 65) : s ∈ lowerAscii text ↔ s ∈ text := by
  simp [lowerAscii, toLower_eq_iff hs]

/-- And before splitting at such a character or after. -/
theorem splitOn_lowerAscii (hs : s.toNat < 65) (text : List Char) :
    splitOn s (lowerAscii text) = (splitOn s text).map lowerAscii := by
  have hreverse (text : List Char) : (lowerAscii text).reverse = lowerAscii text.reverse :=
    List.map_reverse.symm
  have hgo (piece : List Char) : splitOn.go s (lowerAscii piece) (lowerAscii text) =
      (splitOn.go s piece text).map lowerAscii := by
    induction text generalizing piece with
    | nil => rw [splitOn.go, List.map_singleton, ← hreverse]; rfl
    | cons c text ih =>
        rw [lowerAscii_cons, splitOn.go, splitOn.go]
        simp only [toLower_eq_iff hs]
        split
        · rw [List.map_cons, hreverse, ← ih]
          rfl
        · rw [← lowerAscii_cons, ih]
  exact hgo []

/-- Items in lower case are the items of the text in lower case. -/
theorem items_lowerAscii (hs : s.toNat < 65) (text : List Char) :
    items s (lowerAscii text) = (items s text).map lowerAscii := by
  simp only [items, splitOn_lowerAscii hs, List.map_map, Function.comp_def, trim_lowerAscii]

end FlowRelay.Text
