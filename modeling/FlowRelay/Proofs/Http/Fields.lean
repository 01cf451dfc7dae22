import FlowRelay.Proofs.Http.Numbers
import FlowRelay.Proofs.Text.Margin

/-!
# FlowRelay.Proofs.Http.Fields

What a header section says, read off all of its lines at once.

1. *Fields* (`Field.ofLine?`): what counts of a line is its name and the codings that its value
   lists, all of them in normal form.
2. *Flags* (`foldlM_addLine_flags`): a coding is used if one of the fields lists it.
3. *Lengths* (`states_iff`): a length is the only item of its value.
4. *Sections* (`foldlM_addLine_eq_some_iff`): lines say what their fields say, and nothing if a
   length is no number.
5. *Changes* (`says_of_perm`, `says_insert`): the order of fields does not matter, but for that of
   the lengths, and neither do fields of other names.
-/

namespace FlowRelay.Http

open Text (items lowerAscii)

variable {line value : List Char} {n m : Nat}

theorem Reads.comma_notMem (h : Reads 10 value n) : ',' ∉ value := by
  cases h with
  | inl h => exact h.notMem (by decide) (by decide) (by decide) (by decide)
  | inr h => exact h.notMem (by decide) (by decide) (by decide) (by decide)

/-- A numeral is read as one number. -/
theorem Reads.unique (hn : Reads 10 value n) (hm : Reads 10 value m) : n = m := by
  rw [← readNumeral_toOption (by decide)] at hn hm
  rw [hn] at hm
  exact Option.some.inj hm

namespace Header

variable {header header' : Header}

/-! ## Fields -/

/-- The codings that a value lists, in normal form. -/
def codings (value : List Char) : List (List Char) := (items ',' value).map lowerAscii

/-- The name and the codings of a header line, in normal form. -/
structure Field where
  name : List Char
  codings : List (List Char)
  deriving DecidableEq

namespace Field

/-- The field of a line, unless it has no colon. -/
def ofLine? (line : List Char) : Option Field :=
  (cut? line).map fun (name, value) => ⟨normal name, Header.codings value⟩

/-- Whether the field has a name. -/
def isNamed (name : String) (f : Field) : Bool := f.name = name.toList

/-- Whether the field has a name and lists a coding. -/
def lists (name coding : String) (f : Field) : Bool :=
  f.isNamed name && f.codings.contains coding.toList

/-- The only item of the field is accepted as a number. -/
def States (f : Field) (n : Nat) : Prop := ∃ text, f.codings = [text] ∧ Reads 10 text n

end Field

/-- A line is cut at its first colon. -/
theorem cut?_append {name : List Char} (h : ':' ∉ name) (value : List Char) :
    cut? (name ++ ':' :: value) = some (name, value) := by
  rw [cut?, span_append h]

theorem cut?_of_notMem (h : ':' ∉ line) : cut? line = none := by
  rw [cut?, span_of_notMem h]

/-- A field has its name and its value in normal form. -/
theorem Field.ofLine?_append {name : List Char} (h : ':' ∉ name) (value : List Char) :
    Field.ofLine? (name ++ ':' :: value) = some ⟨normal name, Header.codings value⟩ := by
  rw [Field.ofLine?, cut?_append h, Option.map_some]

/-- Capital letters do not matter for the normal form. -/
theorem normal_lowerAscii (text : List Char) : normal (lowerAscii text) = normal text := by
  rw [normal, Text.trim_lowerAscii, Text.lowerAscii_lowerAscii, normal]

/-- Capital letters do not matter for the codings. -/
theorem codings_lowerAscii (value : List Char) : codings (lowerAscii value) = codings value := by
  rw [codings, Text.items_lowerAscii (by decide), List.map_map, codings]
  simp only [Function.comp_def, Text.lowerAscii_lowerAscii]

/-- **Fields**: the case of letters in a line does not count. -/
theorem Field.ofLine?_lowerAscii (line : List Char) :
    Field.ofLine? (lowerAscii line) = Field.ofLine? line := by
  have hlower {text : List Char} (h : ':' ∉ text) : ':' ∉ lowerAscii text :=
    fun hmem => h ((Text.mem_lowerAscii (by decide)).mp hmem)
  by_cases hcolon : ':' ∈ line
  · obtain ⟨name, value, rfl, hname⟩ := List.eq_append_cons_of_mem hcolon
    have hline : lowerAscii (name ++ ':' :: value) =
        lowerAscii name ++ ':' :: lowerAscii value := by
      rw [Text.lowerAscii_append, Text.lowerAscii_cons]
      rfl
    rw [hline, ofLine?_append (hlower hname), ofLine?_append hname, normal_lowerAscii,
      codings_lowerAscii]
  · rw [ofLine?, ofLine?, cut?_of_notMem hcolon, cut?_of_notMem (hlower hcolon)]

/-! ## Flags -/

/-- A value lists a coding if it is one of its codings. -/
theorem lists_normal (coding : String) (value : List Char) :
    lists coding (normal value) = (codings value).contains coding.toList := by
  have hitems : items ',' (normal value) = codings value := by
    rw [normal, Text.items_lowerAscii (by decide), Text.items_trim (by decide), codings]
  rw [← hitems, lists, items, List.contains_eq_any_beq, List.any_map]
  simp only [Function.comp_def, Bool.beq_comm]

/-- A line adds the coding that it lists to the flags. -/
theorem addLine_flags (h : header.addLine line = some header') :
    header'.chunked =
        (header.chunked || (Field.ofLine? line).any (·.lists "transfer-encoding" "chunked")) ∧
      header'.gzip =
        (header.gzip || (Field.ofLine? line).any (·.lists "content-encoding" "gzip")) := by
  rw [addLine, field?_eq] at h
  rw [Field.ofLine?]
  cases hcut : cut? line with
  | none =>
      rw [hcut] at h
      cases h
      simp
  | some cut =>
      obtain ⟨name, value⟩ := cut
      rw [hcut] at h
      simp only [Option.map_some, add, lists_normal] at h
      have hdistinct : "transfer-encoding".toList ≠ "content-encoding".toList := by decide
      have hdistinct' : "content-length".toList ≠ "transfer-encoding".toList ∧
        "content-length".toList ≠ "content-encoding".toList := by decide
      simp only [Option.map_some, Option.any_some, Field.lists, Field.isNamed]
      split at h
      · next hname =>
          obtain rfl := Option.some.inj h
          simp only [hname, decide_true, Bool.true_and, decide_eq_false hdistinct, Bool.false_and,
            Bool.or_false, and_self]
      · next hname =>
          split at h
          · next hlength =>
              split at h
              · obtain rfl := Option.some.inj h
                simp only [hlength, decide_eq_false hdistinct'.1, decide_eq_false hdistinct'.2,
                  Bool.false_and, Bool.or_false, and_self]
              · contradiction
          · split at h
            · next hgzip =>
                obtain rfl := Option.some.inj h
                simp only [hgzip, decide_true, Bool.true_and, decide_eq_false hdistinct.symm,
                  Bool.false_and, Bool.or_false, and_self]
            · next hgzip =>
                obtain rfl := Option.some.inj h
                simp only [decide_eq_false hname, decide_eq_false hgzip, Bool.false_and,
                  Bool.or_false, and_self]

/-- **Flags**: a coding is used if one of the fields lists it. -/
theorem foldlM_addLine_flags {ls : List (List Char)}
    (h : ls.foldlM addLine header = some header') :
    header'.chunked = (header.chunked ||
        (ls.filterMap Field.ofLine?).any (·.lists "transfer-encoding" "chunked")) ∧
      header'.gzip = (header.gzip ||
        (ls.filterMap Field.ofLine?).any (·.lists "content-encoding" "gzip")) := by
  induction ls generalizing header with
  | nil =>
      obtain rfl := Option.some.inj h
      simp
  | cons line ls ih =>
      rw [List.foldlM_cons] at h
      obtain ⟨header₁, hline, hls⟩ := Option.bind_eq_some_iff.mp h
      obtain ⟨hchunked, hgzip⟩ := addLine_flags hline
      obtain ⟨hchunked', hgzip'⟩ := ih hls
      rw [hchunked', hgzip', hchunked, hgzip]
      cases hfield : Field.ofLine? line <;> simp [hfield, Bool.or_assoc]

/-! ## Lengths -/

theorem reads_normal : Reads 10 (normal value) n ↔ Reads 10 value n := by
  rw [← readNumeral_toOption (by decide), ← readNumeral_toOption (by decide), normal,
    Text.trim_lowerAscii, Text.readNumeral_lowerAscii, Text.trim_trim]

/-- A value without a comma is one coding. -/
theorem codings_of_notMem (h : ',' ∉ value) : codings value = [normal value] := by
  rw [codings, Text.items_of_notMem h, List.map_singleton, normal]

/-- Codings are separated by commas. -/
theorem codings_append_cons (value more : List Char) :
    codings (value ++ ',' :: more) = codings value ++ codings more := by
  rw [codings, Text.items_append_cons, List.map_append, codings, codings]

theorem codings_ne_nil (value : List Char) : codings value ≠ [] := by
  simp [codings, items, Text.splitOn_ne_nil]

/-- **Lengths**: a value is accepted as a number if its only item is. -/
theorem states_iff {name : List Char} :
    Field.States ⟨name, codings value⟩ n ↔ Reads 10 value n := by
  constructor
  · rintro ⟨text, hcodings, hreads⟩
    have hcomma : ',' ∉ value := by
      intro hmem
      obtain ⟨xs, ys, rfl⟩ := List.append_of_mem hmem
      simp only [codings_append_cons] at hcodings
      have hlength := congrArg List.length hcodings
      have hxs := List.length_pos_iff.mpr (codings_ne_nil xs)
      have hys := List.length_pos_iff.mpr (codings_ne_nil ys)
      rw [List.length_append, List.length_singleton] at hlength
      omega
    rw [codings_of_notMem hcomma] at hcodings
    obtain rfl := (List.cons.inj hcodings).1
    exact reads_normal.mp hreads
  · intro hreads
    exact ⟨normal value, codings_of_notMem hreads.comma_notMem, reads_normal.mpr hreads⟩

/-- The fields that are named `content-length` are those whose lines state a length. -/
theorem filter_isNamed_length (ls : List (List Char)) :
    (ls.filterMap Field.ofLine?).filter (·.isNamed "content-length") =
      (ls.filterMap lengthText?).map fun value => ⟨"content-length".toList, codings value⟩ := by
  rw [List.filter_filterMap, List.map_filterMap]
  congr 1
  funext line
  rw [Field.ofLine?, lengthText?]
  cases cut? line with
  | none => rfl
  | some cut =>
      obtain ⟨name, value⟩ := cut
      simp only [Option.map_some, Option.bind_some, Option.filter_some, Field.isNamed,
        decide_eq_true_eq]
      split
      · next hname => rw [hname, Option.map_some]
      · rfl

/-! ## Sections -/

/-- Fields say together what a header holds.  Of several lengths the last one counts, but each of
them has to be a number. -/
@[mk_iff]
structure Says (fields : List Field) (header : Header) : Prop where
  chunked : header.chunked = fields.any (·.lists "transfer-encoding" "chunked")
  gzip : header.gzip = fields.any (·.lists "content-encoding" "gzip")
  contentLength : ∃ ns, List.Forall₂ Field.States (fields.filter (·.isNamed "content-length")) ns ∧
    header.contentLength = ns.getLast?

/-- The fields state the lengths that their texts are read as. -/
theorem forall₂_states_iff {ls : List (List Char)} {ns : List Nat} :
    List.Forall₂ Field.States
        ((ls.filterMap Field.ofLine?).filter (·.isNamed "content-length")) ns ↔
      List.Forall₂ (Reads 10) (ls.filterMap lengthText?) ns := by
  rw [filter_isNamed_length, List.forall₂_map_left_iff]
  simp only [states_iff]

/-- A header that was read says what its fields say. -/
theorem says_of_foldlM {ls : List (List Char)} (h : ls.foldlM addLine empty = some header) :
    Says (ls.filterMap Field.ofLine?) header := by
  obtain ⟨hchunked, hgzip⟩ := foldlM_addLine_flags h
  rcases foldlM_addLine_lengths ls empty with ⟨-, -, -, hnone⟩ | ⟨header', ns, hsome, hns, hlast⟩
  · rw [hnone] at h
    contradiction
  · rw [hsome] at h
    obtain rfl := Option.some.inj h
    exact ⟨by simpa [empty] using hchunked, by simpa [empty] using hgzip, ns,
      forall₂_states_iff.mpr hns, hlast.trans (Option.or_none ..)⟩

/-- A field states one length at most. -/
theorem rightUnique_states : Relator.RightUnique Field.States := by
  rintro f n m ⟨text, hcodings, hreads⟩ ⟨text', hcodings', hreads'⟩
  rw [hcodings] at hcodings'
  obtain rfl := (List.cons.inj hcodings').1
  exact hreads.unique hreads'

/-- Fields do not say two things. -/
theorem Says.unique {fields : List Field} (h : Says fields header) (h' : Says fields header') :
    header = header' := by
  obtain ⟨ns, hns, hlast⟩ := h.contentLength
  obtain ⟨ns', hns', hlast'⟩ := h'.contentLength
  obtain rfl : ns = ns' := List.right_unique_forall₂' rightUnique_states hns hns'
  calc header = ⟨header.chunked, header.contentLength, header.gzip⟩ := rfl
    _ = ⟨header'.chunked, header'.contentLength, header'.gzip⟩ := by
        rw [h.chunked, h'.chunked, h.gzip, h'.gzip, hlast, hlast']
    _ = header' := rfl

/-- **Sections**: header lines say what their fields say together. -/
theorem foldlM_addLine_eq_some_iff {ls : List (List Char)} :
    ls.foldlM addLine empty = some header ↔ Says (ls.filterMap Field.ofLine?) header := by
  refine ⟨says_of_foldlM, fun h => ?_⟩
  obtain ⟨ns, hns, -⟩ := h.contentLength
  rcases foldlM_addLine_lengths ls empty with ⟨value, hvalue, hnone, -⟩ | ⟨header', -, hsome, -⟩
  · obtain ⟨i, hi, rfl⟩ := List.mem_iff_getElem.mp hvalue
    have hreads := forall₂_states_iff.mp hns
    exact absurd (hreads.get hi (hreads.length_eq ▸ hi)) (hnone _)
  · rw [hsome, h.unique (says_of_foldlM hsome)]

/-! ## Changes -/

variable {fields fields' front back : List Field} {f : Field}

/-- **Changes**: fields may change places, as long as the lengths keep their order. -/
theorem says_of_perm (hperm : fields.Perm fields')
    (hlengths : fields.filter (·.isNamed "content-length") =
      fields'.filter (·.isNamed "content-length")) : Says fields header ↔ Says fields' header := by
  rw [says_iff, says_iff, hperm.any_eq, hperm.any_eq, hlengths]

/-- A field of another name may stand anywhere. -/
theorem says_insert (h : f.name ∉ HeaderLine.framingNames) :
    Says (front ++ f :: back) header ↔ Says (front ++ back) header := by
  simp only [HeaderLine.framingNames, List.mem_cons, List.not_mem_nil, or_false, not_or] at h
  obtain ⟨hlength, hchunked, hgzip⟩ := h
  have hother {name coding : String} (hname : f.name ≠ name.toList) :
      f.lists name coding = false := by
    rw [Field.lists, Field.isNamed, decide_eq_false hname, Bool.false_and]
  have hnot : ¬ f.isNamed "content-length" = true := by
    rw [Field.isNamed, decide_eq_false hlength]
    exact Bool.false_ne_true
  rw [says_iff, says_iff]
  simp only [List.any_append, List.any_cons, hother hchunked, hother hgzip, Bool.false_or,
    List.filter_append, List.filter_cons_of_neg hnot]

end Header

end FlowRelay.Http
