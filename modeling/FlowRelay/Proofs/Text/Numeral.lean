import Mathlib.Data.List.Induction
import Mathlib.Data.List.TakeWhile
import Mathlib.Data.Nat.Digits.Defs
import FlowRelay.Proofs.Text.Ascii

/-!
# FlowRelay.Proofs.Text.Numeral

Which texts are read as numbers, and as which.

1. *Digits* (`denotes_iff_spells`): digits denote a number by their place, in capital letters as in
   small ones.
2. *Readings* (`readNumeral_eq_ok_iff`): what is read is digits, perhaps with a plus sign in front,
   that denote a number within the bound.
3. *Blanks* (`readNumeral_trim_eq_ok_iff`): where texts are trimmed, blanks may stand around it.
4. *Small letters* (`readNumeral_lowerAscii`): to make all letters small changes nothing.
-/

namespace FlowRelay.Text

variable {base bound n v d : Nat} {c : Char} {text digits sign before after : List Char}

/-! ## Digits -/

/-- Digits, of which there is one at least, denote a number in a base by their place. -/
def Denotes (base : Nat) (digits : List Char) (n : Nat) : Prop :=
  ∃ values : List Nat, values ≠ [] ∧ (∀ d ∈ values, d < base) ∧
    digits.map Char.toLower = values.map Nat.digitChar ∧ Nat.ofDigits base values.reverse = n

/-- Lower case moves capital letters up by 32. -/
theorem toNat_toLower (c : Char) :
    c.toLower.toNat = if 65 ≤ c.toNat ∧ c.toNat ≤ 90 then c.toNat + 32 else c.toNat := by
  have hcapital : c.val ≥ 'A'.val ∧ c.val ≤ 'Z'.val ↔ 65 ≤ c.toNat ∧ c.toNat ≤ 90 := by
    simp only [ge_iff_le, UInt32.le_iff_toNat_le]
    rfl
  unfold Char.toLower
  by_cases h : 65 ≤ c.toNat ∧ c.toNat ≤ 90
  · rw [dif_pos (hcapital.mpr h), if_pos h]
    have hnat : c.val.toNat = c.toNat := rfl
    have hshift : 'a'.val - 'A'.val = 32 := by decide
    have hthirtyTwo : (32 : UInt32).toNat = 32 := rfl
    simp only [Char.toNat, hshift, UInt32.toNat_add]
    omega
  · rw [dif_neg fun hc => h (hcapital.mp hc), if_neg h]

/-- Digits up to 9 follow `0`, and those from 10 on follow `a`. -/
theorem toNat_digitChar (hd : d < 16) :
    (Nat.digitChar d).toNat = if d < 10 then d + 48 else d + 87 := by
  decide +revert

/-- Decimal digits and letters of both cases have a value. -/
theorem digitValue_eq (c : Char) : digitValue c =
    if 48 ≤ c.toNat ∧ c.toNat ≤ 57 then some (c.toNat - 48)
    else if 97 ≤ c.toNat ∧ c.toNat ≤ 122 then some (c.toNat - 97 + 10)
    else if 65 ≤ c.toNat ∧ c.toNat ≤ 90 then some (c.toNat - 65 + 10)
    else none := by
  simp only [digitValue, Char.le_def, UInt32.le_iff_toNat_le]
  rfl

/-- A character has the value of a digit exactly if in small letters it is how that is written. -/
theorem digitValue_eq_some_iff (hd : d < 16) :
    digitValue c = some d ↔ c.toLower = Nat.digitChar d := by
  rw [← Char.toNat_inj, toNat_toLower, toNat_digitChar hd, digitValue_eq]
  grind

/-- A character is a digit if it is one in lower case. -/
theorem digit?_eq_some_iff (hbase : base ≤ 16) :
    digit? base c = some d ↔ d < base ∧ c.toLower = Nat.digitChar d := by
  constructor
  · intro h
    obtain ⟨hvalue, hd⟩ := digit?_eq_some h
    exact ⟨hd, (digitValue_eq_some_iff (by omega)).mp hvalue⟩
  · rintro ⟨hd, hc⟩
    rw [digit?, (digitValue_eq_some_iff (by omega)).mpr hc]
    simpa using hd

theorem Spells.denotes (hbase : base ≤ 16) (h : Spells base digits n) : Denotes base digits n := by
  induction h with
  | @digit c d hd =>
      obtain ⟨hlt, hc⟩ := (digit?_eq_some_iff hbase).mp hd
      exact ⟨[d], by simp, by simpa using hlt, by simp [hc], by simp⟩
  | @more digits n c d _ hd ih =>
      obtain ⟨hlt, hc⟩ := (digit?_eq_some_iff hbase).mp hd
      obtain ⟨values, -, hvalues, hmap, rfl⟩ := ih
      refine ⟨values ++ [d], by simp, ?_, by simp [hmap, hc], ?_⟩
      · simpa [or_imp, forall_and] using ⟨hvalues, hlt⟩
      · rw [List.reverse_append, List.reverse_singleton, List.singleton_append, Nat.ofDigits_cons,
          Nat.mul_comm, Nat.add_comm]

/-- What denotes a number spells it. -/
theorem Denotes.spells (hbase : base ≤ 16) (h : Denotes base digits n) : Spells base digits n := by
  obtain ⟨values, hne, hvalues, hmap, rfl⟩ := h
  induction values using List.reverseRecOn generalizing digits with
  | nil => exact absurd rfl hne
  | append_singleton values d ih =>
      rw [List.map_append, List.map_singleton] at hmap
      obtain ⟨front, last, rfl, hfront, hlast⟩ := List.map_eq_append_iff.mp hmap
      obtain ⟨c, rfl, hc⟩ := List.map_eq_singleton_iff.mp hlast
      have hd : digit? base c = some d :=
        (digit?_eq_some_iff hbase).mpr ⟨hvalues d (by simp), hc⟩
      rw [List.reverse_append, List.reverse_singleton, List.singleton_append, Nat.ofDigits_cons,
        Nat.mul_comm, Nat.add_comm]
      by_cases hnil : values = []
      · subst hnil
        obtain rfl := List.map_eq_nil_iff.mp hfront
        simpa using Spells.digit hd
      · exact .more (ih hnil (fun d hd => hvalues d (by simp [hd])) hfront) hd

/-- **Digits**: what they spell one after the other is what they denote by their place. -/
theorem denotes_iff_spells (hbase : base ≤ 16) : Denotes base digits n ↔ Spells base digits n :=
  ⟨Denotes.spells hbase, Spells.denotes hbase⟩

/-! ## Readings -/

/-- Whatever is read digit by digit is spelled by the digits, and within the bound. -/
theorem spells_of_readDigits (hne : digits ≠ []) (h : readDigits base bound 0 digits = .ok n) :
    Spells base digits n ∧ n ≤ bound := by
  induction digits using List.reverseRecOn generalizing n with
  | nil => exact absurd rfl hne
  | append_singleton front c ih =>
      rw [readDigits_append] at h
      cases hfront : readDigits base bound 0 front with
      | error e =>
          rw [hfront] at h
          contradiction
      | ok v =>
          rw [hfront] at h
          simp only [Except.bind, readDigits] at h
          split at h
          · contradiction
          · next d hd =>
              split at h
              · next hle =>
                  cases h
                  refine ⟨?_, hle⟩
                  by_cases hnil : front = []
                  · subst hnil
                    cases hfront
                    simpa using Spells.digit hd
                  · exact .more (ih hnil hfront).1 hd
              · contradiction

/-- **Readings**: a number is read from its digits, and from a plus sign with its digits. -/
theorem readNumeral_eq_ok_iff : readNumeral base bound text = .ok n ↔
    n ≤ bound ∧ (Spells base text n ∨ ∃ digits, text = '+' :: digits ∧ Spells base digits n) := by
  constructor
  · intro h
    unfold readNumeral at h
    split at h
    · contradiction
    · contradiction
    · next digits hne =>
        obtain ⟨hspells, hle⟩ := spells_of_readDigits (fun hnil => hne (by rw [hnil])) h
        exact ⟨hle, .inr ⟨digits, rfl, hspells⟩⟩
    · next hne _ _ =>
        obtain ⟨hspells, hle⟩ := spells_of_readDigits hne h
        exact ⟨hle, .inl hspells⟩
  · rintro ⟨hle, hspells | ⟨digits, rfl, hspells⟩⟩
    · exact hspells.readNumeral hle
    · have hne := hspells.ne_nil
      rw [← hspells.readDigits hle]
      unfold readNumeral
      grind

/-! ## Blanks -/

/-- A text of nothing but blanks. -/
def Blank (text : List Char) : Prop := ∀ c ∈ text, isBlank c = true

theorem blank_nil : Blank [] := by simp [Blank]

theorem Blank.notMem (h : Blank text) (hc : isBlank c = false) : c ∉ text := by
  intro hmem
  rw [h c hmem] at hc
  contradiction

/-- Blanks in front are trimmed. -/
theorem trim_blank_append (h : Blank before) (text : List Char) :
    trim (before ++ text) = trim text := by
  rw [trim, List.dropWhile_append_of_pos h, trim]

/-- Blanks behind are trimmed. -/
theorem trim_append_blank (h : Blank after) (text : List Char) :
    trim (text ++ after) = trim text := by
  rw [trim, trim, List.dropWhile_append]
  split
  · next hempty =>
      rw [List.isEmpty_iff.mp hempty, List.dropWhile_eq_nil_iff.mpr h]
  · rw [List.reverse_append, List.dropWhile_append_of_pos (by simpa [Blank] using h)]

theorem trim_append (hbefore : Blank before) (hafter : Blank after)
    (htext : ∀ c ∈ text, isBlank c = false) : trim (before ++ text ++ after) = text := by
  rw [trim_append_blank hafter, trim_blank_append hbefore, trim_eq_self htext]

/-- A text shows a number in a base within a bound: blanks, the sign, digits that denote the
number, and blanks. -/
def Shows (base bound : Nat) (sign text : List Char) (n : Nat) : Prop :=
  ∃ before digits after, text = before ++ (sign ++ digits) ++ after ∧
    (∀ c ∈ before, isBlank c = true) ∧ (∀ c ∈ after, isBlank c = true) ∧
    Denotes base digits n ∧ n ≤ bound

/-- A character that is neither blank nor a digit is only in the text if it is in the sign. -/
theorem Shows.notMem (hbase : base ≤ 16) (hblank : isBlank c = false) (hvalue : digitValue c = none)
    (hsign : c ∉ sign) (h : Shows base bound sign text n) : c ∉ text := by
  obtain ⟨before, digits, after, rfl, hbefore, hafter, hdenotes, -⟩ := h
  have hdigits : c ∉ digits := by
    intro hc
    obtain ⟨d, hd⟩ := (hdenotes.spells hbase).isDigit c hc
    rw [(digit?_eq_some hd).1] at hvalue
    contradiction
  simp only [List.mem_append, not_or]
  exact ⟨⟨Blank.notMem hbefore hblank, hsign, hdigits⟩, Blank.notMem hafter hblank⟩

/-- Without a sign there is none in the text. -/
theorem Shows.plus_notMem (hbase : base ≤ 16) (h : Shows base bound [] text n) : '+' ∉ text :=
  h.notMem hbase (by decide) (by decide) (by simp)

/-- Only blanks are trimmed. -/
theorem exists_trim (text : List Char) : ∃ before after, text = before ++ trim text ++ after ∧
    (∀ c ∈ before, isBlank c = true) ∧ ∀ c ∈ after, isBlank c = true := by
  let rest := text.dropWhile isBlank
  refine ⟨text.takeWhile isBlank, (rest.reverse.takeWhile isBlank).reverse, ?_,
    List.all_eq_true.mp List.all_takeWhile, fun c hc =>
    List.all_eq_true.mp List.all_takeWhile c (List.mem_reverse.mp hc)⟩
  have hback : trim text ++ (rest.reverse.takeWhile isBlank).reverse = rest := by
    rw [trim, ← List.reverse_append, List.takeWhile_append_dropWhile, List.reverse_reverse]
  rw [List.append_assoc, hback, List.takeWhile_append_dropWhile]

/-- **Blanks**: what is read of a trimmed text is a number with blanks around it. -/
theorem readNumeral_trim_eq_ok_iff (hbase : base ≤ 16) :
    readNumeral base bound (trim text) = .ok n ↔
      Shows base bound [] text n ∨ Shows base bound ['+'] text n := by
  rw [readNumeral_eq_ok_iff]
  constructor
  · obtain ⟨before, after, htext, hbefore, hafter⟩ := exists_trim text
    rintro ⟨hle, hspells | ⟨digits, hplus, hspells⟩⟩
    · have hdenotes := (denotes_iff_spells hbase).mpr hspells
      exact .inl ⟨before, trim text, after, htext, hbefore, hafter, hdenotes, hle⟩
    · have hdenotes := (denotes_iff_spells hbase).mpr hspells
      rw [hplus] at htext
      exact .inr ⟨before, digits, after, htext, hbefore, hafter, hdenotes, hle⟩
  · rintro (⟨before, digits, after, rfl, hbefore, hafter, hdenotes, hle⟩ |
      ⟨before, digits, after, rfl, hbefore, hafter, hdenotes, hle⟩)
    · have hspells := (denotes_iff_spells hbase).mp hdenotes
      refine ⟨hle, .inl ?_⟩
      rwa [List.nil_append, trim_append hbefore hafter fun c hc => hspells.isBlank_eq_false hc]
    · have hspells := (denotes_iff_spells hbase).mp hdenotes
      refine ⟨hle, .inr ⟨digits, ?_, hspells⟩⟩
      refine trim_append hbefore hafter fun c hc => ?_
      cases List.mem_cons.mp hc with
      | inl hplus => rw [hplus]; decide
      | inr hdigit => exact hspells.isBlank_eq_false hdigit

/-! ## Small letters -/

/-- Digits have the same value in lower case. -/
theorem digitValue_toLower (c : Char) : digitValue c.toLower = digitValue c := by
  rw [digitValue_eq, digitValue_eq, toNat_toLower]
  grind

/-- Digits are read as the same number in lower case. -/
theorem readDigits_lowerAscii (text : List Char) :
    readDigits base bound v (lowerAscii text) = readDigits base bound v text := by
  induction text generalizing v with
  | nil => rfl
  | cons c rest ih =>
      have hdigit : digit? base c.toLower = digit? base c := by
        rw [digit?, digit?, digitValue_toLower]
      have hlower : lowerAscii (c :: rest) = c.toLower :: lowerAscii rest := rfl
      rw [hlower, readDigits, readDigits, hdigit]
      cases digit? base c with
      | none => rfl
      | some d => simp only [ih]

theorem readNumeral_of_ne_plus (hc : c ≠ '+') (rest : List Char) :
    readNumeral base bound (c :: rest) = readDigits base bound 0 (c :: rest) := by
  unfold readNumeral
  grind

/-- Whether letters are small or capital makes no difference. -/
theorem readNumeral_lowerAscii (text : List Char) :
    readNumeral base bound (lowerAscii text) = readNumeral base bound text := by
  cases text with
  | nil => rfl
  | cons c rest =>
      by_cases hc : c = '+'
      · subst hc
        cases rest with
        | nil => rfl
        | cons d rest => exact readDigits_lowerAscii (d :: rest)
      · have hlower : c.toLower ≠ '+' := by
          have hplus : '+'.toNat = 43 := rfl
          rw [← Char.toNat_inj, hplus] at hc
          rw [ne_eq, ← Char.toNat_inj, toNat_toLower, hplus]
          split <;> omega
        rw [readNumeral_of_ne_plus hc, ← readDigits_lowerAscii]
        exact readNumeral_of_ne_plus hlower _

end FlowRelay.Text
