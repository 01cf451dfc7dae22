import FlowRelay.Text.Blank
import FlowRelay.Text.Numeral
import FlowRelay.Text.Utf8

/-!
# FlowRelay.Proofs.Text.Ascii

ASCII text as it is written: its bytes, and the numerals in it.

1. *Bytes* (`Utf8.decode?_ascii`, `Utf8.decodeLossy_ascii`): ASCII text is read back from its bytes.
2. *Blanks* (`trim_eq_self`): text without blanks is not trimmed.
3. *Numerals* (`Spells.readNumeral`): a number is read back from digits that spell it, zeros in
   front of them included.
-/

namespace FlowRelay.Text

/-! ## Bytes -/

/-- The bytes of ASCII text. -/
def ascii (text : List Char) : List UInt8 := text.map fun c => c.toNat.toUInt8

/-- Whether a character is ASCII and printed. -/
def isPrintable (c : Char) : Bool := 0x20 ≤ c.toNat && c.toNat ≤ 0x7E

@[simp] theorem ascii_nil : ascii [] = [] := rfl

@[simp] theorem ascii_cons (c : Char) (text : List Char) :
    ascii (c :: text) = c.toNat.toUInt8 :: ascii text := rfl

@[simp] theorem ascii_append (text more : List Char) :
    ascii (text ++ more) = ascii text ++ ascii more := List.map_append

/-- A byte that no character stands for is not in the bytes. -/
theorem notMem_ascii {text : List Char} {b : UInt8}
    (h : ∀ c ∈ text, c.toNat < 128 ∧ c.toNat ≠ b.toNat) : b ∉ ascii text := by
  intro hb
  obtain ⟨c, hc, rfl⟩ := List.mem_map.mp hb
  have hsmall : c.toNat % 256 = c.toNat := Nat.mod_eq_of_lt (by have := (h c hc).1; omega)
  have hne := (h c hc).2
  simp [hsmall] at hne

namespace Utf8

/-- An ASCII byte is a character of its own. -/
theorem first_ascii {c : Char} (h : c.toNat < 128) : first c.toNat.toUInt8 = .done c := by
  have hnat : c.toNat.toUInt8.toNat = c.toNat := by
    simp only [Nat.toUInt8_eq, UInt8.toNat_ofNat']
    omega
  have hlt : c.toNat.toUInt8 < 0x80 := by
    rw [UInt8.lt_iff_toNat_lt, hnat]
    exact h
  rw [first, if_pos hlt, hnat, Char.ofNat_toNat]

/-- Each byte of ASCII text is a character. -/
theorem pieces_ascii {text : List Char} (h : ∀ c ∈ text, c.toNat < 128) :
    pieces (ascii text) = text.map some := by
  suffices ∀ found, pieces.go none found (ascii text) = found.reverse ++ text.map some from this []
  induction text with
  | nil => simp [pieces.go]
  | cons c text ih =>
      intro found
      have hfirst := first_ascii (h c List.mem_cons_self)
      simp only [ascii_cons, pieces.go, hfirst]
      rw [ih fun c hc => h c (List.mem_cons_of_mem _ hc)]
      simp

/-- ASCII texts are decoded as what they are. -/
theorem decode?_ascii {text : List Char} (h : ∀ c ∈ text, c.toNat < 128) :
    decode? (ascii text) = some text := by
  simp [decode?, pieces_ascii h]

theorem decodeLossy_ascii {text : List Char} (h : ∀ c ∈ text, c.toNat < 128) :
    decodeLossy (ascii text) = text := by
  simp [decodeLossy, pieces_ascii h, Function.comp_def]

end Utf8

/-! ## Blanks -/

theorem trim_eq_self {text : List Char} (h : ∀ c ∈ text, isBlank c = false) : trim text = text := by
  have hdrop (text : List Char) (h : ∀ c ∈ text, isBlank c = false) :
      text.dropWhile isBlank = text := by
    cases text with
    | nil => rfl
    | cons c text => simp [h c List.mem_cons_self]
  rw [trim, hdrop text h, hdrop text.reverse (by simpa using h), List.reverse_reverse]

/-! ## Numerals -/

variable {base bound n v : Nat} {text digits : List Char} {c : Char} {d : Nat}

/-- Digits are decimal digits or letters. -/
theorem digitValue_bounds (h : digitValue c = some d) :
    48 ≤ c.toNat ∧ c.toNat ≤ 57 ∨ 65 ≤ c.toNat ∧ c.toNat ≤ 90 ∨ 97 ≤ c.toNat ∧ c.toNat ≤ 122 := by
  simp only [digitValue, Char.le_def, UInt32.le_iff_toNat_le] at h
  have hnat : c.val.toNat = c.toNat := rfl
  grind

/-- A digit has a value below the base. -/
theorem digit?_eq_some (h : digit? base c = some d) : digitValue c = some d ∧ d < base := by
  simpa [digit?] using h

/-- The digits of a base, of which there is one at least, spell a number. -/
inductive Spells (base : Nat) : List Char → Nat → Prop where
  | digit {c : Char} {d : Nat} : digit? base c = some d → Spells base [c] d
  | more {digits : List Char} {n : Nat} {c : Char} {d : Nat} :
      Spells base digits n → digit? base c = some d → Spells base (digits ++ [c]) (n * base + d)

namespace Spells

/-- What spells a number is made of digits. -/
theorem isDigit (h : Spells base digits n) : ∀ c ∈ digits, ∃ d, digit? base c = some d := by
  induction h with
  | digit hd => simpa using ⟨_, hd⟩
  | more _ hd ih =>
      intro c hc
      cases List.mem_append.mp hc with
      | inl hc => exact ih c hc
      | inr hc =>
          obtain rfl := List.mem_singleton.mp hc
          exact ⟨_, hd⟩

theorem bounds (h : Spells base digits n) (hc : c ∈ digits) :
    48 ≤ c.toNat ∧ c.toNat ≤ 57 ∨ 65 ≤ c.toNat ∧ c.toNat ≤ 90 ∨ 97 ≤ c.toNat ∧ c.toNat ≤ 122 := by
  obtain ⟨d, hd⟩ := h.isDigit c hc
  exact digitValue_bounds (digit?_eq_some hd).1

theorem isBlank_eq_false (h : Spells base digits n) (hc : c ∈ digits) : isBlank c = false := by
  have hbounds := h.bounds hc
  simp only [isBlank, Bool.or_eq_false_iff, Bool.and_eq_false_iff, decide_eq_false_iff_not,
    beq_eq_false_iff_ne]
  omega

theorem ne_nil (h : Spells base digits n) : digits ≠ [] := by
  cases h <;> simp

end Spells

/-- Digits are read one after the other. -/
theorem readDigits_append (xs ys : List Char) :
    readDigits base bound v (xs ++ ys) =
      (readDigits base bound v xs).bind fun v => readDigits base bound v ys := by
  induction xs generalizing v with
  | nil => rfl
  | cons c xs ih =>
      simp only [List.cons_append, readDigits]
      cases digit? base c with
      | none => rfl
      | some d =>
          simp only
          split
          · exact ih
          · rfl

/-- The number that the digits read so far spell only grows with more of them. -/
theorem Spells.readDigits (h : Spells base digits n) (hn : n ≤ bound) :
    readDigits base bound 0 digits = .ok n := by
  induction h with
  | digit hd =>
      rw [Text.readDigits, hd]
      simp only [Nat.zero_mul, Nat.zero_add]
      rw [if_pos hn]
      rfl
  | @more digits n c d _ hd ih =>
      have hbase := (digit?_eq_some hd).2
      have hgrows : n ≤ n * base := Nat.le_mul_of_pos_right n (by omega)
      rw [readDigits_append, ih (by omega)]
      simp only [Except.bind, Text.readDigits, hd, if_pos hn]

/-- A number is read back from digits that spell it. -/
theorem Spells.readNumeral (h : Spells base digits n) (hn : n ≤ bound) :
    readNumeral base bound digits = .ok n := by
  have hplus : '+' ∉ digits := by
    intro hc
    have hbounds := h.bounds hc
    simp at hbounds
  cases digits with
  | nil => exact absurd rfl h.ne_nil
  | cons c rest =>
      have hc : c ≠ '+' := fun hc => hplus (hc ▸ List.mem_cons_self)
      rw [← h.readDigits hn]
      unfold Text.readNumeral
      grind

end FlowRelay.Text
