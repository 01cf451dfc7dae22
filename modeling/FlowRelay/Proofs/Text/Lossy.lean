import FlowRelay.Proofs.Text.Ascii
import FlowRelay.Proofs.Text.Numeral

/-!
# FlowRelay.Proofs.Text.Lossy

Lossy decoding, and the bytes that its characters come from.

1. *The machine* (`pieces_eq_readFrom`): decoding goes byte by byte, from one state to the next.
2. *Cuts* (`decodeLossy_append_of_starts`, `decodeLossy_append`): bytes may be cut in front of one
   that continues no character, and at an end of text without ill-formed stretches.
3. *ASCII* (`exists_of_decodeLossy`): an ASCII character comes from a byte of its own.
4. *Small letters* (`decodeLossy_lowerByte`): letters may be made small before or after.
-/

namespace FlowRelay.Text

theorem lowerAscii_append (text more : List Char) :
    lowerAscii (text ++ more) = lowerAscii text ++ lowerAscii more := List.map_append

theorem lowerAscii_cons (c : Char) (text : List Char) :
    lowerAscii (c :: text) = c.toLower :: lowerAscii text := rfl

namespace Utf8

variable {pending : Option Pending} {p : Pending} {b : UInt8} {bytes xs ys : List UInt8} {c : Char}

/-! ## The machine -/

/-- What a byte completes at the start of a character, and what is pending behind it. -/
def start (b : UInt8) : List (Option Char) × Option Pending :=
  match first b with
  | .done c => ([some c], none)
  | .more p => ([], some p)
  | .illFormed => ([none], none)

/-- What a byte completes that continues a character, and what is pending behind it. -/
def Pending.resume (p : Pending) (b : UInt8) : List (Option Char) × Option Pending :=
  let value := p.value * 64 + b.toNat % 64
  if p.owed ≤ 1 then ([some (Char.ofNat value)], none)
  else ([], some ⟨p.owed - 1, 0x80, 0xBF, value⟩)

/-- The ill-formed stretch that a character becomes if it is broken off. -/
def broken (pending : Option Pending) : List (Option Char) := (pending.map fun _ => none).toList

/-- What a byte completes, and what is pending behind it. -/
def step (pending : Option Pending) (b : UInt8) : List (Option Char) × Option Pending :=
  match pending.filter fun p => p.low ≤ b ∧ b ≤ p.high with
  | some p => p.resume b
  | none => (broken pending ++ (start b).1, (start b).2)

/-- The characters and ill-formed stretches of bytes behind what is pending. -/
def readFrom (pending : Option Pending) : List UInt8 → List (Option Char)
  | [] => broken pending
  | b :: rest => (step pending b).1 ++ readFrom (step pending b).2 rest

/-- `pieces` is `readFrom` with what was found already in front. -/
theorem pieces.go_eq_readFrom (bytes : List UInt8) (pending : Option Pending)
    (found : List (Option Char)) :
    pieces.go pending found bytes = found.reverse ++ readFrom pending bytes := by
  induction bytes generalizing pending found with
  | nil => cases pending <;> simp [pieces.go, readFrom, broken]
  | cons b rest ih =>
      rw [readFrom]
      cases pending with
      | none =>
          simp only [pieces.go, step, start, broken, Option.filter_none]
          cases first b <;> simp [ih]
      | some p =>
          by_cases hb : p.low ≤ b ∧ b ≤ p.high
          · by_cases howed : p.owed ≤ 1 <;>
              simp [pieces.go, step, Option.filter, hb, Pending.resume, howed, ih]
          · simp only [pieces.go, step, start, broken, Option.filter, hb]
            cases first b <;> simp [ih]

/-- **The machine**: bytes are read from its initial state, in which nothing is pending. -/
theorem pieces_eq_readFrom (bytes : List UInt8) : pieces bytes = readFrom none bytes :=
  pieces.go_eq_readFrom bytes none []

/-- Nothing is broken off where nothing is pending. -/
theorem step_none (b : UInt8) : step none b = start b := rfl

/-- What is pending comes to something, at the end if not before. -/
theorem readFrom_some_ne_nil (p : Pending) (bytes : List UInt8) : readFrom (some p) bytes ≠ [] := by
  induction bytes generalizing p with
  | nil => simp [readFrom, broken]
  | cons b rest ih =>
      rw [readFrom, step]
      split
      · next q hq =>
          unfold Pending.resume
          split
          · simp
          · exact ih _
      · simp [broken]

/-- Only where there are no bytes there is no text. -/
theorem eq_nil_of_decodeLossy (h : decodeLossy bytes = []) : bytes = [] := by
  rw [decodeLossy, List.map_eq_nil_iff, pieces_eq_readFrom] at h
  cases bytes with
  | nil => rfl
  | cons b rest =>
      rw [readFrom, step_none, start] at h
      split at h
      · simp at h
      · exact absurd h (readFrom_some_ne_nil _ rest)
      · simp at h

/-- A character is continued by continuation bytes only, and is too large for ASCII: what is read
of it leads to two at least before its last byte. -/
structure Pending.Sound (p : Pending) : Prop where
  low : 0x80 ≤ p.low
  high : p.high ≤ 0xBF
  large : 2 ≤ p.value ∨ 2 ≤ p.owed ∧ 2 ≤ p.value * 64 + p.low.toNat % 64

/-- The first byte of a character leaves a sound rest to be read. -/
theorem sound_of_first (h : first b = .more p) : p.Sound := by
  unfold first at h
  simp only [UInt8.lt_iff_toNat_lt, beq_iff_eq, ← UInt8.toNat_inj, UInt8.reduceToNat] at h
  split_ifs at h <;> cases h
  all_goals exact ⟨by simp, by simp, by simp <;> omega⟩

theorem sound_none : ∀ p ∈ (none : Option Pending), p.Sound := by simp

/-- Reading on from the start leaves a sound rest to be read. -/
theorem sound_of_start : ∀ p ∈ (start b).2, p.Sound := by
  intro p hp
  unfold start at hp
  split at hp
  · contradiction
  · next q hfirst =>
      obtain rfl := Option.mem_some.mp hp
      exact sound_of_first hfirst
  · contradiction

/-- The bytes allowed next lead to no less than the smallest of them does. -/
theorem Pending.Sound.value_le (h : p.Sound) (hb : p.low ≤ b ∧ b ≤ p.high) :
    p.value * 64 + p.low.toNat % 64 ≤ p.value * 64 + b.toNat % 64 := by
  have hlow := UInt8.le_iff_toNat_le.mp h.low
  have hhigh := UInt8.le_iff_toNat_le.mp h.high
  have hb₁ := UInt8.le_iff_toNat_le.mp hb.1
  have hb₂ := UInt8.le_iff_toNat_le.mp hb.2
  simp only [UInt8.reduceToNat] at hlow hhigh
  omega

/-- A byte that fits leaves a sound rest to be read. -/
theorem Pending.Sound.resume (h : p.Sound) (hb : p.low ≤ b ∧ b ≤ p.high) :
    ∀ q ∈ (p.resume b).2, q.Sound := by
  intro q hq
  unfold Pending.resume at hq
  split at hq
  · contradiction
  · next howed =>
      obtain rfl := Option.mem_some.mp hq
      refine ⟨UInt8.le_refl _, UInt8.le_refl _, .inl ?_⟩
      have hvalue := h.value_le hb
      have hlarge := h.large
      show 2 ≤ p.value * 64 + b.toNat % 64
      omega

/-- Behind each byte only such characters are pending. -/
theorem sound_of_step (h : ∀ p ∈ pending, p.Sound) (b : UInt8) :
    ∀ p ∈ (step pending b).2, p.Sound := by
  unfold step
  split
  · next p hp =>
      obtain ⟨hmem, hb⟩ := Option.filter_eq_some_iff.mp hp
      exact (h p hmem).resume (of_decide_eq_true hb)
  · exact sound_of_start

/-! ## Cuts -/

/-- A byte that continues no character starts one, or is ill-formed. -/
def Starts (b : UInt8) : Prop := b < 0x80 ∨ 0xBF < b

/-- A byte that starts a character breaks off what is pending. -/
theorem step_of_starts (h : ∀ p ∈ pending, p.Sound) (hb : Starts b) :
    step pending b = (broken pending ++ (start b).1, (start b).2) := by
  have hnone : (pending.filter fun p => p.low ≤ b ∧ b ≤ p.high) = none := by
    rw [Option.filter_eq_none_iff]
    intro p hp hcontinues
    obtain ⟨hlow, hhigh⟩ := of_decide_eq_true hcontinues
    cases hb with
    | inl hb => exact absurd (UInt8.le_trans (h p hp).low hlow) (UInt8.not_le.mpr hb)
    | inr hb => exact absurd (UInt8.le_trans hhigh (h p hp).high) (UInt8.not_le.mpr hb)
  rw [step, hnone]

/-- A text may be cut in front of a byte that starts a character. -/
theorem readFrom_append_of_starts (h : ∀ p ∈ pending, p.Sound) (hb : Starts b)
    (xs ys : List UInt8) :
    readFrom pending (xs ++ b :: ys) = readFrom pending xs ++ readFrom none (b :: ys) := by
  induction xs generalizing pending with
  | nil =>
      simp only [List.nil_append, readFrom, step_of_starts h hb, step_none, List.append_assoc]
  | cons x xs ih =>
      simp only [List.cons_append, readFrom, ih (sound_of_step h x), List.append_assoc]

/-- **Cuts**: bytes may be cut in front of one that continues no character. -/
theorem decodeLossy_append_of_starts (hb : Starts b) (xs ys : List UInt8) :
    decodeLossy (xs ++ b :: ys) = decodeLossy xs ++ decodeLossy (b :: ys) := by
  simp only [decodeLossy, pieces_eq_readFrom, readFrom_append_of_starts sound_none hb,
    List.map_append]

/-- A text may be cut behind bytes that are complete. -/
theorem readFrom_append_of_complete (h : none ∉ readFrom pending xs) (ys : List UInt8) :
    readFrom pending (xs ++ ys) = readFrom pending xs ++ readFrom none ys := by
  induction xs generalizing pending with
  | nil =>
      cases pending with
      | none => rfl
      | some p => simp [readFrom, broken] at h
  | cons x xs ih =>
      rw [readFrom, List.mem_append, not_or] at h
      rw [List.cons_append, readFrom, ih h.2, readFrom, List.append_assoc]

/-- A byte that starts no character is ill-formed at the start of a text. -/
theorem starts_of_decodeLossy (h : '\uFFFD' ∉ decodeLossy (b :: ys)) : Starts b := by
  by_contra hb
  obtain ⟨hlow, hhigh⟩ : ¬ b < 0x80 ∧ ¬ 0xBF < b := not_or.mp hb
  have hlt : b < 0xC2 := UInt8.lt_of_le_of_lt (UInt8.not_lt.mp hhigh) (by decide)
  have hstart : start b = ([none], none) := by rw [start, first, if_neg hlow, if_pos hlt]
  refine h ?_
  simp only [decodeLossy, pieces_eq_readFrom, readFrom, step_none, hstart]
  exact List.mem_cons_self

/-- They may be cut behind text without ill-formed stretches, and in front of it. -/
theorem decodeLossy_append (h : '\uFFFD' ∉ decodeLossy xs ∨ '\uFFFD' ∉ decodeLossy ys) :
    decodeLossy (xs ++ ys) = decodeLossy xs ++ decodeLossy ys := by
  cases h with
  | inl hxs =>
      have hcomplete : none ∉ readFrom none xs := by
        intro hmem
        refine hxs (List.mem_map.mpr ⟨none, ?_, rfl⟩)
        rwa [pieces_eq_readFrom]
      simp only [decodeLossy, pieces_eq_readFrom, readFrom_append_of_complete hcomplete,
        List.map_append]
  | inr hys =>
      cases ys with
      | nil => simp [decodeLossy, pieces_eq_readFrom, readFrom, broken]
      | cons b ys => exact decodeLossy_append_of_starts (starts_of_decodeLossy hys) xs ys

/-! ## ASCII -/

/-- An ASCII byte is read as the character with its number. -/
theorem toNat_ofNat_of_lt (hb : b < 0x80) : (Char.ofNat b.toNat).toNat = b.toNat := by
  have hlt := UInt8.lt_iff_toNat_lt.mp hb
  simp only [UInt8.reduceToNat] at hlt
  have hvalid : b.toNat.isValidChar := .inl (by omega)
  have hchar : Char.ofNat b.toNat = Char.ofNatAux b.toNat hvalid := dif_pos hvalid
  rw [hchar]
  rfl

/-- An ASCII byte is a character, whatever follows. -/
theorem decodeLossy_cons (hb : b < 0x80) (rest : List UInt8) :
    decodeLossy (b :: rest) = Char.ofNat b.toNat :: decodeLossy rest := by
  have hstart : start b = ([some (Char.ofNat b.toNat)], none) := by
    rw [start, first, if_pos hb]
  simp only [decodeLossy, pieces_eq_readFrom, readFrom, step_none, hstart]
  rfl

/-- So bytes may be cut at an ASCII byte. -/
theorem decodeLossy_append_cons (hb : b < 0x80) (xs ys : List UInt8) :
    decodeLossy (xs ++ b :: ys) = decodeLossy xs ++ Char.ofNat b.toNat :: decodeLossy ys := by
  rw [decodeLossy_append_of_starts (.inl hb), decodeLossy_cons hb]

/-- An ASCII character other than NUL. -/
def IsAscii (c : Char) : Prop := 0 < c.toNat ∧ c.toNat < 128

instance (c : Char) : Decidable (IsAscii c) := inferInstanceAs (Decidable (_ ∧ _))

/-- Characters with numbers of 128 and more are not ASCII. -/
theorem not_isAscii_ofNat {n : Nat} (h : 128 ≤ n) : ¬ IsAscii (Char.ofNat n) := by
  rintro ⟨hpos, hlt⟩
  by_cases hvalid : n.isValidChar
  · have hchar : Char.ofNat n = Char.ofNatAux n hvalid := dif_pos hvalid
    rw [hchar] at hlt
    exact absurd hlt (Nat.not_lt.mpr h)
  · have hchar : Char.ofNat n = '\x00' := dif_neg hvalid
    rw [hchar] at hpos
    exact absurd hpos (Nat.lt_irrefl 0)

/-- Other bytes complete no ASCII character. -/
theorem not_isAscii_of_step (h : ∀ p ∈ pending, p.Sound) (hb : ¬ b < 0x80)
    (hc : some c ∈ (step pending b).1) : ¬ IsAscii c := by
  have hstart : some c ∉ (start b).1 := by
    unfold start
    split
    · next c' hfirst =>
        rw [first, if_neg hb] at hfirst
        grind
    · simp
    · simp
  unfold step at hc
  split at hc
  · next p hp =>
      obtain ⟨hmem, hcontinues⟩ := Option.filter_eq_some_iff.mp hp
      have hvalue := (h p hmem).value_le (of_decide_eq_true hcontinues)
      have hlarge := (h p hmem).large
      unfold Pending.resume at hc
      split at hc
      · next howed =>
          obtain rfl := Option.some.inj (List.mem_singleton.mp hc)
          exact not_isAscii_ofNat (by omega)
      · contradiction
  · cases List.mem_append.mp hc with
    | inl hbroken => cases pending <;> simp [broken] at hbroken
    | inr hc => exact absurd hc hstart

/-- Bytes that are not ASCII are not read as ASCII characters. -/
theorem not_isAscii_of_readFrom (h : ∀ p ∈ pending, p.Sound) (hxs : ∀ b ∈ xs, ¬ b < 0x80)
    (hc : some c ∈ readFrom pending xs) : ¬ IsAscii c := by
  induction xs generalizing pending with
  | nil => cases pending <;> simp [readFrom, broken] at hc
  | cons x xs ih =>
      rw [readFrom, List.mem_append] at hc
      cases hc with
      | inl hc => exact not_isAscii_of_step h (hxs x List.mem_cons_self) hc
      | inr hc => exact ih (sound_of_step h x) (fun b hb => hxs b (List.mem_cons_of_mem _ hb)) hc

/-- Where there are no ASCII bytes there are no ASCII characters. -/
theorem not_isAscii_of_decodeLossy (hxs : ∀ b ∈ xs, ¬ b < 0x80) (hc : c ∈ decodeLossy xs) :
    ¬ IsAscii c := by
  obtain ⟨piece, hpiece, rfl⟩ := List.mem_map.mp hc
  rw [pieces_eq_readFrom] at hpiece
  cases piece with
  | none => exact fun h => absurd h.2 (by decide)
  | some c => exact not_isAscii_of_readFrom sound_none hxs hpiece

/-- Bytes are taken apart at their ASCII bytes, from the front. -/
theorem asciiInduction {motive : List UInt8 → Prop}
    (other : ∀ xs, (∀ b ∈ xs, ¬ b < 0x80) → motive xs)
    (ascii : ∀ xs b ys, (∀ b ∈ xs, ¬ b < 0x80) → b < 0x80 → motive ys → motive (xs ++ b :: ys))
    (bytes : List UInt8) : motive bytes := by
  suffices ∀ xs, (∀ b ∈ xs, ¬ b < 0x80) → motive (xs ++ bytes) from this [] nofun
  induction bytes with
  | nil => simpa using other
  | cons b rest ih =>
      intro xs hxs
      by_cases hb : b < 0x80
      · exact ascii xs b rest hxs hb (ih [] nofun)
      · have hmore : ∀ b' ∈ xs ++ [b], ¬ b' < 0x80 :=
          List.forall_mem_append.mpr ⟨hxs, List.forall_mem_singleton.mpr hb⟩
        simpa using ih (xs ++ [b]) hmore

/-- **ASCII**: an ASCII character comes from a byte of its own, and the characters around it from
the bytes around that. -/
theorem exists_of_decodeLossy {front back : List Char} (hc : IsAscii c)
    (h : decodeLossy bytes = front ++ c :: back) :
    ∃ xs ys, bytes = xs ++ c.toNat.toUInt8 :: ys ∧ decodeLossy xs = front ∧
      decodeLossy ys = back := by
  induction bytes using asciiInduction generalizing front with
  | other xs hxs =>
      have hmem : c ∈ decodeLossy xs := h ▸ List.mem_append_right _ List.mem_cons_self
      exact absurd hc (not_isAscii_of_decodeLossy hxs hmem)
  | ascii xs b ys hxs hb ih =>
      rw [decodeLossy_append_cons hb] at h
      have hbyte : (Char.ofNat b.toNat).toNat.toUInt8 = b := by
        rw [toNat_ofNat_of_lt hb]
        exact UInt8.ofNat_toNat
      -- The character is that of the byte, or else in the text behind it.
      rcases List.append_eq_append_iff.mp h with ⟨gap, rfl, hgap⟩ | ⟨gap, hgap, hback⟩
      · cases gap with
        | nil =>
            obtain ⟨rfl, hys⟩ := List.cons.inj hgap
            exact ⟨xs, ys, by rw [hbyte], by simp, hys⟩
        | cons c' gap =>
            obtain ⟨rfl, hys⟩ := List.cons.inj hgap
            obtain ⟨front, back, rfl, hfront, hback⟩ := ih hys
            refine ⟨xs ++ b :: front, back, by simp, ?_, hback⟩
            rw [decodeLossy_append_cons hb, hfront]
      · cases gap with
        | nil =>
            obtain ⟨rfl, hys⟩ := List.cons.inj hback
            exact ⟨xs, ys, by rw [hbyte], by simpa using hgap, hys.symm⟩
        | cons c' gap =>
            obtain ⟨rfl, -⟩ := List.cons.inj hback
            have hmem : c ∈ decodeLossy xs := hgap ▸ by simp
            exact absurd hc (not_isAscii_of_decodeLossy hxs hmem)

/-- Only an ASCII byte stands for an ASCII character. -/
theorem mem_of_decodeLossy (hc : IsAscii c) (h : c ∈ decodeLossy bytes) :
    c.toNat.toUInt8 ∈ bytes := by
  obtain ⟨front, back, hsplit⟩ := List.append_of_mem h
  obtain ⟨xs, ys, rfl, -⟩ := exists_of_decodeLossy hc hsplit
  simp

/-! ## Small letters -/

/-- The bytes of `A` to `Z` as those of small letters, everything else as it is. -/
def lowerByte (b : UInt8) : UInt8 := if 0x41 ≤ b ∧ b ≤ 0x5A then b + 0x20 else b

/-- Bytes of capital letters are moved up by 32. -/
theorem toNat_lowerByte (b : UInt8) :
    (lowerByte b).toNat = if 65 ≤ b.toNat ∧ b.toNat ≤ 90 then b.toNat + 32 else b.toNat := by
  simp only [lowerByte, UInt8.le_iff_toNat_le, UInt8.reduceToNat]
  split
  · rw [UInt8.toNat_add]
    simp only [UInt8.reduceToNat]
    omega
  · rfl

/-- Lower case stays ASCII. -/
theorem lowerByte_lt (hb : b < 0x80) : lowerByte b < 0x80 := by
  simp only [UInt8.lt_iff_toNat_lt, UInt8.reduceToNat, toNat_lowerByte] at *
  split <;> omega

/-- Lower case of an ASCII byte is lower case of its character. -/
theorem ofNat_lowerByte (hb : b < 0x80) :
    Char.ofNat (lowerByte b).toNat = (Char.ofNat b.toNat).toLower := by
  rw [← Char.toNat_inj, toNat_toLower, toNat_ofNat_of_lt hb, toNat_ofNat_of_lt (lowerByte_lt hb),
    toNat_lowerByte]

/-- Lower case leaves characters that are not ASCII as they are. -/
theorem toLower_of_not_isAscii (hc : ¬ IsAscii c) : c.toLower = c := by
  rw [← Char.toNat_inj, toNat_toLower, if_neg]
  rintro ⟨hlow, hhigh⟩
  exact hc ⟨by omega, by omega⟩

/-- Lower case leaves bytes that are not ASCII as they are. -/
theorem lowerByte_of_not_lt (hb : ¬ b < 0x80) : lowerByte b = b := by
  rw [lowerByte, if_neg]
  rintro ⟨-, hhigh⟩
  exact hb (UInt8.lt_of_le_of_lt hhigh (by decide))

/-- Where there are no ASCII bytes there are no letters to make small. -/
theorem decodeLossy_lowerByte_other (hxs : ∀ b ∈ xs, ¬ b < 0x80) :
    decodeLossy (xs.map lowerByte) = lowerAscii (decodeLossy xs) := by
  have hbytes : xs.map lowerByte = xs.map id :=
    List.map_congr_left fun b hb => lowerByte_of_not_lt (hxs b hb)
  have htext : (decodeLossy xs).map Char.toLower = (decodeLossy xs).map id :=
    List.map_congr_left fun c hc => toLower_of_not_isAscii (not_isAscii_of_decodeLossy hxs hc)
  rw [hbytes, List.map_id, lowerAscii, htext, List.map_id]

/-- **Small letters**: letters may be made small in the bytes or in their text. -/
theorem decodeLossy_lowerByte (bytes : List UInt8) :
    decodeLossy (bytes.map lowerByte) = lowerAscii (decodeLossy bytes) := by
  induction bytes using asciiInduction with
  | other xs hxs => exact decodeLossy_lowerByte_other hxs
  | ascii xs b ys hxs hb ih =>
      rw [List.map_append, List.map_cons, decodeLossy_append_cons (lowerByte_lt hb), ih,
        decodeLossy_append_cons hb, ofNat_lowerByte hb, decodeLossy_lowerByte_other hxs,
        lowerAscii_append, lowerAscii_cons]

end Utf8

end FlowRelay.Text
