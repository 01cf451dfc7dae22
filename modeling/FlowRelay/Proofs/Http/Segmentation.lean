import FlowRelay.Http.Reassembler

/-!
# FlowRelay.Proofs.Http.Segmentation

How a stream is cut into pieces does not matter to its reassembly, except where a limit is reached.

1. *Units* (`scanUnit_append`): what the scan of a unit comes to stays so with more bytes behind,
   unless it waits for them or was refused for want of them.  Only a stretch of a body or of a chunk
   that used all bytes up is longer with more bytes behind.
2. *Scans* (`scan_append`): scanning two pieces at once is scanning the first, and then the second
   behind what the first held back.
3. *Pushes* (`push_append`): a piece leads to the bodies, the error and the state to which its two
   parts lead one after the other, if the first of them is taken.
-/

namespace FlowRelay.Http

namespace Scan

/-- What a scan comes to with more bytes behind a unit that is complete. -/
def followedBy (y : List UInt8) : Scan → Scan
  | .next m rest body? => .next m (rest ++ y) body?
  | .wait => .wait
  | .refuse e => .refuse e

/-- Whether no bytes behind can change what a scan comes to. -/
def isSettled : Scan → Bool
  | .next _ _ _ => true
  | .wait => false
  | .refuse e => !e.isOverrun

end Scan

namespace Message

variable {m m' : Message} {x y rest : List UInt8} {bodies : List (List UInt8)}

/-! ## Going on behind a unit -/

theorem finish_append (m : Message) (rest y : List UInt8) :
    m.finish (rest ++ y) = (m.finish rest).followedBy y := rfl

/-- What is to come stays behind the header that is entered. -/
theorem enter_append (m : Message) (header : Header) (rest y : List UInt8) :
    m.enter header (rest ++ y) = (m.enter header rest).followedBy y := by
  simp only [enter]
  split
  · rfl
  · split
    · rfl
    · rfl
    · split <;> rfl

theorem enterChunk_append (m : Message) (size : Nat) (rest y : List UInt8) :
    m.enterChunk size (rest ++ y) = (m.enterChunk size rest).followedBy y := by
  simp only [enterChunk]
  split
  · rfl
  · split <;> rfl

/-! ## Where a unit ends -/

section

variable {mark : List UInt8} {limit : Nat} {overrun : FramingError}
  {next : List UInt8 → List UInt8 → Scan}

/-- While a mark is not in sight nothing is settled. -/
theorem exists_find?_of_isSettled (hoverrun : overrun.isOverrun)
    (h : (upTo mark limit overrun x next).isSettled) : ∃ n, Bytes.find? mark x = some n := by
  unfold upTo at h
  cases hn : Bytes.find? mark x with
  | none =>
      simp only [hn] at h
      split at h
      · simp [Scan.isSettled, hoverrun] at h
      · simp [Scan.isSettled] at h
  | some n => exact ⟨n, rfl⟩

/-- A mark in sight stays where it is. -/
theorem upTo_append (hoverrun : overrun.isOverrun)
    (hnext : ∀ line rest, next line (rest ++ y) = (next line rest).followedBy y)
    (h : (upTo mark limit overrun x next).isSettled) :
    upTo mark limit overrun (x ++ y) next = (upTo mark limit overrun x next).followedBy y := by
  obtain ⟨n, hn⟩ := exists_find?_of_isSettled hoverrun h
  have hlen := Bytes.add_length_le_of_find? hn
  have hn' : n ≤ x.length := by omega
  unfold upTo
  rw [hn, Bytes.find?_append_of_some hn y]
  simp only [List.take_append_of_le_length hn', List.drop_append_of_le_length hlen]
  exact hnext _ _

end

/-- A line end in front stays there, and none comes there that was not. -/
theorem isPrefixOf_append {mark : List UInt8} (hlen : mark.isPrefixOf x ∨ mark.length ≤ x.length)
    (y : List UInt8) : mark.isPrefixOf (x ++ y) = mark.isPrefixOf x := by
  rw [Bool.eq_iff_iff, List.isPrefixOf_iff_prefix, List.isPrefixOf_iff_prefix]
  rw [List.isPrefixOf_iff_prefix] at hlen
  constructor
  · intro hpre
    cases hlen with
    | inl hp => exact hp
    | inr hle => exact List.prefix_of_prefix_length_le hpre (List.prefix_append x y) hle
  · intro hp
    exact hp.trans (List.prefix_append x y)

/-! ## Stretches -/

/-- The bytes at hand are not the end of the unit: with more bytes behind, it is as if these were
scanned where it stopped. -/
def GoesOn (m : Message) (x : List UInt8) : Prop :=
  ∃ m', m.scanUnit x = .next m' [] none ∧
    ∀ y, y ≠ [] → m.scanUnit (x ++ y) = m'.scanUnit y ∧ m'.scanUnit y ≠ .wait

section

variable {left : Nat} {whole : List UInt8 → List UInt8 → Scan} {part : List UInt8 → Nat → Message}

/-- A stretch that ends in the bytes stays as it is. -/
theorem stretch_append_of_le (hx : x ≠ []) (hle : left ≤ x.length)
    (hwhole : ∀ got rest, whole got (rest ++ y) = (whole got rest).followedBy y) :
    stretch left (x ++ y) whole part = (stretch left x whole part).followedBy y := by
  have hle' : left ≤ (x ++ y).length := by
    rw [List.length_append]
    omega
  unfold stretch
  rw [if_neg hx, if_neg (List.append_ne_nil_of_left_ne_nil hx y), if_pos hle, if_pos hle',
    List.take_append_of_le_length hle, List.drop_append_of_le_length hle]
  exact hwhole _ _

/-- A stretch that the bytes do not end goes on with the bytes behind them. -/
theorem stretch_append_of_lt (hlt : x.length < left) (hy : y ≠ []) :
    stretch left (x ++ y) whole part =
      stretch (left - x.length) y (fun got rest => whole (x ++ got) rest)
        fun got left => part (x ++ got) left := by
  unfold stretch
  rw [if_neg (List.append_ne_nil_of_right_ne_nil x hy), if_neg hy, List.length_append]
  by_cases hle : left - x.length ≤ y.length
  · obtain ⟨k, rfl⟩ := Nat.exists_eq_add_of_le (Nat.le_of_lt hlt)
    rw [Nat.add_sub_cancel_left] at hle ⊢
    rw [if_pos hle, if_pos (by omega), List.take_length_add_append, List.drop_length_add_append]
  · rw [if_neg hle, if_neg (by omega), Nat.sub_sub]

/-- A stretch waits for nothing but a first byte. -/
theorem stretch_ne_wait (hx : x ≠ []) (hwait : ∀ got rest, whole got rest ≠ .wait) :
    stretch left x whole part ≠ .wait := by
  unfold stretch
  rw [if_neg hx]
  split
  · exact hwait _ _
  · nofun

/-- A stretch stays as it is, or goes on. -/
theorem stretch_append (hm : ∀ bytes, m.scanUnit bytes = stretch left bytes whole part)
    (hwhole : ∀ got rest y, whole got (rest ++ y) = (whole got rest).followedBy y)
    (hwait : ∀ got rest, whole got rest ≠ .wait)
    (hpart : ∀ k bytes, (part x k).scanUnit bytes =
      stretch k bytes (fun got rest => whole (x ++ got) rest) fun got left => part (x ++ got) left)
    (h : (m.scanUnit x).isSettled) :
    (∀ y, m.scanUnit (x ++ y) = (m.scanUnit x).followedBy y) ∨ m.GoesOn x := by
  have hx : x ≠ [] := by
    rintro rfl
    rw [hm] at h
    contradiction
  by_cases hle : left ≤ x.length
  · left
    intro y
    rw [hm, hm]
    exact stretch_append_of_le hx hle fun got rest => hwhole got rest y
  · right
    refine ⟨part x (left - x.length), ?_, fun y hy => ?_⟩
    · rw [hm, stretch, if_neg hx, if_neg hle]
    · rw [hm, hpart, stretch_append_of_lt (Nat.lt_of_not_le hle) hy]
      exact ⟨rfl, stretch_ne_wait hy fun got rest => hwait (x ++ got) rest⟩

end

/-! ## Units -/

/-- A header section that is settled is settled with more bytes behind it. -/
theorem scanHeaders_append (h : (m.scanHeaders x).isSettled) (y : List UInt8) :
    m.scanHeaders (x ++ y) = (m.scanHeaders x).followedBy y := by
  unfold scanHeaders at h ⊢
  by_cases hp : lineEnd.isPrefixOf x
  · have hlen := (List.isPrefixOf_iff_prefix.mp hp).length_le
    rw [isPrefixOf_append (.inl hp), if_pos hp, if_pos hp, List.drop_append_of_le_length hlen]
    rfl
  · rw [if_neg hp] at h ⊢
    have hlen : lineEnd.length ≤ x.length := by
      obtain ⟨n, hn⟩ := exists_find?_of_isSettled rfl h
      have hlen := Bytes.add_length_le_of_find? hn
      simp only [headerEnd, List.length_append] at hlen
      omega
    rw [isPrefixOf_append (.inr hlen), if_neg hp]
    refine upTo_append rfl (fun lines rest => ?_) h
    split
    · rfl
    · exact enter_append m _ rest y

/-- A size line that is settled is settled with more bytes behind it. -/
theorem scanChunkSize_append (h : (m.scanChunkSize x).isSettled) (y : List UInt8) :
    m.scanChunkSize (x ++ y) = (m.scanChunkSize x).followedBy y := by
  refine upTo_append rfl (fun line rest => ?_) h
  split
  · rfl
  · exact enterChunk_append m _ rest y

/-- A trailer that is settled is settled with more bytes behind it. -/
theorem scanTrailers_append (h : (m.scanTrailers x).isSettled) (y : List UInt8) :
    m.scanTrailers (x ++ y) = (m.scanTrailers x).followedBy y := by
  refine upTo_append rfl (fun line rest => ?_) h
  split
  · exact finish_append m rest y
  · rfl

/-- More bytes behind change nothing about a unit that is settled, unless they make a stretch
longer. -/
theorem scanUnit_append (h : (m.scanUnit x).isSettled) :
    (∀ y, m.scanUnit (x ++ y) = (m.scanUnit x).followedBy y) ∨ m.GoesOn x := by
  obtain ⟨framing, body, gzip⟩ := m
  cases framing with
  | headers => exact .inl (scanHeaders_append h)
  | fixed left =>
      have hscan : ∀ left body bytes, scanUnit ⟨.fixed left, body, gzip⟩ bytes =
          stretch left bytes (fun got => finish ⟨.fixed left, got.reverse ++ body, gzip⟩)
            fun got left => ⟨.fixed left, got.reverse ++ body, gzip⟩ := fun _ _ _ => rfl
      refine stretch_append (hscan left body) (fun got rest y => finish_append _ rest y)
        (fun _ _ => nofun) (fun k bytes => ?_) h
      simp only [hscan, List.reverse_append, List.append_assoc]
      rfl
  | chunkSize => exact .inl (scanChunkSize_append h)
  | chunkData left =>
      have hscan : ∀ left body bytes, scanUnit ⟨.chunkData left, body, gzip⟩ bytes =
          stretch left bytes
            (fun got rest => .next ⟨.chunkEnd 2, got.reverse ++ body, gzip⟩ rest none)
            fun got left => ⟨.chunkData left, got.reverse ++ body, gzip⟩ := fun _ _ _ => rfl
      refine stretch_append (hscan left body) (fun _ _ _ => rfl) (fun _ _ => nofun)
        (fun k bytes => ?_) h
      simp only [hscan, List.reverse_append, List.append_assoc]
  | chunkEnd left =>
      have hscan : ∀ left bytes, scanUnit ⟨.chunkEnd left, body, gzip⟩ bytes =
          stretch left bytes (fun _ rest => .next ⟨.chunkSize, body, gzip⟩ rest none)
            fun _ left => ⟨.chunkEnd left, body, gzip⟩ := fun _ _ => rfl
      exact stretch_append (hscan left) (fun _ _ _ => rfl) (fun _ _ => nofun)
        (fun k bytes => hscan k bytes) h
  | trailers => exact .inl (scanTrailers_append h)

/-! ## Scans -/

/-- A scan stops where it has to wait. -/
theorem scan_of_wait (h : m.scanUnit x = .wait) (bodies : List (List UInt8)) :
    m.scan x bodies = .ok (⟨m, x⟩, bodies) := by
  rw [scan]
  split <;> simp_all

/-- A scan stops where it refuses. -/
theorem scan_of_refuse {e : FramingError} (h : m.scanUnit x = .refuse e)
    (bodies : List (List UInt8)) : m.scan x bodies = .error e := by
  rw [scan]
  split <;> simp_all

/-- A scan goes on behind each unit. -/
theorem scan_of_next {body? : Option (List UInt8)} (h : m.scanUnit x = .next m' rest body?)
    (bodies : List (List UInt8)) : m.scan x bodies = m'.scan rest (body?.toList ++ bodies) := by
  rw [scan]
  split <;> simp_all

theorem scan_nil (m : Message) (bodies : List (List UInt8)) :
    m.scan [] bodies = .ok (⟨m, []⟩, bodies) := by
  refine scan_of_wait ?_ bodies
  obtain ⟨framing, body, gzip⟩ := m
  cases framing <;> rfl

/-- A scan goes by the next unit alone, unless it waits for it. -/
theorem scan_congr (h : m.scanUnit x = m'.scanUnit y) (hwait : m'.scanUnit y ≠ .wait)
    (bodies : List (List UInt8)) : m.scan x bodies = m'.scan y bodies := by
  cases hy : m'.scanUnit y with
  | wait => exact absurd hy hwait
  | refuse e => rw [scan_of_refuse hy, scan_of_refuse (h.trans hy)]
  | next m'' rest body? => rw [scan_of_next hy, scan_of_next (h.trans hy)]

/-- The bodies found before a scan stay behind those that it finds. -/
theorem scan_eq_map (m : Message) (x : List UInt8) (bodies : List (List UInt8)) :
    m.scan x bodies = (m.scan x []).map fun (r, found) => (r, found ++ bodies) := by
  -- The list with which the scan starts has to vary, since it grows with each unit.
  suffices ∀ before, m.scan x (before ++ bodies) =
      (m.scan x before).map fun (r, found) => (r, found ++ bodies) from this []
  intro before
  induction m, x, before using scan.induct with
  | case1 m x before h => rw [scan_of_wait h, scan_of_wait h]; rfl
  | case2 m x before e h => rw [scan_of_refuse h, scan_of_refuse h]; rfl
  | case3 m x before m' rest body? h ih =>
      rw [scan_of_next h, scan_of_next h, ← ih, List.append_assoc]

/-- **Scans**: scanning two pieces at once is scanning the first, and then the second behind what
the first held back. -/
theorem scan_append {r : Reassembler} {found : List (List UInt8)}
    (h : m.scan x bodies = .ok (r, found)) (y : List UInt8) :
    m.scan (x ++ y) bodies = r.message.scan (r.held ++ y) found := by
  induction m, x, bodies using scan.induct with
  | case1 m x bodies hunit =>
      rw [scan_of_wait hunit] at h
      cases h
      rfl
  | case2 m x bodies e hunit =>
      rw [scan_of_refuse hunit] at h
      contradiction
  | case3 m x bodies m' rest body? hunit ih =>
      rw [scan_of_next hunit] at h
      cases scanUnit_append (by rw [hunit]; rfl) with
      | inl hstays =>
          have hunit' : m.scanUnit (x ++ y) = .next m' (rest ++ y) body? := by
            rw [hstays y, hunit]
            rfl
          rw [scan_of_next hunit', ih h]
      | inr hgoes =>
          obtain ⟨m'', hunit'', hgoes⟩ := hgoes
          rw [hunit] at hunit''
          cases hunit''
          rw [scan_nil] at h
          cases h
          by_cases hy : y = []
          · rw [hy, List.append_nil, scan_of_next hunit]
            rfl
          · exact scan_congr (hgoes y hy).1 (hgoes y hy).2 _

/-- A refusal stays with more bytes behind, unless the bytes were refused for want of them. -/
theorem scan_append_of_error {e : FramingError} (h : m.scan x bodies = .error e)
    (he : e.isOverrun = false) (y : List UInt8) : m.scan (x ++ y) bodies = .error e := by
  induction m, x, bodies using scan.induct with
  | case1 m x bodies hunit =>
      rw [scan_of_wait hunit] at h
      contradiction
  | case2 m x bodies e' hunit =>
      rw [scan_of_refuse hunit] at h
      cases h
      cases scanUnit_append (by rw [hunit]; simp [Scan.isSettled, he]) with
      | inl hstays =>
          refine scan_of_refuse ?_ bodies
          rw [hstays y, hunit]
          rfl
      | inr hgoes =>
          obtain ⟨m', hunit', -⟩ := hgoes
          rw [hunit] at hunit'
          contradiction
  | case3 m x bodies m' rest body? hunit ih =>
      rw [scan_of_next hunit] at h
      cases scanUnit_append (by rw [hunit]; rfl) with
      | inl hstays =>
          have hunit' : m.scanUnit (x ++ y) = .next m' (rest ++ y) body? := by
            rw [hstays y, hunit]
            rfl
          rw [scan_of_next hunit', ih h]
      | inr hgoes =>
          -- A stretch that used all bytes up is refused by nobody.
          obtain ⟨m'', hunit'', -⟩ := hgoes
          rw [hunit] at hunit''
          cases hunit''
          rw [scan_nil] at h
          contradiction

end Message

namespace Reassembler

variable {r r₁ : Reassembler} {a : List UInt8} {bodies : List (List UInt8)}

/-! ## Pushes -/

/-- A push that succeeds keeps what it comes to. -/
theorem push_of_ok (h : r.push? a = .ok (r₁, bodies)) : r.push a = (r₁, .ok bodies) := by
  rw [push, h]

/-- A push that fails starts over. -/
theorem push_of_error {e : FramingError} (h : r.push? a = .error e) :
    r.push a = (empty, .error e) := by
  rw [push, h]

theorem push?_of_push (h : r.push a = (r₁, .ok bodies)) : r.push? a = .ok (r₁, bodies) := by
  cases hpush : r.push? a with
  | error e =>
      rw [push_of_error hpush] at h
      injection h with _ hok
      contradiction
  | ok taken =>
      obtain ⟨r', bodies'⟩ := taken
      rw [push_of_ok hpush] at h
      cases h
      rfl

/-- **Pushes**: a piece leads to what its two parts lead to one after the other, if the first of
them is taken. -/
theorem push?_append (h : r.push? a = .ok (r₁, bodies)) (b : List UInt8) :
    r.push? (a ++ b) = (r₁.push? b).map fun (r₂, more) => (r₂, bodies ++ more) := by
  unfold push? at h ⊢
  cases hscan : r.message.scan (r.held ++ a) [] with
  | error e =>
      rw [hscan] at h
      contradiction
  | ok taken =>
      obtain ⟨r', found⟩ := taken
      rw [hscan] at h
      cases h
      rw [← List.append_assoc, Message.scan_append hscan, Message.scan_eq_map]
      cases r₁.message.scan (r₁.held ++ b) [] with
      | error e => rfl
      | ok more =>
          simp only [Except.map, List.reverse_append]

/-- An error that is no overrun stays with more bytes behind. -/
theorem push?_append_of_error {e : FramingError} (h : r.push? a = .error e)
    (he : e.isOverrun = false) (b : List UInt8) : r.push? (a ++ b) = .error e := by
  unfold push? at h ⊢
  cases hscan : r.message.scan (r.held ++ a) [] with
  | error e' =>
      rw [hscan] at h
      cases h
      rw [← List.append_assoc, Message.scan_append_of_error hscan he]
      rfl
  | ok taken =>
      rw [hscan] at h
      contradiction

/-- **Segmentation**: once the first part of a piece is taken, the second part behind it delivers,
holds back or refuses what it does within the whole piece.  A piece that is taken as a whole has a
first part that is taken as well, unless its end was out of sight for too long. -/
theorem push_append (r : Reassembler) (a b : List UInt8) :
    (∀ r₁ bodies₁, r.push a = (r₁, .ok bodies₁) →
      (∀ r₂ bodies₂, r₁.push b = (r₂, .ok bodies₂) →
        r.push (a ++ b) = (r₂, .ok (bodies₁ ++ bodies₂))) ∧
      (∀ r₂ e, r₁.push b = (r₂, .error e) →
        r₂ = empty ∧ r.push (a ++ b) = (empty, .error e))) ∧
    (∀ r₂ bodies, r.push (a ++ b) = (r₂, .ok bodies) →
      (∃ r₁ bodies₁, r.push a = (r₁, .ok bodies₁)) ∨
      ∃ e ∈ [FramingError.headerTooLarge, .lineTooLong, .trailerTooLarge],
        r.push a = (empty, .error e)) := by
  refine ⟨fun r₁ bodies₁ hfirst => ?_, fun r₂ bodies hwhole => ?_⟩
  · have happend := push?_append (push?_of_push hfirst) b
    cases hsecond : r₁.push? b with
    | error e =>
        rw [hsecond] at happend
        rw [push_of_error hsecond, push_of_error happend]
        refine ⟨nofun, fun r₂ e' h => ?_⟩
        cases h
        exact ⟨rfl, rfl⟩
    | ok taken =>
        obtain ⟨r', more⟩ := taken
        rw [hsecond] at happend
        rw [push_of_ok hsecond, push_of_ok happend]
        refine ⟨fun r₂ bodies₂ h => ?_, nofun⟩
        cases h
        rfl
  · cases hfirst : r.push? a with
    | ok taken => exact .inl ⟨taken.1, taken.2, push_of_ok hfirst⟩
    | error e =>
        right
        refine ⟨e, ?_, push_of_error hfirst⟩
        cases hoverrun : e.isOverrun with
        | true => cases e <;> simp_all [FramingError.isOverrun]
        | false =>
            rw [push_of_error (push?_append_of_error hfirst hoverrun b)] at hwhole
            cases hwhole

/-- A body of two bytes whose second byte comes with the next piece. -/
theorem push_append_fixed :
    push ⟨⟨.fixed 2, [], false⟩, []⟩ [0x78] = (⟨⟨.fixed 1, [0x78], false⟩, []⟩, .ok []) ∧
    push ⟨⟨.fixed 1, [0x78], false⟩, []⟩ [0x79, 0x0D] =
      (⟨.empty, [0x0D]⟩, .ok [[0x78, 0x79]]) ∧
    push ⟨⟨.fixed 2, [], false⟩, []⟩ [0x78, 0x79, 0x0D] =
      (⟨.empty, [0x0D]⟩, .ok [[0x78, 0x79]]) := by
  have hfirst : push ⟨⟨.fixed 2, [], false⟩, []⟩ [0x78] =
      (⟨⟨.fixed 1, [0x78], false⟩, []⟩, .ok []) := by cbv
  have hsecond : push ⟨⟨.fixed 1, [0x78], false⟩, []⟩ [0x79, 0x0D] =
      (⟨.empty, [0x0D]⟩, .ok [[0x78, 0x79]]) := by cbv
  exact ⟨hfirst, hsecond, ((push_append _ [0x78] [0x79, 0x0D]).1 _ _ hfirst).1 _ _ hsecond⟩

end Reassembler

end FlowRelay.Http
