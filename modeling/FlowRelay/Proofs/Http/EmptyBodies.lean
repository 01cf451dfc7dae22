import Mathlib.Data.List.Forall2
import FlowRelay.Proofs.Http.Bounds

/-!
# FlowRelay.Proofs.Http.EmptyBodies

Which bodies are handed out empty.

1. *Empty members* (`Gzip.decompress?_eq_some_nil_iff`): compressed bytes that hold nothing are a
   header, a stream without data, and a trailer of zeros.
2. *Messages* (`Message.delivered?_eq_some_nil_iff`): of a message without a body nothing is
   delivered, and what is delivered of any other message is empty only if its body is an empty
   member.
3. *Pushes* (`push_emptyBodies`): so a push hands out one body for each message with a body that
   ends in it, and an empty one exactly for each empty member.
4. *An empty body* (`push_emptyReplies`): whether a body is empty is asked before it is
   decompressed, so an empty member is handed out as an empty body.
-/

namespace FlowRelay

/-! ## Empty members -/

namespace Gzip

variable {bytes rest : List UInt8}

/-- A member that holds nothing: behind its header a stream without data, the check value of
nothing and the length of nothing. -/
def IsEmptyMember (bytes : List UInt8) : Prop :=
  ∃ stream behind, dropHeader? bytes = some stream ∧
    Deflate.inflate? stream = some ([], List.replicate 8 0 ++ behind)

/-- A header opens with the two bytes that mark it. -/
theorem magic_of_dropHeader? (h : dropHeader? bytes = some rest) : magic <+: bytes := by
  unfold dropHeader? at h
  split at h
  · split at h
    · next hheader => exact ⟨_, by rw [← hheader.1]; rfl⟩
    · contradiction
  · contradiction

theorem IsEmptyMember.startsWith_magic (h : IsEmptyMember bytes) : magic <+: bytes := by
  obtain ⟨stream, behind, hheader, -⟩ := h
  exact magic_of_dropHeader? hheader

theorem IsEmptyMember.ne_nil (h : IsEmptyMember bytes) : bytes ≠ [] := by
  rintro rfl
  exact absurd h.startsWith_magic (by decide)

theorem littleEndian32_eq_zero {a b c d : UInt8} :
    littleEndian32 a b c d = 0 ↔ a = 0 ∧ b = 0 ∧ c = 0 ∧ d = 0 := by
  simp only [littleEndian32, ← UInt8.toNat_inj, UInt8.toNat_zero]
  omega

/-- **Empty members**: only they decompress to nothing. -/
theorem decompress?_eq_some_nil_iff : decompress? bytes = some [] ↔ IsEmptyMember bytes := by
  have hcheck : (crc32 []).toNat = 0 := by decide
  constructor
  · intro h
    simp only [decompress?, Option.bind_eq_bind, Option.bind_eq_some_iff] at h
    obtain ⟨stream, hheader, ⟨data, trailer⟩, hstream, h⟩ := h
    simp only at h
    split at h
    · next c0 c1 c2 c3 n0 n1 n2 n3 behind =>
        split at h
        · next hgood =>
            obtain rfl := Option.some.inj h
            obtain ⟨hsum, hlength⟩ := hgood
            rw [hcheck, littleEndian32_eq_zero] at hsum
            rw [List.length_nil, Nat.zero_mod, littleEndian32_eq_zero] at hlength
            obtain ⟨rfl, rfl, rfl, rfl⟩ := hsum
            obtain ⟨rfl, rfl, rfl, rfl⟩ := hlength
            exact ⟨stream, behind, hheader, hstream⟩
        · contradiction
    · contradiction
  · rintro ⟨stream, behind, hheader, hstream⟩
    have hzero : littleEndian32 0 0 0 0 = 0 := by decide
    simp only [decompress?, hheader, hstream, Option.bind_eq_bind, Option.bind_some,
      List.replicate, List.cons_append, List.nil_append, hcheck, hzero, List.length_nil,
      Nat.zero_mod, and_self, if_true]

end Gzip

namespace Http

open Message (lineEnd)

/-! ## Messages -/

namespace Message

variable {f : Message}

/-- A message has a body if any byte of one has arrived. -/
def hasBody (f : Message) : Bool := !f.body.isEmpty

/-- The body of a message is a compressed one that holds nothing. -/
def IsBlank (f : Message) : Prop := Gzip.IsEmptyMember f.body.reverse

theorem IsBlank.hasBody (h : f.IsBlank) : f.hasBody = true := by
  have hbody := h.ne_nil
  simpa [Message.hasBody] using hbody

/-- Something is delivered of a message exactly if it has a body. -/
theorem isSome_delivered? : f.delivered?.isSome = f.hasBody := by
  cases hbody : f.body with
  | nil => simp [delivered?, decoded, hasBody, hbody]
  | cons b rest =>
      simp only [delivered?, decoded, hasBody, hbody, List.isEmpty_reverse, List.isEmpty_cons,
        Bool.false_eq_true, if_false, Bool.not_false]
      split <;> rfl

/-- **Messages**: what is delivered of a message is empty only if its body is an empty member,
whether the header says that it is compressed or not. -/
theorem delivered?_eq_some_nil_iff : f.delivered? = some [] ↔ f.IsBlank := by
  rw [IsBlank, ← Gzip.decompress?_eq_some_nil_iff, delivered?, decoded]
  by_cases hbody : f.body.reverse = []
  · have hnone : Gzip.decompress? [] ≠ some [] := fun h =>
      (Gzip.decompress?_eq_some_nil_iff.mp h).ne_nil rfl
    simp [hbody, hnone]
  · rw [if_neg (by simpa using hbody)]
    by_cases hgzip : f.gzip || Gzip.magic.isPrefixOf f.body.reverse
    · rw [if_pos hgzip]
      cases Gzip.decompress? f.body.reverse with
      | none => simpa using hbody
      | some data => simp
    · rw [if_neg hgzip]
      have hraw : Gzip.decompress? f.body.reverse ≠ some [] := fun h => hgzip (by
        have hmagic := (Gzip.decompress?_eq_some_nil_iff.mp h).startsWith_magic
        simp [List.isPrefixOf_iff_prefix.mpr hmagic])
      simp [hbody, hraw]

/-- The bodies that are delivered of messages belong, one by one, to those with a body. -/
theorem forall₂_delivered? (messages : List Message) :
    List.Forall₂ (fun f body => f.delivered? = some body) (messages.filter (·.hasBody))
      (messages.filterMap delivered?) := by
  induction messages with
  | nil => exact .nil
  | cons f messages ih =>
      have hsome := f.isSome_delivered?
      cases hf : f.delivered? with
      | none =>
          rw [hf] at hsome
          rwa [List.filter_cons_of_neg (by simp [← hsome]), List.filterMap_cons_none hf]
      | some body =>
          rw [hf] at hsome
          rw [List.filter_cons_of_pos hsome.symm, List.filterMap_cons_some hf]
          exact .cons hf ih

end Message

/-! ## Pushes -/

namespace Reassembler

/-- **Empty bodies**: after any pushes and resets, a push that is not refused hands out one body for
each message with a body that ends in it, in the order of the messages.  The body is empty exactly
if what arrived is a compressed body that holds nothing.  So an empty body is handed out exactly if
such a message ends in the push. -/
theorem push_emptyBodies {uses : List Use} {data : List UInt8} {bodies : List (List UInt8)}
    (h : ((useAll uses).push data).2 = .ok bodies) :
    List.Forall₂ (fun f body => body = [] ↔ f.IsBlank)
        (((useAll uses).finished data).filter (·.hasBody)) bodies ∧
      ([] ∈ bodies ↔ ∃ f ∈ (useAll uses).finished data, f.IsBlank) := by
  obtain rfl := (bounded_push (bounded_useAll uses) data).2 bodies h
  constructor
  · refine (Message.forall₂_delivered? _).imp fun f body hbody => ?_
    rw [← Message.delivered?_eq_some_nil_iff, hbody, Option.some.injEq]
  · simp only [List.mem_filterMap, Message.delivered?_eq_some_nil_iff]

/-! ## An empty body -/

/-- A member that holds nothing. -/
def emptyMember : List UInt8 :=
  [0x1F, 0x8B, 8, 0, 0, 0, 0, 0, 0, 3, 3, 0] ++ List.replicate 8 0

/-- A response with a compressed body of stated length. -/
def emptyReply : List UInt8 :=
  lineBytes "HTTP/1.1 200 OK".toList ++ (lineBytes "Content-Encoding: gzip".toList ++
    (lineBytes "Content-Length: 20".toList ++ (lineEnd ++ emptyMember)))

/-- A response with a body in chunks that only looks compressed. -/
def emptyChunks : List UInt8 :=
  lineBytes "HTTP/1.1 200 OK".toList ++ (lineBytes "Transfer-Encoding: chunked".toList ++
    (lineEnd ++ (lineBytes "14".toList ++ (emptyMember ++ (lineEnd ++
      (lineBytes "0".toList ++ lineEnd))))))

theorem push?_emptyReply : empty.push? emptyReply = .ok (empty, [[]]) := by
  have hhead : Message.empty.scanUnit emptyReply =
      .next ⟨.fixed 20, [], true⟩ emptyMember none := by decide +kernel
  have hbody : Message.scanUnit ⟨.fixed 20, [], true⟩ emptyMember =
      .next .empty [] (some []) := by decide +kernel
  rw [push?_empty_eq, Message.scan_of_next hhead, Message.scan_of_next hbody, Message.scan_nil]
  rfl

theorem push?_emptyChunks : empty.push? emptyChunks = .ok (empty, [[]]) := by
  have hhead : Message.empty.scanUnit emptyChunks =
      .next ⟨.chunkSize, [], false⟩ (lineBytes "14".toList ++ (emptyMember ++ (lineEnd ++
        (lineBytes "0".toList ++ lineEnd)))) none := by decide +kernel
  have hsize : Message.scanUnit ⟨.chunkSize, [], false⟩ (lineBytes "14".toList ++ (emptyMember ++
      (lineEnd ++ (lineBytes "0".toList ++ lineEnd)))) =
      .next ⟨.chunkData 20, [], false⟩ (emptyMember ++ (lineEnd ++
        (lineBytes "0".toList ++ lineEnd))) none := by decide +kernel
  have hdata : Message.scanUnit ⟨.chunkData 20, [], false⟩ (emptyMember ++ (lineEnd ++
      (lineBytes "0".toList ++ lineEnd))) =
      .next ⟨.chunkEnd 2, emptyMember.reverse, false⟩ (lineEnd ++
        (lineBytes "0".toList ++ lineEnd)) none := by decide +kernel
  have hend : Message.scanUnit ⟨.chunkEnd 2, emptyMember.reverse, false⟩ (lineEnd ++
      (lineBytes "0".toList ++ lineEnd)) =
      .next ⟨.chunkSize, emptyMember.reverse, false⟩ (lineBytes "0".toList ++ lineEnd) none := by
    decide +kernel
  have hzero : Message.scanUnit ⟨.chunkSize, emptyMember.reverse, false⟩
      (lineBytes "0".toList ++ lineEnd) =
      .next ⟨.trailers, emptyMember.reverse, false⟩ lineEnd none := by decide +kernel
  have hlast : Message.scanUnit ⟨.trailers, emptyMember.reverse, false⟩ lineEnd =
      .next .empty [] (some []) := by decide +kernel
  rw [push?_empty_eq, Message.scan_of_next hhead, Message.scan_of_next hsize,
    Message.scan_of_next hdata, Message.scan_of_next hend, Message.scan_of_next hzero,
    Message.scan_of_next hlast, Message.scan_nil]
  rfl

/-- An empty body is handed out, of a body of stated length as of one in chunks. -/
theorem push_emptyReplies :
    ((useAll []).push emptyReply).2 = .ok [[]] ∧ ((useAll []).push emptyChunks).2 = .ok [[]] := by
  constructor
  · exact congrArg Prod.snd (push_of_ok push?_emptyReply)
  · exact congrArg Prod.snd (push_of_ok push?_emptyChunks)

/-- In front of a body of two bytes, an empty member is the one empty body of the push. -/
theorem emptyBodies_of_replies :
    ((useAll []).push (emptyReply ++ reply.bytes)).2 = .ok [[], [0x6F, 0x6B]] ∧
      ∃ f ∈ (useAll []).finished (emptyReply ++ reply.bytes), f.IsBlank := by
  have hpush : ((useAll []).push (emptyReply ++ reply.bytes)).2 = .ok [[], [0x6F, 0x6B]] := by
    have hboth : empty.push? (emptyReply ++ reply.bytes) = .ok (empty, [[], [0x6F, 0x6B]]) := by
      rw [push?_append push?_emptyReply, push?_of_push push_reply]
      rfl
    exact congrArg Prod.snd (push_of_ok hboth)
  exact ⟨hpush, (push_emptyBodies hpush).2.mp List.mem_cons_self⟩

end Reassembler

end Http

end FlowRelay
