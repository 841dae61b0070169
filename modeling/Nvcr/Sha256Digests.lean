import Nvcr.Sha256

/-!
# The digests are those of the standard

The loops of `transform` compute the schedule and the rounds of the standard. Between two calls
the buffer holds what has been taken since the last full block, and finishing pads it to one or
two more blocks.
-/

namespace Nvcr.Sha256

open SecureHashStandard

section Transform

theorem rotr_eq {n : UInt32} {k : ℕ} (hn : n.toNat = k) (hk : 0 < k ∧ k < 32) (x : UInt32) :
    rotr x n = SecureHashStandard.rotr k x := by
  have hleft : (32 - n).toNat = 32 - k := by
    have hle : n ≤ 32 := by
      rw [UInt32.le_iff_toNat_le, hn]
      exact hk.2.le
    rw [UInt32.toNat_sub_of_le _ _ hle, hn]
    rfl
  apply UInt32.toBitVec_inj.mp
  have hright : n.toBitVec % 32 = BitVec.ofNat 32 k := by
    apply BitVec.eq_of_toNat_eq
    rw [BitVec.toNat_umod, UInt32.toNat_toBitVec, hn, BitVec.toNat_ofNat,
      Nat.mod_eq_of_lt (by omega : k < 2 ^ 32)]
    exact Nat.mod_eq_of_lt hk.2
  have hback : (32 - n).toBitVec % 32 = BitVec.ofNat 32 (32 - k) := by
    apply BitVec.eq_of_toNat_eq
    rw [BitVec.toNat_umod, UInt32.toNat_toBitVec, hleft, BitVec.toNat_ofNat,
      Nat.mod_eq_of_lt (by omega : 32 - k < 2 ^ 32)]
    exact Nat.mod_eq_of_lt (by omega : 32 - k < 32)
  have hamount (m : ℕ) (hm : m < 32) : (BitVec.ofNat 32 m).toNat = m := by
    rw [BitVec.toNat_ofNat, Nat.mod_eq_of_lt (by omega)]
  rw [rotr, SecureHashStandard.rotr, UInt32.toBitVec_or, UInt32.toBitVec_shiftRight,
    UInt32.toBitVec_shiftLeft, hright, hback, BitVec.ushiftRight_eq', BitVec.shiftLeft_eq',
    hamount k hk.2, hamount (32 - k) (by omega), BitVec.rotateRight, BitVec.rotateRightAux,
    Nat.mod_eq_of_lt hk.2]

theorem shr_eq {n : UInt32} {k : ℕ} (hn : n.toNat = k) (hk : k < 32) (x : UInt32) :
    x >>> n = shr k x := by
  apply UInt32.toBitVec_inj.mp
  have hright : n.toBitVec % 32 = BitVec.ofNat 32 k := by
    apply BitVec.eq_of_toNat_eq
    rw [BitVec.toNat_umod, UInt32.toNat_toBitVec, hn, BitVec.toNat_ofNat,
      Nat.mod_eq_of_lt (by omega : k < 2 ^ 32)]
    exact Nat.mod_eq_of_lt hk
  rw [shr, UInt32.toBitVec_shiftRight, hright, BitVec.ushiftRight_eq', BitVec.toNat_ofNat,
    Nat.mod_eq_of_lt (by omega : k < 2 ^ 32)]

/-- A loop that fills in words from left to right, each from those before it. -/
theorem fill_getD (value : ℕ → UInt32) (compute : List UInt32 → ℕ → UInt32) (start : ℕ)
    (words : List UInt32) (hstart : ∀ t < start, words.getD t 0 = value t)
    (hcompute : ∀ words index, start ≤ index → (∀ t < index, words.getD t 0 = value t) →
      compute words index = value index) (count : ℕ) (hcount : start + count ≤ words.length) :
    ((List.range' start count).foldl (fun words index => words.set index (compute words index))
        words).length = words.length ∧
      ∀ t < start + count, ((List.range' start count).foldl
        (fun words index => words.set index (compute words index)) words).getD t 0 = value t := by
  induction count with
  | zero => exact ⟨rfl, hstart⟩
  | succ count ih =>
      obtain ⟨hlength, hvalues⟩ := ih (by omega)
      rw [List.range'_concat, List.foldl_append, Nat.one_mul]
      generalize (List.range' start count).foldl _ words = filled at hlength hvalues ⊢
      rw [List.foldl_cons, List.foldl_nil, hcompute filled (start + count) (by omega) hvalues]
      refine ⟨by rw [List.length_set, hlength], ?_⟩
      intro t ht
      rw [List.getD_eq_getElem?_getD, List.getElem?_set]
      by_cases heq : start + count = t
      · rw [if_pos heq, if_pos (by omega), Option.getD_some, heq]
      · rw [if_neg heq, ← List.getD_eq_getElem?_getD]
        exact hvalues t (by omega)

theorem expandedWord_eq {block : ℕ → Word} {words : List UInt32} {index : ℕ} (hindex : 16 ≤ index)
    (hwords : ∀ t < index, words.getD t 0 = schedule block t) :
    expandedWord words index = schedule block index := by
  rw [schedule_of_ge _ (by omega), expandedWord, hwords _ (by omega), hwords _ (by omega),
    hwords _ (by omega), hwords _ (by omega)]
  simp only [smallSigma0, smallSigma1, rotr_eq (n := 7) (k := 7) rfl (by decide),
    rotr_eq (n := 18) (k := 18) rfl (by decide), rotr_eq (n := 17) (k := 17) rfl (by decide),
    rotr_eq (n := 19) (k := 19) rfl (by decide), shr_eq (n := 3) (k := 3) rfl (by decide),
    shr_eq (n := 10) (k := 10) rfl (by decide)]
  ac_rfl

/-- The two loops compute the schedule of the block. -/
theorem scheduleWords_getD (block : Bytes) {t : ℕ} (ht : t < 64) :
    (scheduleWords block).getD t 0 = schedule (byteBlockWords block) t := by
  have hloaded : (List.range' 0 16).foldl (fun words index =>
      words.set index (schedule (byteBlockWords block) index)) (List.replicate 64 0) =
        loadWords block (List.replicate 64 0) := by
    refine List.foldl_ext _ _ _ fun words index hindex => ?_
    rw [schedule_of_lt _ (by simpa using hindex)]
    simp only [byteBlockWords, wordOfBytes, Nat.mul_comm 4 index]
  have hload := fill_getD (schedule (byteBlockWords block))
    (fun _ => schedule (byteBlockWords block)) 0 (List.replicate 64 0)
    (fun t ht => absurd ht (Nat.not_lt_zero t)) (fun _ _ _ _ => rfl) 16 (by decide)
  rw [hloaded] at hload
  have hexpand := fill_getD (schedule (byteBlockWords block)) expandedWord 16
    (loadWords block (List.replicate 64 0)) (fun t ht => hload.2 t (by omega))
    (fun words index hindex => expandedWord_eq hindex) 48 (by rw [hload.1]; decide)
  exact hexpand.2 t (by omega)

theorem roundConstants_getD {t : ℕ} (ht : t < 64) : roundConstants.getD t 0 = roundConstant t := by
  have hlists : ListsFractions 3 roundConstants := by decide +kernel
  exact (hlists.rootFraction_eq (by decide) (by decide) ht).symm

theorem initialState_eq : ({} : Sha256).state = initialHash := by
  have hlists : ListsFractions 2 [0x6a09e667, 0xbb67ae85, 0x3c6ef372, 0xa54ff53a, 0x510e527f,
      0x9b05688c, 0x1f83d9ab, 0x5be0cd19] := by
    decide +kernel
  have hword (index : ℕ) (hindex : index < 8) :=
    hlists.rootFraction_eq (by decide) (by decide) hindex
  rw [initialHash, hword 0 (by decide), hword 1 (by decide), hword 2 (by decide),
    hword 3 (by decide), hword 4 (by decide), hword 5 (by decide), hword 6 (by decide),
    hword 7 (by decide)]
  simp only [List.getD_cons_zero, List.getD_cons_succ]

theorem turn_eq (block : Bytes) (v : Variables) {t : ℕ} (ht : t < 64) :
    turn (scheduleWords block) v t =
      SecureHashStandard.round (roundConstant t) (schedule (byteBlockWords block) t) v := by
  simp only [turn, SecureHashStandard.round, scheduleWords_getD block ht, roundConstants_getD ht, bigSigma0, bigSigma1,
    choose, majority, rotr_eq (n := 6) (k := 6) rfl (by decide),
    rotr_eq (n := 11) (k := 11) rfl (by decide), rotr_eq (n := 25) (k := 25) rfl (by decide),
    rotr_eq (n := 2) (k := 2) rfl (by decide), rotr_eq (n := 13) (k := 13) rfl (by decide),
    rotr_eq (n := 22) (k := 22) rfl (by decide)]

/-- Transforming with a block compresses it. -/
theorem transform_eq (state : Variables) (block : Bytes) :
    transform state block = compressBytes state block := by
  have hrounds : (List.range 64).foldl (turn (scheduleWords block)) state =
      rounds roundConstant (byteBlockWords block) state :=
    List.foldl_ext _ _ _ fun v t ht => turn_eq block v (List.mem_range.mp ht)
  rw [transform, hrounds, compressBytes, Variables.add]
  simp only [UInt32.add_comm]

end Transform

section Buffering

/-- The buffer holds `pending`, and the state is that after the given blocks. -/
structure Holds (hash : Sha256) (blocks : List Bytes) (pending : Bytes) : Prop where
  blocks_length : ∀ block ∈ blocks, block.length = 64
  state : hash.state = blocks.foldl compressBytes initialHash
  buffer_length : hash.buffer.length = 64
  size : hash.bufferSize = pending.length
  pending : hash.buffer.take pending.length = pending

theorem holds_initial : Holds {} [] [] :=
  ⟨fun _ hmem => (nomatch hmem), initialState_eq, rfl, rfl, rfl⟩

variable {hash : Sha256} {blocks : List Bytes} {pending : Bytes}

theorem Holds.push (h : Holds hash blocks pending) (hroom : pending.length < 64) (byte : UInt8) :
    Holds (hash.push byte) blocks (pending ++ [byte]) where
  blocks_length := h.blocks_length
  state := h.state
  buffer_length := by rw [Sha256.push, List.length_set, h.buffer_length]
  size := by rw [Sha256.push, h.size, List.length_append, List.length_singleton]
  pending := by
    have hlt : pending.length < hash.buffer.length := by rw [h.buffer_length]; exact hroom
    rw [Sha256.push, h.size, List.length_append, List.length_singleton, List.take_succ_eq_append_getElem
      (by rw [List.length_set]; exact hlt), List.take_set_of_le (le_refl _), h.pending,
      List.getElem_set_self]

/-- A full buffer becomes a block. -/
theorem Holds.compressBuffer (h : Holds hash blocks pending) (hfull : pending.length = 64) :
    Holds hash.compressBuffer (blocks ++ [pending]) [] where
  blocks_length := by
    intro block hmem
    rcases List.mem_append.mp hmem with hmem | hmem
    · exact h.blocks_length block hmem
    · rwa [List.mem_singleton.mp hmem]
  state := by
    have hbuffer : hash.buffer = pending := by
      have hpending := h.pending
      rwa [hfull, ← h.buffer_length, List.take_length] at hpending
    rw [compressBuffer_state, transform_eq, hbuffer, h.state, List.foldl_append,
      List.foldl_cons, List.foldl_nil]
  buffer_length := by rw [compressBuffer_buffer, h.buffer_length]
  size := by rw [compressBuffer_bufferSize, List.length_nil]
  pending := by rw [List.length_nil, List.take_zero]

theorem Holds.updateByte (h : Holds hash blocks pending) (hroom : pending.length < 64)
    (byte : UInt8) : ∃ blocks' pending', Holds (hash.updateByte byte) blocks' pending' ∧
      pending'.length < 64 ∧ blocks'.flatten ++ pending' = blocks.flatten ++ pending ++ [byte] := by
  have hpush := h.push hroom byte
  rw [Sha256.updateByte]
  by_cases hfull : (hash.push byte).bufferSize = 64
  · rw [if_pos hfull]
    rw [hpush.size] at hfull
    refine ⟨_, _, hpush.compressBuffer hfull, by decide, ?_⟩
    simp
  · rw [if_neg hfull]
    rw [hpush.size, List.length_append, List.length_singleton] at hfull
    refine ⟨_, _, hpush, ?_, ?_⟩
    · rw [List.length_append, List.length_singleton]
      omega
    · rw [List.append_assoc]

theorem push_totalBytes (hash : Sha256) (byte : UInt8) :
    (hash.push byte).totalBytes = hash.totalBytes := rfl

theorem updateByte_totalBytes (hash : Sha256) (byte : UInt8) :
    (hash.updateByte byte).totalBytes = hash.totalBytes := by
  rw [Sha256.updateByte]
  split
  · rw [compressBuffer_totalBytes, push_totalBytes]
  · exact push_totalBytes hash byte

/-- The object has taken the bytes of `message`. -/
def Absorbed (hash : Sha256) (message : Bytes) : Prop :=
  hash.totalBytes = UInt64.ofNat message.length ∧
    ∃ blocks pending, Holds hash blocks pending ∧ pending.length < 64 ∧
      blocks.flatten ++ pending = message

theorem absorbed_initial : Absorbed {} [] :=
  ⟨rfl, [], [], holds_initial, by decide, rfl⟩

theorem absorbed_bytes {message : Bytes} (input : Bytes)
    (h : ∃ blocks pending, Holds hash blocks pending ∧ pending.length < 64 ∧
      blocks.flatten ++ pending = message) :
    (input.foldl Sha256.updateByte hash).totalBytes = hash.totalBytes ∧
      ∃ blocks pending, Holds (input.foldl Sha256.updateByte hash) blocks pending ∧
        pending.length < 64 ∧ blocks.flatten ++ pending = message ++ input := by
  induction input generalizing hash message with
  | nil =>
      rw [List.append_nil]
      exact ⟨rfl, h⟩
  | cons byte input ih =>
      obtain ⟨blocks, pending, hholds, hroom, hmessage⟩ := h
      obtain ⟨blocks', pending', hholds', hroom', hmessage'⟩ := hholds.updateByte hroom byte
      obtain ⟨htotal, hlater⟩ := ih ⟨blocks', pending', hholds', hroom', hmessage'⟩
      refine ⟨htotal.trans (updateByte_totalBytes hash byte), ?_⟩
      rw [hmessage, List.append_assoc, List.singleton_append] at hlater
      exact hlater

theorem Absorbed.update {message : Bytes} (h : Absorbed hash message) (input : Bytes) :
    Absorbed (hash.update input) (message ++ input) := by
  obtain ⟨htotal, blocks, pending, hholds, hroom, hmessage⟩ := h
  have hcounted : Holds { hash with totalBytes := hash.totalBytes + UInt64.ofNat input.length }
      blocks pending :=
    ⟨hholds.blocks_length, hholds.state, hholds.buffer_length, hholds.size, hholds.pending⟩
  obtain ⟨htotal', hlater⟩ := absorbed_bytes input ⟨blocks, pending, hcounted, hroom, hmessage⟩
  refine ⟨htotal'.trans ?_, hlater⟩
  rw [htotal, List.length_append, UInt64.ofNat_add]

end Buffering

section Finishing

variable {hash : Sha256} {blocks : List Bytes} {pending : Bytes}

theorem Holds.pushZeros (h : Holds hash blocks pending) {size : ℕ} (hsize : size ≤ 64) :
    Holds (hash.pushZeros size) blocks
      (pending ++ List.replicate (size - pending.length) 0) := by
  rw [Sha256.pushZeros, h.size]
  have hroom : pending.length + (size - pending.length) ≤ max 64 pending.length := by omega
  generalize size - pending.length = count at hroom
  induction count with
  | zero => simpa using h
  | succ count ih =>
      have hlater := (ih (by omega)).push (by simp; omega) 0
      rw [List.range_succ, List.foldl_append, List.foldl_cons, List.foldl_nil,
        List.replicate_succ', ← List.append_assoc]
      exact hlater

theorem pushZeros_totalBytes (hash : Sha256) (size : ℕ) :
    (hash.pushZeros size).totalBytes = hash.totalBytes := by
  rw [Sha256.pushZeros]
  induction size - hash.bufferSize with
  | zero => rfl
  | succ count ih =>
      rw [List.range_succ, List.foldl_append, List.foldl_cons, List.foldl_nil, push_totalBytes, ih]

theorem toUInt8_shiftRight64 (word : UInt64) {index : ℕ} (hindex : index < 8) :
    (word >>> UInt64.ofNat (index * 8)).toUInt8 = UInt8.ofNat (word.toNat / 256 ^ index) := by
  have hamount : (UInt64.ofNat (index * 8)).toNat = index * 8 :=
    UInt64.toNat_ofNat_of_lt' (by change _ < 2 ^ 64; omega)
  have hmod : index * 8 % 64 = 8 * index := by omega
  apply UInt8.toNat_inj.mp
  rw [UInt64.toNat_toUInt8, UInt64.toNat_shiftRight, hamount, hmod, Nat.shiftRight_eq_div_pow,
    pow_mul, show 2 ^ 8 = 256 from rfl, UInt8.toNat_ofNat']

theorem toUInt8_shiftRight32 (word : UInt32) {index : ℕ} (hindex : index < 4) :
    (word >>> UInt32.ofNat (index * 8)).toUInt8 = UInt8.ofNat (word.toNat / 256 ^ index) := by
  have hamount : (UInt32.ofNat (index * 8)).toNat = index * 8 :=
    UInt32.toNat_ofNat_of_lt' (by change _ < 2 ^ 32; omega)
  have hmod : index * 8 % 32 = 8 * index := by omega
  apply UInt8.toNat_inj.mp
  rw [UInt32.toNat_toUInt8, UInt32.toNat_shiftRight, hamount, hmod, Nat.shiftRight_eq_div_pow,
    pow_mul, show 2 ^ 8 = 256 from rfl, UInt8.toNat_ofNat']

theorem digest_eq (state : Variables) : digest state = state.bytes := by
  rw [digest, Variables.bytes]
  congr 1
  funext word
  rw [beBytes]
  apply List.map_congr_left
  intro byte hbyte
  exact toUInt8_shiftRight32 word (by omega)

/-- Eight writes from the last position downwards replace the last eight elements. -/
theorem foldl_set_last (front tail : Bytes) (hfront : front.length = 56) (htail : tail.length = 8)
    (byte : ℕ → UInt8) :
    (List.range 8).foldl (fun buffer index => buffer.set (63 - index) (byte index))
      (front ++ tail) = front ++ (List.range 8).map fun index => byte (7 - index) := by
  match tail, htail with
  | [x0, x1, x2, x3, x4, x5, x6, x7], _ => simp [List.range_succ, hfront]

theorem writeBitLength_buffer (h : Holds hash blocks pending) (hsize : pending.length = 56)
    (bitLength : UInt64) :
    (hash.writeBitLength bitLength).buffer = pending ++ beBytes 8 bitLength.toNat := by
  have hsplit : hash.buffer = pending ++ hash.buffer.drop 56 := by
    conv_lhs => rw [← List.take_append_drop pending.length hash.buffer, h.pending, hsize]
  have htail : (hash.buffer.drop 56).length = 8 := by rw [List.length_drop, h.buffer_length]
  rw [writeBitLength, hsplit, foldl_set_last pending _ hsize htail, beBytes]
  refine congrArg (pending ++ ·) (List.map_congr_left ?_)
  intro index hindex
  exact toUInt8_shiftRight64 bitLength (by omega)

/-- A block filled up to its last eight bytes, with the bit count behind it, ends the message. -/
theorem last_block (h : Holds hash blocks pending) (hsize : pending.length ≤ 56)
    (bitLength : UInt64) :
    let filled := (hash.pushZeros 56).writeBitLength bitLength
    transform filled.state filled.buffer =
      (blocks ++ [pending ++ List.replicate (56 - pending.length) 0 ++
        beBytes 8 bitLength.toNat]).foldl compressBytes initialHash := by
  have hzeros := h.pushZeros (by decide : 56 ≤ 64)
  have hlength : (pending ++ List.replicate (56 - pending.length) 0).length = 56 := by
    rw [List.length_append, List.length_replicate]
    omega
  have hstate : ((hash.pushZeros 56).writeBitLength bitLength).state = (hash.pushZeros 56).state :=
    by rw [writeBitLength]
  simp only [hstate]
  rw [writeBitLength_buffer hzeros hlength, transform_eq, hzeros.state, List.foldl_append,
    List.foldl_cons, List.foldl_nil]

theorem flatten_length {blocks : List Bytes} (h : ∀ block ∈ blocks, block.length = 64) :
    blocks.flatten.length = 64 * blocks.length := by
  induction blocks with
  | nil => rfl
  | cons block blocks ih =>
      rw [List.flatten_cons, List.length_append, h block List.mem_cons_self,
        ih fun other hother => h other (List.mem_cons_of_mem _ hother), List.length_cons]
      ring

/-- The padded message is cut into blocks of which the last one carries the bit count. -/
theorem hash_of_last (hblocks : ∀ block ∈ blocks, block.length = 64) (hsize : pending.length ≤ 56)
    {message : Bytes} (hmessage : message ++ 0x80 :: List.replicate (zeroBytes message.length) 0 =
      blocks.flatten ++ (pending ++ List.replicate (56 - pending.length) 0)) :
    SecureHashStandard.hash (bitsOfBytes message) =
      (blocks ++ [pending ++ List.replicate (56 - pending.length) 0 ++
        beBytes 8 (8 * message.length)]).foldl compressBytes initialHash := by
  refine hash_of_blocks ?_ ?_
  · intro block hmem
    rcases List.mem_append.mp hmem with hmem | hmem
    · exact hblocks block hmem
    · rw [List.mem_singleton.mp hmem]
      simp only [List.length_append, List.length_replicate, beBytes_length]
      omega
  · rw [padBytes, ← List.cons_append, ← List.append_assoc, hmessage]
    simp

/-- Finishing gives the digest of all bytes taken. -/
theorem finish_eq {message : Bytes} (h : Absorbed hash message) :
    hash.finish = (SecureHashStandard.hash (bitsOfBytes message)).bytes := by
  obtain ⟨htotal, blocks, pending, hholds, hroom, hmessage⟩ := h
  have hlength : message.length = 64 * blocks.length + pending.length := by
    rw [← hmessage, List.length_append, flatten_length hholds.blocks_length]
  have hbits : beBytes 8 (hash.totalBytes * 8).toNat = beBytes 8 (8 * message.length) := by
    have hwrapped : (hash.totalBytes * 8).toNat = 8 * message.length % 256 ^ 8 := by
      rw [htotal, UInt64.toNat_mul, UInt64.toNat_ofNat']
      change message.length % 2 ^ 64 * 8 % 2 ^ 64 = 8 * message.length % 2 ^ 64
      omega
    rw [hwrapped, beBytes_mod]
  have hmarked := hholds.push hroom 0x80
  have hsize : (pending ++ [0x80]).length = pending.length + 1 := List.length_append
  rw [finish, digest_eq, hmarked.size, hsize]
  congr 1
  by_cases hfull : pending.length + 1 > 56
  · have hopened := (hmarked.pushZeros (le_refl 64)).compressBuffer (by
      rw [List.length_append, List.length_replicate]
      omega)
    rw [if_pos hfull, last_block hopened (by decide), hbits]
    refine (hash_of_last hopened.blocks_length (by decide) ?_).symm
    have hzeros : zeroBytes message.length = (64 - (pending.length + 1)) + 56 := by
      unfold zeroBytes
      omega
    rw [hzeros, List.replicate_add, ← hmessage, hsize]
    simp
  · rw [if_neg hfull, last_block hmarked (by omega), hbits]
    refine (hash_of_last hholds.blocks_length (by omega) ?_).symm
    have hzeros : zeroBytes message.length = 56 - (pending.length + 1) := by
      unfold zeroBytes
      omega
    rw [hzeros, ← hmessage, hsize]
    simp

end Finishing

section Files

variable {hash : Sha256}

/-- Reading a file takes all its bytes, however they fall into the read buffer. -/
theorem Absorbed.readLoop {message : Bytes} (h : Absorbed hash message) (content : Bytes) :
    Absorbed (hash.readLoop content) (message ++ content) := by
  induction hn : content.length using Nat.strongRecOn generalizing hash message content with
  | ind n ih =>
      have hnext : Absorbed (if (content.take bufferBytes).length > 0 then
          hash.update (content.take bufferBytes) else hash)
          (message ++ content.take bufferBytes) := by
        by_cases hempty : (content.take bufferBytes).length > 0
        · rw [if_pos hempty]
          exact h.update _
        · have hnil : content.take bufferBytes = [] :=
            List.eq_nil_of_length_eq_zero (Nat.eq_zero_of_not_pos hempty)
          rw [if_neg hempty, hnil, List.append_nil]
          exact h
      rw [Sha256.readLoop]
      by_cases hshort : (content.take bufferBytes).length < bufferBytes
      · simp only [hshort, dite_true]
        rw [List.length_take] at hshort
        rwa [List.take_of_length_le (by omega)] at hnext ⊢
      · simp only [hshort, dite_false]
        have hbuffer : 0 < bufferBytes := by decide
        rw [List.length_take] at hshort
        have hlater := ih (content.drop bufferBytes).length
          (by rw [List.length_drop]; omega) hnext (content.drop bufferBytes) rfl
        rwa [List.append_assoc, List.take_append_drop] at hlater

/-- A file that is read to its end. -/
def InputFile.Readable (file : InputFile) : Prop := file.opens = true ∧ file.fails = false

theorem hashFiles_absorbed (files : String → InputFile) (subsystem : String) {message : Bytes}
    (h : Absorbed hash message) (paths : List String)
    (hreadable : ∀ path ∈ paths, (files path).Readable) :
    ∃ hash', hashFiles files subsystem hash paths = .ok hash' ∧
      Absorbed hash' (message ++ paths.flatMap fun path => (files path).content) := by
  induction paths generalizing hash message with
  | nil => exact ⟨hash, rfl, by simpa using h⟩
  | cons path paths ih =>
      obtain ⟨hopens, hfails⟩ := hreadable path List.mem_cons_self
      obtain ⟨hash', hlater, habsorbed⟩ := ih (h.readLoop (files path).content)
        fun other hother => hreadable other (List.mem_cons_of_mem _ hother)
      refine ⟨hash', ?_, ?_⟩
      · simp only [hashFiles, hopens, hfails, not_true_eq_false, if_false, Bool.false_eq_true]
        exact hlater
      · rw [List.flatMap_cons, ← List.append_assoc]
        exact habsorbed

/-- A file that does not open, or fails on the way, is reported. -/
theorem hashFiles_error (files : String → InputFile) (subsystem : String) (hash : Sha256)
    (paths : List String) (hunreadable : ∃ path ∈ paths, ¬ (files path).Readable) :
    ∃ e, hashFiles files subsystem hash paths = .error e ∧ e.code = .ioError := by
  induction paths generalizing hash with
  | nil =>
      obtain ⟨path, hmem, -⟩ := hunreadable
      exact nomatch hmem
  | cons path paths ih =>
      rw [hashFiles]
      by_cases hopens : (files path).opens = true
      · rw [if_neg (by simp [hopens])]
        by_cases hfails : (files path).fails = true
        · simp only [hfails, if_true]
          exact ⟨_, rfl, rfl⟩
        · simp only [hfails, if_false, Bool.false_eq_true]
          apply ih
          obtain ⟨other, hmem, hother⟩ := hunreadable
          rcases List.mem_cons.mp hmem with rfl | hmem
          · exact absurd ⟨hopens, by simpa using hfails⟩ hother
          · exact ⟨other, hmem, hother⟩
      · rw [if_pos (by simpa using hopens)]
        exact ⟨_, rfl, rfl⟩

theorem absorbed_updates {message : Bytes} (h : Absorbed hash message) (inputs : List Bytes) :
    Absorbed (inputs.foldl Sha256.update hash) (message ++ inputs.flatten) := by
  induction inputs generalizing hash message with
  | nil => simpa using h
  | cons input inputs ih =>
      rw [List.foldl_cons, List.flatten_cons, ← List.append_assoc]
      exact ih (h.update input)

end Files

/-- The digest is that of the standard, however the message reaches the hash object: in updates
of any size, in the reads of one or more files, or as one text. -/
theorem digests_are_standard :
    (∀ inputs : List Bytes, bitsOfBytes ((inputs.foldl Sha256.update {}).finish) =
      sha256 (bitsOfBytes inputs.flatten)) ∧
    (∀ (files : String → InputFile) (paths : List String) (subsystem : String),
      ((∀ path ∈ paths, (files path).Readable) →
        ∃ digest, sha256Files files paths subsystem = .ok (toHex digest) ∧ bitsOfBytes digest =
          sha256 (bitsOfBytes (paths.flatMap fun path => (files path).content))) ∧
      ((∃ path ∈ paths, ¬ (files path).Readable) →
        ∃ e, sha256Files files paths subsystem = .error e ∧ e.code = .ioError)) ∧
    ∀ text : Bytes, ∃ digest, sha256Text text = toHex digest ∧
      bitsOfBytes digest = sha256 (bitsOfBytes text) := by
  refine ⟨?_, ?_, ?_⟩
  · intro inputs
    rw [finish_eq (absorbed_updates absorbed_initial inputs), bitsOfBytes_bytes, List.nil_append]
    rfl
  · intro files paths subsystem
    refine ⟨?_, ?_⟩
    · intro hreadable
      obtain ⟨hash, hhash, habsorbed⟩ := hashFiles_absorbed files subsystem absorbed_initial
        paths hreadable
      refine ⟨hash.finish, ?_, ?_⟩
      · rw [sha256Files, hhash]
        rfl
      · rw [finish_eq habsorbed, bitsOfBytes_bytes, List.nil_append]
        rfl
    · intro hunreadable
      obtain ⟨e, he, hcode⟩ := hashFiles_error files subsystem {} paths hunreadable
      exact ⟨e, by rw [sha256Files, he]; rfl, hcode⟩
  · intro text
    refine ⟨_, rfl, ?_⟩
    rw [finish_eq (absorbed_initial.update text), bitsOfBytes_bytes, List.nil_append]
    rfl

end Nvcr.Sha256
