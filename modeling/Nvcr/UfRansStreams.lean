import Nvcr.UfVendoredRans

/-!
# The streams that a codec of several sub-decoders accepts

A stream for more than two sub-decoders is accepted exactly when it is a header with the ends of
the groups, the groups and a tail; the announced ends then never leave the payload and never run
backwards. Every sub-decoder starts at its own group.
-/

namespace Nvcr.Uf

open LittleEndian StatefulResults

namespace UfRansCodec

variable {R : UfRansCoder}

/-- A stream that is a header, groups of pairs and a tail where the number of coders is odd. -/
structure Framed (parallel : ℕ) (merged : List Bytes) (tail stream : Bytes) : Prop where
  count : merged.length = pairs parallel
  long : ∀ group ∈ merged, 4 ≤ group.length
  tail_long : hasTail parallel = true → 4 ≤ tail.length
  tail_nil : hasTail parallel = false → tail = []
  announced : ∀ offset ∈ groupOffsets parallel merged, offset < 2 ^ 31
  stream_eq : stream = headerBytes parallel merged ++ (merged.flatten ++ tail)

/-- The codec with its decoders at the groups and the tail. -/
def started (codec : UfRansCodec R) (merged : List Bytes) (tail : Bytes) : UfRansCodec R :=
  { codec with
    decoders := merged.flatMap (pairDecoders R) ++
      if hasTail codec.parallel then [R.setStream tail] else []
    streamSet := true }

section Offsets

variable {parallel count : ℕ} {bytes payload : Bytes} {offsets : List ℕ}

theorem readOffset_eq {bytes : Bytes} (hlength : 4 ≤ bytes.length)
    (h : 0 ≤ Int.bmod (leValue (bytes.take 4)) (2 ^ 32)) :
    (Int.bmod (leValue (bytes.take 4)) (2 ^ 32)).toNat = leValue (bytes.take 4) ∧
      leValue (bytes.take 4) < 2 ^ 31 := by
  have hlt := leValue_lt (bytes.take 4)
  rw [List.length_take, Nat.min_eq_left hlength] at hlt
  norm_num at hlt
  rw [Int.bmod_def] at h ⊢
  omega

/-- The header is made of the offsets that are read from it. -/
theorem readOffsets_eq_ok (hlength : 4 * count ≤ bytes.length)
    (h : readOffsets count bytes = .ok offsets) :
    offsets.length = count ∧ (∀ offset ∈ offsets, offset < 2 ^ 31) ∧
      bytes.take (4 * count) = offsets.flatMap (leBytes 4) := by
  induction count generalizing bytes offsets with
  | zero =>
      cases h
      exact ⟨rfl, fun _ hnone => absurd hnone List.not_mem_nil, rfl⟩
  | succ count ih =>
      have hfirst : 4 ≤ bytes.length := by omega
      have hlater : 4 * count ≤ (bytes.drop 4).length := by
        rw [List.length_drop]
        omega
      obtain ⟨_, hvalue, h⟩ := bind_eq_ok.mp h
      obtain ⟨later, hread, h⟩ := bind_eq_ok.mp h
      cases h
      obtain ⟨hsame, hlt⟩ := readOffset_eq hfirst (require_eq_ok.mp hvalue)
      obtain ⟨hcount, hbounded, hbytes⟩ := ih hlater hread
      have hword : leBytes 4 (leValue (bytes.take 4)) = bytes.take 4 := by
        have hback := leBytes_leValue (bytes.take 4)
        rwa [List.length_take, Nat.min_eq_left hfirst] at hback
      refine ⟨congrArg (· + 1) hcount, List.forall_mem_cons.mpr ⟨?_, hbounded⟩, ?_⟩
      · rw [hsame]
        exact hlt
      calc bytes.take (4 * (count + 1)) = bytes.take (4 + 4 * count) := by
            rw [Nat.mul_succ, Nat.add_comm]
        _ = bytes.take 4 ++ (bytes.drop 4).take (4 * count) := List.take_add
        _ = _ := by rw [hbytes, List.flatMap_cons, hsame, hword]

/-- The bytes from the start of a group to its end. -/
def groupSlice (parallel : ℕ) (offsets : List ℕ) (payload : Bytes) (pair : ℕ) : Bytes :=
  (payload.drop (groupBegin offsets pair)).take
    (groupEnd parallel offsets payload.length pair - groupBegin offsets pair)

/-- Groups that are read have at least four bytes and end in the payload. -/
theorem readGroups_eq_ok {requested : List ℕ} {merged : List Bytes}
    (h : readGroups parallel offsets payload requested = .ok merged) :
    merged = requested.map (groupSlice parallel offsets payload) ∧ ∀ pair ∈ requested,
      4 ≤ groupEnd parallel offsets payload.length pair - groupBegin offsets pair ∧
        groupEnd parallel offsets payload.length pair ≤ payload.length := by
  induction requested generalizing merged with
  | nil =>
      cases h
      exact ⟨rfl, fun _ hnone => absurd hnone List.not_mem_nil⟩
  | cons pair requested ih =>
      obtain ⟨_, hinside, h⟩ := bind_eq_ok.mp h
      obtain ⟨later, hread, h⟩ := bind_eq_ok.mp h
      cases h
      obtain ⟨rfl, hbounds⟩ := ih hread
      have hnot := require_eq_ok.mp hinside
      refine ⟨rfl, List.forall_mem_cons.mpr ⟨?_, hbounds⟩⟩
      omega

/-- Where the first groups end in the payload. -/
def boundary (parallel : ℕ) (offsets : List ℕ) (size : ℕ) : ℕ → ℕ
  | 0 => 0
  | pair + 1 => groupEnd parallel offsets size pair

theorem groupBegin_eq_boundary {size pair : ℕ} (h : pair < pairs parallel) :
    groupBegin offsets pair = boundary parallel offsets size pair := by
  cases pair with
  | zero => rfl
  | succ pair => rw [groupBegin, if_neg (Nat.succ_ne_zero pair), boundary, groupEnd, if_pos h,
      Nat.add_sub_cancel]

/-- The first groups cover the payload up to their end. -/
theorem flatten_groups (hcount : count ≤ pairs parallel)
    (hbounds : ∀ pair < pairs parallel,
      4 ≤ groupEnd parallel offsets payload.length pair - groupBegin offsets pair) :
    ((List.range count).map (groupSlice parallel offsets payload)).flatten =
      payload.take (boundary parallel offsets payload.length count) := by
  induction count with
  | zero => rfl
  | succ count ih =>
      have hsize := hbounds count hcount
      have hsplit : boundary parallel offsets payload.length (count + 1) =
          boundary parallel offsets payload.length count +
            (groupEnd parallel offsets payload.length count - groupBegin offsets count) := by
        rw [← groupBegin_eq_boundary hcount, boundary]
        omega
      rw [List.range_succ, List.map_append, List.flatten_append, ih (Nat.le_of_succ_le hcount),
        hsplit, List.take_add, List.map_singleton, List.flatten_singleton, groupSlice,
        groupBegin_eq_boundary hcount]

theorem groupsEnd_groups (hcount : count ≤ pairs parallel)
    (hbounds : ∀ pair < pairs parallel,
      4 ≤ groupEnd parallel offsets payload.length pair - groupBegin offsets pair ∧
        groupEnd parallel offsets payload.length pair ≤ payload.length) :
    groupsEnd ((List.range (pairs parallel)).map (groupSlice parallel offsets payload)) count =
      boundary parallel offsets payload.length count := by
  have hinside : boundary parallel offsets payload.length count ≤ payload.length := by
    cases count with
    | zero => exact Nat.zero_le _
    | succ count => exact (hbounds count hcount).2
  rw [groupsEnd_eq_length, ← List.map_take, List.take_range, Nat.min_eq_left hcount,
    flatten_groups hcount fun pair hpair => (hbounds pair hpair).1, List.length_take,
    Nat.min_eq_left hinside]

theorem getLastD_eq_getD (offsets : List ℕ) :
    offsets.getLastD 0 = offsets.getD (offsets.length - 1) 0 := by
  rw [List.getLastD_eq_getLast?, List.getLast?_eq_getElem?, List.getD_eq_getElem?_getD]

/-- The announced offsets are the ends of the groups. -/
theorem groupOffsets_groups (hpositive : 0 < pairs parallel)
    (hlength : offsets.length = offsetCount parallel)
    (hbounds : ∀ pair < pairs parallel,
      4 ≤ groupEnd parallel offsets payload.length pair - groupBegin offsets pair ∧
        groupEnd parallel offsets payload.length pair ≤ payload.length) :
    groupOffsets parallel
      ((List.range (pairs parallel)).map (groupSlice parallel offsets payload)) = offsets := by
  apply List.ext_getElem
  · rw [groupOffsets, List.length_map, List.length_range, hlength]
  · intro index h₁ h₂
    have hindex : index < offsetCount parallel := hlength ▸ h₂
    have hget : offsets.getD index 0 = offsets[index] := by
      rw [List.getD_eq_getElem?_getD, List.getElem?_eq_getElem h₂, Option.getD_some]
    simp only [groupOffsets, List.getElem_map, List.getElem_range]
    unfold offsetCount at hindex hlength
    by_cases hinner : index + 1 < pairs parallel
    · rw [groupsEnd_groups hinner.le hbounds, boundary, groupEnd, if_pos hinner, hget]
    · cases hodd : hasTail parallel with
      | false =>
          rw [hodd] at hindex
          simp only [Bool.false_eq_true, if_false] at hindex
          omega
      | true =>
          rw [hodd] at hindex hlength
          simp only [if_true] at hindex hlength
          have hlast : index + 1 = pairs parallel := by omega
          have hsame : pairs parallel - 1 + 1 - 1 = index := by omega
          rw [groupsEnd_groups hlast.le hbounds, boundary, groupEnd, if_neg hinner, if_pos hodd,
            getLastD_eq_getD, hlength, hsame, hget]

/-- A header of the ends of groups that cover the payload up to a tail is a framing. -/
theorem framed_groups {tail stream : Bytes} (hpositive : 0 < pairs parallel)
    (hlength : offsets.length = offsetCount parallel)
    (hsmall : ∀ offset ∈ offsets, offset < 2 ^ 31)
    (hbounds : ∀ pair < pairs parallel,
      4 ≤ groupEnd parallel offsets payload.length pair - groupBegin offsets pair ∧
        groupEnd parallel offsets payload.length pair ≤ payload.length)
    (hsplit : stream = offsets.flatMap (leBytes 4) ++ payload)
    (hlong : hasTail parallel = true → 4 ≤ tail.length)
    (hnil : hasTail parallel = false → tail = [])
    (hpayload : payload =
      payload.take (boundary parallel offsets payload.length (pairs parallel)) ++ tail) :
    Framed parallel ((List.range (pairs parallel)).map (groupSlice parallel offsets payload)) tail
      stream where
  count := by rw [List.length_map, List.length_range]
  long := by
    intro group hgroup
    obtain ⟨pair, hpair, rfl⟩ := List.mem_map.mp hgroup
    have hbound := hbounds pair (List.mem_range.mp hpair)
    rw [groupSlice, List.length_take, List.length_drop]
    omega
  tail_long := hlong
  tail_nil := hnil
  announced := by
    rw [groupOffsets_groups hpositive hlength hbounds]
    exact hsmall
  stream_eq := by
    rw [flatten_groups (Nat.le_refl _) fun pair hpair => (hbounds pair hpair).1, ← hpayload,
      headerBytes_eq, groupOffsets_groups hpositive hlength hbounds]
    exact hsplit

end Offsets

section Streams

variable {codec next : UfRansCodec R} {stream : Bytes}

/-- A framed stream starts the decoders. -/
theorem setStream_of_framed {merged : List Bytes} {tail : Bytes} (hthree : 3 ≤ codec.parallel)
    (h : Framed codec.parallel merged tail stream) :
    codec.setStream stream = .ok (codec.started merged tail) := by
  rw [h.stream_eq]
  exact setStream_of_offsets hthree h.count h.long h.tail_long h.tail_nil h.announced

/-- An accepted stream is framed. -/
theorem framed_of_setStream (hthree : 3 ≤ codec.parallel) (h : codec.setStream stream = .ok next) :
    ∃ merged tail, Framed codec.parallel merged tail stream ∧ next = codec.started merged tail := by
  have hone : codec.parallel ≠ 1 := by omega
  have htwo : codec.parallel ≠ 2 := by omega
  obtain ⟨_, _, h⟩ := bind_eq_ok.mp h
  rw [if_neg hone, if_neg htwo] at h
  obtain ⟨_, hheader, h⟩ := bind_eq_ok.mp h
  obtain ⟨offsets, hread, h⟩ := bind_eq_ok.mp h
  obtain ⟨_, hvalid, h⟩ := bind_eq_ok.mp h
  obtain ⟨merged, hmerged, h⟩ := bind_eq_ok.mp h
  obtain ⟨hlength, hsmall, hbytes⟩ := readOffsets_eq_ok (require_eq_ok.mp hheader) hread
  obtain ⟨rfl, hgroups⟩ := readGroups_eq_ok hmerged
  have hbounds : ∀ pair < pairs codec.parallel,
      4 ≤ groupEnd codec.parallel offsets
          (stream.drop (4 * offsetCount codec.parallel)).length pair - groupBegin offsets pair ∧
        groupEnd codec.parallel offsets (stream.drop (4 * offsetCount codec.parallel)).length
          pair ≤ (stream.drop (4 * offsetCount codec.parallel)).length :=
    fun pair hpair => hgroups pair (List.mem_range.mpr hpair)
  have hsplit : stream = stream.take (4 * offsetCount codec.parallel) ++
      stream.drop (4 * offsetCount codec.parallel) := (List.take_append_drop _ _).symm
  generalize stream.drop (4 * offsetCount codec.parallel) = payload at h hvalid hbounds hsplit
  have hpositive : 0 < pairs codec.parallel := by
    unfold pairs
    omega
  obtain ⟨last, hlast⟩ : ∃ last, pairs codec.parallel = last + 1 :=
    ⟨pairs codec.parallel - 1, by omega⟩
  cases hodd : hasTail codec.parallel with
  | false =>
      have hend : boundary codec.parallel offsets payload.length (pairs codec.parallel) =
          payload.length := by
        rw [hlast, boundary, groupEnd, if_neg (by omega), hodd, if_neg Bool.false_ne_true]
      rw [hodd, if_neg Bool.false_ne_true] at h
      cases h
      refine ⟨_, [], framed_groups hpositive hlength hsmall hbounds (hbytes ▸ hsplit)
        (fun htrue => ?_) (fun _ => rfl) ?_, ?_⟩
      · rw [hodd] at htrue
        cases htrue
      · rw [hend, List.take_length, List.append_nil]
      · rw [started, hodd, if_neg Bool.false_ne_true, List.append_nil]
  | true =>
      have hend : boundary codec.parallel offsets payload.length (pairs codec.parallel) =
          offsets.getLastD 0 := by
        rw [hlast, boundary, groupEnd, if_neg (by omega), hodd, if_pos rfl]
      rw [hodd, if_pos rfl] at h
      obtain ⟨_, hlong, h⟩ := bind_eq_ok.mp h
      cases h
      refine ⟨_, payload.drop (offsets.getLastD 0), framed_groups hpositive hlength hsmall hbounds
        (hbytes ▸ hsplit) (fun _ => require_eq_ok.mp hlong) (fun hfalse => ?_) ?_, ?_⟩
      · rw [hodd] at hfalse
        cases hfalse
      · rw [hend, List.take_append_drop]
      · rw [started, hodd, if_pos rfl]

/-- The streams that are accepted for more than two sub-decoders are the framed ones. -/
theorem setStream_eq_ok_iff (hthree : 3 ≤ codec.parallel) :
    codec.setStream stream = .ok next ↔
      ∃ merged tail, Framed codec.parallel merged tail stream ∧
        next = codec.started merged tail := by
  constructor
  · exact framed_of_setStream hthree
  · rintro ⟨merged, tail, hframed, rfl⟩
    exact setStream_of_framed hthree hframed

theorem setStream_three_coders :
    threeCoders.setStream [4, 0, 0, 0, 1, 2, 3, 4, 5, 6, 7, 8] =
      .ok (threeCoders.started [[1, 2, 3, 4]] [5, 6, 7, 8]) :=
  (setStream_eq_ok_iff (by decide)).mpr ⟨[[1, 2, 3, 4]], [5, 6, 7, 8],
    ⟨rfl, by decide, by decide, by decide, by decide, rfl⟩, rfl⟩

end Streams

end UfRansCodec

end Nvcr.Uf
