import Nvcr.UfRansRoundTrip

/-!
# The framing of merged sub-streams

Two neighbouring sub-streams share one group, the second of them backwards; a header announces
where the groups end. Reading a finished stream therefore starts every sub-decoder at the bytes of
its own sub-encoder.
-/

namespace Nvcr.Uf

open LittleEndian StatefulResults

namespace UfRansCodec

variable {R : UfRansCoder}

section Merging

theorem identicalTail_eq {first second : Bytes} (hfirst : first ≠ []) (hsecond : second ≠ []) :
    identicalTail first second = Rt.RansCodec.identicalTail first second := by
  simp [identicalTail, Rt.RansCodec.identicalTail, hfirst, hsecond]

theorem mergePair_eq {forward reverse : Bytes} (hforward : forward ≠ []) (hreverse : reverse ≠ []) :
    mergePair forward reverse = Rt.RansCodec.mergeStreams forward reverse := by
  rw [mergePair, identicalTail_eq hforward hreverse, Rt.RansCodec.mergeStreams]

theorem length_le_mergePair (forward reverse : Bytes) :
    forward.length ≤ (mergePair forward reverse).length := by
  simp [mergePair]

end Merging

section Offsets

variable {merged : List Bytes} {tail : Bytes} {parallel : ℕ}

theorem groupsEnd_eq_length (merged : List Bytes) (count : ℕ) :
    groupsEnd merged count = (merged.take count).flatten.length := by
  rw [groupsEnd, List.length_flatten]

theorem groupsEnd_succ {count : ℕ} (h : count < merged.length) :
    groupsEnd merged (count + 1) = groupsEnd merged count + (merged.getD count []).length := by
  have hget : merged.getD count [] = merged[count] := by
    rw [List.getD_eq_getElem?_getD, List.getElem?_eq_getElem h, Option.getD_some]
  rw [groupsEnd, groupsEnd, hget, ← List.take_concat_get' merged count h, List.map_append,
    List.sum_append, List.map_singleton, List.sum_singleton]

theorem groupsEnd_length (merged : List Bytes) :
    groupsEnd merged merged.length = merged.flatten.length := by
  rw [groupsEnd_eq_length, List.take_length]

theorem groupsEnd_mono (merged : List Bytes) : Monotone (groupsEnd merged) := by
  intro first second hle
  obtain ⟨more, rfl⟩ := Nat.exists_eq_add_of_le hle
  simp [groupsEnd, List.take_add]

theorem groupsEnd_le (merged : List Bytes) (count : ℕ) :
    groupsEnd merged count ≤ merged.flatten.length := by
  rw [groupsEnd_eq_length]
  conv_rhs => rw [← List.take_append_drop count merged, List.flatten_append, List.length_append]
  exact Nat.le_add_right _ _

/-- The bytes between two neighbouring ends are the group. -/
theorem slice_group {count : ℕ} (h : count < merged.length) (tail : Bytes) :
    ((merged.flatten ++ tail).drop (groupsEnd merged count)).take
      (groupsEnd merged (count + 1) - groupsEnd merged count) = merged.getD count [] := by
  have hget : merged.getD count [] = merged[count] := by
    simp [List.getD_eq_getElem?_getD, List.getElem?_eq_getElem h]
  have hsplit : merged.flatten ++ tail =
      (merged.take count).flatten ++
        (merged[count] ++ ((merged.drop (count + 1)).flatten ++ tail)) := by
    conv_lhs =>
      rw [← List.take_append_drop count merged, List.drop_eq_getElem_cons h, List.flatten_append,
        List.flatten_cons]
    simp only [List.append_assoc]
  rw [groupsEnd_succ h, Nat.add_sub_cancel_left, hget, hsplit, groupsEnd_eq_length,
    List.drop_left, List.take_left]

/-- The offsets that the header announces. -/
def groupOffsets (parallel : ℕ) (merged : List Bytes) : List ℕ :=
  (List.range (offsetCount parallel)).map fun index => groupsEnd merged (index + 1)

theorem headerBytes_eq (parallel : ℕ) (merged : List Bytes) :
    headerBytes parallel merged = (groupOffsets parallel merged).flatMap (leBytes 4) := by
  rw [headerBytes, groupOffsets, List.flatMap_map]

theorem headerBytes_length (parallel : ℕ) (merged : List Bytes) :
    (headerBytes parallel merged).length = 4 * offsetCount parallel := by
  simp [headerBytes, List.length_flatMap, Nat.mul_comm]

/-- A header of small offsets is read back. -/
theorem readOffsets_flatMap (offsets : List ℕ) (payload : Bytes)
    (h : ∀ offset ∈ offsets, offset < 2 ^ 31) :
    readOffsets offsets.length (offsets.flatMap (leBytes 4) ++ payload) = .ok offsets := by
  induction offsets with
  | nil => rfl
  | cons offset offsets ih =>
      obtain ⟨hfirst, hlater⟩ := List.forall_mem_cons.mp h
      have hvalue : leValue (leBytes 4 offset) = offset :=
        leValue_leBytes_of_lt (lt_trans hfirst (by norm_num))
      have hsigned : Int.bmod (offset : ℤ) (2 ^ 32) = offset :=
        Int.bmod_eq_of_le (by omega) (by norm_num; omega)
      rw [List.length_cons, List.flatMap_cons, List.append_assoc, readOffsets]
      simp only [List.take_left' (leBytes_length 4 offset),
        List.drop_left' (leBytes_length 4 offset), hvalue, hsigned, require, Int.natCast_nonneg,
        if_true, ok_bind, ih hlater, Int.toNat_natCast]

theorem groupOffsets_getD {index : ℕ} (h : index < offsetCount parallel) :
    (groupOffsets parallel merged).getD index 0 = groupsEnd merged (index + 1) := by
  simp [groupOffsets, List.getD_eq_getElem?_getD, h]

theorem groupOffsets_getLastD (h : 0 < offsetCount parallel) :
    (groupOffsets parallel merged).getLastD 0 = groupsEnd merged (offsetCount parallel) := by
  obtain ⟨count, hcount⟩ : ∃ count, offsetCount parallel = count + 1 :=
    ⟨offsetCount parallel - 1, by omega⟩
  simp [groupOffsets, hcount, List.range_succ]

theorem groupOffsets_headD (h : 0 < offsetCount parallel) :
    (groupOffsets parallel merged).headD 0 = groupsEnd merged 1 := by
  obtain ⟨count, hcount⟩ : ∃ count, offsetCount parallel = count + 1 :=
    ⟨offsetCount parallel - 1, by omega⟩
  simp [groupOffsets, hcount, List.range_succ_eq_map]

theorem groupOffsets_sorted : (groupOffsets parallel merged).SortedLE := by
  rw [List.sortedLE_iff_pairwise, groupOffsets, List.pairwise_map]
  exact List.pairwise_lt_range.imp fun hlt => groupsEnd_mono merged (by omega)

theorem groupBegin_offsets {pair : ℕ} (h : pair < pairs parallel) :
    groupBegin (groupOffsets parallel merged) pair = groupsEnd merged pair := by
  unfold groupBegin
  split
  · rename_i hzero
    simp [hzero, groupsEnd]
  · rename_i hpos
    rw [groupOffsets_getD (by unfold offsetCount; omega), Nat.sub_add_cancel (by omega)]

/-- Every group but an unannounced last one ends at its offset, and that one with the payload. -/
theorem groupEnd_offsets {pair : ℕ} (hcount : merged.length = pairs parallel)
    (htail : hasTail parallel = false → tail = []) (h : pair < pairs parallel) :
    groupEnd parallel (groupOffsets parallel merged) (merged.flatten ++ tail).length pair =
      groupsEnd merged (pair + 1) := by
  unfold groupEnd
  split
  · exact groupOffsets_getD (by unfold offsetCount; omega)
  · rename_i hlast
    have hpair : pair + 1 = pairs parallel := by omega
    cases hodd : hasTail parallel with
    | true =>
        have hoffsets : offsetCount parallel = pairs parallel := by
          simp only [offsetCount, hodd, if_true]
          omega
        rw [if_pos rfl, groupOffsets_getLastD (by omega), hoffsets, hpair]
    | false =>
        rw [if_neg (by simp), htail hodd, List.append_nil, hpair, ← hcount, groupsEnd_length]

/-- The groups of a payload are read back. -/
theorem readGroups_offsets (hcount : merged.length = pairs parallel)
    (hlong : ∀ group ∈ merged, 4 ≤ group.length) (htail : hasTail parallel = false → tail = [])
    (requested : List ℕ) (h : ∀ pair ∈ requested, pair < pairs parallel) :
    readGroups parallel (groupOffsets parallel merged) (merged.flatten ++ tail) requested =
      .ok (requested.map fun pair => merged.getD pair []) := by
  induction requested with
  | nil => rfl
  | cons pair requested ih =>
      obtain ⟨hpair, hlater⟩ := List.forall_mem_cons.mp h
      have hindex : pair < merged.length := by omega
      have hgroup : 4 ≤ (merged.getD pair []).length := by
        apply hlong
        simp [List.getD_eq_getElem?_getD, List.getElem?_eq_getElem hindex]
      have hinside : ¬ (groupsEnd merged (pair + 1) - groupsEnd merged pair < 4 ∨
          groupsEnd merged (pair + 1) > (merged.flatten ++ tail).length) := by
        have hend := groupsEnd_le merged (pair + 1)
        have hsize := groupsEnd_succ hindex
        rw [List.length_append]
        omega
      simp only [readGroups, groupBegin_offsets hpair, groupEnd_offsets hcount htail hpair, require,
        if_pos hinside, ok_bind, ih hlater, slice_group hindex, List.map_cons]

end Offsets

/-- A stream of more than two coders whose announced offsets fit the header starts a pair of
decoders at every group and one at the tail. -/
theorem setStream_of_offsets {codec : UfRansCodec R} {merged : List Bytes} {tail : Bytes}
    (hthree : 3 ≤ codec.parallel) (hcount : merged.length = pairs codec.parallel)
    (hlong : ∀ group ∈ merged, 4 ≤ group.length)
    (hodd : hasTail codec.parallel = true → 4 ≤ tail.length)
    (heven : hasTail codec.parallel = false → tail = [])
    (hoffsets : ∀ offset ∈ groupOffsets codec.parallel merged, offset < 2 ^ 31) :
    codec.setStream (headerBytes codec.parallel merged ++ (merged.flatten ++ tail)) =
      .ok { codec with
        decoders := merged.flatMap (pairDecoders R) ++
          if hasTail codec.parallel then [R.setStream tail] else []
        streamSet := true } := by
  let stream := headerBytes codec.parallel merged ++ (merged.flatten ++ tail)
  let offsets := groupOffsets codec.parallel merged
  have hone : codec.parallel ≠ 1 := by omega
  have htwo : codec.parallel ≠ 2 := by omega
  have hannounced : 0 < offsetCount codec.parallel := by
    unfold offsetCount pairs hasTail
    by_cases hparity : codec.parallel % 2 = 0
    · simp only [hparity, ne_eq, not_true_eq_false, decide_false, Bool.false_eq_true, if_false]
      omega
    · simp only [hparity, ne_eq, not_false_eq_true, decide_true, if_true]
      omega
  have hfirst : 0 < merged.length := by
    rw [hcount]
    unfold pairs
    omega
  have hheader : (headerBytes codec.parallel merged).length = 4 * offsetCount codec.parallel :=
    headerBytes_length _ _
  have hlength : 4 ≤ stream.length := by
    simp only [stream, List.length_append]
    omega
  have hread : readOffsets (offsetCount codec.parallel) stream = .ok offsets := by
    have hflat := readOffsets_flatMap offsets (merged.flatten ++ tail) hoffsets
    rwa [← headerBytes_eq, show offsets.length = offsetCount codec.parallel by
      simp [offsets, groupOffsets]] at hflat
  have hpayload : stream.drop (4 * offsetCount codec.parallel) = merged.flatten ++ tail :=
    List.drop_left' hheader
  have hlast : offsets.getLastD 0 = groupsEnd merged (offsetCount codec.parallel) :=
    groupOffsets_getLastD hannounced
  have hvalid : ¬ (offsets = [] ∨ offsets.headD 0 < 4 ∨
      offsets.getLastD 0 > (merged.flatten ++ tail).length ∨ ¬ offsets.SortedLE) := by
    have hsome : offsets ≠ [] := by
      intro hnil
      have hzero := congrArg List.length hnil
      simp only [offsets, groupOffsets, List.length_map, List.length_range, List.length_nil] at hzero
      omega
    have hhead : 4 ≤ offsets.headD 0 := by
      have hgroup : 4 ≤ (merged.getD 0 []).length := by
        apply hlong
        simp [List.getD_eq_getElem?_getD, List.getElem?_eq_getElem hfirst]
      have hend : groupsEnd merged 1 = groupsEnd merged 0 + (merged.getD 0 []).length :=
        groupsEnd_succ hfirst
      rw [show offsets.headD 0 = groupsEnd merged 1 from groupOffsets_headD hannounced]
      omega
    have hend := groupsEnd_le merged (offsetCount codec.parallel)
    rw [hlast, List.length_append]
    rintro (hnil | hshort | hbeyond | hunsorted)
    · exact hsome hnil
    · omega
    · omega
    · exact hunsorted groupOffsets_sorted
  have hgroups : readGroups codec.parallel offsets (merged.flatten ++ tail)
      (List.range (pairs codec.parallel)) = .ok merged := by
    rw [readGroups_offsets hcount hlong heven _ fun pair hpair => List.mem_range.mp hpair, ← hcount]
    congr 1
    apply List.ext_getElem
    · simp
    · intro index h₁ h₂
      simp [List.getD_eq_getElem?_getD, List.getElem?_eq_getElem h₂]
  have hfits : 4 * offsetCount codec.parallel ≤ stream.length := by
    simp only [stream, List.length_append]
    omega
  change codec.setStream stream = _
  simp only [setStream, require, if_pos hlength, ok_bind, if_neg hone, if_neg htwo, if_pos hfits,
    hread, hpayload, if_pos hvalid, hgroups]
  cases hparity : hasTail codec.parallel with
  | false =>
      simp only [Bool.false_eq_true, if_false, List.append_nil]
      rfl
  | true =>
      have hcounted : offsetCount codec.parallel = merged.length := by
        rw [hcount] at hfirst ⊢
        simp only [offsetCount, hparity, if_true]
        omega
      have hrest : (merged.flatten ++ tail).drop (offsets.getLastD 0) = tail := by
        rw [hlast, hcounted, groupsEnd_length, List.drop_left]
      simp only [if_true, hrest, if_pos (hodd hparity), ok_bind]
      rfl

/-- A framed stream of more than two coders starts a pair of decoders at every group and one at
the tail. -/
theorem setStream_framed {codec : UfRansCodec R} {merged : List Bytes} {tail : Bytes}
    (hthree : 3 ≤ codec.parallel) (hcount : merged.length = pairs codec.parallel)
    (hlong : ∀ group ∈ merged, 4 ≤ group.length)
    (hodd : hasTail codec.parallel = true → 4 ≤ tail.length)
    (heven : hasTail codec.parallel = false → tail = [])
    (hsize : (headerBytes codec.parallel merged ++ (merged.flatten ++ tail)).length ≤ 2 ^ 31 - 1) :
    codec.setStream (headerBytes codec.parallel merged ++ (merged.flatten ++ tail)) =
      .ok { codec with
        decoders := merged.flatMap (pairDecoders R) ++
          if hasTail codec.parallel then [R.setStream tail] else []
        streamSet := true } := by
  refine setStream_of_offsets hthree hcount hlong hodd heven fun offset hoffset => ?_
  obtain ⟨index, _, rfl⟩ := List.mem_map.mp hoffset
  have hend := groupsEnd_le merged (index + 1)
  simp only [List.length_append] at hsize
  omega

/-- The decoder that a sub-coder starts with: the first of a pair at the merged group, the second
at the same bytes backwards, a tail at its own bytes. -/
def subDecoder (R : UfRansCoder) (parallel : ℕ) (stream : ℕ → Bytes) (index : ℕ) : R.Decoder :=
  if index < 2 * pairs parallel then
    if index % 2 = 0 then R.setStream (mergePair (stream index) (stream (index + 1)))
    else R.setStream (mergePair (stream (index - 1)) (stream index)).reverse
  else R.setStream (stream index)

/-- Every sub-decoder reads the bytes of its sub-encoder, and then some others. -/
theorem subDecoder_eq {parallel index : ℕ} {stream : ℕ → Bytes}
    (hstream : ∀ index, stream index ≠ []) :
    ∃ tail, subDecoder R parallel stream index = R.setStream (stream index ++ tail) := by
  unfold subDecoder
  split
  · split
    · exact ⟨_, rfl⟩
    · obtain ⟨tail, htail⟩ := Rt.RansCodec.reverse_mergeStreams_eq_append
        (hstream (index - 1)) (hstream index)
      exact ⟨tail, by rw [mergePair_eq (hstream _) (hstream _), htail]⟩
  · exact ⟨[], by rw [List.append_nil]⟩

theorem mergedGroups_map_range (parallel : ℕ) (stream : ℕ → Bytes) :
    mergedGroups parallel ((List.range parallel).map stream) =
      (List.range (pairs parallel)).map fun pair =>
        mergePair (stream (2 * pair)) (stream (2 * pair + 1)) := by
  refine List.map_congr_left fun pair hpair => ?_
  have hlt : 2 * pair + 1 < parallel := by
    have hpairs := List.mem_range.mp hpair
    unfold pairs at hpairs
    omega
  have hlt' : 2 * pair < parallel := by omega
  simp [List.getD_eq_getElem?_getD, hlt, hlt']

/-- The decoders of the first pairs, one after the other. -/
theorem flatMap_pairDecoders {parallel count : ℕ} (stream : ℕ → Bytes)
    (h : count ≤ pairs parallel) :
    ((List.range count).map fun pair =>
        mergePair (stream (2 * pair)) (stream (2 * pair + 1))).flatMap (pairDecoders R) =
      (List.range (2 * count)).map (subDecoder R parallel stream) := by
  induction count with
  | zero => rfl
  | succ count ih =>
      have hfirst : subDecoder R parallel stream (2 * count) =
          R.setStream (mergePair (stream (2 * count)) (stream (2 * count + 1))) := by
        rw [subDecoder, if_pos (by omega), if_pos (by omega)]
      have hsecond : subDecoder R parallel stream (2 * count + 1) =
          R.setStream (mergePair (stream (2 * count)) (stream (2 * count + 1))).reverse := by
        rw [subDecoder, if_pos (by omega), if_neg (by omega), Nat.add_sub_cancel]
      rw [List.range_succ, List.map_append, List.flatMap_append, ih (by omega), Nat.mul_succ,
        List.range_succ, List.range_succ]
      simp [pairDecoders, hfirst, hsecond]

theorem tailStream_map_range {parallel : ℕ} (stream : ℕ → Bytes) (hpos : 0 < parallel) :
    tailStream parallel ((List.range parallel).map stream) =
      if hasTail parallel then stream (parallel - 1) else [] := by
  obtain ⟨count, rfl⟩ : ∃ count, parallel = count + 1 := ⟨parallel - 1, by omega⟩
  unfold tailStream
  split
  · simp [List.range_succ]
  · rfl

/-- All decoders of a framed stream. -/
theorem framed_decoders {parallel : ℕ} (stream : ℕ → Bytes) (hpos : 0 < parallel) :
    (mergedGroups parallel ((List.range parallel).map stream)).flatMap (pairDecoders R) ++
        (if hasTail parallel then
          [R.setStream (tailStream parallel ((List.range parallel).map stream))] else []) =
      (List.range parallel).map (subDecoder R parallel stream) := by
  rw [mergedGroups_map_range, flatMap_pairDecoders stream le_rfl, tailStream_map_range stream hpos]
  cases hparity : hasTail parallel with
  | false =>
      have heven : 2 * pairs parallel = parallel := by
        simp only [hasTail, ne_eq, decide_not, Bool.not_eq_eq_eq_not, Bool.not_false,
          decide_eq_true_eq] at hparity
        unfold pairs
        omega
      simp [heven]
  | true =>
      have hodd : 2 * pairs parallel + 1 = parallel := by
        simp only [hasTail, ne_eq, decide_eq_true_eq] at hparity
        unfold pairs
        omega
      have hlast : subDecoder R parallel stream (2 * pairs parallel) =
          R.setStream (stream (2 * pairs parallel)) := by
        rw [subDecoder, if_neg (by omega)]
      conv_rhs => rw [← hodd, List.range_succ, List.map_append, hodd]
      simp [hlast, show parallel - 1 = 2 * pairs parallel by omega]

end UfRansCodec

end Nvcr.Uf
