import Mathlib.Algebra.Group.Nat.Defs
import UmmapIo.Mapping.Operations

/-!
# Touching a buffer

The wrappers of `read`, `write`, `fread` and `fwrite` touch the buffer that they are
given, one byte per page from its last byte backwards, and its first byte at the end.
-/

namespace UmmapIo

/-- The values of the index of the loop in `ummap_touch` from `start` on, for at most
`rounds` rounds. -/
def touchedIndices : Nat → Int → List Int
  | 0, _ => []
  | rounds + 1, start =>
      if 0 ≤ start then start :: touchedIndices rounds (start - 4096) else []

/-- The addresses that `ummap_touch` touches.  The index is a signed number of 64
bits. -/
def touchedAddresses (buf size : Nat) : List Nat :=
  if size = 0 then []
  else
    (touchedIndices size (BitVec.ofNat 64 (size - 1)).toInt).map
      (fun index => ((buf : Int) + index).toNat) ++ [buf]

/-- `ummap_touch`. -/
def Mapping.ummapTouch (mapping : Mapping) (buf size : Nat)
    (isWrite : Bool) : MappingProgram Unit :=
  Program.each (fun address => mapping.onSegmentationFault address isWrite)
    (touchedAddresses buf size)

theorem mem_touchedIndices {rounds : Nat} {start index : Int} :
    index ∈ touchedIndices rounds start ↔
      0 ≤ index ∧ ∃ round < rounds, index = start - 4096 * round := by
  induction rounds generalizing start with
  | zero => simp [touchedIndices]
  | succ rounds inductionHypothesis =>
      unfold touchedIndices
      split
      · rw [List.mem_cons, inductionHypothesis]
        constructor
        · rintro (rfl | ⟨inside, round, below, same⟩)
          · exact ⟨‹_›, 0, by omega, by simp⟩
          · exact ⟨inside, round + 1, by omega, by push_cast; omega⟩
        · rintro ⟨inside, round, below, same⟩
          cases round with
          | zero => exact Or.inl (by simpa using same)
          | succ round =>
              exact Or.inr ⟨inside, round, by omega, by push_cast at same; omega⟩
      · simp only [List.not_mem_nil, false_iff]
        rintro ⟨inside, round, _, same⟩
        omega

/-- The touched addresses of a buffer that is not empty. -/
theorem mem_touchedAddresses {buf size address : Nat} (positive : 0 < size)
    (small : size < 2 ^ 63) :
    address ∈ touchedAddresses buf size ↔
      address = buf ∨ ∃ round, 4096 * round < size ∧
        address = buf + (size - 1 - 4096 * round) := by
  have start : (BitVec.ofNat 64 (size - 1)).toInt = (size : Int) - 1 := by
    rw [BitVec.toInt_eq_toNat_cond, BitVec.toNat_ofNat,
      Nat.mod_eq_of_lt (by omega), if_pos (by omega)]
    omega
  unfold touchedAddresses
  rw [if_neg (by omega), start, List.mem_append, List.mem_singleton, List.mem_map,
    or_comm]
  refine or_congr_right ⟨?_, ?_⟩
  · rintro ⟨index, member, rfl⟩
    obtain ⟨inside, round, _, rfl⟩ := mem_touchedIndices.mp member
    exact ⟨round, by omega, by omega⟩
  · rintro ⟨round, below, rfl⟩
    refine ⟨(size : Int) - 1 - 4096 * round, mem_touchedIndices.mpr ?_, by omega⟩
    exact ⟨by omega, round, by omega, rfl⟩

/-- A range of at least a page that has a byte of the buffer is touched. -/
theorem exists_touchedAddress {buf size position start stop : Nat}
    (small : size < 2 ^ 63) (first : buf ≤ position) (last : position < buf + size)
    (page : start + 4096 ≤ stop) (lower : start ≤ position) (upper : position < stop) :
    ∃ address ∈ touchedAddresses buf size, start ≤ address ∧ address < stop := by
  have positive : 0 < size := by omega
  by_cases inside : buf + size ≤ stop
  · refine ⟨buf + (size - 1), (mem_touchedAddresses positive small).mpr ?_, ?_⟩
    · exact Or.inr ⟨0, by omega, by omega⟩
    · omega
  · by_cases far : 4096 * ((buf + size - 1 - stop) / 4096 + 1) < size
    · refine ⟨_, (mem_touchedAddresses positive small).mpr
        (Or.inr ⟨_, far, rfl⟩), ?_⟩
      omega
    · refine ⟨buf, (mem_touchedAddresses positive small).mpr (Or.inl rfl), ?_⟩
      omega

/-- Touching a buffer reaches all of its segments.  `ummap_touch` is a sequence of
calls of `onSegmentationFault` for addresses in the buffer and in the mapping.  Every
segment with a byte of the buffer is touched, and the last address is that of the
buffer. -/
theorem touch_reaches_segments (mapping : Mapping) (buf size : Nat) (isWrite : Bool)
    (positive : 0 < size) (small : size < 2 ^ 63) (lower : mapping.baseAddress ≤ buf)
    (upper : buf + size ≤ mapping.baseAddress + mapping.getAlignedSize) :
    ∃ addresses : List Nat,
      mapping.ummapTouch buf size isWrite =
        Program.each (fun address => mapping.onSegmentationFault address isWrite)
          addresses ∧
      (∀ address ∈ addresses, buf ≤ address ∧ address < buf + size ∧
        address < mapping.baseAddress + mapping.segments * mapping.segmentSize) ∧
      (∀ position, buf ≤ position → position < buf + size →
        ∃ address ∈ addresses,
          (address - mapping.baseAddress) / mapping.segmentSize =
            (position - mapping.baseAddress) / mapping.segmentSize) ∧
      addresses.getLast? = some buf := by
  refine ⟨touchedAddresses buf size, rfl, ?_, ?_, ?_⟩
  · intro address member
    rw [Mapping.getAlignedSize, Nat.mul_comm] at upper
    obtain rfl | ⟨round, _, rfl⟩ := (mem_touchedAddresses positive small).mp member
    · omega
    · omega
  · intro position first last
    have page : pageSize ≤ mapping.segmentSize :=
      Nat.le_of_dvd mapping.segmentSize_pos
        (Nat.dvd_of_mod_eq_zero mapping.segmentSize_page)
    generalize block : (position - mapping.baseAddress) / mapping.segmentSize =
      segmentId
    rw [div_eq_iff_block mapping.segmentSize_pos] at block
    obtain ⟨address, member, starts, ends⟩ := exists_touchedAddress small first last
      (Nat.add_le_add_left page (mapping.baseAddress + mapping.segmentSize * segmentId))
      (by omega) (by omega)
    refine ⟨address, member, ?_⟩
    rw [div_eq_iff_block mapping.segmentSize_pos]
    omega
  · unfold touchedAddresses
    rw [if_neg (by omega), List.getLast?_concat]

/-- The last byte of the first page and the first byte of the second one. -/
theorem touch_reaches_segments_across_pages :
    ∃ addresses : List Nat,
      twoPages.ummapTouch (2 * pageSize - 1) 2 true =
        Program.each (fun address =>
          twoPages.onSegmentationFault address true) addresses ∧
      ∃ address ∈ addresses, (address - pageSize) / pageSize = 1 := by
  obtain ⟨addresses, calls, _, covers, _⟩ := touch_reaches_segments
    twoPages (2 * pageSize - 1) 2 true (by decide) (by decide)
    (by decide) (by decide)
  obtain ⟨address, member, same⟩ := covers (2 * pageSize) (by decide) (by decide)
  exact ⟨addresses, calls, address, member, same.trans (by decide)⟩

end UmmapIo
