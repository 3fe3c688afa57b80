import UmmapIo.Drivers.MmapDriver
import UmmapIo.Mapping.Durability

/-!
# Ranges of direct mappings

A mapping over a `MmapDriver` rounds its size to segments where it checks the range
of a flush, and the driver rounds to pages what it maps and what it synchronises.
The ranges that `Mapping::flush` hands to `msync` always start at a page.  They stay
in the mapped range exactly if its last page is the last page of the last segment.

`Mapping::directMmapCow` hands the pointer and the size of the mapping to `mremap` as
they are.  These ranges always lie in the mapped ones, and are whole pages exactly if
the size and the offset in the storage are aligned.
-/

namespace UmmapIo

/-- A range lies in another one. -/
def Within (base length start extent : Nat) : Prop :=
  start ≤ base ∧ base + length ≤ start + extent

/-- `OS::mremapForced`.  The assertions are compiled out with `NDEBUG`. -/
def OS.mremapForced (ndebug : Bool) (oldPtr size newPtr : Nat) :
    MmapProgram Unit := do
  Program.assume (ndebug || decide (newPtr ≠ 0)) "Assertion newPtr != NULL failed."
  Program.assume (ndebug || decide (oldPtr ≠ 0)) "Assertion oldPtr != NULL failed."
  Program.assume (ndebug || decide (newPtr % pageSize = 0))
    "Assertion (size_t)newPtr % UMMAP_PAGE_SIZE == 0 failed."
  Program.assume (ndebug || decide (oldPtr % pageSize = 0))
    "Assertion (size_t)oldPtr % UMMAP_PAGE_SIZE == 0 failed."
  Program.assume (ndebug || decide (0 < size)) "Assertion size > 0 failed."
  Program.assume (ndebug || decide (size % pageSize = 0))
    "Assertion size % UMMAP_PAGE_SIZE == 0 failed."
  Program.when (decide (newPtr ≠ oldPtr)) do
    let res ← OS.mremap oldPtr size newPtr
    Program.assume res.isSome "Fail to call mremap"
    Program.assume (res = some newPtr)
      "Fail to mremap the segment to a given address, got a different one !"

namespace Mapping

variable (mapping : Mapping)

/-- `Mapping::flush` over a `MmapDriver`.  The loop over the segments is for drivers
that do not synchronise directly. -/
def mmapFlush (driver : MmapDriver) (loop : MmapProgram Unit)
    (offset size : Nat) : MmapProgram Unit :=
  mapping.checkFlush offset size do
    let res ←
      driver.directMSync (mapping.baseAddress + offset) size mapping.storageOffset
    Program.when (!res) loop

/-- The call of `directMmap` in the constructor and in `directMmapCow`. -/
def mmapRange (driver : MmapDriver) (addr : Nat)
    (mapFixed : Bool) : MmapProgram Nat :=
  driver.directMmap addr mapping.size mapping.storageOffset
    mapping.protection.read mapping.protection.write mapping.protection.exec
    mapFixed

/-- `Mapping::directMmapCow`. -/
def directMmapCow (ndebug : Bool) (newDriver : MmapDriver) :
    MmapProgram Unit := do
  let newAddr ← mapping.mmapRange newDriver mapping.baseAddress false
  Program.assume (newAddr ≠ 0)
    "Try to call directMmapCow() on a driver not supporting direct mmap !"
  OS.memcpy newAddr mapping.baseAddress mapping.size
  let _ ← OS.msync mapping.baseAddress mapping.size
  OS.mremapForced ndebug newAddr mapping.size mapping.baseAddress

/-- Length of the range that is mapped for the mapping. -/
def mappedLength : Nat :=
  MmapDriver.mappedLength mapping.size mapping.storageOffset

end Mapping

/-! ## What is handed to the system -/

section Handed

variable {system : System} {driver : MmapDriver} {mapping : Mapping}
variable {kernel after state : Kernel} {offset size base length : Nat}

theorem MmapDriver.not_mem_performed_checkAndSetAlign {entry : MmapOp × Kernel} :
    entry ∉ (driver.checkAndSetAlign size offset).performed system.handle
      kernel := by
  unfold checkAndSetAlign
  cases driver.allowNotAligned with
  | true => exact List.not_mem_nil
  | false =>
      rw [Bool.not_false, Program.when_true, Program.bind_assoc,
        Program.mem_performed_assume, Program.mem_performed_assume]
      rintro ⟨_, _, absurdity⟩
      cases absurdity

theorem OS.mem_performed_msync {entry : MmapOp × Kernel} :
    entry ∈ (OS.msync base length).performed system.handle kernel ↔
      entry = (.msync base length, kernel) :=
  Program.mem_performed_request

variable {entry : MmapOp × Kernel}

/-- `directMSync` hands one range to `msync`. -/
theorem MmapDriver.mem_performed_directMSync
    (noOverflow : offset + size + pageSize ≤ wordModulus)
    (accepted : driver.Accepts size offset) :
    entry ∈ (driver.directMSync base size offset).performed system.handle kernel ↔
      entry = (.msync (base - offset % pageSize) (mappedLength size offset),
        kernel) := by
  unfold directMSync
  rw [Program.mem_performed_of_finished (run_checkAndSetAlign accepted kernel),
    setAlign_eq noOverflow, Program.mem_performed_bind, OS.mem_performed_msync]
  constructor
  · rintro (absurdity | handed | ⟨res, state, _, later⟩)
    · exact absurd absurdity not_mem_performed_checkAndSetAlign
    · exact handed
    · rw [Program.mem_performed_assume] at later
      cases later.2
  · intro handed
    exact Or.inr (Or.inl handed)

/-- `directMSync` never leaves the flush to the caller. -/
theorem MmapDriver.directMSync_true {res : Bool}
    (finished : (driver.directMSync base size offset).run system.handle kernel =
      .finished res after) :
    res = true := by
  have meets : (driver.directMSync base size offset).Meets system.handle .lenient
      (fun res _ => res = true) kernel := by
    refine Program.Meets.bind (meets_checkAndSetAlign fun _ => ?_)
    refine Program.Meets.bind (.request trivial (fun _ _ => trivial) ?_)
    intro _ answer state replied
    exact Program.Meets.assume trivial fun _ => rfl
  exact meets.finished finished

/-- What a flush whose range passes the checks hands to `msync`. -/
theorem Mapping.mem_performed_mmapFlush {loop : MmapProgram Unit} {flags : FlushFlags}
    (noOverflow : mapping.storageOffset + size + pageSize ≤ wordModulus)
    (takes : driver.Accepts size mapping.storageOffset)
    (accepted : (Call.flush offset size flags).Accepted mapping) :
    entry ∈ (mapping.mmapFlush driver loop offset size).performed system.handle kernel ↔
      entry = (.msync (mapping.baseAddress + offset - mapping.storageOffset % pageSize)
        (MmapDriver.mappedLength size mapping.storageOffset), kernel) := by
  obtain ⟨inside, fits, offsetAligned, sizeAligned⟩ := accepted
  unfold mmapFlush checkFlush
  rw [Program.mem_performed_assume, Program.mem_performed_assume,
    Program.mem_performed_assume, Program.mem_performed_assume,
    Program.mem_performed_bind,
    MmapDriver.mem_performed_directMSync noOverflow takes]
  constructor
  · rintro ⟨_, _, _, _, handed | ⟨res, state, finished, later⟩⟩
    · exact handed
    · obtain rfl := MmapDriver.directMSync_true finished
      cases later
  · intro handed
    exact ⟨decide_eq_true inside, decide_eq_true fits,
      decide_eq_true offsetAligned, decide_eq_true sizeAligned, Or.inl handed⟩

variable {oldPtr newPtr : Nat} {ndebug : Bool}

/-- What `OS::mremapForced` hands to `mremap`. -/
theorem OS.mem_performed_mremapForced
    (handed : entry ∈ (OS.mremapForced ndebug oldPtr size newPtr).performed
      system.handle kernel) :
    entry = (.mremap oldPtr size newPtr, kernel) := by
  unfold OS.mremapForced at handed
  rw [Program.mem_performed_assume, Program.mem_performed_assume,
    Program.mem_performed_assume, Program.mem_performed_assume,
    Program.mem_performed_assume, Program.mem_performed_assume] at handed
  obtain ⟨_, _, _, _, _, _, handed⟩ := handed
  cases different : decide (newPtr ≠ oldPtr) with
  | false =>
      rw [different] at handed
      cases handed
  | true =>
      rw [different, Program.when_true, Program.mem_performed_bind] at handed
      obtain called | ⟨res, state, _, later⟩ := handed
      · exact Program.mem_performed_request.mp called
      · rw [Program.mem_performed_assume, Program.performed_assume] at later
        cases later.2

theorem OS.performed_mremapForced (different : newPtr ≠ oldPtr) :
    (MmapOp.mremap oldPtr size newPtr, kernel) ∈
      (OS.mremapForced true oldPtr size newPtr).performed system.handle
        kernel := by
  unfold OS.mremapForced
  rw [decide_eq_true different]
  exact List.mem_cons_self

theorem MmapDriver.mremap_not_mem_extendFile {oldPtr newPtr : Nat} :
    (MmapOp.mremap oldPtr length newPtr, state) ∉
      (driver.extendFile offset size).performed system.handle kernel := by
  unfold extendFile
  rw [Program.mem_performed_bind]
  rintro (asked | ⟨status, middle, _, later⟩)
  · cases Program.mem_performed_request.mp asked
  · cases status with
    | none => cases later
    | some origSize =>
        dsimp only at later
        cases short : decide (origSize < wordAdd offset size) with
        | false =>
            rw [short] at later
            cases later
        | true =>
            rw [short, Program.when_true, Program.mem_performed_bind] at later
            obtain asked | ⟨truncated, last, _, later⟩ := later
            · cases Program.mem_performed_request.mp asked
            · rw [Program.performed_assume] at later
              cases later

theorem MmapDriver.mremap_not_mem_directMmap {addr : Nat}
    {read write exec mapFixed : Bool} :
    (MmapOp.mremap oldPtr length newPtr, state) ∉
      (driver.directMmap addr size offset read write exec mapFixed).performed
        system.handle kernel := by
  unfold directMmap
  rw [Program.mem_performed_bind]
  rintro (checked | ⟨align, _, _, later⟩)
  · exact not_mem_performed_checkAndSetAlign checked
  · rw [Program.mem_performed_bind] at later
    obtain extended | ⟨_, middle, _, later⟩ := later
    · cases taken : write && decide (driver.fd ≠ 0) with
      | false =>
          rw [taken] at extended
          cases extended
      | true =>
          rw [taken] at extended
          exact mremap_not_mem_extendFile extended
    · rw [Program.mem_performed_bind] at later
      obtain asked | ⟨res, last, _, later⟩ := later
      · cases Program.mem_performed_request.mp asked
      · cases res with
        | none => cases later
        | some start => cases later

variable {newDriver : MmapDriver}

/-- What `directMmapCow` hands to `mremap`: what it has mapped, and the mapping. -/
theorem Mapping.mem_performed_directMmapCow
    (handed : (MmapOp.mremap oldPtr length newPtr, state) ∈
      (mapping.directMmapCow ndebug newDriver).performed system.handle kernel) :
    length = mapping.size ∧ newPtr = mapping.baseAddress ∧
      (mapping.mmapRange newDriver mapping.baseAddress false).run system.handle
        kernel = .finished oldPtr state := by
  unfold directMmapCow at handed
  rw [Program.mem_performed_bind] at handed
  obtain ranged | ⟨newAddr, middle, mapped, handed⟩ := handed
  · exact absurd ranged MmapDriver.mremap_not_mem_directMmap
  · rw [Program.mem_performed_assume, Program.mem_performed_bind] at handed
    obtain ⟨_, copied | ⟨_, _, copied, handed⟩⟩ := handed
    · cases Program.mem_performed_request.mp copied
    · cases copied
      rw [Program.mem_performed_bind] at handed
      obtain synced | ⟨_, _, synced, handed⟩ := handed
      · cases Program.mem_performed_request.mp synced
      · cases synced
        cases OS.mem_performed_mremapForced handed
        exact ⟨rfl, rfl, mapped⟩

theorem Mapping.performed_directMmapCow {newAddr : Nat}
    (mapped : (mapping.mmapRange newDriver mapping.baseAddress false).run
      system.handle kernel = .finished newAddr after)
    (exists_ : newAddr ≠ 0)
    (different : mapping.baseAddress ≠ newAddr) :
    (MmapOp.mremap newAddr mapping.size mapping.baseAddress, after) ∈
      (mapping.directMmapCow true newDriver).performed system.handle kernel := by
  unfold directMmapCow
  rw [Program.mem_performed_of_finished mapped, Program.mem_performed_assume]
  refine Or.inr ⟨decide_eq_true exists_, ?_⟩
  have copied : (OS.memcpy newAddr mapping.baseAddress mapping.size).run
      system.handle after = .finished () after := Program.run_request rfl
  have synced : (OS.msync mapping.baseAddress mapping.size).run system.handle
      after = .finished _ after := Program.run_request rfl
  rw [Program.mem_performed_of_finished copied,
    Program.mem_performed_of_finished synced]
  exact Or.inr (Or.inr (OS.performed_mremapForced different))

end Handed

/-! ## Discipline -/

open MmapDriver

section Discipline

variable {system : System} {driver : MmapDriver} {mapping : Mapping}
variable {addr start offset size : Nat} {mapFixed : Bool} {kernel created : Kernel}
variable {flags : FlushFlags}

/-- A range that a flush may be asked for starts and ends with pages. -/
theorem Mapping.page_of_accepted
    (accepted : (Call.flush offset size flags).Accepted mapping) :
    offset % pageSize = 0 ∧ size % pageSize = 0 := by
  have whole : pageSize ∣ mapping.segmentSize :=
    Nat.dvd_of_mod_eq_zero mapping.segmentSize_page
  exact ⟨Nat.mod_eq_zero_of_dvd (whole.trans (Nat.dvd_of_mod_eq_zero accepted.2.2.1)),
    Nat.mod_eq_zero_of_dvd (whole.trans (Nat.dvd_of_mod_eq_zero accepted.2.2.2))⟩

/-- A driver that took the mapping takes its flushes. -/
theorem MmapDriver.Accepts.flush
    (takes : driver.Accepts mapping.size mapping.storageOffset)
    (accepted : (Call.flush offset size flags).Accepted mapping) :
    driver.Accepts size mapping.storageOffset :=
  takes.imp_right fun aligned => ⟨(Mapping.page_of_accepted accepted).2, aligned.2⟩

variable {before after : Kernel} {write : Bool} {pointer : Nat}

/-- The data of a mapping lies in the mapped range. -/
theorem MmapDriver.Mapped.within
    (mapped : Mapped driver addr mapping.size mapping.storageOffset write mapFixed
      before after pointer start) :
    Within pointer mapping.size start mapping.mappedLength := by
  have rounded : mapping.storageOffset % pageSize + mapping.size ≤
      mapping.mappedLength := (pageRound_spec _).1
  rw [mapped.pointer_eq]
  unfold Within
  omega

/-- The pointer of a mapping is aligned exactly if its offset in the storage is. -/
theorem MmapDriver.Mapped.aligned_iff
    (mapped : Mapped driver addr size offset write mapFixed before after pointer
      start) :
    pointer % pageSize = 0 ↔ offset % pageSize = 0 := by
  have aligned := mapped.aligned
  rw [mapped.pointer_eq]
  unfold pageSize at *
  omega

/-- Whole pages are added behind the last page of the data. -/
theorem MmapDriver.mappedLength_add (aligned : size % pageSize = 0) :
    mappedLength size offset = size + pageRound (offset % pageSize) := by
  unfold mappedLength
  rw [Nat.add_comm, pageRound_add aligned]

/-- The range of a flush, relative to the mapped range. -/
theorem MmapDriver.Mapped.within_flush_iff
    (mapped : Mapped driver addr mapping.size mapping.storageOffset write mapFixed
      before after mapping.baseAddress start) :
    Within (mapping.baseAddress + offset - mapping.storageOffset % pageSize)
        (MmapDriver.mappedLength size mapping.storageOffset) start
        mapping.mappedLength ↔
      offset + MmapDriver.mappedLength size mapping.storageOffset ≤
        mapping.mappedLength := by
  rw [mapped.pointer_eq]
  unfold Within
  omega

end Discipline

/-- Over a `MmapDriver`, a flush of a range that does not wrap around hands ranges to
`msync` that start and end with pages.  They all lie in the range that `directMmap`
mapped exactly if the pages of the data are all the pages of the segments.  The
ranges that `directMmapCow` hands to `mremap` lie in the mapped ones, and they start
and end with pages exactly if the size and the offset in the storage are aligned. -/
theorem direct_mapping_ranges (system : System) (driver : MmapDriver)
    (mapping : Mapping) (addr : Nat) (mapFixed : Bool) (kernel created : Kernel)
    (noOverflow : mapping.storageOffset + mapping.getAlignedSize + pageSize ≤
      wordModulus)
    (creates : (mapping.mmapRange driver addr mapFixed).run system.handle kernel =
      .finished mapping.baseAddress created) :
    ∃ start,
      Mapped driver addr mapping.size mapping.storageOffset
        mapping.protection.write mapFixed kernel created mapping.baseAddress
        start ∧
      (∀ offset size flags loop current base length state,
        (Call.flush offset size flags).Accepted mapping →
        offset + size < wordModulus →
        (MmapOp.msync base length, state) ∈
          (mapping.mmapFlush driver loop offset size).performed system.handle current →
        base % pageSize = 0 ∧ length % pageSize = 0) ∧
      ((∀ offset size flags loop current base length state,
        (Call.flush offset size flags).Accepted mapping →
        offset + size < wordModulus →
        (MmapOp.msync base length, state) ∈
          (mapping.mmapFlush driver loop offset size).performed system.handle current →
        Within base length start mapping.mappedLength) ↔
          MmapDriver.mappedLength mapping.getAlignedSize mapping.storageOffset ≤
            mapping.mappedLength) ∧
      ∀ ndebug newDriver current oldPtr length newPtr state,
        (MmapOp.mremap oldPtr length newPtr, state) ∈
          (mapping.directMmapCow ndebug newDriver).performed system.handle current →
        ∃ newStart,
          Mapped newDriver mapping.baseAddress mapping.size mapping.storageOffset
            mapping.protection.write false current state oldPtr newStart ∧
          Within oldPtr length newStart mapping.mappedLength ∧
          Within newPtr length start mapping.mappedLength ∧
          (oldPtr % pageSize = 0 ∧ newPtr % pageSize = 0 ∧
              length % pageSize = 0 ↔
            mapping.storageOffset % pageSize = 0 ∧
              mapping.size % pageSize = 0) := by
  have sizeFits := mapping.size_le_getAlignedSize
  have fits : mapping.storageOffset + mapping.size + pageSize ≤ wordModulus := by
    omega
  obtain ⟨takes, start, mapped⟩ := (meets_directMmap fits).finished creates
  have handed {offset size : Nat} {flags : FlushFlags} {loop : MmapProgram Unit}
      {current : Kernel} {entry : MmapOp × Kernel}
      (accepted : (Call.flush offset size flags).Accepted mapping)
      (unwrapped : offset + size < wordModulus) :
      entry ∈ (mapping.mmapFlush driver loop offset size).performed system.handle
          current ↔
        entry = (.msync
          (mapping.baseAddress + offset - mapping.storageOffset % pageSize)
          (MmapDriver.mappedLength size mapping.storageOffset), current) := by
    have below := accepted.fits unwrapped
    exact Mapping.mem_performed_mmapFlush (by omega) (takes.flush accepted) accepted
  refine ⟨start, mapped, ?_, ⟨?_, ?_⟩, ?_⟩
  · intro offset size flags loop current base length state accepted unwrapped member
    cases (handed accepted unwrapped).mp member
    refine ⟨?_, (pageRound_spec _).2.2⟩
    have pages := (Mapping.page_of_accepted accepted).1
    have aligned := mapped.aligned
    rw [mapped.pointer_eq]
    unfold pageSize at *
    omega
  · intro all
    have accepted := mapping.accepted_flush_all ⟨true, false, false⟩
    have unwrapped : 0 + mapping.getAlignedSize < wordModulus := by
      rw [Nat.zero_add]
      exact mapping.getAlignedSize_lt_wordModulus
    have whole := all _ _ _ (.done ()) kernel _ _ _ accepted unwrapped
      ((handed accepted unwrapped).mpr rfl)
    rw [mapped.within_flush_iff] at whole
    omega
  · intro covered offset size flags loop current base length state accepted
      unwrapped member
    cases (handed accepted unwrapped).mp member
    obtain ⟨_, sizeAligned⟩ := Mapping.page_of_accepted accepted
    obtain ⟨_, wholeAligned⟩ := Mapping.page_of_accepted
      (mapping.accepted_flush_all flags)
    have below := accepted.fits unwrapped
    rw [mapped.within_flush_iff]
    rw [mappedLength_add sizeAligned]
    rw [mappedLength_add wholeAligned] at covered
    omega
  · intro ndebug newDriver current oldPtr length newPtr state member
    obtain ⟨rfl, rfl, maps⟩ := Mapping.mem_performed_directMmapCow member
    obtain ⟨_, newStart, moved⟩ := (meets_directMmap fits).finished maps
    refine ⟨newStart, moved, moved.within, mapped.within, ?_⟩
    rw [moved.aligned_iff, mapped.aligned_iff]
    tauto

/-- A kernel without files and mappings. -/
def Kernel.empty : Kernel :=
  ⟨fun _ => 0, fun _ => none, 0, fun _ _ => rfl⟩

/-- A page of a file: the flush of the whole mapping stays in the mapped page. -/
theorem direct_mapping_ranges_of_page :
    ∃ created start,
      (onePage.mmapRange ⟨3, false⟩ 0 false).run System.ascending.handle Kernel.empty =
        .finished onePage.baseAddress created ∧
      ∀ base length state,
        (MmapOp.msync base length, state) ∈
          (onePage.mmapFlush ⟨3, false⟩ (.done ()) 0
            pageSize).performed System.ascending.handle created →
        Within base length start onePage.mappedLength := by
  obtain ⟨created, creates⟩ : ∃ created,
      (onePage.mmapRange ⟨3, false⟩ 0 false).run System.ascending.handle Kernel.empty =
        .finished onePage.baseAddress created := ⟨_, rfl⟩
  obtain ⟨start, _, _, within, _⟩ := direct_mapping_ranges System.ascending
    ⟨3, false⟩ onePage 0 false Kernel.empty created (by decide)
    creates
  refine ⟨created, start, creates, ?_⟩
  intro base length state
  exact within.mpr (by decide) 0 pageSize ⟨true, false, false⟩ (.done ()) created
    base length state (by decide) (by decide)

/-- A page of a file in a segment of two pages. -/
def Mapping.halfSegment : Mapping :=
  Mapping.ofPagePairs 0

/-- A hundred bytes from byte 32 of a file on. -/
def Mapping.unalignedData : Mapping :=
  { onePage with
    baseAddress := pageSize + 32
    size := 100
    storageOffset := 32
    size_pos := by decide
    mapSize_lt := by decide }

/-- For a page in a segment of two pages, `directMmap` maps one page, and the flush
of the whole mapping hands two pages to `msync`.  For two pages, a flush from the
second one on whose size wraps around hands the rest of the address space to `msync`.
For data at byte 32 of a file, `directMmapCow` hands addresses to `mremap` that are
not aligned, or fails an assertion. -/
theorem direct_mapping_leaves_ranges :
    (∃ created,
      (Mapping.halfSegment.mmapRange ⟨3, false⟩ 0 false).run
          System.ascending.handle Kernel.empty =
        .finished Mapping.halfSegment.baseAddress created ∧
      (Call.flush 0 Mapping.halfSegment.getAlignedSize
        ⟨true, false, false⟩).Accepted Mapping.halfSegment ∧
      created.space (Mapping.halfSegment.baseAddress + pageSize) = none ∧
      (MmapOp.msync Mapping.halfSegment.baseAddress (2 * pageSize), created) ∈
        (Mapping.halfSegment.mmapFlush ⟨3, false⟩ (.done ()) 0
          Mapping.halfSegment.getAlignedSize).performed System.ascending.handle
          created) ∧
    (∃ created,
      (twoPages.mmapRange ⟨3, false⟩ 0 false).run System.ascending.handle Kernel.empty =
        .finished twoPages.baseAddress created ∧
      (MmapOp.msync (2 * pageSize) (wordModulus - pageSize), created) ∈
        (twoPages.mmapFlush ⟨3, false⟩ (.done ()) pageSize
          (wordModulus - pageSize)).performed System.ascending.handle created) ∧
    ∃ created newAddr state,
      (Mapping.unalignedData.mmapRange ⟨3, true⟩ 0 false).run
          System.ascending.handle Kernel.empty =
        .finished Mapping.unalignedData.baseAddress created ∧
      (MmapOp.mremap newAddr 100 Mapping.unalignedData.baseAddress, state) ∈
        (Mapping.unalignedData.directMmapCow true ⟨4, true⟩).performed
          System.ascending.handle created ∧
      newAddr % pageSize = 32 ∧
      Mapping.unalignedData.baseAddress % pageSize = 32 ∧
      ∃ message final,
        (Mapping.unalignedData.directMmapCow false ⟨4, true⟩).run
          System.ascending.handle created = .aborted message final := by
  refine ⟨⟨_, rfl, by decide, by decide, ?_⟩, ⟨_, rfl, ?_⟩, ?_⟩
  · have accepted := Mapping.halfSegment.accepted_flush_all ⟨true, false, false⟩
    exact (Mapping.mem_performed_mmapFlush (by decide) (by decide) accepted).mpr rfl
  · have accepted : (Call.flush pageSize (wordModulus - pageSize)
        ⟨true, false, false⟩).Accepted twoPages := by
      decide
    have length : wordModulus - pageSize =
        MmapDriver.mappedLength (wordModulus - pageSize) 0 := by
      decide
    exact (Mapping.mem_performed_mmapFlush (by decide) (by decide) accepted).mpr
      (congrArg (fun length => (MmapOp.msync (2 * pageSize) length, _)) length)
  · refine ⟨_, _, _, rfl, Mapping.performed_directMmapCow rfl ?_ ?_, ?_, ?_, ?_⟩
    · decide
    · decide
    · decide
    · decide
    · exact ⟨_, _, rfl⟩

end UmmapIo
