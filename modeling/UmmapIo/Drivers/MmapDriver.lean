import UmmapIo.Lib.Hoare
import UmmapIo.Lib.Weight
import UmmapIo.Mapping.Defs

/-!
# The driver that maps a file directly

`drivers/MmapDriver.cpp` hands a mapping to the kernel.  The kernel works on whole
pages, so each entry point of the driver rounds the size, the offset and the address
it is given, and each of them starts again from the arguments of the caller.

The kernel below knows the size of each file and, for each address, which byte of
which file is mapped there.  Contents of files and of memory are left out.  Where a
new range is placed and whether a system call fails is up to the system.
-/

namespace UmmapIo

/-! ## Pages -/

/-- Size rounded up to whole pages. -/
def pageRound (size : Nat) : Nat :=
  Mapping.mapSize size pageSize

theorem pageRound_spec (size : Nat) :
    size ≤ pageRound size ∧ pageRound size < size + pageSize ∧
      pageRound size % pageSize = 0 := by
  obtain ⟨lower, upper, whole⟩ := Mapping.mapSize_spec size pageSize (by decide)
  exact ⟨lower, upper, Nat.mod_eq_zero_of_dvd whole⟩

theorem pageRound_of_aligned {size : Nat} (aligned : size % pageSize = 0) :
    pageRound size = size := by
  unfold pageRound Mapping.mapSize
  rw [aligned]
  rfl

/-- Whole pages stay outside of the rounding. -/
theorem pageRound_add {pages : Nat} (aligned : pages % pageSize = 0) (size : Nat) :
    pageRound (pages + size) = pages + pageRound size := by
  have left := pageRound_spec (pages + size)
  have right := pageRound_spec size
  unfold pageSize at aligned left right
  omega

/-! ## Kernel -/

/-- What stands behind an address. -/
inductive Backing : Type
  | anonymous
  | file (fd position : Nat)
  deriving DecidableEq

/-- The files and the address space. -/
structure Kernel where
  /-- Size of the file of a descriptor. -/
  fileSize : Nat → Nat
  /-- What is mapped at each address. -/
  space : Nat → Option Backing
  /-- An end of the addresses in use. -/
  top : Nat
  unused : ∀ address, top ≤ address → space address = none

namespace Kernel

/-- `ftruncate`. -/
@[simps] def truncate (kernel : Kernel) (fd size : Nat) : Kernel :=
  { kernel with fileSize := Function.update kernel.fileSize fd size }

/-- Map a range; what was mapped there before is gone. -/
@[simps] def map (kernel : Kernel) (start length : Nat)
    (backing : Nat → Backing) : Kernel where
  fileSize := kernel.fileSize
  space := fun address =>
    if start ≤ address ∧ address < start + length then
      some (backing (address - start))
    else kernel.space address
  top := max kernel.top (start + length)
  unused := by
    intro address above
    rw [if_neg (by omega)]
    exact kernel.unused address (by omega)

/-- Unmap a range. -/
@[simps] def unmap (kernel : Kernel) (start length : Nat) : Kernel where
  fileSize := kernel.fileSize
  space := fun address =>
    if start ≤ address ∧ address < start + length then none
    else kernel.space address
  top := kernel.top
  unused := by
    intro address above
    split
    · rfl
    · exact kernel.unused address above

/-- Move a range to another place, over what was mapped there. -/
@[simps] def move (kernel : Kernel) (source length target : Nat) : Kernel where
  fileSize := kernel.fileSize
  space := fun address =>
    if target ≤ address ∧ address < target + length then
      kernel.space (source + (address - target))
    else if source ≤ address ∧ address < source + length then none
    else kernel.space address
  top := max kernel.top (target + length)
  unused := by
    intro address above
    rw [if_neg (by omega)]
    split
    · rfl
    · exact kernel.unused address (by omega)

/-- `munmap`. -/
def munmap (kernel : Kernel) (base size : Nat) : Bool × Kernel :=
  if size = 0 ∨ base % pageSize ≠ 0 then (false, kernel)
  else (true, kernel.unmap base (pageRound size))

/-- `mremap` with `MREMAP_FIXED`. -/
def mremap (kernel : Kernel) (oldPtr size newPtr : Nat) : Option Nat × Kernel :=
  if size = 0 ∨ oldPtr % pageSize ≠ 0 ∨ newPtr % pageSize ≠ 0 then (none, kernel)
  else (some newPtr, kernel.move oldPtr (pageRound size) newPtr)

/-- Every address of the range is mapped. -/
def Covers (kernel : Kernel) (start length : Nat) : Prop :=
  ∀ position, position < length → (kernel.space (start + position)).isSome = true

instance decidableCovers (kernel : Kernel) (start length : Nat) :
    Decidable (kernel.Covers start length) :=
  inferInstanceAs (Decidable (∀ position, position < length → _))

end Kernel

/-- The system calls. -/
inductive MmapOp : Type
  | fstat (fd : Nat)
  | ftruncate (fd size : Nat)
  | mmap (addr size : Nat) (prot : Protection) (mapFixed : Bool) (fd offset : Nat)
  | munmap (base size : Nat)
  | msync (base size : Nat)
  | mremap (oldPtr size newPtr : Nat)
  | memcpy (target source size : Nat)

/-- What a system call answers: a value or nothing on failure, or whether it
succeeded. -/
@[reducible] def mmapSignature : Signature where
  Op := MmapOp
  Result
    | .fstat _ => Option Nat
    | .ftruncate _ _ => Bool
    | .mmap _ _ _ _ _ _ => Option Nat
    | .munmap _ _ => Bool
    | .msync _ _ => Bool
    | .mremap _ _ _ => Option Nat
    | .memcpy _ _ _ => Unit

/-- Programs over the system calls. -/
abbrev MmapProgram : Type → Type := Program mmapSignature

namespace OS

/-- `fstat`. -/
def fstat (fd : Nat) : MmapProgram (Option Nat) :=
  Program.request (E := mmapSignature) (.fstat fd)

/-- `ftruncate`. -/
def ftruncate (fd size : Nat) : MmapProgram Bool :=
  Program.request (E := mmapSignature) (.ftruncate fd size)

/-- `mmap`. -/
def mmap (addr size : Nat) (prot : Protection) (mapFixed : Bool)
    (fd offset : Nat) : MmapProgram (Option Nat) :=
  Program.request (E := mmapSignature) (.mmap addr size prot mapFixed fd offset)

/-- `munmap`. -/
def munmap (base size : Nat) : MmapProgram Bool :=
  Program.request (E := mmapSignature) (.munmap base size)

/-- `msync` with `MS_SYNC`. -/
def msync (base size : Nat) : MmapProgram Bool :=
  Program.request (E := mmapSignature) (.msync base size)

/-- `mremap` with `MREMAP_FIXED` and the same size. -/
def mremap (oldPtr size newPtr : Nat) : MmapProgram (Option Nat) :=
  Program.request (E := mmapSignature) (.mremap oldPtr size newPtr)

/-- `memcpy`. -/
def memcpy (target source size : Nat) : MmapProgram Unit :=
  Program.request (E := mmapSignature) (.memcpy target source size)

end OS

/-- What is up to the system: where a range is placed, and which calls fail. -/
structure System where
  /-- Where a new range is placed, given the address and the length asked for and
  whether the address has to be taken; nothing if it is refused. -/
  place : Kernel → Nat → Nat → Bool → Option Nat
  /-- `fstat` succeeds. -/
  fstat : Kernel → Nat → Bool
  /-- `ftruncate` succeeds. -/
  ftruncate : Kernel → Nat → Nat → Bool
  place_aligned : ∀ kernel addr length mapFixed start,
    place kernel addr length mapFixed = some start → start % pageSize = 0
  place_fixed : ∀ kernel addr length start,
    place kernel addr length true = some start → start = addr
  place_free : ∀ kernel addr length start,
    place kernel addr length false = some start →
      ∀ address, start ≤ address → address < start + length →
        kernel.space address = none

namespace System

/-- A system that places every new range behind all others. -/
def ascending : System where
  place := fun kernel addr _ mapFixed =>
    if mapFixed then
      if addr % pageSize = 0 then some addr else none
    else some (pageRound (kernel.top + 1))
  fstat := fun _ _ => true
  ftruncate := fun _ _ _ => true
  place_aligned := by
    intro kernel addr length mapFixed start placed
    cases mapFixed with
    | true =>
        rw [if_pos rfl] at placed
        split at placed
        · cases placed
          assumption
        · cases placed
    | false =>
        cases placed
        exact (pageRound_spec _).2.2
  place_fixed := by
    intro kernel addr length start placed
    rw [if_pos rfl] at placed
    split at placed
    · cases placed
      rfl
    · cases placed
  place_free := by
    intro kernel addr length start placed address above _
    cases placed
    have spec := (pageRound_spec (kernel.top + 1)).1
    exact kernel.unused address (by omega)

variable (system : System)

/-- `mmap`.  The offset has to be aligned, and the length is rounded up to whole
pages. -/
def mmap (kernel : Kernel) (addr size : Nat) (mapFixed : Bool)
    (fd offset : Nat) : Option Nat × Kernel :=
  if size = 0 ∨ offset % pageSize ≠ 0 then (none, kernel)
  else
    match system.place kernel addr (pageRound size) mapFixed with
    | none => (none, kernel)
    | some start =>
        (some start, kernel.map start (pageRound size) fun position =>
          if fd = 0 then .anonymous else .file fd (offset + position))

/-- How the kernel answers. -/
def handle : Handler mmapSignature Kernel
  | .fstat fd, kernel =>
      some (if system.fstat kernel fd then some (kernel.fileSize fd) else none,
        kernel)
  | .ftruncate fd size, kernel =>
      some (system.ftruncate kernel fd size,
        if system.ftruncate kernel fd size then kernel.truncate fd size
        else kernel)
  | .mmap addr size _ mapFixed fd offset, kernel =>
      some (system.mmap kernel addr size mapFixed fd offset)
  | .munmap base size, kernel => some (kernel.munmap base size)
  | .msync base size, kernel =>
      some (decide (base % pageSize = 0) &&
        decide (kernel.Covers base (pageRound size)), kernel)
  | .mremap oldPtr size newPtr, kernel =>
      some (kernel.mremap oldPtr size newPtr)
  | .memcpy _ _ _, kernel => some ((), kernel)

end System

/-! ## Driver -/

/-- A `MmapDriver`. -/
structure MmapDriver where
  /-- Descriptor of the file, or 0 for anonymous memory. -/
  fd : Nat
  /-- Sizes and offsets need not be aligned. -/
  allowNotAligned : Bool

/-- What `checkAndSetAlign` makes of a size and an offset. -/
structure Alignment where
  /-- Size in whole pages. -/
  size : Nat
  /-- Offset of a page. -/
  offset : Nat
  /-- Position of the original offset in its page. -/
  addrOffset : Nat
  deriving DecidableEq

namespace MmapDriver

/-- The second half of `MmapDriver::checkAndSetAlign`. -/
def setAlign (size offset : Nat) : Alignment :=
  let shifted : Alignment :=
    if offset % pageSize ≠ 0 then
      ⟨wordAdd size (offset % pageSize), offset - offset % pageSize,
        offset % pageSize⟩
    else ⟨size, offset, 0⟩
  if shifted.size % pageSize ≠ 0 then
    { shifted with
      size := wordAdd shifted.size (pageSize - shifted.size % pageSize) }
  else shifted

variable (driver : MmapDriver)

/-- `MmapDriver::checkAndSetAlign`. -/
def checkAndSetAlign (size offset : Nat) : MmapProgram Alignment := do
  Program.when (!driver.allowNotAligned) do
    Program.assume (size % pageSize = 0)
      s!"Size must be aligned to page size, got : {size} with alignement : {size % pageSize}"
    Program.assume (offset % pageSize = 0)
      s!"Offset must be aligned to page size, got : {offset} with alignement : {offset % pageSize}"
  pure (setAlign size offset)

/-- `MmapDriver::directMSync`. -/
def directMSync (base size offset : Nat) : MmapProgram Bool := do
  let align ← driver.checkAndSetAlign size offset
  let res ← OS.msync (base - align.addrOffset) align.size
  Program.assume res s!"Fail to msync({base}, {offset}, MS_SYNC)"
  pure true

/-- The part of `MmapDriver::directMmap` that extends a file that is too small. -/
def extendFile (offset size : Nat) : MmapProgram Unit := do
  let status ← OS.fstat driver.fd
  match status with
  | none => .abort "Fail to fstat the file before memory mapping it"
  | some origSize =>
      Program.when (decide (origSize < wordAdd offset size)) do
        let truncated ← OS.ftruncate driver.fd (wordAdd offset size)
        Program.assume truncated "Fail to truncate the file brefore memory mapping it"

/-- `MmapDriver::directMmap`.  Execution is allowed along with writing. -/
def directMmap (addr size offset : Nat)
    (read write _exec mapFixed : Bool) : MmapProgram Nat := do
  let align ← driver.checkAndSetAlign size offset
  Program.when (write && decide (driver.fd ≠ 0))
    (driver.extendFile align.offset align.size)
  let res ← OS.mmap addr align.size ⟨read, write, write⟩ mapFixed driver.fd
    (if driver.fd = 0 then 0 else align.offset)
  match res with
  | none => .abort "Fail to mmap"
  | some start => pure (start + align.addrOffset)

/-- `MmapDriver::directMunmap`. -/
def directMunmap (base size offset : Nat) : MmapProgram Bool := do
  let align ← driver.checkAndSetAlign size offset
  let res ← OS.munmap (base - align.addrOffset) align.size
  Program.assume res "Fail to munmap"
  pure true

/-- The driver takes this size and this offset. -/
def Accepts (size offset : Nat) : Prop :=
  driver.allowNotAligned = true ∨ size % pageSize = 0 ∧ offset % pageSize = 0

instance decidableAccepts (size offset : Nat) :
    Decidable (driver.Accepts size offset) :=
  inferInstanceAs (Decidable (_ ∨ _ ∧ _))

end MmapDriver

/-! ## Alignment -/

namespace MmapDriver

variable {system : System} {driver : MmapDriver} {size offset : Nat}

/-- Length of the range that is mapped for a size at an offset. -/
def mappedLength (size offset : Nat) : Nat :=
  pageRound (offset % pageSize + size)

/-- The range ends with the last page of the data in the file. -/
theorem offset_add_mappedLength (size offset : Nat) :
    offset - offset % pageSize + mappedLength size offset =
      pageRound (offset + size) := by
  have aligned : (offset - offset % pageSize) % pageSize = 0 := by
    unfold pageSize
    omega
  unfold mappedLength
  rw [← pageRound_add aligned]
  congr 1
  unfold pageSize
  omega

theorem setAlign_eq
    (noOverflow : offset + size + pageSize ≤ wordModulus) :
    setAlign size offset =
      ⟨mappedLength size offset, offset - offset % pageSize,
        offset % pageSize⟩ := by
  have remainder : offset % pageSize < pageSize := Nat.mod_lt _ (by decide)
  have small : offset % pageSize ≤ offset := Nat.mod_le _ _
  have rounded (total : Nat) (fits : total + pageSize ≤ wordModulus) :
      (if total % pageSize ≠ 0 then
        wordAdd total (pageSize - total % pageSize) else total) =
          pageRound total := by
    unfold pageRound Mapping.mapSize
    split
    · rename_i partly
      apply wordAdd_of_lt
      unfold pageSize at *
      omega
    · rfl
  have shifted :
      (if offset % pageSize ≠ 0 then
        (⟨wordAdd size (offset % pageSize), offset - offset % pageSize,
          offset % pageSize⟩ : Alignment)
      else ⟨size, offset, 0⟩) =
        ⟨offset % pageSize + size, offset - offset % pageSize,
          offset % pageSize⟩ := by
    split
    · rw [wordAdd_of_lt (by omega), Nat.add_comm]
    · rename_i aligned
      rw [not_not.mp aligned, Nat.zero_add, Nat.sub_zero]
  unfold setAlign mappedLength
  rw [shifted, ← rounded (offset % pageSize + size) (by omega)]
  dsimp only
  split <;> rfl

theorem run_checkAndSetAlign (accepted : driver.Accepts size offset) (kernel : Kernel) :
    (driver.checkAndSetAlign size offset).run system.handle kernel =
      .finished (setAlign size offset) kernel := by
  unfold checkAndSetAlign
  obtain allowed | ⟨sizeAligned, offsetAligned⟩ := accepted
  · rw [allowed]
    rfl
  · rw [decide_eq_true sizeAligned, decide_eq_true offsetAligned]
    cases driver.allowNotAligned <;> rfl

/-- A size or an offset that the driver does not take ends the process. -/
theorem meets_checkAndSetAlign {kernel : Kernel} {post : Alignment → Kernel → Prop}
    (passed : driver.Accepts size offset →
      post (setAlign size offset) kernel) :
    (driver.checkAndSetAlign size offset).Meets system.handle .lenient post
      kernel := by
  unfold checkAndSetAlign
  cases allowed : driver.allowNotAligned with
  | true => exact passed (Or.inl allowed)
  | false =>
      rw [Bool.not_false, Program.when_true, Program.bind_assoc]
      refine Program.Meets.assume trivial fun sizeAligned => ?_
      refine Program.Meets.assume trivial fun offsetAligned => ?_
      exact passed (Or.inr ⟨of_decide_eq_true sizeAligned,
        of_decide_eq_true offsetAligned⟩)

/-! ## Mapping and unmapping -/

variable {addr pointer : Nat} {read write exec mapFixed : Bool} {kernel after : Kernel}

/-- A file has at least this length now, and no file was cut. -/
structure Extended (fd length : Nat)
    (before after : Kernel) : Prop where
  space : after.space = before.space
  atLeast : length ≤ after.fileSize fd
  grown : ∀ other, before.fileSize other ≤ after.fileSize other

theorem meets_extendFile
    (noOverflow : offset + size < wordModulus) :
    (driver.extendFile offset size).Meets system.handle .lenient
      (fun _ after => Extended driver.fd (offset + size) kernel after)
      kernel := by
  unfold extendFile
  rw [wordAdd_of_lt noOverflow]
  refine Program.Meets.bind (.request trivial (fun _ _ => trivial) ?_)
  intro _ answer state replied
  obtain ⟨rfl, rfl⟩ := answer_inj replied
  cases system.fstat kernel driver.fd with
  | false => exact trivial
  | true =>
      refine Program.Meets.when (fun short => ?_) fun enough => ?_
      · have grows := of_decide_eq_true short
        refine Program.Meets.bind (.request trivial (fun _ _ => trivial) ?_)
        intro _ answer state replied
        obtain ⟨rfl, rfl⟩ := answer_inj replied
        cases system.ftruncate kernel driver.fd (offset + size) with
        | false => exact trivial
        | true =>
            refine ⟨rfl, ?_, ?_⟩
            · rw [if_pos rfl, Kernel.truncate_fileSize, Function.update_self]
            · intro other
              rw [if_pos rfl, Kernel.truncate_fileSize]
              by_cases same : other = driver.fd
              · rw [same, Function.update_self]
                exact Nat.le_of_lt grows
              · rw [Function.update_of_ne same]
      · have large := of_decide_eq_false enough
        exact ⟨rfl, Nat.le_of_not_lt large, fun _ => Nat.le_refl _⟩

/-- What `directMmap` has done when it returns a pointer. -/
structure Mapped (driver : MmapDriver) (addr size offset : Nat) (write mapFixed : Bool)
    (before after : Kernel)
    (pointer start : Nat) : Prop where
  aligned : start % pageSize = 0
  pointer_eq : pointer = start + offset % pageSize
  fixed : mapFixed = true → start = addr
  free : mapFixed = false → ∀ address, start ≤ address →
    address < start + mappedLength size offset → before.space address = none
  space : ∀ address, after.space address =
    if start ≤ address ∧ address < start + mappedLength size offset then
      some (if driver.fd = 0 then .anonymous
        else .file driver.fd (offset - offset % pageSize + (address - start)))
    else before.space address
  atLeast : write = true → driver.fd ≠ 0 →
    offset + size ≤ after.fileSize driver.fd
  grown : ∀ fd, before.fileSize fd ≤ after.fileSize fd

theorem mmap_eq_some {fd start : Nat}
    (mapped : system.mmap kernel addr size mapFixed fd offset =
      (some start, after)) :
    system.place kernel addr (pageRound size) mapFixed = some start ∧
      after = kernel.map start (pageRound size) fun position =>
        if fd = 0 then .anonymous else .file fd (offset + position) := by
  unfold System.mmap at mapped
  split at mapped
  · cases mapped
  · split at mapped
    · cases mapped
    · rename_i placed
      cases mapped
      exact ⟨placed, rfl⟩

/-- The call of `mmap`, from a kernel whose files are long enough. -/
theorem Mapped.of_mmap {middle : Kernel} {start : Nat}
    (space : middle.space = kernel.space)
    (atLeast : write = true → driver.fd ≠ 0 →
      offset + size ≤ middle.fileSize driver.fd)
    (grown : ∀ fd, kernel.fileSize fd ≤ middle.fileSize fd)
    (mapped : system.mmap middle addr (mappedLength size offset) mapFixed
      driver.fd (if driver.fd = 0 then 0 else offset - offset % pageSize) =
        (some start, after)) :
    Mapped driver addr size offset write mapFixed kernel after
      (start + offset % pageSize) start := by
  obtain ⟨placed, rfl⟩ := mmap_eq_some mapped
  have length : pageRound (mappedLength size offset) =
      mappedLength size offset :=
    pageRound_of_aligned (pageRound_spec _).2.2
  rw [length] at placed ⊢
  refine ⟨system.place_aligned _ _ _ _ _ placed, rfl, ?_, ?_, ?_, atLeast, grown⟩
  · rintro rfl
    exact system.place_fixed _ _ _ _ placed
  · rintro rfl address above below
    rw [← space]
    exact system.place_free _ _ _ _ placed address above below
  · intro address
    rw [Kernel.map_space, space]
    split
    · by_cases anonymous : driver.fd = 0
      · rw [if_pos anonymous, if_pos anonymous]
      · rw [if_neg anonymous, if_neg anonymous, if_neg anonymous]
    · rfl

theorem meets_directMmap
    (noOverflow : offset + size + pageSize ≤ wordModulus) :
    (driver.directMmap addr size offset read write exec mapFixed).Meets
      system.handle .lenient
      (fun pointer after => driver.Accepts size offset ∧
        ∃ start, Mapped driver addr size offset write mapFixed kernel after
          pointer start) kernel := by
  have total := offset_add_mappedLength size offset
  have below := (pageRound_spec (offset + size)).2.1
  have extended :
      (Program.when (write && decide (driver.fd ≠ 0))
        (driver.extendFile (offset - offset % pageSize)
          (mappedLength size offset))).Meets system.handle .lenient
        (fun _ state => state.space = kernel.space ∧
          (write = true → driver.fd ≠ 0 →
            offset + size ≤ state.fileSize driver.fd) ∧
          ∀ fd, kernel.fileSize fd ≤ state.fileSize fd) kernel := by
    refine Program.Meets.when (fun _ => ?_) fun skipped => ?_
    · refine (meets_extendFile (by omega)).mono ?_
      intro _ state extended
      have enough := extended.atLeast
      have rounded := (pageRound_spec (offset + size)).1
      exact ⟨extended.space, fun _ _ => by omega, extended.grown⟩
    · refine ⟨rfl, ?_, fun _ => Nat.le_refl _⟩
      intro isWritten isFile
      simp [isWritten, isFile] at skipped
  unfold directMmap
  refine Program.Meets.bind (meets_checkAndSetAlign fun accepted => ?_)
  rw [setAlign_eq noOverflow]
  refine extended.andThen ?_
  rintro _ state ⟨space, atLeast, grown⟩
  refine Program.Meets.bind (.request trivial (fun _ _ => trivial) ?_)
  intro _ answer after replied
  have answered := Option.some.inj replied
  cases answer with
  | none => exact trivial
  | some start => exact ⟨accepted, start, .of_mmap space atLeast grown answered⟩

/-- The byte at a position from the pointer on. -/
theorem Mapped.position {start position : Nat}
    (mapped : Mapped driver addr size offset write mapFixed kernel after pointer start)
    (inside : position < size) :
    start ≤ pointer + position ∧
      pointer + position < start + mappedLength size offset ∧
      offset - offset % pageSize + (pointer + position - start) =
        offset + position := by
  have rounded : offset % pageSize + size ≤ mappedLength size offset :=
    (pageRound_spec _).1
  have small : offset % pageSize ≤ offset := Nat.mod_le _ _
  rw [mapped.pointer_eq]
  omega

theorem Mapped.run_directMunmap {start : Nat}
    (mapped : Mapped driver addr size offset write mapFixed kernel after pointer start)
    (positive : 0 < size)
    (noOverflow : offset + size + pageSize ≤ wordModulus)
    (accepted : driver.Accepts size offset) (later : Kernel) :
    (driver.directMunmap pointer size offset).run system.handle later =
      .finished true (later.unmap start (mappedLength size offset)) := by
  have aligned : mappedLength size offset % pageSize = 0 := (pageRound_spec _).2.2
  have rounded : offset % pageSize + size ≤ mappedLength size offset :=
    (pageRound_spec _).1
  have unmapped : later.munmap start (mappedLength size offset) =
      (true, later.unmap start (mappedLength size offset)) := by
    unfold Kernel.munmap
    rw [if_neg, pageRound_of_aligned aligned]
    rintro (empty | misaligned)
    · omega
    · exact misaligned mapped.aligned
  unfold directMunmap
  rw [Program.run_bind, run_checkAndSetAlign accepted, Outcome.andThen_finished,
    setAlign_eq noOverflow, mapped.pointer_eq, Nat.add_sub_cancel]
  have answered : (OS.munmap start (mappedLength size offset)).run system.handle
      later = .finished true (later.unmap start (mappedLength size offset)) :=
    Program.run_request (congrArg some unmapped)
  rw [Program.run_bind, answered]
  rfl

/-! ## Systems without failures -/

theorem extendFile_returns
    (fstat : ∀ current fd, system.fstat current fd = true)
    (ftruncate : ∀ current fd length, system.ftruncate current fd length = true)
    (offset size : Nat) (kernel : Kernel) :
    ∃ state, (driver.extendFile offset size).run system.handle kernel =
      .finished () state := by
  have answered : (OS.fstat driver.fd).run system.handle kernel =
      .finished (some (kernel.fileSize driver.fd)) kernel := by
    refine Program.run_request (congrArg some ?_)
    rw [fstat]
    rfl
  have grown : (OS.ftruncate driver.fd (wordAdd offset size)).run system.handle
      kernel = .finished true (kernel.truncate driver.fd (wordAdd offset size)) := by
    refine Program.run_request (congrArg some ?_)
    rw [ftruncate]
    rfl
  unfold extendFile
  rw [Program.run_bind, answered, Outcome.andThen_finished]
  dsimp only
  cases decide (kernel.fileSize driver.fd < wordAdd offset size) with
  | false => exact ⟨kernel, rfl⟩
  | true =>
      rw [Program.when_true, Program.run_bind, grown]
      exact ⟨_, rfl⟩

theorem mmap_returns {start : Nat} (positive : 0 < size) (aligned : size % pageSize = 0)
    (offsetAligned : offset % pageSize = 0)
    (placed : system.place kernel addr size mapFixed = some start)
    (prot : Protection) (fd : Nat) :
    ∃ state, (OS.mmap addr size prot mapFixed fd offset).run system.handle
      kernel = .finished (some start) state := by
  refine ⟨kernel.map start size fun position =>
    if fd = 0 then .anonymous else .file fd (offset + position),
    Program.run_request (congrArg some ?_)⟩
  unfold System.mmap
  rw [if_neg, pageRound_of_aligned aligned, placed]
  rintro (empty | misaligned)
  · omega
  · exact misaligned offsetAligned

theorem directMmap_returns (positive : 0 < size)
    (noOverflow : offset + size + pageSize ≤ wordModulus)
    (accepted : driver.Accepts size offset)
    (fstat : ∀ current fd, system.fstat current fd = true)
    (ftruncate : ∀ current fd length, system.ftruncate current fd length = true)
    (place : ∀ current, (system.place current addr (mappedLength size offset)
      mapFixed).isSome = true) :
    ∃ pointer after,
      (driver.directMmap addr size offset read write exec mapFixed).run
        system.handle kernel = .finished pointer after := by
  obtain ⟨middle, ready⟩ : ∃ middle,
      (Program.when (write && decide (driver.fd ≠ 0))
        (driver.extendFile (offset - offset % pageSize)
          (mappedLength size offset))).run system.handle kernel =
        .finished () middle := by
    cases write && decide (driver.fd ≠ 0) with
    | false => exact ⟨kernel, rfl⟩
    | true => exact extendFile_returns fstat ftruncate _ _ kernel
  obtain ⟨start, placed⟩ := Option.isSome_iff_exists.mp (place middle)
  obtain ⟨rounded, _, aligned⟩ := pageRound_spec (offset % pageSize + size)
  have offsetAligned : (if driver.fd = 0 then 0 else
      offset - offset % pageSize) % pageSize = 0 := by
    unfold pageSize
    split <;> omega
  obtain ⟨after, mapped⟩ := mmap_returns (by omega) aligned offsetAligned placed
    ⟨read, write, write⟩ driver.fd
  refine ⟨start + offset % pageSize, after, ?_⟩
  unfold directMmap
  rw [Program.run_bind, run_checkAndSetAlign accepted, Outcome.andThen_finished,
    setAlign_eq noOverflow, Program.run_bind, ready, Outcome.andThen_finished,
    Program.run_bind]
  unfold mappedLength
  dsimp only
  rw [mapped]
  rfl

end MmapDriver

open MmapDriver

/-- `directMmap` maps whole pages of the file such that the bytes from the returned
pointer on are those from the offset on.  A file that is mapped for writing is
extended at least to the end of the data, and no file is cut.  `directMunmap` with
the same arguments unmaps the range that was mapped and nothing else. -/
theorem directMmap_maps_file_range (system : System) (driver : MmapDriver)
    (kernel : Kernel) (addr size offset : Nat) (read write exec mapFixed : Bool)
    (positive : 0 < size)
    (noOverflow : offset + size + pageSize ≤ wordModulus)
    (accepted : driver.Accepts size offset) :
    ((∀ current fd, system.fstat current fd = true) →
      (∀ current fd length, system.ftruncate current fd length = true) →
      (∀ current, (system.place current addr (mappedLength size offset)
        mapFixed).isSome = true) →
      ∃ pointer after,
        (driver.directMmap addr size offset read write exec mapFixed).run
          system.handle kernel = .finished pointer after) ∧
    ∀ pointer after,
      (driver.directMmap addr size offset read write exec mapFixed).run
        system.handle kernel = .finished pointer after →
      ∃ start,
        start % pageSize = 0 ∧ mappedLength size offset % pageSize = 0 ∧
        (offset - offset % pageSize) % pageSize = 0 ∧
        (mapFixed = true → start = addr) ∧
        (mapFixed = false → ∀ address, start ≤ address →
          address < start + mappedLength size offset →
            kernel.space address = none) ∧
        (∀ address, after.space address =
          if start ≤ address ∧ address < start + mappedLength size offset then
            some (if driver.fd = 0 then .anonymous
              else .file driver.fd (offset - offset % pageSize + (address - start)))
          else kernel.space address) ∧
        (∀ position, position < size →
          start ≤ pointer + position ∧
          pointer + position < start + mappedLength size offset ∧
          (driver.fd ≠ 0 → after.space (pointer + position) =
            some (.file driver.fd (offset + position)))) ∧
        (write = true → driver.fd ≠ 0 →
          offset + size ≤ after.fileSize driver.fd) ∧
        (∀ fd, kernel.fileSize fd ≤ after.fileSize fd) ∧
        ∀ later : Kernel,
          (driver.directMunmap pointer size offset).run system.handle later =
            .finished true (later.unmap start (mappedLength size offset)) := by
  refine ⟨directMmap_returns positive noOverflow accepted, ?_⟩
  intro pointer after finished
  obtain ⟨_, start, mapped⟩ := (meets_directMmap noOverflow).finished finished
  refine ⟨start, mapped.aligned, (pageRound_spec _).2.2, ?_, mapped.fixed,
    mapped.free, mapped.space, ?_, mapped.atLeast, mapped.grown,
    mapped.run_directMunmap positive noOverflow accepted⟩
  · unfold pageSize
    omega
  · intro position inside
    obtain ⟨above, below, same⟩ := mapped.position inside
    refine ⟨above, below, fun isFile => ?_⟩
    rw [mapped.space, if_pos ⟨above, below⟩, if_neg isFile, same]

/-- A hundred bytes from byte 5000 of an empty file on: the page that holds them is
mapped, the file is extended over it, and byte 7 of the data is byte 5007 of the
file. -/
theorem directMmap_of_unaligned_offset :
    ∃ pointer after start,
      (MmapDriver.directMmap ⟨3, true⟩ 0 100 5000 true true false false).run
          System.ascending.handle ⟨fun _ => 0, fun _ => none, 0, fun _ _ => rfl⟩ =
        .finished pointer after ∧
      start % pageSize = 0 ∧
      after.space (pointer + 7) = some (.file 3 5007) ∧
      5100 ≤ after.fileSize 3 ∧
      (MmapDriver.directMunmap ⟨3, true⟩ pointer 100 5000).run
          System.ascending.handle after =
        .finished true (after.unmap start pageSize) := by
  obtain ⟨returns, maps⟩ := directMmap_maps_file_range System.ascending ⟨3, true⟩
    ⟨fun _ => 0, fun _ => none, 0, fun _ _ => rfl⟩ 0 100 5000 true true false false
    (by decide) (by decide) (by decide)
  obtain ⟨pointer, after, finished⟩ :=
    returns (fun _ _ => rfl) (fun _ _ _ => rfl) fun _ => rfl
  obtain ⟨start, aligned, _, _, _, _, _, bytes, atLeast, _, unmaps⟩ :=
    maps pointer after finished
  exact ⟨pointer, after, start, finished, aligned,
    (bytes 7 (by decide)).2.2 (by decide), atLeast rfl (by decide), unmaps after⟩

end UmmapIo
