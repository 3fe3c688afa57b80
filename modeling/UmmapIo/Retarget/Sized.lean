import UmmapIo.Retarget.Copy

/-!
# Files that end

`FDDriver::pread` and `FDDriver::pwrite` are the system calls of the same names: a
read stops at the end of the file and reports how far it came, a write goes through
and moves the end of the file if it has to.  This module puts the sizes of the files
next to a mapping over files and lets them decide how many bytes a read returns.
-/

namespace UmmapIo

variable {F : Type}

/-- A regular file. -/
structure File where
  /-- `st_size`. -/
  size : Nat
  /-- Bytes of the file. -/
  bytes : Nat → Byte

/-- There is nothing behind the end of a file. -/
def File.Ended (file : File) : Prop :=
  ∀ position, file.size ≤ position → file.bytes position = 0

/-- `FDDriver` on a file of this size. -/
def FDDriver.ofSize (fileSize : Nat) : Driver where
  preadResult := fun _ size offset => (min size (fileSize - offset) : Nat)
  pwriteResult := fun _ size _ => (size : Nat)
  directMSync := false
  checkThreadSafety := true

/-- How the operating system answers `FICLONERANGE`: from the source and the
target, the target afterwards, or `none` if it fails. -/
structure SizedClone (F : Type) where
  /-- The answer. -/
  answer : FileCloneRange F → File → File → Option File
  ended : ∀ range source target image, source.Ended → target.Ended →
    answer range source target = some image → image.Ended

/-- The operating system clones nothing. -/
def SizedClone.never : SizedClone F where
  answer := fun _ _ _ => none
  ended := fun _ _ _ _ _ _ absurdity => nomatch absurdity

/-- A mapping over files, with the sizes of the files. -/
structure SizedState (F : Type) where
  /-- The mapping and the bytes of the files. -/
  files : FileState F
  /-- `st_size` of the files. -/
  sizes : F → Nat

/-- State right after the constructor of a mapping over one of the files. -/
def SizedState.initial (flags : CreationFlags) (files : F → File)
    (fd : F) : SizedState F where
  files := .initial flags (fun file => (files file).bytes) fd
  sizes := fun file => (files file).size

variable [DecidableEq F]

namespace SizedState

/-- A file as it is now. -/
def file (state : SizedState F) (name : F) : File :=
  ⟨state.sizes name, state.files.contents name⟩

/-- Size of the file that the driver uses. -/
def usedSize (state : SizedState F) : Nat :=
  state.sizes state.files.fd

/-- The sizes after a write up to a position. -/
def grown (state : SizedState F) (name : F) (position : Nat) : F → Nat :=
  Function.update state.sizes name (max (state.sizes name) position)

/-- The sizes after an operation. -/
def sizesAfter (state : SizedState F) : FileOp F → F → Nat
  | .mapping (.pwrite _ size offset) =>
      state.grown state.files.fd (offset + size)
  | .pwrite name _ size offset => state.grown name (offset + size)
  | .pwriteMemory name _ size offset => state.grown name (offset + size)
  | _ => state.sizes

end SizedState

/-- Effect of an operation of a thread. -/
def Mapping.handleSized (mapping : Mapping) (clone : SizedClone F)
    (thread : Nat) : Handler (fileSignature F) (SizedState F)
  | .ficloneRange name range, state =>
      match clone.answer range (state.file range.srcFd) (state.file name) with
      | some image => some ((0 : Int),
          ⟨state.files.write name image.bytes,
            Function.update state.sizes name image.size⟩)
      | none => some ((-1 : Int), state)
  | op, state =>
      (mapping.handleFiles (FDDriver.ofSize state.usedSize) (fun _ _ _ => none)
          thread op state.files).map fun answer =>
        (answer.1, ⟨answer.2, state.sizesAfter op⟩)

/-- Run calls of threads one after the other and collect their results. -/
def Mapping.runSizedCalls (mapping : Mapping) (entries : List MappingRegistryEntry)
    (clone : SizedClone F) (attempts : Nat) :
    List (Nat × FileCall F) → SizedState F →
      Outcome (SizedState F) (List (Option Byte))
  | [], state => .finished [] state
  | (thread, call) :: rest, state =>
      ((mapping.fileCall entries attempts call).run
        (mapping.handleSized clone thread) state).andThen
          fun value state' =>
            (mapping.runSizedCalls entries clone attempts rest state').andThen
              fun values final => .finished (value :: values) final

end UmmapIo
