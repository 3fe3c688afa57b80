import UmmapIo.Handler.Defs
import UmmapIo.Mapping.Calls

/-!
# Mappings over files that are replaced

`drivers/FDDriver.cpp` reaches a file through a descriptor, and the descriptor can
be replaced while the mapping is in use.  `ummap_cow_fd` first brings the mapped
part of the file into the new one, by a clone of the operating system or else by
a copy, so that the new file can take the place of the old one.

The storage of the machine of a mapping is the file that its driver uses; the
contents of the other files are kept next to the machine.
-/

namespace UmmapIo

variable {F : Type}

/-! ## Files -/

/-- `struct file_clone_range` of `linux/fs.h`. -/
structure FileCloneRange (F : Type) where
  /-- `src_fd`. -/
  srcFd : F
  /-- `src_offset`. -/
  srcOffset : Nat
  /-- `src_length`. -/
  srcLength : Nat
  /-- `dest_offset`. -/
  destOffset : Nat

/-- How the operating system answers `FICLONERANGE`: from the bytes of the source
and of the target, the bytes of the target afterwards, or `none` if it fails. -/
abbrev CloneAnswer (F : Type) : Type :=
  FileCloneRange F → (Nat → Byte) → (Nat → Byte) → Option (Nat → Byte)

/-- The machine of a mapping over an `FDDriver`, and the other files. -/
structure FileState (F : Type) where
  /-- The machine; its storage is the file that the driver uses. -/
  machine : Machine
  /-- The file that the driver uses. -/
  fd : F
  /-- Bytes of the other files. -/
  others : F → Nat → Byte

/-- State right after the constructor of a mapping over one of the files. -/
def FileState.initial (flags : CreationFlags) (files : F → Nat → Byte)
    (fd : F) : FileState F where
  machine := .initial flags (files fd)
  fd := fd
  others := files

namespace FileState

/-- The state with another machine. -/
def setMachine (state : FileState F) (machine : Machine) : FileState F :=
  { state with machine := machine }

/-- The state with other contents of the machine. -/
def setCore (state : FileState F) (core : Core) : FileState F :=
  state.setMachine { state.machine with core := core }

variable [DecidableEq F]

/-- Bytes of a file. -/
def contents (state : FileState F) (file : F) : Nat → Byte :=
  if file = state.fd then state.machine.core.storage else state.others file

/-- Replace the bytes of a file. -/
def write (state : FileState F) (file : F) (bytes : Nat → Byte) : FileState F :=
  if file = state.fd then
    state.setCore { state.machine.core with storage := bytes }
  else
    { state with others := Function.update state.others file bytes }

/-- `FDDriver::pwrite` of another driver object, on the file that it uses. -/
def pwrite (state : FileState F) (driver : Driver) (file : F) (buffer : Nat → Byte)
    (size offset : Nat) : FileState F :=
  let result := driver.pwriteResult state.machine.core.calls size offset
  let written := state.write file (blit (state.contents file) offset
    (Core.transferred result size) buffer)
  written.setCore written.machine.core.countCall

/-- `FDDriver::setFd`: the driver uses another file from now on. -/
def setFd (state : FileState F) (file : F) : FileState F where
  machine :=
    { state.machine with
      core := { state.machine.core with storage := state.contents file } }
  fd := file
  others := Function.update state.others state.fd state.machine.core.storage

end FileState

/-! ## Operations -/

/-- The operations on a mapping over files: those of its machine, transfers of
other drivers from a private buffer or from the mapped range, and the
descriptor. -/
inductive FileOp (F : Type) : Type
  | mapping (op : MappingOp)
  | pwrite (file : F) (buffer : Nat → Byte) (size offset : Nat)
  | pwriteMemory (file : F) (start size offset : Nat)
  | getFd
  | ficloneRange (file : F) (range : FileCloneRange F)
  | setFd (file : F)

/-- Operations with the type of their results. -/
def fileSignature (F : Type) : Signature where
  Op := FileOp F
  Result
    | .mapping op => mappingSignature.Result op
    | .pwrite _ _ _ _ => Int
    | .pwriteMemory _ _ _ _ => Int
    | .getFd => F
    | .ficloneRange _ _ => Int
    | .setFd _ => Unit

/-- A program of a thread that works on a mapping over files. -/
abbrev FileProgram (F α : Type) : Type := Program (fileSignature F) α

/-- Effect of an operation of a thread. -/
def Mapping.handleFiles [DecidableEq F] (mapping : Mapping) (driver : Driver)
    (clone : CloneAnswer F)
    (thread : Nat) : Handler (fileSignature F) (FileState F)
  | .mapping op, state =>
      (mapping.handle driver thread op state.machine).map fun answer =>
        (answer.1, state.setMachine answer.2)
  | .pwrite file buffer size offset, state =>
      some (driver.pwriteResult state.machine.core.calls size offset,
        state.pwrite driver file buffer size offset)
  | .pwriteMemory file start size offset, state =>
      some (driver.pwriteResult state.machine.core.calls size offset,
        state.pwrite driver file
          (fun position => state.machine.core.memory (start + position))
          size offset)
  | .getFd, state => some (state.fd, state)
  | .ficloneRange file range, state =>
      match clone range (state.contents range.srcFd) (state.contents file) with
      | some bytes => some ((0 : Int), state.write file bytes)
      | none => some ((-1 : Int), state)
  | .setFd file, state => some ((), state.setFd file)

namespace Files

open Program (request)

/-- Run a program of the mapping on the file that its driver uses. -/
def onMapping {α : Type} (program : MappingProgram α) : FileProgram F α :=
  program.expand fun op => request (E := fileSignature F) (.mapping op)

/-- `newDriver->pwrite` from a private buffer. -/
def pwrite (file : F) (buffer : Nat → Byte) (size offset : Nat) :
    FileProgram F Int :=
  request (E := fileSignature F) (.pwrite file buffer size offset)

/-- `newDriver->pwrite` from the mapped range. -/
def pwriteMemory (file : F) (start size offset : Nat) : FileProgram F Int :=
  request (E := fileSignature F) (.pwriteMemory file start size offset)

/-- `FDDriver::getFd`. -/
def getFd : FileProgram F F :=
  request (E := fileSignature F) .getFd

/-- `ioctl(file, FICLONERANGE, &range)`. -/
def ficloneRange (file : F) (range : FileCloneRange F) : FileProgram F Int :=
  request (E := fileSignature F) (.ficloneRange file range)

/-- `FDDriver::setFd`. -/
def setFd (file : F) : FileProgram F Unit :=
  request (E := fileSignature F) (.setFd file)

end Files

/-! ## Copies -/

namespace Mapping

variable (mapping : Mapping)

/-- The size of one copy of `Mapping::copyMappedPart`, at this offset. -/
def copySize (sizeToDump i : Nat) : Nat :=
  let copySize :=
    if i + mapping.segmentSize > sizeToDump then sizeToDump - i
    else mapping.segmentSize
  let mappingEnd := mapping.storageOffset + mapping.size
  if mapping.storageOffset + i + copySize > mappingEnd then
    mappingEnd - mapping.storageOffset - i
  else
    copySize

/-- The message of a copy that moved another number of bytes. -/
def copyFailure (what : String) (status : Int) (copySize i : Nat) : String :=
  what ++ s!" [{mapping.storageOffset}]+{mapping.size}" ++
    s!" ({status} != {copySize}) i={i}"

/-- The loop body of `Mapping::copyMappedPart`: a segment that is in step with the
storage is copied from memory, any other one from the storage. -/
def copySegment (newDriver : F) (sizeToDump segmentId : Nat) :
    FileProgram F Unit := do
  let i := mapping.segmentSize * segmentId
  let copySize := mapping.copySize sizeToDump i
  let offset := mapping.storageOffset + i
  let curStatus ← Files.onMapping (Sys.getStatus segmentId)
  if curStatus.mapped && !curStatus.dirty then
    let status ← Files.pwriteMemory newDriver i copySize offset
    Program.assume (status = copySize)
      (mapping.copyFailure "Failed to write data from the target driver !"
        status copySize i)
  else
    let (status, buffer) ← Files.onMapping
      (Sys.preadBuffer (fun _ => 0) copySize offset)
    Program.assume (status = copySize)
      (mapping.copyFailure "Failed to read data from the original driver !"
        status copySize i)
    let status ← Files.pwrite newDriver buffer copySize offset
    Program.assume (status = copySize)
      (mapping.copyFailure "Failed to write data from the target driver !"
        status copySize i)

/-- `Mapping::copyMappedPart`. -/
def copyMappedPart (newDriver : F) (storageSize : Nat) : FileProgram F Unit :=
  let sizeToDump :=
    if mapping.size > storageSize then storageSize else mapping.size
  Program.each (mapping.copySegment newDriver sizeToDump)
    (List.range (mapSize sizeToDump mapping.segmentSize / mapping.segmentSize))

/-- `Mapping::copyToDriver`. -/
def copyToDriver (newDriver : F) (storageSize : Nat) : FileProgram F Unit := do
  Program.assume (mapping.storageOffset ≤ storageSize)
    ("Try to copy and change driver with a size which is smaller than the " ++
      "mapping size !")
  mapping.copyMappedPart newDriver (storageSize - mapping.storageOffset)

end Mapping

/-! ## Entry points -/

/-- `FDDriver::cloneRange`.  The fields stand in the order of the initialiser of
the source. -/
def FDDriver.cloneRange (targetFd : F) (offset size : Nat) :
    FileProgram F Bool := do
  let fd ← Files.getFd
  let status ← Files.ficloneRange targetFd ⟨fd, size, offset, offset⟩
  pure (status == 0)

/-- `Driver::establish_mapping`, which `FDDriver` inherits. -/
def FDDriver.establishMapping : Int := 0

/-- `Mapping::registerRange`. -/
def Mapping.registerRange : FileProgram F Unit :=
  Program.assume (0 ≤ FDDriver.establishMapping)
    "Faild to register range of the given mapping !"

/-- `GlobalHandler::applyCow` for an `FDDriver`; `Mapping::unregisterRange` has no
effect on such a driver. -/
def GlobalHandler.applyCow (entries : List MappingRegistryEntry) (addr : Nat)
    (action : Mapping → FileProgram F Int) : FileProgram F Int :=
  match getMapping entries addr with
  | none => .abort "Fail to find the requested mapping for address %p !"
  | some mapping => do
      let status ← action mapping
      Mapping.registerRange
      pure status

/-- What `ummap_cow_fd` does with the mapping that it finds. -/
def Mapping.cowFd (mapping : Mapping) (fd : F) : FileProgram F Int := do
  let tryClone ← FDDriver.cloneRange fd mapping.storageOffset mapping.size
  Program.when (!tryClone)
    (mapping.copyToDriver fd (mapping.storageOffset + mapping.size))
  Files.setFd fd
  pure 0

/-- `ummap_cow_fd`. -/
def ummapCowFd (entries : List MappingRegistryEntry) (addr : Nat)
    (fd : F) : FileProgram F Int :=
  GlobalHandler.applyCow entries addr fun mapping => mapping.cowFd fd

/-! ## Calls of a client -/

/-- One call of a client on a mapping over files. -/
inductive FileCall (F : Type) : Type
  | call (call : Call)
  | cow (addr : Nat) (fd : F)

/-- The file that a call makes the driver use. -/
def FileCall.target : FileCall F → Option F
  | .call _ => none
  | .cow _ fd => some fd

/-- The files that a sequence of calls makes the driver use, in order. -/
def FileCall.targets (calls : List (Nat × FileCall F)) : List F :=
  calls.filterMap fun pair => pair.2.target

theorem FileCall.targets_cons (thread : Nat) (call : FileCall F)
    (rest : List (Nat × FileCall F)) :
    FileCall.targets ((thread, call) :: rest) =
      call.target.toList ++ FileCall.targets rest := by
  unfold FileCall.targets
  rw [List.filterMap_cons]
  cases call.target <;> rfl

/-- The program of a call; a load returns the byte it read. -/
def Mapping.fileCall (mapping : Mapping) (entries : List MappingRegistryEntry)
    (attempts : Nat) : FileCall F → FileProgram F (Option Byte)
  | .call call => Files.onMapping (mapping.call attempts call)
  | .cow addr fd => do
      let _ ← ummapCowFd entries addr fd
      pure none

/-- Run calls of threads one after the other and collect their results. -/
def Mapping.runFileCalls [DecidableEq F] (mapping : Mapping)
    (entries : List MappingRegistryEntry) (driver : Driver) (clone : CloneAnswer F)
    (attempts : Nat) :
    List (Nat × FileCall F) → FileState F →
      Outcome (FileState F) (List (Option Byte))
  | [], state => .finished [] state
  | (thread, call) :: rest, state =>
      ((mapping.fileCall entries attempts call).run
        (mapping.handleFiles driver clone thread) state).andThen
          fun value state' =>
            (mapping.runFileCalls entries driver clone attempts rest
              state').andThen
                fun values final => .finished (value :: values) final

end UmmapIo
