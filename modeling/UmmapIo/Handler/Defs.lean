import UmmapIo.Mapping.Operations

/-!
# The global handler

The entry points of `core/GlobalHandler.cpp` that act on a registered mapping.
An entry point looks up the mapping of an address in the registry and runs
operations of that mapping; its program is a program on the machine of the
mapping it finds.
-/

namespace UmmapIo

/-- `MappingRegistryEntry`. -/
structure MappingRegistryEntry where
  /-- The registered mapping. -/
  mapping : Mapping
  /-- First address of the entry. -/
  base : Nat
  /-- First address after the entry: the field `end`. -/
  finish : Nat

/-- The entry that `MappingRegistry::registerMapping` builds. -/
def MappingRegistryEntry.ofMapping (mapping : Mapping) : MappingRegistryEntry where
  mapping := mapping
  base := mapping.baseAddress
  finish := mapping.baseAddress + mapping.size

/-- `MappingRegistry::getMapping`: the first entry that holds the address. -/
def getMapping (entries : List MappingRegistryEntry)
    (address : Nat) : Option Mapping :=
  (entries.find? fun entry =>
    decide (entry.base ≤ address) && decide (address < entry.finish)).map
      MappingRegistryEntry.mapping

namespace GlobalHandler

/-- `GlobalHandler::uunmap`.  Deleting the mapping afterwards releases its memory
and does not reach the storage. -/
def uunmap (entries : List MappingRegistryEntry) (ptr : Nat)
    (sync : Bool) : MappingProgram Unit :=
  match getMapping entries ptr with
  | none => .abort s!"Fail to find ummap mapping to unmap : {ptr}"
  | some mapping =>
      Program.when sync (mapping.flush 0 mapping.getAlignedSize ⟨true, false, false⟩)

/-- The offset and the size that `GlobalHandler::flush` computes for
`Mapping::flush`. -/
def flushRange (mapping : Mapping) (ptr size : Nat) : Nat × Nat :=
  let offset := ptr - mapping.baseAddress
  let size := if size = 0 then mapping.getAlignedSize - offset else size
  let delta := offset - offset % mapping.segmentSize
  let range :=
    if offset % mapping.segmentSize ≠ 0 then (offset - delta, size + delta)
    else (offset, size)
  if range.2 % mapping.segmentSize ≠ 0 then
    (range.1, range.2 + (mapping.segmentSize - range.1 % mapping.segmentSize))
  else range

/-- `GlobalHandler::flush`. -/
def flush (entries : List MappingRegistryEntry) (ptr size : Nat)
    (evict sync : Bool) : MappingProgram Unit :=
  match getMapping entries ptr with
  | none => .abort s!"Fail to find ummap mapping to unmap : {ptr}"
  | some mapping => do
      Program.assume
        (ptr + (flushRange mapping ptr size).2 ≤
          mapping.baseAddress + mapping.getAlignedSize)
        "Invalid flush size, not fit in ummap mapping !"
      mapping.flush (flushRange mapping ptr size).1
        (flushRange mapping ptr size).2 ⟨sync, evict, false⟩

/-- `GlobalHandler::skipFirstRead`. -/
def skipFirstRead (entries : List MappingRegistryEntry)
    (ptr : Nat) : MappingProgram Unit :=
  match getMapping entries ptr with
  | none => .abort s!"Fail to find ummap mapping to unmap : {ptr}"
  | some mapping => mapping.skipFirstRead

end GlobalHandler

end UmmapIo
