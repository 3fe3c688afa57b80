import UmmapIo.Lib.CText
import UmmapIo.Lib.Fallible
import UmmapIo.Uri.Grammar

/-!
# Listings of object identifiers

The class `Listings` gives every resource name of a listing an object
identifier. A listing is a file with one line for each name. It is loaded when a
name of it is first asked for, and all listings in memory are written back when
the object is destroyed.
-/

namespace UmmapIo

/-- The identifier of an object: two 64-bit integers. -/
structure ObjectId : Type where
  low : BitVec 64
  high : BitVec 64
  deriving DecidableEq

/-- The names of a listing with their identifiers. -/
abbrev ObjectMap : Type := Std.ExtTreeMap Text ObjectId compare

/-- The listings in memory. -/
abbrev ListingMap : Type := Std.ExtTreeMap Text ObjectMap compare

/-- What the process meets: the file each listing name denotes, the files that
can be opened for writing, the text of the error otherwise, and the values of
the random generator. -/
structure ListingSystem (F : Type) : Type where
  /-- The file that a name denotes. -/
  resolve : Text → F
  /-- Whether a file can be opened for writing. -/
  canWrite : F → Bool
  /-- The text of the error of a file that cannot. -/
  strerror : Text
  /-- The values of the successive calls of the random generator. -/
  rand : Nat → Nat

/-- The files, and the state of the object `Listings`. -/
structure ListingWorld (F : Type) : Type where
  /-- The contents of the files that exist. -/
  files : F → Option Text
  /-- The field `listings`. -/
  listings : ListingMap
  /-- The number of calls of the random generator. -/
  drawn : Nat

/-- The size of the buffer for the lines of a listing. -/
def lineBufferSize : Nat := 4096

/-- The line of a name in a listing. The name is written up to a terminator and
both numbers are written unsigned. -/
def ObjectId.line (id : ObjectId)
    (name : Text) : Text :=
  name.takeWhile (· ≠ terminator) ++ '\t' :: (Nat.toDigits 10 id.high.toNat ++
    ':' :: (Nat.toDigits 10 id.low.toNat ++ ['\n']))

/-- The conversions of a line of a listing: a word, two signed numbers and the
colon between them. -/
def scanLine (line : Text) : Option (Text × ObjectId) := do
  let (name, rest) ← CText.scanWord (line.takeWhile (· ≠ terminator))
  let (high, rest) ← CText.scanLong (CText.skipSpaces rest)
  match rest with
  | ':' :: rest => do
      let (low, _) ← CText.scanLong rest
      return (name, ⟨BitVec.ofInt 64 low, BitVec.ofInt 64 high⟩)
  | _ => none

/-- Message of a line that is not one of a listing. -/
def invalidFormat (listing line : Text) : Text :=
  "Invalid format in listing '".toList ++ listing ++ "' : ".toList ++
    line.takeWhile (· ≠ terminator) ++ " ".toList

/-- Add the names of some lines to a listing. -/
def addLines (listing : Text) : ObjectMap → List Text → Except Text ObjectMap
  | store, [] => .ok store
  | store, line :: rest =>
      match scanLine line with
      | some (name, id) => addLines listing (store.insert name id) rest
      | none => .error (invalidFormat listing line)

/-- The contents of the file of a listing: the names in their order. -/
def ObjectMap.contents (store : ObjectMap) : Text :=
  store.toList.flatMap fun entry => entry.2.line entry.1

namespace ListingWorld

variable {F : Type} [DecidableEq F] (system : ListingSystem F)

/-- A 64-bit integer from two values of the random generator. -/
def randLong (drawn : Nat) : BitVec 64 :=
  (BitVec.ofNat 64 (system.rand drawn) <<< 32) +
    BitVec.ofNat 64 (system.rand (drawn + 1))

/-- Create the identifier of a name and register it in its listing. -/
def createObjectId (world : ListingWorld F) (listing : Text) (store : ObjectMap)
    (name : Text) : ObjectId × ListingWorld F :=
  let id : ObjectId :=
    { low := randLong system world.drawn
      high := randLong system (world.drawn + 2) }
  (id,
    { world with
      listings := world.listings.insert listing (store.insert name id)
      drawn := world.drawn + 4 })

/-- Load a listing from the contents of its file. -/
def loadListing (world : ListingWorld F)
    (listing contents : Text) : Except Text (ObjectMap × ListingWorld F) := do
  let store ← addLines listing ((world.listings[listing]?).getD ∅)
    (CText.readLines (lineBufferSize - 1) [] contents)
  return (store, { world with listings := world.listings.insert listing store })

/-- Load the listing if its file exists and look for the name in it. -/
def createListingAndObjectId (world : ListingWorld F)
    (listing name : Text) : Except Text (ObjectId × ListingWorld F) :=
  match world.files (system.resolve listing) with
  | some contents => do
      let (store, world) ← world.loadListing listing contents
      match store[name]? with
      | some id => return (id, world)
      | none => return world.createObjectId system listing store name
  | none =>
      .ok (world.createObjectId system listing ((world.listings[listing]?).getD ∅) name)

/-- The identifier of a name in a listing. -/
def getObjectId (world : ListingWorld F)
    (listing name : Text) : Except Text (ObjectId × ListingWorld F) := do
  assumeArg (listing ≠ []) "Invalid empty listing filename !".toList
  assumeArg (name ≠ []) "Invalid ressource name !".toList
  match world.listings[listing]? with
  | none => world.createListingAndObjectId system listing name
  | some store =>
      match store[name]? with
      | none => return world.createObjectId system listing store name
      | some id => return (id, world)

/-- Message of a file that cannot be written. -/
def failToOpen (listing : Text) : Text :=
  "Fail to open listing file '".toList ++ listing ++ "' : ".toList ++ system.strerror

/-- Write a listing. -/
def saveListing (world : ListingWorld F)
    (entry : Text × ObjectMap) : Except Text (ListingWorld F) := do
  assumeArg (system.canWrite (system.resolve entry.1)) (failToOpen system entry.1)
  return { world with
    files := Function.update world.files (system.resolve entry.1)
      (some (ObjectMap.contents entry.2)) }

/-- Write all listings in memory. -/
def saveListings (world : ListingWorld F) : Except Text (ListingWorld F) :=
  world.listings.toList.foldlM (saveListing system) world

/-- Destroy the object and create it again. -/
def recreate (world : ListingWorld F) : Except Text (ListingWorld F) := do
  let world ← world.saveListings system
  return { world with listings := ∅ }

end ListingWorld

/-- The calls that use the object `Listings`. -/
inductive ListingCall : Type
  | getObjectId (listing name : Text)
  | recreate

namespace ListingWorld

variable {F : Type} [DecidableEq F] (system : ListingSystem F)

/-- One call, with the identifier it returns. -/
def call (world : ListingWorld F) :
    ListingCall → Except Text (Option ObjectId × ListingWorld F)
  | .getObjectId listing name => do
      let (id, world) ← world.getObjectId system listing name
      return (some id, world)
  | .recreate => do
      let world ← world.recreate system
      return (none, world)

/-- A sequence of calls, with what each of them returns. -/
def run (world : ListingWorld F) :
    List ListingCall → Except Text (List (Option ObjectId) × ListingWorld F)
  | [] => .ok ([], world)
  | first :: rest => do
      let (answer, world) ← world.call system first
      let (answers, world) ← world.run rest
      return (answer :: answers, world)

end ListingWorld
end UmmapIo
