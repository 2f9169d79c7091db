import DeepShadow.Cache.Basic
import DeepShadow.Session
import DeepShadow.Toml.Document

/-!
# Configuration

The settings that the command line reads from a TOML file.  Each setting is a
number with a default; a name that is no setting is an error.
-/

namespace DeepShadow

/-- What a configuration file can set. -/
structure Configuration where
  maxResidentTiles : Nat := defaultCacheCapacity
  tileWidth : UInt32 := 128
  tileHeight : UInt32 := 128
  bucketWidth : UInt32 := 16
  bucketHeight : UInt32 := 16
  /-- The number of regions that may wait in the queue of the output. -/
  channelCapacity : Nat := 64
deriving DecidableEq, Repr

/-- Why a text is no configuration. -/
inductive ConfigurationError
  /-- The text is no TOML document with these settings. -/
  | document
  | noChannelCapacity
  | cache (error : CacheError)
deriving DecidableEq, Repr

namespace ConfigurationError

/-- The text shown for an error, with the texts of the errors behind it. -/
def messages : ConfigurationError -> List String
  | document => ["TOML parse error"]
  | noChannelCapacity => ["output.channel_capacity must be at least 1"]
  | cache error => ["cache.max_resident_tiles", error.message]

end ConfigurationError

namespace Configuration

/-- A setting of a section: its name, what its values have to stay below, and its
default. -/
structure Field where
  name : String
  bound : Nat
  default : Nat
deriving DecidableEq, Repr

/-- The bound of settings that count things in memory. -/
def countBound : Nat := 0x10000000000000000

/-- The bound of settings that are sizes in pixels. -/
def sizeBound : Nat := 0x100000000

/-- The settings of the section `cache`. -/
def cacheFields : List Field := [⟨"max_resident_tiles", countBound, defaultCacheCapacity⟩]

/-- The settings of the section `output`. -/
def outputFields : List Field :=
  [ ⟨"tile_width", sizeBound, 128⟩
  , ⟨"tile_height", sizeBound, 128⟩
  , ⟨"bucket_width", sizeBound, 16⟩
  , ⟨"bucket_height", sizeBound, 16⟩
  , ⟨"channel_capacity", countBound, 64⟩ ]

/-- The number that a value sets. -/
def Field.number? (field : Field) : Toml.Value -> Option Nat
  | .integer value =>
      if 0 ≤ value && value.toNat < field.bound then some value.toNat else none
  | _ => none

/-- The number that a value sets, or the default where there is no value. -/
def Field.numberOrDefault? (field : Field) : Option Toml.Value -> Option Nat
  | some value => field.number? value
  | none => some field.default

/-- The settings of a section, in the order of its fields.  A list sets the
fields in their order; values without a field are left aside. -/
def section? (fields : List Field) : Option Toml.Value -> Option (List Nat)
  | none => some (fields.map Field.default)
  | some (.table _ entries) =>
      if entries.all fun (name, _) => fields.any fun field => field.name == name then
        fields.mapM fun field => field.numberOrDefault? (entries.lookup field.name)
      else none
  | some (.list values) =>
      fields.zipIdx.mapM fun (field, index) => field.numberOrDefault? values[index]?
  | some _ => none

/-- The configuration that a document describes. -/
def ofDocument? (document : Toml.Table) : Option Configuration := do
  if document.any fun (name, _) => name != "cache" && name != "output" then none
  let cache ← section? cacheFields (document.find? "cache")
  let output ← section? outputFields (document.find? "output")
  match cache, output with
  | [maxResidentTiles], [tileWidth, tileHeight, bucketWidth, bucketHeight, channelCapacity] =>
      some
        { maxResidentTiles
          tileWidth := UInt32.ofNat tileWidth
          tileHeight := UInt32.ofNat tileHeight
          bucketWidth := UInt32.ofNat bucketWidth
          bucketHeight := UInt32.ofNat bucketHeight
          channelCapacity }
  | _, _ => none

/-- The configuration that a text describes. -/
def ofText (text : String) : Except ConfigurationError Configuration :=
  match Toml.ofText? text >>= ofDocument? with
  | none => .error .document
  | some configuration =>
      if configuration.channelCapacity = 0 then .error .noChannelCapacity
      else if configuration.maxResidentTiles = 0 then .error (.cache .noCapacity)
      else .ok configuration

/-- The settings of a session for an image. -/
def sessionSettings
    (configuration : Configuration)
    (imageWidth imageHeight channels : UInt32) : Session.Settings :=
  { texture :=
      { imageWidth
        imageHeight
        tileWidth := configuration.tileWidth
        tileHeight := configuration.tileHeight
        bucketWidth := configuration.bucketWidth
        bucketHeight := configuration.bucketHeight
        channels }
    capacity := configuration.channelCapacity }

end Configuration
end DeepShadow
