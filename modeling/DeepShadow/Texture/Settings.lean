import DeepShadow.Texture.Header

/-!
# Settings of a new deep texture

The sizes of an image, its tiles and its buckets, with the number of channels and
the matrices to record.  Buckets are the regions in which producers hand over
the image; each tile consists of whole buckets.
-/

namespace DeepShadow
namespace Texture

/-- What has to be known to write a new file. -/
structure Settings where
  imageWidth : UInt32
  imageHeight : UInt32
  tileWidth : UInt32 := 128
  tileHeight : UInt32 := 128
  bucketWidth : UInt32 := 16
  bucketHeight : UInt32 := 16
  channels : UInt32
  transforms : Transforms := Transforms.identity
deriving DecidableEq, Repr

namespace Settings

/-- The grid of the image, where the settings agree with each other. -/
def grid (settings : Settings) : Except SettingsError Grid :=
  if settings.bucketWidth = 0 ∨ settings.bucketHeight = 0 then .error .emptyBucket
  else if !supportedChannels settings.channels.toNat then
    .error (.unsupportedChannels settings.channels.toNat)
  else
    match Grid.ofSizes settings.imageWidth.toNat settings.imageHeight.toNat
      settings.tileWidth.toNat settings.tileHeight.toNat with
    | .error error => .error (.grid error)
    | .ok grid =>
        if settings.tileWidth.toNat % settings.bucketWidth.toNat ≠ 0 ∨
            settings.tileHeight.toNat % settings.bucketHeight.toNat ≠ 0 then
          .error
            (.bucketsInTile settings.tileWidth.toNat settings.tileHeight.toNat
              settings.bucketWidth.toNat settings.bucketHeight.toNat)
        else .ok grid

end Settings
end Texture
end DeepShadow
