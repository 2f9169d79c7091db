import DeepShadow.Bucket.Shade
import DeepShadow.Demo.Scene
import DeepShadow.Session

/-!
# Rendering the demonstration scene

The producers take the buckets of the image in their order and send the regions
to one session.  The file does not depend on which producer shades which bucket.
-/

namespace DeepShadow
namespace Demo

/-- Shades buckets and sends their regions to a session. -/
def produce
    (scene : Scene)
    (channels : Nat)
    (session : Session) : List Rectangle -> Traced (Except Violation Session)
  | [] => return .ok session
  | bucket :: buckets => do
      match shade bucket channels scene.subsamples with
      | .error violation => return .error violation
      | .ok region =>
          match ← session.receive (.region region) with
          | .error violation => return .error violation
          | .ok session => produce scene channels session buckets

/-- What a rendering comes to: the result of its session, with the file. -/
abbrev Outcome := Except Session.Error Session.Report × Texture.Writer

/-- Renders the scene into a new file, unless the system refuses to create
it. -/
def render
    (path : String)
    (settings : Session.Settings)
    (producers : Nat)
    (refusal : Option FileError) :
    Traced (Except Violation (Except Texture.WriteError Outcome)) := do
  let texture := settings.texture
  match BucketSize.ofSides texture.bucketWidth.toNat texture.bucketHeight.toNat with
  | .error violation => return .error violation
  | .ok size =>
      let buckets := size.cover texture.imageWidth.toNat texture.imageHeight.toNat
      match ← Session.start path settings refusal with
      | .error violation => return .error violation
      | .ok (.error error) => return .ok (.error error)
      | .ok (.ok session) =>
          Traced.say .command .info
            s!"shading {buckets.length} buckets on {max producers 1} threads"
          let scene : Scene := ⟨texture.imageWidth.toNat, texture.imageHeight.toNat⟩
          match ← produce scene texture.channels.toNat session buckets with
          | .error violation => return .error violation
          | .ok session => return .ok (.ok (← session.join))

end Demo
end DeepShadow
