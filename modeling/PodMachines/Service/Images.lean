import PodMachines.Service.Request

/-!
# Requests about images

Images are those of the provider; without one there are no such requests. Pulling asks the catalog and keeps
what it finds.
-/

namespace PodMachines.Service
open Message

/-- The status of requests about images where no images are provided. -/
def noImages : Status :=
  ⟨.unimplemented, ""⟩

/-- The reference that a request must give. -/
def required (image : Option ImageSpec) : Except Status String :=
  match image with
  | some spec => .ok spec.image
  | none => .error ⟨.invalidArgument, "image spec required"⟩

/-- Pulls the image of a reference. -/
def pull (images : Images) (reference : String) : Course (Except Failure String) :=
  match images.asked reference with
  | .error result => pure result
  | .ok parsed => do
    let found ← Course.ask (.find parsed)
    Course.ask (.keep reference found)

/-- The known images, or the one of a reference that is not empty. -/
def listImages (images : Images) (image : Option ImageSpec) : List Message.Image :=
  let reference := (image.map ImageSpec.image).filter fun text => !text.isEmpty
  (images.list reference).map (Image.Record.toMessage none)

/-- Goes on with the provider of images and the reference that a request gives. -/
def withReference {α : Type} (image : Option ImageSpec) (go : Images → String → Course (Except Status α)) :
    Course (Except Status α) := do
  match ← Course.ask .images with
  | none => pure (.error noImages)
  | some images =>
    match required image with
    | .error status => pure (.error status)
    | .ok reference => go images reference

end PodMachines.Service
