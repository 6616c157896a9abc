import PodMachines.Image.Record
import PodMachines.Image.Reference
import PodMachines.Table

/-!
# The image directory

The images that were pulled, each under the text of its reference as it was pulled. An image is looked up under
the normalized text, and forgotten under the text as it is given.
-/

namespace PodMachines.Image

/-- The pulled images by the texts of their references. -/
structure Directory where
  known : Table Record

namespace Directory

/-- No images. -/
def empty : Directory :=
  ⟨.empty⟩

/-- The image of a reference, if it is known. -/
def status (d : Directory) (reference : String) : Option Record :=
  d.known.find? (Reference.normalize reference)

/-- Every known image, or the one of a reference. -/
def list (d : Directory) : Option String → List Record
  | some reference => (d.status reference).toList
  | none => d.known.values

/-- With an image under the text of its reference. -/
def remember (d : Directory) (reference : String) (image : Record) : Directory :=
  ⟨d.known.insert reference image⟩

/-- Without what is under a text. -/
def forget (d : Directory) (reference : String) : Directory :=
  ⟨d.known.erase reference⟩

/-- The one image that a catalog found of a reference. -/
def unique (reference : String) : List Record → Except Failure Record
  | [] => .error (.noImage reference)
  | [image] => .ok image
  | images => .error (.ambiguousImage reference images.length)

/-- What pulling a reference comes to once the catalog has answered, and the directory after it. -/
def pulled (d : Directory) (reference : String) (found : Except Failure (List Record)) :
    Except Failure String × Directory :=
  match found with
  | .error f => (.error f, d)
  | .ok images =>
    match unique reference images with
    | .error f => (.error f, d)
    | .ok image => (.ok image.id, d.remember reference image)

end Directory
end PodMachines.Image
