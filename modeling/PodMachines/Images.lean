import PodMachines.Backend
import PodMachines.Image.Directory

/-!
# Image providers

An image provider pulls images from a catalog and keeps the directory of those it pulled. It lets pods boot its
images if their backend can boot those of its catalog. A provider may instead give every image a prefix and
keep nothing.
-/

namespace PodMachines

/-- How images are provided. -/
inductive Images
  | directory (catalog : Catalog) (pulled : Image.Directory)
  | prefixing (start : String)

namespace Images

/-- The provider of a catalog, without images. -/
def ofCatalog (catalog : Catalog) : Images :=
  .directory catalog .empty

/-- The provider's name. -/
def name : Images → String
  | directory catalog _ => catalog.name
  | prefixing _ => "aws"

/-- Every known image, or the one of a reference. -/
def list (i : Images) (reference : Option String) : List Image.Record :=
  match i with
  | directory _ pulled => pulled.list reference
  | prefixing _ => []

/-- The image of a reference, if it is known. -/
def status (i : Images) (reference : String) : Option Image.Record :=
  match i with
  | directory _ pulled => pulled.status reference
  | prefixing _ => none

/-- Without what is under a text. -/
def forget (i : Images) (reference : String) : Images :=
  match i with
  | directory catalog pulled => directory catalog (pulled.forget reference)
  | prefixing start => prefixing start

/-- The name under which a backend boots the image of a reference. -/
def translate (i : Images) (reference : String) : String :=
  match i with
  | directory .. => reference
  | prefixing start => start ++ reference

/-- Whether pods of a backend that boots images of the given catalog can boot this provider's. -/
def integrates (i : Images) (catalog : Option String) : Bool :=
  match i with
  | directory own _ => catalog = some own.name
  | prefixing _ => false

/-- What pulling a reference comes to before a catalog is asked, else what is asked. -/
def asked (i : Images) (reference : String) : Except (Except Failure String) Image.Reference :=
  match i with
  | directory .. =>
    match Image.Reference.parse reference with
    | .ok r => .ok r
    | .error f => .error (.error f)
  | prefixing _ => .error (.ok reference)

/-- What the provider's catalog finds. -/
def find (i : Images) (reference : Image.Reference) : Work (Except Failure (List Image.Record)) :=
  match i with
  | directory catalog _ => catalog.find reference
  | prefixing _ => pure (.ok [])

/-- What pulling a reference comes to once the catalog has answered, and the provider after it. -/
def pulled (i : Images) (reference : String) (found : Except Failure (List Image.Record)) :
    Except Failure String × Images :=
  match i with
  | directory catalog pulled =>
    let (result, pulled) := pulled.pulled reference found
    (result, directory catalog pulled)
  | prefixing start => (.ok reference, prefixing start)

/-- Pulls the image of a reference: its id, and the provider after it. -/
def pull (i : Images) (reference : String) : Work (Except Failure String × Images) :=
  match i.asked reference with
  | .error result => pure (result, i)
  | .ok parsed => do
    let found ← i.find parsed
    pure (i.pulled reference found)

end Images
end PodMachines
