import PodMachines.Outside

/-!
# Backends and catalogs

A backend serves requests for machines; a catalog finds images. A backend can boot images of the catalog that
has the name it gives.
-/

namespace PodMachines

/-- A way of making machines. -/
structure Backend where
  name : String
  /-- The catalog whose images it can boot. -/
  catalog : Option String
  serve : (request : Backend.Request) → Work request.Answer

/-- A way of finding images. -/
structure Catalog where
  name : String
  find : Image.Reference → Work (Except Failure (List Image.Record))

/-- The backend of the simulated cloud. -/
def Backend.simulated (catalog : Option String) : Backend where
  name := "fake"
  catalog := catalog
  serve request := Work.ask (.cloud request)

/-- The simulated catalog, under a name. -/
def Catalog.simulated (name : String) : Catalog where
  name := name
  find reference := do
    let records ← Work.ask (.browse reference)
    pure (.ok records)

end PodMachines
