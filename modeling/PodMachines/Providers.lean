import PodMachines.Backend.Ec2
import PodMachines.Backend.Gce
import PodMachines.Backend.VirtualBox
import PodMachines.Images
import PodMachines.Registry

/-!
# Providers

The providers of pods and of images by name, and how each is started: from the configuration that is loaded for
it, and once the tool has accepted its credentials.
-/

namespace PodMachines

/-- A provider of pods, not yet started. -/
inductive PodProvider
  | ec2
  | gce
  | virtualBox
  | simulated
  deriving DecidableEq, Repr

/-- A provider of images, not yet started. -/
inductive ImageProvider
  | ec2
  | gce
  /-- Over the simulated catalog, under a name. -/
  | simulated (catalog : String)
  deriving DecidableEq, Repr

section
variable [Doc.Parsers]

/-- The backend of a provider that is started with the configuration in a directory. -/
def PodProvider.start (files : Files) (directory : String) : PodProvider → Work (Except Failure Backend)
  | ec2 =>
    match Config.Ec2.form.load files directory with
    | .error f => pure (.error f)
    | .ok config => do
      match ← Backend.Ec2.validate config files with
      | .error f => pure (.error f)
      | .ok () => pure (.ok (Backend.Ec2.backend config))
  | gce =>
    match Config.Gce.form.load files directory with
    | .error f => pure (.error f)
    | .ok config => do
      match ← Backend.Gce.activate config files with
      | .error f => pure (.error f)
      | .ok () => pure (.ok (Backend.Gce.backend config))
  | virtualBox =>
    match Config.VirtualBox.form.load files directory with
    | .error f => pure (.error f)
    | .ok config => pure (.ok (Backend.VirtualBox.backend config))
  | simulated => pure (.ok (Backend.simulated none))

/-- The catalog of a provider that is started with the configuration in a directory. -/
def ImageProvider.start (files : Files) (directory : String) : ImageProvider → Work (Except Failure Catalog)
  | ec2 =>
    match Config.Ec2.form.load files directory with
    | .error f => pure (.error f)
    | .ok config => pure (.ok (Backend.Ec2.catalog config))
  | gce =>
    match Config.Gce.form.load files directory with
    | .error f => pure (.error f)
    | .ok config => do
      match ← Backend.Gce.activate config files with
      | .error f => pure (.error f)
      | .ok () => pure (.ok (Backend.Gce.catalog config))
  | simulated name => pure (.ok (Catalog.simulated name))

end

/-- The providers by name. -/
structure Providers where
  pods : Registry PodProvider
  images : Registry ImageProvider

namespace Providers

/-- No providers. -/
def empty : Providers :=
  ⟨.empty "pod", .empty "image"⟩

/-- With a provider of pods. -/
def registerPods (p : Providers) (name : String) (provider : PodProvider) : Except Failure Unit × Providers :=
  match p.pods.register name provider with
  | .ok pods => (.ok (), { p with pods := pods })
  | .error f => (.error f, p)

/-- With a provider of images. -/
def registerImages (p : Providers) (name : String) (provider : ImageProvider) : Except Failure Unit × Providers :=
  match p.images.register name provider with
  | .ok images => (.ok (), { p with images := images })
  | .error f => (.error f, p)

/-- With a provider of pods and then one of images, unless the first cannot be registered. -/
def registerBoth (p : Providers) (name : String) (pods : PodProvider) (images : ImageProvider) :
    Except Failure Unit × Providers :=
  match p.registerPods name pods with
  | (.ok (), p) => p.registerImages name images
  | (.error f, p) => (.error f, p)

/-- With the providers of EC2. -/
def registerEc2 (p : Providers) : Except Failure Unit × Providers :=
  p.registerBoth Backend.Ec2.name .ec2 .ec2

/-- With the providers of GCE. -/
def registerGce (p : Providers) : Except Failure Unit × Providers :=
  p.registerBoth Backend.Gce.name .gce .gce

/-- With the provider of VirtualBox, which has no images. -/
def registerVirtualBox (p : Providers) : Except Failure Unit × Providers :=
  p.registerPods Backend.VirtualBox.name .virtualBox

/-- Every provider that there is. -/
def builtin : Providers :=
  (empty.registerEc2.2.registerGce.2).registerVirtualBox.2

variable [Doc.Parsers]

/-- The backend of a provider of pods, started. -/
def startPods (p : Providers) (files : Files) (directory name : String) : Work (Except Failure Backend) :=
  match p.pods.get name with
  | .error f => pure (.error f)
  | .ok provider => provider.start files directory

/-- The catalog of a provider of images, started. -/
def startImages (p : Providers) (files : Files) (directory name : String) : Work (Except Failure Catalog) :=
  match p.images.get name with
  | .error f => pure (.error f)
  | .ok provider => provider.start files directory

end Providers
end PodMachines
