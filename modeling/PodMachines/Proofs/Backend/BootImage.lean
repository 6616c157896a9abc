import PodMachines.Doc.Standard
import PodMachines.Proofs.Backend.Booted
import PodMachines.Proofs.Image.Normalizing

/-! Which image of GCE a reference names when it is pulled, and which one a machine is made from that asks for it. Main
    statement: the project is the same, but a tag is left out of the name only where the image is pulled. -/

namespace PodMachines

namespace Text
variable {sep : Char}

theorem splitOnce_of_not_mem {s : List Char} (h : sep ∉ s) : splitOnce sep s = none := by
  induction s with
  | nil => rfl
  | cons c s ih =>
    obtain ⟨hc, hs⟩ := List.ne_and_not_mem_of_not_mem_cons h
    rw [splitOnce, if_neg hc.symm, ih hs, Option.map_none]

theorem splitOnce_append {start : List Char} (h : sep ∉ start) (rest : List Char) :
    splitOnce sep (start ++ sep :: rest) = some (start, rest) := by
  induction start with
  | nil => exact if_pos rfl
  | cons c start ih =>
    obtain ⟨hc, hstart⟩ := List.ne_and_not_mem_of_not_mem_cons h
    rw [List.cons_append, splitOnce, if_neg hc.symm, ih hstart, Option.map_some]

end Text

namespace Backend.Gce
open Image

/-- The flags that name an image, in a project if there is one. -/
def naming (r : Reference) : List String :=
  ("--image=" ++ r.name) :: (r.qualifier.map ("--image-project=" ++ ·)).toList

/-- The command that creates an instance from the image that some flags name. -/
def creation (c : Config.Gce) (instanceName : String) (image : List String) : Command :=
  onInstance c "create" instanceName
    (["--machine-type=" ++ c.machineType, "--network=" ++ c.network, "--subnet=" ++ c.subnet, "--scopes=" ++ c.scope,
      "--format=json"] ++ image)

/-- The command that lists the images of a reference. -/
def listing (c : Config.Gce) (r : Reference) : Command :=
  ⟨"gcloud", ["compute", "images", "list", "--project=" ++ r.qualifier.getD c.project, "--no-standard-images",
    "--filter=name=" ++ r.name, "--format=json"]⟩

/-- What a listing is taken as. -/
def found [Doc.Parsers] (c : Config.Gce) (r : Reference) (reply : Except String Ended) : Except Failure (List Record) :=
  match (listing c r).decoded (.listOf Described.decode) reply with
  | .error f => .error (.backendCall name f.message)
  | .ok images => .ok (images.map Described.record)

theorem naming_name_inj {qualifier : Option String} {name name' : String} :
    naming ⟨qualifier, name⟩ = naming ⟨qualifier, name'⟩ ↔ name = name' := by
  simp only [naming, List.cons.injEq, String.append_right_inj, and_true]

/-- A reference is taken for an image as it is written, with its tag. -/
theorem imageFlags_text (w : Writing) :
    imageFlags w.text = naming ⟨w.qualifier, w.name ++ Writing.behind w.tag⟩ := by
  have hslash : '/' ∉ (w.name ++ Writing.behind w.tag).toList := by
    rw [String.toList_append]
    exact w.slash_not_mem_last
  cases hqualifier : w.qualifier with
  | none =>
    have htext : w.text = w.name ++ Writing.behind w.tag := by
      rw [Writing.text, hqualifier, Writing.before, String.empty_append]
    rw [imageFlags, htext, Text.splitOnce_of_not_mem hslash]
    rfl
  | some q =>
    have htext : w.text.toList = q.toList ++ '/' :: (w.name ++ Writing.behind w.tag).toList := by
      simp [Writing.text, hqualifier, Writing.before]
    rw [imageFlags, htext, Text.splitOnce_append (w.qualifier_some q hqualifier).2]
    simp only [String.ofList_toList]
    rfl

section
variable [Doc.Parsers]

theorem find_bind {α : Type} (c : Config.Gce) (r : Reference) (next : Except Failure (List Record) → Work α) :
    (find c r).bind next = Program.ask (.run (listing c r)) fun reply => next (found c r reply) := by
  show (((listing c r).runJson (.listOf Described.decode)).bind _).bind next = _
  rw [Program.bind_assoc, Command.runJson_bind]
  refine congrArg (Program.ask (Ask.run (listing c r))) (funext fun reply => ?_)
  unfold found
  cases (listing c r).decoded (.listOf Described.decode) reply <;> rfl

/-- What a reference names to a machine that asks for it, and to a pull. The name is `r`'s, and what stands behind it is
    the tag. -/
structure BootImage (s : String) (r : Reference) (tag : Option String) : Prop where
  text : s = Writing.before r.qualifier ++ (r.name ++ Writing.behind tag)
  /-- The machine is made from the image whose name is the reference's with its tag. -/
  flags : imageFlags s = naming ⟨r.qualifier, r.name ++ Writing.behind tag⟩
  makes (c : Config.Gce) (known : Directory) (spec : Machine.Spec) :
    spec.image = some ((Images.directory (catalog c) known).translate s) →
      ∃ next, provision c spec =
        Program.ask (.run (creation c spec.name (naming ⟨r.qualifier, r.name ++ Writing.behind tag⟩))) next
  /-- The pull asks for the name without it. -/
  pulls (c : Config.Gce) (known : Directory) :
    (Images.directory (catalog c) known).pull s = Program.ask (.run (listing c r)) fun reply =>
      .done ((Images.directory (catalog c) known).pulled s (found c r reply))
  /-- The machine is made from the image that the pull came to exactly if that one has the tag in its name. -/
  resolves (c : Config.Gce) (known : Directory) (reply : Except String Ended) (image : Described) :
    (listing c r).decoded (.listOf Described.decode) reply = .ok [image] →
      ((Images.directory (catalog c) known).pulled s (found c r reply)).1 = .ok image.name ∧
        (imageFlags s = naming ⟨r.qualifier, image.name⟩ ↔ image.name = r.name ++ Writing.behind tag)
  /-- Both name the same image exactly if there is no tag. -/
  agrees : imageFlags s = naming r ↔ tag = none

/-- A reference names the same project to a machine and to a pull, but its tag plays no part in a pull only: the image
    that is asked for is the same exactly if there is no tag. -/
theorem boot_image_of_parse {s : String} {r : Reference} (h : Reference.parse s = .ok r) : ∃ tag, BootImage s r tag := by
  obtain ⟨w, rfl, rfl⟩ := Writing.exists_of_parse h
  have hflags := imageFlags_text w
  refine ⟨w.tag, rfl, hflags, fun c known spec himage => ?_, fun c known => ?_,
    fun c known reply image himage => ⟨?_, ?_⟩, ?_⟩
  · obtain ⟨next, hnext, -⟩ := Tooled.provision_begins (.gce c) spec
    have hcreate : create c spec = creation c spec.name (imageFlags w.text) := by
      rw [create, himage]
      rfl
    rw [hflags] at hcreate
    exact ⟨next, hcreate ▸ hnext⟩
  · rw [pull_eq, h]
    exact find_bind c w.reference _
  · simp only [found, himage]
    rfl
  · rw [hflags]
    exact naming_name_inj.trans eq_comm
  · have hname : naming w.reference = naming ⟨w.qualifier, w.name ++ Writing.behind none⟩ := by
      rw [Writing.behind, String.append_empty]
      rfl
    rw [hflags, hname, naming_name_inj, String.append_right_inj]
    exact ⟨Writing.behind_inj, congrArg Writing.behind⟩

end

/-- Without a tag a machine is made from the image that is pulled. -/
theorem boot_image_untagged :
    Reference.parse "demo/agent" = .ok ⟨some "demo", "agent"⟩ ∧
      ∃ tag, BootImage "demo/agent" ⟨some "demo", "agent"⟩ tag := by
  have h : Reference.parse "demo/agent" = .ok ⟨some "demo", "agent"⟩ := Reference.parse_eq_ok_iff.mpr (by decide)
  exact ⟨h, boot_image_of_parse h⟩

/-- With one it is asked for an image that has the tag in its name. -/
theorem tag_in_boot_image :
    Reference.parse "demo/agent:v2" = .ok ⟨some "demo", "agent"⟩ ∧
      naming ⟨some "demo", "agent"⟩ = ["--image=agent", "--image-project=demo"] ∧
      imageFlags "demo/agent:v2" = ["--image=agent:v2", "--image-project=demo"] :=
  ⟨Reference.parse_eq_ok_iff.mpr (by decide), by decide, by decide⟩

end Backend.Gce
end PodMachines
