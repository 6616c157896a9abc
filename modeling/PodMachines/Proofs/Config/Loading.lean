import PodMachines.Doc.Standard
import PodMachines.Proofs.Backend.Tooled
import PodMachines.Providers

/-! Which configurations are accepted, and why the others are refused. The first file that exists is read alone, and
    every refusal is a failure of the configuration. Main statement: loading a backend's configuration is exactly
    this, and no provider is started from a configuration that was not accepted. -/

namespace PodMachines

/-- The names of a record's fields, in the order of their declaration. -/
def Doc.Record.names : {α : Type} → Doc.Record α → List String
  | _, .done _ => []
  | _, .field name _ _ _ rest => name :: rest.names

namespace Config
open Doc

/-- What a backend demands of its configuration: the stem of the file's name, the fields, and the texts that may not be
    blank, by the names of their fields. -/
structure Demand (α : Type) where
  stem : String
  record : Record α
  required : α → List (String × String)

def Ec2.demand : Demand Ec2 where
  stem := "aws"
  record := Ec2.form.record
  required c := [("ami", c.ami), ("region", c.region), ("security_group", c.securityGroup), ("vpc", c.vpc),
    ("subnet", c.subnet), ("ssh_key", c.sshKey), ("instance_type", c.instanceType)]

def Gce.demand : Demand Gce where
  stem := "gcp"
  record := Gce.form.record
  required c := [("source_image", c.sourceImage), ("zone", c.zone), ("project", c.project), ("scope", c.scope),
    ("auth_file", c.authFile), ("network", c.network), ("subnet", c.subnet)]

def VirtualBox.demand : Demand VirtualBox where
  stem := "virtualbox"
  record := VirtualBox.form.record
  required c := [("net_device", c.netDevice), ("vm_src", c.vmSrc)]

/-- A text that has a character other than white space. -/
def Filled (value : String) : Prop :=
  ∃ c ∈ value.toList, Text.isBlank c = false

/-! ### Checking -/

namespace Form
variable {α : Type} {form : Form α} {config : α}

theorem allBlank_eq_false_iff {value : String} : Text.allBlank value = false ↔ Filled value := by
  simp [Text.allBlank, Filled]

theorem firstBlank_eq_none_iff : form.firstBlank config = none ↔ ∀ field ∈ form.required config, Filled field.2 := by
  simp only [firstBlank, Option.map_eq_none_iff, List.find?_eq_none, Bool.not_eq_true, allBlank_eq_false_iff]

theorem firstBlank_eq_some_iff {name : String} : form.firstBlank config = some name ↔
    ∃ before value after, form.required config = before ++ (name, value) :: after ∧
      (∀ field ∈ before, Filled field.2) ∧ ¬Filled value := by
  simp only [firstBlank, Option.map_eq_some_iff, List.find?_eq_some_iff_append]
  constructor
  · rintro ⟨⟨name, value⟩, ⟨hblank, before, after, ho, hfilled⟩, rfl⟩
    refine ⟨before, value, after, ho, fun field hf => ?_, fun hvalue => ?_⟩
    · simpa only [Bool.not_eq_true', allBlank_eq_false_iff] using hfilled field hf
    · exact absurd (allBlank_eq_false_iff.mpr hvalue) (by simp [hblank])
  · rintro ⟨before, value, after, ho, hfilled, hblank⟩
    refine ⟨(name, value), ⟨?_, before, after, ho, fun field hf => ?_⟩, rfl⟩
    · simpa only [← allBlank_eq_false_iff, Bool.not_eq_false] using hblank
    · simpa only [Bool.not_eq_true', allBlank_eq_false_iff] using hfilled field hf

theorem check_eq_ok_iff {config' : α} :
    form.check config = .ok config' ↔ config' = config ∧ ∀ field ∈ form.required config, Filled field.2 := by
  rw [check, ← firstBlank_eq_none_iff]
  cases form.firstBlank config with
  | none => simp [eq_comm]
  | some name => simp

theorem check_eq_error_iff {f : Failure} : form.check config = .error f ↔
    ∃ name, form.firstBlank config = some name ∧
      f = .config (form.name ++ ": required field '" ++ name ++ "' is missing or empty") := by
  rw [check]
  cases form.firstBlank config with
  | none => simp
  | some name => simp [eq_comm]

theorem read_cases (form : Form α) (files : Files) (path : String) (format : Format) :
    (∃ fault, files.readText path = .error fault ∧
      form.read files path format = .error (.config ("Failed to read " ++ path ++ ": " ++ fault.message))) ∨
    ∃ text, files.readText path = .ok text ∧
      ((∃ e, Decode.run form.record.decode (format.events text) = .error e ∧
        form.read files path format =
          .error (.config ("Invalid " ++ path ++ ": " ++ (Failure.serialization e.message).message))) ∨
      ∃ config, Decode.run form.record.decode (format.events text) = .ok config ∧
        form.read files path format = form.check config) := by
  cases hr : files.readText path with
  | error fault => exact .inl ⟨fault, rfl, by rw [read, hr]⟩
  | ok text =>
    refine .inr ⟨text, rfl, ?_⟩
    cases hd : Decode.run form.record.decode (format.events text) with
    | error e => exact .inl ⟨e, rfl, by rw [read, hr]; simp only [decode, hd]⟩
    | ok config => exact .inr ⟨config, rfl, by rw [read, hr]; simp only [decode, hd]⟩

end Form

/-! ### What is demanded -/

/-- A file in which a configuration is looked for, and how its text is parsed. -/
structure Candidate where
  path : String
  events : String → Events

section
variable [Parsers] {α : Type}

/-- The files in which a configuration is looked for, in this order. -/
def candidates (directory stem : String) : List Candidate :=
  [⟨Path.join directory (stem ++ ".json"), Parsers.json⟩, ⟨Path.join directory (stem ++ ".yaml"), Parsers.yaml⟩,
    ⟨Path.join directory (stem ++ ".yml"), Parsers.yaml⟩]

namespace Demand
variable (demand : Demand α) (files : Files) (directory : String)

/-- The file that is the first to exist, between those that are looked for before it and after it. -/
structure Chosen (earlier : List Candidate) (file : Candidate) (later : List Candidate) : Prop where
  order : candidates directory demand.stem = earlier ++ file :: later
  here : files.has file.path = true
  absent : ∀ other ∈ earlier, files.has other.path = false

/-- The first file that exists is a text that decodes as the configuration, of which every required field is filled. -/
def Accepts (config : α) : Prop :=
  ∃ earlier file later text, demand.Chosen files directory earlier file later ∧ files.readText file.path = .ok text ∧
    Decode.run demand.record.decode (file.events text) = .ok config ∧ ∀ field ∈ demand.required config, Filled field.2

/-- Why there is no configuration. -/
inductive Refuses : Failure → Prop
  | absent (h : ∀ file ∈ candidates directory demand.stem, files.has file.path = false) :
      Refuses (.config ("No " ++ demand.stem ++ ".json or " ++ demand.stem ++ ".yaml in " ++ directory))
  | unreadable {earlier later : List Candidate} {file : Candidate} (hc : demand.Chosen files directory earlier file later)
      {fault : Files.Fault} (hr : files.readText file.path = .error fault) :
      Refuses (.config ("Failed to read " ++ file.path ++ ": " ++ fault.message))
  | undecodable {earlier later : List Candidate} {file : Candidate}
      (hc : demand.Chosen files directory earlier file later) {text : String} (hr : files.readText file.path = .ok text)
      {e : DecodeError} (hd : Decode.run demand.record.decode (file.events text) = .error e) :
      Refuses (.config ("Invalid " ++ file.path ++ ": " ++ (Failure.serialization e.message).message))
  | incomplete {earlier later : List Candidate} {file : Candidate}
      (hc : demand.Chosen files directory earlier file later) {text : String} (hr : files.readText file.path = .ok text)
      {config : α} (hd : Decode.run demand.record.decode (file.events text) = .ok config)
      {before after : List (String × String)} {name value : String}
      (ho : demand.required config = before ++ (name, value) :: after) (hfilled : ∀ field ∈ before, Filled field.2)
      (hblank : ¬Filled value) :
      Refuses (.config (demand.stem ++ ": required field '" ++ name ++ "' is missing or empty"))

/-- What loading comes to, whatever the files are. -/
structure Exact (load : Files → Except Failure α) : Prop where
  accepts : ∀ config, load files = .ok config ↔ demand.Accepts files directory config
  refuses : ∀ f, load files = .error f ↔ demand.Refuses files directory f
  /-- Files that are looked for after the first that exists make no difference. -/
  steady : ∀ {earlier file later}, demand.Chosen files directory earlier file later → ∀ others : Files,
    (∀ g ∈ earlier ++ [file], others.find g.path = files.find g.path) → load others = load files
  /-- Required fields are checked in the order of their declaration. -/
  declared : ∀ config, ((demand.required config).map (·.1)).Sublist demand.record.names

end Demand

/-! ### Reading -/

namespace Form
variable {form : Form α} {files : Files} {directory : String} {config : α}

/-- What a form demands. -/
def demand (form : Form α) : Demand α :=
  ⟨form.name, form.record, form.required⟩

theorem candidates_eq (form : Form α) (directory : String) : candidates directory form.name =
    formats.map fun format => ⟨form.file directory format, format.events⟩ := by
  simp only [candidates, formats, List.map_cons, List.map_nil, file, String.append_assoc]
  rfl

theorem chosen_iff {demand : Demand α} {file : Candidate} :
    ((candidates directory demand.stem).find? fun file => files.has file.path) = some file ↔
      ∃ earlier later, demand.Chosen files directory earlier file later := by
  rw [List.find?_eq_some_iff_append]
  constructor
  · rintro ⟨hhere, earlier, later, ho, habsent⟩
    exact ⟨earlier, later, ho, hhere, fun other h => by simpa using habsent other h⟩
  · rintro ⟨earlier, later, ho, hhere, habsent⟩
    exact ⟨hhere, earlier, later, ho, fun other h => by simp [habsent other h]⟩

theorem find?_candidates : ((candidates directory form.name).find? fun file => files.has file.path) =
    (formats.find? fun format => files.has (form.file directory format)).map fun format =>
      ⟨form.file directory format, format.events⟩ := by
  rw [candidates_eq, List.find?_map]
  rfl

theorem load_of_chosen {earlier later : List Candidate} {file : Candidate}
    (h : form.demand.Chosen files directory earlier file later) :
    ∃ format, format.events = file.events ∧ form.load files directory = form.read files file.path format := by
  have hfind := chosen_iff.mpr ⟨_, _, h⟩
  rw [demand, find?_candidates, Option.map_eq_some_iff] at hfind
  obtain ⟨format, hformat, rfl⟩ := hfind
  exact ⟨format, rfl, by rw [load, hformat]⟩

theorem absent_or_chosen (form : Form α) (files : Files) (directory : String) :
    (∀ file ∈ candidates directory form.demand.stem, files.has file.path = false) ∧ form.load files directory =
        .error (.config ("No " ++ form.name ++ ".json or " ++ form.name ++ ".yaml in " ++ directory)) ∨
      ∃ earlier file later, form.demand.Chosen files directory earlier file later := by
  cases hf : (candidates directory form.demand.stem).find? fun file => files.has file.path with
  | none =>
    refine .inl ⟨fun file hfile => by simpa using List.find?_eq_none.mp hf file hfile, ?_⟩
    rw [demand, find?_candidates, Option.map_eq_none_iff] at hf
    rw [load, hf]
  | some file =>
    obtain ⟨earlier, later, hc⟩ := chosen_iff.mp hf
    exact .inr ⟨earlier, file, later, hc⟩

theorem load_eq_ok_iff : form.load files directory = .ok config ↔ form.demand.Accepts files directory config := by
  constructor
  · intro h
    obtain ⟨-, hload⟩ | ⟨earlier, file, later, hc⟩ := absent_or_chosen form files directory
    · cases hload.symm.trans h
    obtain ⟨format, hevents, hload⟩ := load_of_chosen hc
    rw [hload] at h
    obtain ⟨fault, -, hread⟩ | ⟨text, hr, ⟨e, -, hread⟩ | ⟨decoded, hd, hread⟩⟩ := read_cases form files file.path format
    · cases hread.symm.trans h
    · cases hread.symm.trans h
    · obtain ⟨rfl, hfilled⟩ := check_eq_ok_iff.mp (hread.symm.trans h)
      exact ⟨earlier, file, later, text, hc, hr, hevents ▸ hd, hfilled⟩
  · rintro ⟨earlier, file, later, text, hc, hr, hd, hfilled⟩
    obtain ⟨format, hevents, hload⟩ := load_of_chosen hc
    rw [← hevents] at hd
    rw [hload, read, hr]
    simp only [decode]
    rw [show Decode.run form.record.decode (format.events text) = .ok config from hd]
    exact check_eq_ok_iff.mpr ⟨rfl, hfilled⟩

theorem load_eq_error_iff {f : Failure} :
    form.load files directory = .error f ↔ form.demand.Refuses files directory f := by
  constructor
  · intro h
    obtain ⟨habsent, hload⟩ | ⟨earlier, file, later, hc⟩ := absent_or_chosen form files directory
    · cases hload.symm.trans h
      exact .absent habsent
    obtain ⟨format, hevents, hload⟩ := load_of_chosen hc
    rw [hload] at h
    obtain ⟨fault, hr, hread⟩ | ⟨text, hr, ⟨e, hd, hread⟩ | ⟨config, hd, hread⟩⟩ := read_cases form files file.path format
    · cases hread.symm.trans h
      exact .unreadable hc hr
    · cases hread.symm.trans h
      exact .undecodable hc hr (hevents ▸ hd)
    · obtain ⟨name, hname, rfl⟩ := check_eq_error_iff.mp (hread.symm.trans h)
      obtain ⟨before, value, after, ho, hfilled, hblank⟩ := firstBlank_eq_some_iff.mp hname
      exact .incomplete hc hr (hevents ▸ hd) ho hfilled hblank
  · intro h
    cases h with
    | absent h =>
      obtain ⟨-, hload⟩ | ⟨earlier, file, later, hc⟩ := absent_or_chosen form files directory
      · exact hload
      · cases (h file (hc.order ▸ List.mem_append_right _ List.mem_cons_self)).symm.trans hc.here
    | unreadable hc hr =>
      obtain ⟨format, -, hload⟩ := load_of_chosen hc
      rw [hload, read, hr]
    | @undecodable _ _ _ hc text hr e hd =>
      obtain ⟨format, hevents, hload⟩ := load_of_chosen hc
      rw [← hevents] at hd
      rw [hload, read, hr]
      simp only [decode]
      rw [show Decode.run form.record.decode (format.events text) = .error e from hd]
    | @incomplete _ _ _ hc text hr config hd before after name value ho hfilled hblank =>
      obtain ⟨format, hevents, hload⟩ := load_of_chosen hc
      rw [← hevents] at hd
      rw [hload, read, hr]
      simp only [decode]
      rw [show Decode.run form.record.decode (format.events text) = .ok config from hd]
      exact check_eq_error_iff.mpr ⟨_, firstBlank_eq_some_iff.mpr ⟨_, _, _, ho, hfilled, hblank⟩, rfl⟩

theorem steady_of_chosen {earlier later : List Candidate} {file : Candidate}
    (h : form.demand.Chosen files directory earlier file later) {others : Files}
    (hsame : ∀ g ∈ earlier ++ [file], others.find g.path = files.find g.path) :
    form.load others directory = form.load files directory := by
  have hhas : ∀ g ∈ earlier ++ [file], others.has g.path = files.has g.path :=
    fun g hg => by rw [Files.has, Files.has, hsame g hg]
  have hother : form.demand.Chosen others directory earlier file later :=
    ⟨h.order, (hhas file (List.mem_append_right _ List.mem_cons_self)).trans h.here,
      fun g hg => (hhas g (List.mem_append_left _ hg)).trans (h.absent g hg)⟩
  have hread : others.readText file.path = files.readText file.path := by
    rw [Files.readText, Files.readText, hsame file (List.mem_append_right _ List.mem_cons_self)]
  obtain ⟨format, hevents, hload⟩ := load_of_chosen h
  obtain ⟨format', hevents', hload'⟩ := load_of_chosen hother
  rw [hload, hload', read, read, hread, hevents, hevents']

theorem exact_of_declared (form : Form α) (files : Files) (directory : String)
    (h : ∀ config, ((form.required config).map (·.1)).Sublist form.record.names) :
    form.demand.Exact files directory fun files => form.load files directory where
  accepts _ := load_eq_ok_iff
  refuses _ := load_eq_error_iff
  steady hc _ hsame := steady_of_chosen hc hsame
  declared := h

end Form

section
variable (files : Files) (directory : String)

theorem Ec2.exact : Ec2.demand.Exact files directory fun files => Ec2.form.load files directory := by
  refine Form.exact_of_declared Ec2.form files directory fun config => ?_
  show ["ami", "region", "security_group", "vpc", "subnet", "ssh_key", "instance_type"].Sublist
    ["ami", "region", "security_group", "vpc", "subnet", "ssh_key", "instance_type", "image_owners"]
  decide

theorem Gce.exact : Gce.demand.Exact files directory fun files => Gce.form.load files directory := by
  refine Form.exact_of_declared Gce.form files directory fun config => ?_
  show ["source_image", "zone", "project", "scope", "auth_file", "network", "subnet"].Sublist
    ["source_image", "zone", "project", "scope", "auth_file", "network", "subnet", "machine_type"]
  decide

theorem VirtualBox.exact :
    VirtualBox.demand.Exact files directory fun files => VirtualBox.form.load files directory := by
  refine Form.exact_of_declared VirtualBox.form files directory fun config => ?_
  show ["net_device", "vm_src"].Sublist ["net_device", "vm_src", "ip_wait_secs"]
  decide

end
end
end Config

/-! ### Starting providers -/

section
variable {α β : Type}

/-- What is started after its credentials were looked at is what is made without. -/
theorem eq_of_checked {check : Work (Except Failure Unit)} {x b : β} {talk : Program.Talk Ask Ask.Reply}
    (h : Program.Leads (check.bind fun
      | .error f => .done (.error f)
      | .ok () => .done (.ok x)) talk (.done (.ok b : Except Failure β))) : b = x := by
  obtain ⟨first, rest, outcome, -, -, h⟩ := Program.leads_bind_done.mp h
  cases outcome with
  | error f => cases h
  | ok u =>
    cases h
    rfl

theorem Registry.get_error {γ : Type} (r : Registry γ) {name : String} (h : name ∉ r.entries.keys) :
    ∃ f, r.get name = .error f := by
  unfold Registry.get
  cases hf : r.entries.find? name with
  | none => exact ⟨_, rfl⟩
  | some x => exact absurd (Table.mem_keys_iff.mpr ⟨x, hf⟩) h

variable [Doc.Parsers]

/-- What is started is made of a configuration that was accepted; of none, nothing is asked. -/
structure Vetted (demand : Config.Demand α) (make : α → β) (files : Files) (directory : String)
    (work : Work (Except Failure β)) : Prop where
  refused : ∀ f, demand.Refuses files directory f → work = .done (.error f)
  made : ∀ talk b, work.Leads talk (.done (.ok b)) → ∃ config, demand.Accepts files directory config ∧ b = make config

/-- Every provider by name, with the form of its configuration and what is made of it; there are no others. -/
structure Providers.Vetted (files : Files) (directory : String) : Prop where
  ec2 : PodMachines.Vetted Config.Ec2.demand Backend.Ec2.backend files directory
    (builtin.startPods files directory Backend.Ec2.name)
  gce : PodMachines.Vetted Config.Gce.demand Backend.Gce.backend files directory
    (builtin.startPods files directory Backend.Gce.name)
  virtualBox : PodMachines.Vetted Config.VirtualBox.demand Backend.VirtualBox.backend files directory
    (builtin.startPods files directory Backend.VirtualBox.name)
  ec2Images : PodMachines.Vetted Config.Ec2.demand Backend.Ec2.catalog files directory
    (builtin.startImages files directory Backend.Ec2.name)
  gceImages : PodMachines.Vetted Config.Gce.demand Backend.Gce.catalog files directory
    (builtin.startImages files directory Backend.Gce.name)
  others : ∀ name, name ∉ [Backend.Ec2.name, Backend.Gce.name, Backend.VirtualBox.name] →
    ∃ f, builtin.startPods files directory name = .done (.error f)
  otherImages : ∀ name, name ∉ [Backend.Ec2.name, Backend.Gce.name] →
    ∃ f, builtin.startImages files directory name = .done (.error f)

theorem vetted_of_load {form : Config.Form α} {make : α → β} {files : Files} {directory : String}
    {work : Work (Except Failure β)} (hrefused : ∀ f, form.load files directory = .error f → work = .done (.error f))
    (hmade : ∀ config, form.load files directory = .ok config → ∀ talk b, work.Leads talk (.done (.ok b)) →
      b = make config) : Vetted form.demand make files directory work where
  refused f hf := hrefused f (Config.Form.load_eq_error_iff.mpr hf)
  made talk b hb := by
    cases hl : form.load files directory with
    | error f =>
      rw [hrefused f hl] at hb
      cases hb
    | ok config => exact ⟨config, Config.Form.load_eq_ok_iff.mp hl, hmade config hl talk b hb⟩

theorem PodProvider.vetted_ec2 (files : Files) (directory : String) :
    Vetted Config.Ec2.demand Backend.Ec2.backend files directory (PodProvider.ec2.start files directory) := by
  show Vetted Config.Ec2.form.demand _ _ _ _
  refine vetted_of_load (fun f hl => by rw [start, hl]; rfl) fun config hl talk b h => ?_
  rw [start, hl] at h
  exact eq_of_checked h

theorem PodProvider.vetted_gce (files : Files) (directory : String) :
    Vetted Config.Gce.demand Backend.Gce.backend files directory (PodProvider.gce.start files directory) := by
  show Vetted Config.Gce.form.demand _ _ _ _
  refine vetted_of_load (fun f hl => by rw [start, hl]; rfl) fun config hl talk b h => ?_
  rw [start, hl] at h
  exact eq_of_checked h

theorem PodProvider.vetted_virtualBox (files : Files) (directory : String) :
    Vetted Config.VirtualBox.demand Backend.VirtualBox.backend files directory
      (PodProvider.virtualBox.start files directory) := by
  show Vetted Config.VirtualBox.form.demand _ _ _ _
  refine vetted_of_load (fun f hl => by rw [start, hl]; rfl) fun config hl talk b h => ?_
  rw [start, hl] at h
  exact Except.ok.inj (Program.leads_done_done.mp h).2

theorem ImageProvider.vetted_ec2 (files : Files) (directory : String) :
    Vetted Config.Ec2.demand Backend.Ec2.catalog files directory (ImageProvider.ec2.start files directory) := by
  show Vetted Config.Ec2.form.demand _ _ _ _
  refine vetted_of_load (fun f hl => by rw [start, hl]; rfl) fun config hl talk b h => ?_
  rw [start, hl] at h
  exact Except.ok.inj (Program.leads_done_done.mp h).2

theorem ImageProvider.vetted_gce (files : Files) (directory : String) :
    Vetted Config.Gce.demand Backend.Gce.catalog files directory (ImageProvider.gce.start files directory) := by
  show Vetted Config.Gce.form.demand _ _ _ _
  refine vetted_of_load (fun f hl => by rw [start, hl]; rfl) fun config hl talk b h => ?_
  rw [start, hl] at h
  exact eq_of_checked h

theorem Providers.vetted (files : Files) (directory : String) : Providers.Vetted files directory where
  ec2 := PodProvider.vetted_ec2 files directory
  gce := PodProvider.vetted_gce files directory
  virtualBox := PodProvider.vetted_virtualBox files directory
  ec2Images := ImageProvider.vetted_ec2 files directory
  gceImages := ImageProvider.vetted_gce files directory
  others name h := by
    obtain ⟨f, hf⟩ := builtin.pods.get_error h
    exact ⟨f, by rw [startPods, hf]; rfl⟩
  otherImages name h := by
    obtain ⟨f, hf⟩ := builtin.images.get_error h
    exact ⟨f, by rw [startImages, hf]; rfl⟩

theorem loading_exact (files : Files) (directory : String) :
    Config.Ec2.demand.Exact files directory (fun files => Config.Ec2.form.load files directory) ∧
      Config.Gce.demand.Exact files directory (fun files => Config.Gce.form.load files directory) ∧
      Config.VirtualBox.demand.Exact files directory (fun files => Config.VirtualBox.form.load files directory) ∧
      Providers.Vetted files directory :=
  ⟨Config.Ec2.exact files directory, Config.Gce.exact files directory, Config.VirtualBox.exact files directory,
    Providers.vetted files directory⟩

end

namespace Loading

def aws : String :=
  "\x7b\"ami\":\"ami-1\",\"region\":\" \",\"security_group\":\"\",\"vpc\":\"v\",\"subnet\":\"s\",\"ssh_key\":\"k.pem\"\x7d"

def virtualBox : String :=
  "net_device: eth0\nvm_src: base\n"

/-- A directory in which EC2 is given no region but white space, and VirtualBox two files; there is none for GCE. -/
def files : Files :=
  ((Files.empty.put "aws.json" (.file aws.toUTF8.toList)).put "virtualbox.yaml"
    (.file virtualBox.toUTF8.toList)).put "virtualbox.yml" (.file [0xff])

end Loading

/-- The first of two files decides, be the other no text at all; the first blank field is named; and nothing is started
    where there is no file. -/
theorem loading_exact_mixed :
    Config.VirtualBox.form.load Loading.files "." = .ok ⟨"eth0", "base", 300⟩ ∧
      Config.Ec2.form.load Loading.files "." =
        .error (.config "aws: required field 'region' is missing or empty") ∧
      Providers.builtin.startPods Loading.files "." Backend.Gce.name =
        .done (.error (.config "No gcp.json or gcp.yaml in .")) := by
  obtain ⟨ec2, gce, virtualBox, vetted⟩ := loading_exact Loading.files "."
  have filled {value : String} (h : Text.allBlank value = false) : Config.Filled value :=
    Config.Form.allBlank_eq_false_iff.mp h
  refine ⟨(virtualBox.accepts _).mpr ?_, (ec2.refuses _).mpr ?_, vetted.gce.refused _ (.absent (by decide +kernel))⟩
  · have hchosen : Config.VirtualBox.demand.Chosen Loading.files "."
        [⟨Path.join "." ("virtualbox" ++ ".json"), Doc.Parsers.json⟩]
        ⟨Path.join "." ("virtualbox" ++ ".yaml"), Doc.Parsers.yaml⟩
        [⟨Path.join "." ("virtualbox" ++ ".yml"), Doc.Parsers.yaml⟩] :=
      ⟨rfl, by decide +kernel, List.forall_mem_singleton.mpr (by decide +kernel)⟩
    have hread : Loading.files.readText (Path.join "." ("virtualbox" ++ ".yaml")) = .ok Loading.virtualBox :=
      eq_ok_of_toOption (by decide +kernel)
    refine ⟨_, _, _, _, hchosen, hread, eq_ok_of_toOption (by decide +kernel), ?_⟩
    exact List.forall_mem_cons.mpr ⟨filled (by decide +kernel), List.forall_mem_singleton.mpr (filled (by decide +kernel))⟩
  · have hchosen : Config.Ec2.demand.Chosen Loading.files "." [] ⟨Path.join "." ("aws" ++ ".json"), Doc.Parsers.json⟩
        [⟨Path.join "." ("aws" ++ ".yaml"), Doc.Parsers.yaml⟩, ⟨Path.join "." ("aws" ++ ".yml"), Doc.Parsers.yaml⟩] :=
      ⟨rfl, by decide +kernel, nofun⟩
    have hread : Loading.files.readText (Path.join "." ("aws" ++ ".json")) = .ok Loading.aws :=
      eq_ok_of_toOption (by decide +kernel)
    have hdecoded : Doc.Decode.run Config.Ec2.demand.record.decode (Doc.Parsers.json Loading.aws) =
        .ok ⟨"ami-1", " ", "", "v", "s", "k.pem", "t2.micro", ["self"]⟩ :=
      eq_ok_of_toOption (by decide +kernel)
    have hrequired : Config.Ec2.demand.required ⟨"ami-1", " ", "", "v", "s", "k.pem", "t2.micro", ["self"]⟩ =
        [("ami", "ami-1")] ++ ("region", " ") :: [("security_group", ""), ("vpc", "v"), ("subnet", "s"),
          ("ssh_key", "k.pem"), ("instance_type", "t2.micro")] := rfl
    refine .incomplete hchosen hread hdecoded hrequired (List.forall_mem_singleton.mpr (filled (by decide +kernel))) ?_
    exact fun h => absurd (Config.Form.allBlank_eq_false_iff.mpr h) (by decide +kernel)

end PodMachines
