import PodMachines.Proofs.Backend.Tooled
import PodMachines.Session.Setup

/-! What a session starts with. Main statement: pods of a provider by name are driven through a tool, images are as a
    provider offers them, and starting either ends no machine. -/

namespace PodMachines
open Backend

/-- Whether work ends no machine, and starts what is good, or fails. -/
structure Work.Starts {α : Type} (good : α → Prop) (p : Work (Except Failure α)) : Prop where
  spares : p.Uses Ask.Spares
  yields : p.Yields fun result => ∀ a, result = .ok a → good a

namespace Work.Starts
variable {α β : Type} {good : α → Prop} {better : β → Prop}

theorem ok {a : α} (h : good a) : Starts good (.done (.ok a)) := by
  refine ⟨trivial, ?_⟩
  rintro _ ⟨⟩
  exact h

theorem error (f : Failure) : Starts good (.done (.error f)) :=
  ⟨trivial, nofun⟩

/-- Work that goes on with what was started, and fails where that fails. -/
theorem bind {p : Work (Except Failure α)} {next : Except Failure α → Work (Except Failure β)} (hp : p.Starts good)
    (he : ∀ f, (next (.error f)).Starts better) (hn : ∀ a, good a → (next (.ok a)).Starts better) :
    Starts better (p.bind next) := by
  obtain ⟨hs, hy⟩ := hp
  induction p with
  | done result =>
    cases result with
    | error f => exact he f
    | ok a => exact hn a (hy a rfl)
  | crash why => exact ⟨trivial, trivial⟩
  | ask q rest ih => exact ⟨⟨hs.1, fun r => (ih r (hs.2 r) (hy r)).spares⟩, fun r => (ih r (hs.2 r) (hy r)).yields⟩

end Work.Starts

open Work

namespace Backend

theorem Ec2.validate_starts [Doc.Parsers] (c : Config.Ec2) (files : Files) :
    (Ec2.validate c files).Starts fun _ => True := by
  unfold Ec2.validate
  split
  · refine ⟨(Command.runJson_uses _ (Command.spares (by simp [Command.Ends, Ec2.command]))).bind fun result => ?_,
      Program.yields_any fun _ _ _ => trivial⟩
    cases result <;> trivial
  · exact .error _

theorem Gce.activate_starts (c : Config.Gce) (files : Files) : (Gce.activate c files).Starts fun _ => True := by
  unfold Gce.activate
  split
  · refine ⟨(Command.run_uses (Command.spares (by simp [Command.Ends]))).bind fun result => ?_,
      Program.yields_any fun _ _ _ => trivial⟩
    cases result <;> trivial
  · exact .error _

end Backend

namespace Providers
variable {files : Files} {directory name : String}

/-- No provider of pods that has a name is the simulated one. -/
theorem pods_ne_simulated {provider : PodProvider} (h : builtin.pods.get name = .ok provider) :
    provider ≠ .simulated := by
  have hfind : builtin.pods.entries.find? name = some provider := by
    unfold Registry.get at h
    split at h
    · rename_i thing hthing
      cases h
      exact hthing
    · cases h
  obtain ⟨x, hx, rfl⟩ := Option.map_eq_some_iff.mp hfind
  have hmem : x.2 ∈ [PodProvider.ec2, .gce, .virtualBox] := List.mem_map_of_mem (List.mem_of_find?_eq_some hx)
  rintro heq
  rw [heq] at hmem
  simp at hmem

/-- What is started for a provider of pods that has a name is driven through a tool. -/
theorem startPods_starts [Doc.Parsers] :
    (builtin.startPods files directory name).Starts fun backend => ∃ b : Tooled, b.backend = backend := by
  unfold startPods
  cases hget : builtin.pods.get name with
  | error f => exact .error f
  | ok provider =>
    cases provider with
    | simulated => exact absurd rfl (pods_ne_simulated hget)
    | ec2 =>
      simp only [PodProvider.start]
      cases Config.Ec2.form.load files directory with
      | error f => exact .error f
      | ok config => exact (Ec2.validate_starts config files).bind .error fun _ _ => .ok ⟨.ec2 config, rfl⟩
    | gce =>
      simp only [PodProvider.start]
      cases Config.Gce.form.load files directory with
      | error f => exact .error f
      | ok config => exact (Gce.activate_starts config files).bind .error fun _ _ => .ok ⟨.gce config, rfl⟩
    | virtualBox =>
      simp only [PodProvider.start]
      cases Config.VirtualBox.form.load files directory with
      | error f => exact .error f
      | ok config => exact .ok ⟨.virtualBox config, rfl⟩

theorem startImages_starts [Doc.Parsers] :
    (builtin.startImages files directory name).Starts fun catalog => (Images.ofCatalog catalog).Offered := by
  unfold startImages
  cases builtin.images.get name with
  | error f => exact .error f
  | ok provider =>
    cases provider with
    | simulated catalog => exact .ok (.simulated catalog)
    | ec2 =>
      simp only [ImageProvider.start]
      cases Config.Ec2.form.load files directory with
      | error f => exact .error f
      | ok config => exact .ok (.ec2 config)
    | gce =>
      simp only [ImageProvider.start]
      cases Config.Gce.form.load files directory with
      | error f => exact .error f
      | ok config => exact (Gce.activate_starts config files).bind .error fun _ _ => .ok (.gce config)

end Providers

namespace Session.Setup
variable [Doc.Parsers] {s : Setup}

theorem startImages_starts : s.startImages.Starts fun images => ∀ i, images = some i → i.Offered := by
  unfold startImages
  cases s.images with
  | absent => exact .ok nofun
  | prefixing start =>
    refine .ok ?_
    rintro i ⟨⟩
    exact .prefixing start
  | catalog name =>
    refine .ok ?_
    rintro i ⟨⟩
    exact .simulated name
  | provider name =>
    refine Providers.startImages_starts.bind .error fun catalog h => .ok ?_
    rintro i ⟨⟩
    exact h

/-- What a session with pods of a provider by name starts with. -/
theorem startBoth_starts {name : String} (hs : s.pods = some name) : s.startBoth.Starts fun both =>
    (∃ b : Tooled, b.backend = both.1) ∧ ∀ i, both.2 = some i → i.Offered := by
  have hpods : s.startPods = Providers.builtin.startPods s.files s.directory name := by
    unfold startPods
    rw [hs]
  unfold startBoth
  rw [hpods]
  refine Providers.startPods_starts.bind .error fun backend hb => ?_
  exact startImages_starts.bind .error fun images hi => .ok ⟨hb, hi⟩

end Session.Setup
end PodMachines
