import PodMachines.Proofs.Shim.Handling
import PodMachines.Proofs.Shim.Imaging

/-! What the courses of requests about images ask. Main statements: how far a pull or a removal has come with what it was
    replied, and that among all that can be done in a session only requests do something to the images. -/

namespace PodMachines
open Service Session Image

/-! ### Courses -/

section
variable {name : String} {spec : Message.ImageSpec} {talk : Program.Talk Act Act.Reply} {left : Course Answer}

abbrev pullAnswer (spec : Message.ImageSpec) (result : Except Failure String) : Answer :=
  answering (.pullImage (some spec)) (fun id => id) result

theorem requested_pullImage : requested name (.pullImage (some spec)) = Program.ask .images fun
    | none => .done (.refused noImages)
    | some images =>
      match images.asked spec.image with
      | .error result => .done (pullAnswer spec result)
      | .ok parsed => Program.ask (.find parsed) fun found =>
          Program.ask (.keep spec.image found) fun result => .done (pullAnswer spec result) := by
  refine congrArg (Program.ask Act.images) (funext fun images => ?_)
  cases images with
  | none => rfl
  | some images =>
    change ((pull images spec.image).bind Course.answered).bind
      (fun result => .done (Answer.served (.pullImage (some spec)) result)) = _
    simp only [pull]
    cases images.asked spec.image with
    | error result => cases result <;> rfl
    | ok parsed =>
      refine congrArg (Program.ask (Act.find parsed)) (funext fun found => ?_)
      refine congrArg (Program.ask (Act.keep spec.image found)) (funext fun result => ?_)
      cases result <;> rfl

theorem requested_removeImage : requested name (.removeImage (some spec)) = Program.ask .images fun
    | none => .done (.refused noImages)
    | some _ => Program.ask (.forget spec.image) fun _ => .done (.response (.removeImage (some spec)) ()) := by
  refine congrArg (Program.ask Act.images) (funext fun images => ?_)
  cases images <;> rfl

theorem requested_imageStatus : requested name (.imageStatus (some spec)) = Program.ask .images fun
    | none => .done (.refused noImages)
    | some images => .done (.response (.imageStatus (some spec))
        ((images.status spec.image).map (Record.toMessage (some spec.image)))) := by
  refine congrArg (Program.ask Act.images) (funext fun images => ?_)
  cases images <;> rfl

theorem requested_listImages {image : Option Message.ImageSpec} :
    requested name (.listImages image) = Program.ask .images fun
      | none => .done (.refused noImages)
      | some images => .done (.response (.listImages image) (listImages images image)) := by
  refine congrArg (Program.ask Act.images) (funext fun images => ?_)
  cases images <;> rfl

/-- How far a pull has come with a talk, and what is left of it. -/
inductive Pulling (spec : Message.ImageSpec) : Program.Talk Act Act.Reply → Course Answer → Prop
  | going {talk : Program.Talk Act Act.Reply} {left : Course Answer} (hd : deeds talk = []) (hl : ∀ a, left ≠ .done a) :
      Pulling spec talk left
  | unprovided : Pulling spec [⟨.images, none⟩] (.done (.refused noImages))
  | settled {images : Images} {result : Except Failure String} (h : images.asked spec.image = .error result) :
      Pulling spec [⟨.images, some images⟩] (.done (pullAnswer spec result))
  | looked {images : Images} {parsed : Reference} (h : images.asked spec.image = .ok parsed)
      (found : Except Failure (List Record)) (result : Except Failure String) :
      Pulling spec [⟨.images, some images⟩, ⟨.find parsed, found⟩, ⟨.keep spec.image found, result⟩]
        (.done (pullAnswer spec result))

theorem pulling_of_leads (h : (requested name (.pullImage (some spec))).Leads talk left) : Pulling spec talk left := by
  rw [requested_pullImage] at h
  rcases h with _ | ⟨images, h⟩
  · exact .going rfl nofun
  rcases images with _ | images
  · obtain ⟨rfl, rfl⟩ := Program.leads_done.mp h
    exact .unprovided
  cases hasked : images.asked spec.image with
  | error result =>
    simp only [hasked] at h
    obtain ⟨rfl, rfl⟩ := Program.leads_done.mp h
    exact .settled hasked
  | ok parsed =>
    simp only [hasked] at h
    rcases h with _ | ⟨found, h⟩
    · exact .going rfl nofun
    rcases h with _ | ⟨result, h⟩
    · exact .going rfl nofun
    obtain ⟨rfl, rfl⟩ := Program.leads_done.mp h
    exact .looked hasked found result

/-- How far a removal has come with a talk, and what is left of it. -/
inductive Forgetting (spec : Message.ImageSpec) : Program.Talk Act Act.Reply → Course Answer → Prop
  | going {talk : Program.Talk Act Act.Reply} {left : Course Answer} (hd : deeds talk = []) (hl : ∀ a, left ≠ .done a) :
      Forgetting spec talk left
  | unprovided : Forgetting spec [⟨.images, none⟩] (.done (.refused noImages))
  | forgot (images : Images) : Forgetting spec [⟨.images, some images⟩, ⟨.forget spec.image, ()⟩]
      (.done (.response (.removeImage (some spec)) ()))

theorem forgetting_of_leads (h : (requested name (.removeImage (some spec))).Leads talk left) :
    Forgetting spec talk left := by
  rw [requested_removeImage] at h
  rcases h with _ | ⟨images, h⟩
  · exact .going rfl nofun
  rcases images with _ | images
  · obtain ⟨rfl, rfl⟩ := Program.leads_done.mp h
    exact .unprovided
  rcases h with _ | ⟨reply, h⟩
  · exact .going rfl nofun
  obtain ⟨rfl, rfl⟩ := Program.leads_done.mp h
  exact .forgot images

/-! ### What is asked -/

def Service.Request.OfImages : Request → Prop
  | .listImages _ | .imageStatus _ | .pullImage _ | .removeImage _ => True
  | _ => False

theorem withReference_uses {β : Type} {allowed : Act → Prop} (himages : allowed .images)
    (image : Option Message.ImageSpec) {go : Images → String → Course (Except Status β)}
    (h : ∀ images spec, image = some spec → (go images spec.image).Uses allowed) :
    (withReference image go).Uses allowed := by
  refine ⟨himages, fun images => ?_⟩
  rcases images with _ | images
  · trivial
  rcases image with _ | spec
  · trivial
  · exact h images spec rfl

theorem serve_uses {allowed : Act → Prop} (r : Request) (himages : allowed .images)
    (hother : ¬r.OfImages → allowed .suffix ∧ (∀ c, allowed (.pods c)) ∧
      (∀ connection request, allowed (.forward connection request)) ∧
      (∀ filter ids, allowed (.inquire filter ids)) ∧ ∀ inquiries, allowed (.await inquiries))
    (hpull : ∀ spec, r = .pullImage (some spec) →
      (∀ reference, allowed (.find reference)) ∧ ∀ found, allowed (.keep spec.image found))
    (hremove : ∀ spec, r = .removeImage (some spec) → allowed (.forget spec.image)) : (serve name r).Uses allowed := by
  cases r with
  | version => trivial
  | exec containerId => trivial
  | runPod config runtimeHandler =>
    obtain ⟨hsuffix, hpods, -⟩ := hother id
    rcases config with _ | config
    · trivial
    · exact ⟨himages, fun images => ⟨hsuffix, fun suffix => ⟨hpods _, answered_uses⟩⟩⟩
  | stopPod id | removePod id => exact ⟨(hother fun h => h).2.1 _, answered_uses⟩
  | podStatus id verbose =>
    refine ⟨(hother fun h => h).2.1 _, fun result => ?_⟩
    cases result <;> trivial
  | listPods filter =>
    cases hf : Sandbox.Filter.ofMessage filter with
    | error status =>
      simp only [serve, hf]
      trivial
    | ok filter =>
      simp only [serve, hf]
      exact ⟨(hother id).2.1 _, fun statuses => trivial⟩
  | containers request =>
    obtain ⟨-, hpods, hforward, hinquire, hawait⟩ := hother id
    exact serveContainers_uses request (hpods _) (fun id => hpods _) hforward hinquire hawait
  | listImages image =>
    refine ⟨himages, fun images => ?_⟩
    cases images <;> trivial
  | imageStatus image => exact withReference_uses himages image fun _ _ _ => trivial
  | pullImage image =>
    refine withReference_uses himages image fun images spec hi => Program.Uses.bind ?_ answered_uses
    obtain ⟨hfind, hkeep⟩ := hpull spec (congrArg Request.pullImage hi)
    unfold pull
    cases images.asked spec.image with
    | error result => trivial
    | ok parsed => exact ⟨hfind parsed, fun found => ⟨hkeep found, fun _ => trivial⟩⟩
  | removeImage image =>
    exact withReference_uses himages image fun _ spec hi =>
      ⟨hremove spec (congrArg Request.removeImage hi), fun _ => trivial⟩

theorem integrate_uses {allowed : Act → Prop} (images : Images) {catalog : Option String} (h : allowed .bootImages) :
    (integrate images catalog).Uses allowed := by
  unfold integrate
  split
  · exact ⟨h, fun _ => trivial⟩
  · trivial

/-! ### Courses that leave the images as they are -/

/-- Whether asking this leaves the images as they are. -/
def Service.Act.Quiet (act : Act) : Prop :=
  act.deed? = none

theorem requested_cases (r : Request) :
    (∃ spec, r = .pullImage (some spec)) ∨ (∃ spec, r = .removeImage (some spec)) ∨ (requested name r).Uses Act.Quiet := by
  by_cases hpull : ∃ spec, r = .pullImage (some spec)
  · exact .inl hpull
  by_cases hremove : ∃ spec, r = .removeImage (some spec)
  · exact .inr (.inl hremove)
  refine .inr (.inr (Program.Uses.bind ?_ fun _ => trivial))
  exact serve_uses r rfl (fun _ => ⟨rfl, fun _ => rfl, fun _ _ => rfl, fun _ _ => rfl, fun _ => rfl⟩)
    (fun spec he => absurd ⟨spec, he⟩ hpull) fun spec he => absurd ⟨spec, he⟩ hremove

/-! ### What can be done in a session -/

/-- A provider of images is offered to the pods of a backend that boots those of a catalog. -/
def integrating (i : Images) (catalog : Option String) : Course Answer :=
  (integrate i catalog).bind fun fits => .done (.integrated (some fits))

/-- The service's own provider is offered, if there is one. -/
def offering (catalog : Option String) : Course Answer :=
  Program.ask .images fun
    | none => .done (.integrated none)
    | some i => integrating i catalog

theorem course_integrate (x : Session) : Action.course x .integrate = some (offering x.pods.catalog) := by
  refine congrArg some (congrArg (Program.ask Act.images) (funext fun images => ?_))
  cases images <;> rfl

/-- Whether this neither does something to the images nor lets the pods boot them. -/
def Service.Act.Aside (act : Act) : Prop :=
  act.Quiet ∧ act ≠ .bootImages

/-- What can be done in a session is a request, or an offer of the provider, or has nothing to do with images. -/
theorem course_cases {x : Session} {action : Action} {course : Course Answer} (h : action.course x = some course) :
    (∃ name r, course = requested name r) ∨ course = offering x.pods.catalog ∨ course.Uses Act.Aside := by
  have pods (c : Pods.Call) : Act.Aside (.pods c) := ⟨rfl, by simp⟩
  cases action with
  | request r => exact .inl ⟨_, r, (Option.some.inj ((course_request x r).symm.trans h)).symm⟩
  | create spec =>
    cases h
    exact .inr (.inr ⟨⟨rfl, by simp⟩, fun _ => ⟨pods _, fun _ => trivial⟩⟩)
  | stop id | remove id | status id | address id | list filter | ids =>
    cases h
    exact .inr (.inr ⟨pods _, fun _ => trivial⟩)
  | integrate => exact .inr (.inl (Option.some.inj (h.symm.trans (course_integrate x))))
  | held r =>
    obtain ⟨connection, -, rfl⟩ := Option.map_eq_some_iff.mp h
    exact .inr (.inr ⟨⟨rfl, by simp⟩, fun _ => trivial⟩)
  | heldClose =>
    obtain ⟨connection, -, rfl⟩ := Option.map_eq_some_iff.mp h
    exact .inr (.inr ⟨⟨rfl, by simp⟩, fun _ => trivial⟩)
  | _ => cases h

theorem offering_quiet {catalog : Option String} : (offering catalog).Uses Act.Quiet := by
  refine ⟨rfl, fun images => ?_⟩
  cases images with
  | none => trivial
  | some images => exact (integrate_uses images (show Act.Quiet .bootImages from rfl)).bind fun _ => trivial

/-- Among what can be done in a session, only requests do something to the images. -/
theorem requested_or_quiet {x : Session} {action : Action} {course : Course Answer} (h : action.course x = some course) :
    (∃ name r, course = requested name r) ∨ course.Uses Act.Quiet := by
  rcases course_cases h with hrequest | rfl | haside
  · exact .inl hrequest
  · exact .inr offering_quiet
  · exact .inr (haside.mono fun _ hact => hact.1)

/-! ### Courses that are only about images -/

/-- Whether this asks for the images or the catalog, lets the pods boot images, or does something to the images. -/
def Service.Act.OfImages (act : Act) : Prop :=
  act = .images ∨ act = .bootImages ∨ (∃ reference, act = .find reference) ∨ ∃ d, act.deed? = some d

theorem requested_uses_ofImages {r : Request} (hr : r.OfImages) : (requested name r).Uses Act.OfImages := by
  refine Program.Uses.bind ?_ fun _ => trivial
  refine serve_uses r (.inl rfl) (absurd hr) (fun spec _ => ⟨fun reference => ?_, fun found => ?_⟩) fun spec _ => ?_
  · exact .inr (.inr (.inl ⟨reference, rfl⟩))
  · exact .inr (.inr (.inr ⟨_, rfl⟩))
  · exact .inr (.inr (.inr ⟨_, rfl⟩))

theorem pull_sturdy (images : Images) (reference : String) : (pull images reference).Sturdy := by
  unfold pull
  cases images.asked reference with
  | error result => trivial
  | ok parsed => exact fun _ _ => trivial

theorem withReference_sturdy {β : Type} (image : Option Message.ImageSpec)
    {go : Images → String → Course (Except Status β)} (h : ∀ images reference, (go images reference).Sturdy) :
    (withReference image go).Sturdy := by
  intro images
  rcases images with _ | images
  · trivial
  rcases image with _ | spec
  · trivial
  · exact h images spec.image

theorem requested_sturdy_ofImages {r : Request} (hr : r.OfImages) : (requested name r).Sturdy := by
  refine Program.Sturdy.bind ?_ fun _ => trivial
  cases r with
  | listImages image =>
    intro images
    cases images <;> trivial
  | imageStatus image => exact withReference_sturdy image fun _ _ => trivial
  | pullImage image =>
    exact withReference_sturdy image fun images reference => (pull_sturdy images reference).bind answered_sturdy
  | removeImage image => exact withReference_sturdy image fun _ _ _ => trivial
  | _ => exact hr.elim

end

end PodMachines
