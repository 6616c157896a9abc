import Mathlib.Data.List.Sort
import Mathlib.Data.String.Basic
import PodMachines.Providers

/-! Registrations, one after another. Main statement: a name stays with what was registered under it first, and every later
    registration of it is refused without effect, so that distinct names may be registered in any order. The providers of
    pods and those of images are registered apart from each other. -/

namespace PodMachines

namespace Table
variable {α : Type} {t t' : Table α} {key : String}

theorem find?_eq_some_iff {value : α} : t.find? key = some value ↔ (key, value) ∈ t.entries := by
  refine ⟨fun h => ?_, find?_of_mem⟩
  obtain ⟨⟨k, v⟩, hfind, rfl⟩ := Option.map_eq_some_iff.mp h
  obtain rfl : k = key := by simpa using List.find?_some hfind
  exact List.mem_of_find?_eq_some hfind

theorem find?_eq_none_iff : t.find? key = none ↔ key ∉ t.keys := by
  rw [mem_keys_iff, not_exists, Option.eq_none_iff_forall_ne_some]

theorem find?_perm (h : t.entries.Perm t'.entries) : t.find? key = t'.find? key :=
  Option.ext fun value => by rw [find?_eq_some_iff, find?_eq_some_iff, h.mem_iff]

end Table

namespace Registry
variable {α : Type} {r r' : Registry α} {kind name : String} {calls calls' : List (String × α)}

/-! ### The names -/

theorem mem_names : name ∈ r.names ↔ name ∈ r.entries.keys :=
  List.mem_mergeSort

theorem names_ascending (r : Registry α) : r.names.Pairwise (· < ·) := by
  have hle : r.names.Pairwise fun a b => decide (a ≤ b) = true :=
    List.pairwise_mergeSort (fun a b c hab hbc => by simpa using le_trans (of_decide_eq_true hab) (of_decide_eq_true hbc))
      (fun a b => by simpa using le_total a b) r.entries.keys
  have hne : r.names.Nodup := (List.mergeSort_perm r.entries.keys _).nodup_iff.mpr r.entries.nodup
  exact hle.imp₂ (fun a b hab hne => lt_of_le_of_ne (of_decide_eq_true hab) hne) hne

/-- The names are listed in one order, whatever order they are kept in. -/
theorem names_congr (h : ∀ name, name ∈ r.names ↔ name ∈ r'.names) : r.names = r'.names := by
  have hperm : r.names.Perm r'.names :=
    (List.perm_ext_iff_of_nodup (r.names_ascending.imp ne_of_lt) (r'.names_ascending.imp ne_of_lt)).mpr h
  exact hperm.eq_of_pairwise (fun a b _ _ hab hba => absurd hba (lt_asymm hab)) r.names_ascending r'.names_ascending

/-! ### One registration -/

/-- What a registration comes to, and the registry afterwards. -/
def call (r : Registry α) (name : String) (thing : α) : Except Failure Unit × Registry α :=
  match r.register name thing with
  | .ok r' => (.ok (), r')
  | .error f => (.error f, r)

/-- The failure of a registration under a name that is taken. -/
def taken (kind name : String) : Failure :=
  .alreadyRegistered (kind ++ " provider '" ++ name ++ "'")

theorem call_of_mem (h : name ∈ r.entries.keys) (thing : α) : r.call name thing = (.error (taken r.kind name), r) := by
  rw [call, register, if_pos (Table.contains_iff.mpr h)]
  rfl

theorem call_of_not_mem (h : name ∉ r.entries.keys) (thing : α) :
    r.call name thing = (.ok (), { r with entries := r.entries.insert name thing }) := by
  rw [call, register, if_neg (mt Table.contains_iff.mp h)]

theorem kind_call (r : Registry α) (name : String) (thing : α) : (r.call name thing).2.kind = r.kind := by
  by_cases h : name ∈ r.entries.keys
  · rw [call_of_mem h]
  · rw [call_of_not_mem h]

theorem find?_call (r : Registry α) (name : String) (thing : α) (other : String) :
    (r.call name thing).2.entries.find? other =
      (r.entries.find? other).or (if name = other then some thing else none) := by
  by_cases h : name ∈ r.entries.keys
  · rw [call_of_mem h]
    split
    · rename_i heq
      obtain ⟨x, hx⟩ := Table.mem_keys_iff.mp (heq ▸ h)
      rw [hx, Option.some_or]
    · rw [Option.or_none]
  · rw [call_of_not_mem h, Table.find?_insert]
    split
    · rename_i heq
      rw [Table.find?_eq_none_iff.mpr (heq ▸ h), Option.none_or]
    · rw [Option.or_none]

/-! ### Registrations in turn -/

/-- The registry after some registrations. -/
def after (r : Registry α) (calls : List (String × α)) : Registry α :=
  calls.foldl (fun r c => (r.call c.1 c.2).2) r

/-- Some of the registrations was accepted under a name. -/
def Registers (r : Registry α) (calls : List (String × α)) (name : String) : Prop :=
  ∃ earlier thing later, calls = earlier ++ (name, thing) :: later ∧ ((r.after earlier).call name thing).1 = .ok ()

theorem kind_after (r : Registry α) (calls : List (String × α)) : (r.after calls).kind = r.kind := by
  induction calls generalizing r with
  | nil => rfl
  | cons c calls ih => exact (ih _).trans (r.kind_call c.1 c.2)

/-- Under a name there is what there was, or else what was registered first. -/
theorem find?_after (r : Registry α) (calls : List (String × α)) (name : String) :
    (r.after calls).entries.find? name = (r.entries.find? name).or ((calls.find? (·.1 = name)).map (·.2)) := by
  induction calls generalizing r with
  | nil => exact Option.or_none.symm
  | cons c calls ih =>
    show ((r.call c.1 c.2).2.after calls).entries.find? name = _
    rw [ih, find?_call, Option.or_assoc, List.find?_cons]
    by_cases h : c.1 = name <;> simp [h]

theorem find?_after_empty (kind : String) (calls : List (String × α)) (name : String) :
    ((empty kind).after calls).entries.find? name = (calls.find? (·.1 = name)).map (·.2) :=
  find?_after _ _ _

theorem mem_keys_after : name ∈ ((empty kind).after calls).entries.keys ↔ ∃ c ∈ calls, c.1 = name := by
  rw [← not_iff_not, ← Table.find?_eq_none_iff, find?_after_empty, Option.map_eq_none_iff, List.find?_eq_none]
  simp only [decide_eq_true_eq, not_exists, not_and]

theorem mem_keys_after_iff_registers :
    name ∈ ((empty kind).after calls).entries.keys ↔ (empty kind).Registers calls name := by
  rw [mem_keys_after]
  constructor
  · rintro ⟨c, hc, hname⟩
    have hsome : (calls.find? (·.1 = name)).isSome := List.find?_isSome.mpr ⟨c, hc, by simpa using hname⟩
    obtain ⟨⟨key, thing⟩, hfirst⟩ := Option.isSome_iff_exists.mp hsome
    obtain ⟨hkey, earlier, later, hcalls, hearlier⟩ := List.find?_eq_some_iff_append.mp hfirst
    obtain rfl : key = name := by simpa using hkey
    have hfresh : key ∉ ((empty kind).after earlier).entries.keys := by
      rw [mem_keys_after]
      rintro ⟨d, hd, hdname⟩
      simpa [hdname] using hearlier d hd
    exact ⟨earlier, thing, later, hcalls, by rw [call_of_not_mem hfresh]⟩
  · rintro ⟨earlier, thing, later, rfl, -⟩
    exact ⟨(name, thing), List.mem_append_right _ List.mem_cons_self, rfl⟩

theorem get_of_find? {thing : α} (h : r.entries.find? name = some thing) : r.get name = .ok thing := by
  rw [get, h]

theorem get_of_not_mem (h : name ∉ r.entries.keys) :
    r.get name = .error (.unknownProvider name (", ".intercalate r.names)) := by
  rw [get, Table.find?_eq_none_iff.mpr h]

/-- What is got depends on what is found and on the names only. -/
theorem get_congr (hfind : r.entries.find? name = r'.entries.find? name) (hnames : r.names = r'.names) :
    r.get name = r'.get name := by
  rw [get, get, hfind, hnames]

/-- Registrations of distinct names leave the same under them in any order. -/
theorem find?_after_perm (h : calls'.Perm calls) (hdistinct : (calls.map (·.1)).Nodup) (name : String) :
    ((empty kind).after calls').entries.find? name = ((empty kind).after calls).entries.find? name := by
  have hdistinct' : (calls'.map (·.1)).Nodup := (h.map _).nodup_iff.mpr hdistinct
  -- Registrations of distinct names are the entries of a table themselves.
  have hfind : (Table.mk calls' hdistinct').find? name = (Table.mk calls hdistinct).find? name := Table.find?_perm h
  rw [find?_after_empty, find?_after_empty]
  exact hfind

/-- What registrations in a registry that was empty come to. -/
structure FirstStays (kind : String) (calls : List (String × α)) : Prop where
  /-- One more is refused exactly if an earlier one was accepted under its name. -/
  refused : ∀ name thing, (((empty kind).after calls).call name thing).1 = .error (taken kind name) ↔
    (empty kind).Registers calls name
  /-- It fails in no other way, and if it does nothing has changed. -/
  unchanged : ∀ name thing f, (((empty kind).after calls).call name thing).1 = .error f →
    f = taken kind name ∧ (((empty kind).after calls).call name thing).2 = (empty kind).after calls
  /-- Under a name is what the first one put there. -/
  first : ∀ earlier name thing later, calls = earlier ++ (name, thing) :: later → (∀ c ∈ earlier, c.1 ≠ name) →
    ((empty kind).after calls).get name = .ok thing
  /-- Under any other name is nothing. -/
  unknown : ∀ name, (∀ c ∈ calls, c.1 ≠ name) → ((empty kind).after calls).get name =
    .error (.unknownProvider name (", ".intercalate ((empty kind).after calls).names))
  ascending : ((empty kind).after calls).names.Pairwise (· < ·)
  names : ∀ name, name ∈ ((empty kind).after calls).names ↔ (empty kind).Registers calls name
  /-- Distinct names may be registered in any order. -/
  reordered : ∀ calls' : List (String × α), calls'.Perm calls → (calls.map (·.1)).Nodup →
    (∀ name, ((empty kind).after calls').get name = ((empty kind).after calls).get name) ∧
    ((empty kind).after calls').names = ((empty kind).after calls).names

theorem firstStays (kind : String) (calls : List (String × α)) : FirstStays kind calls where
  refused name thing := by
    rw [← mem_keys_after_iff_registers]
    refine ⟨fun h => by_contra fun hfresh => ?_, fun h => ?_⟩
    · rw [call_of_not_mem hfresh] at h
      cases h
    · rw [call_of_mem h, kind_after]
      rfl
  unchanged name thing f h := by
    by_cases hmem : name ∈ ((empty kind).after calls).entries.keys
    · rw [call_of_mem hmem, kind_after] at h ⊢
      exact ⟨(Except.error.inj h).symm, rfl⟩
    · rw [call_of_not_mem hmem] at h
      cases h
  first earlier name thing later hcalls hearlier := by
    refine get_of_find? ?_
    have hfind : calls.find? (·.1 = name) = some (name, thing) :=
      List.find?_eq_some_iff_append.mpr ⟨by simp, earlier, later, hcalls, by simpa using hearlier⟩
    rw [find?_after_empty, hfind, Option.map_some]
  unknown name h := get_of_not_mem fun hmem => by
    obtain ⟨c, hc, hname⟩ := mem_keys_after.mp hmem
    exact h c hc hname
  ascending := names_ascending _
  names name := mem_names.trans mem_keys_after_iff_registers
  reordered calls' h hdistinct := by
    have hnames : ((empty kind).after calls').names = ((empty kind).after calls).names :=
      names_congr fun name => by
        rw [mem_names, mem_names, mem_keys_after, mem_keys_after]
        exact exists_congr fun c => and_congr_left fun _ => h.mem_iff
    exact ⟨fun name => get_congr (find?_after_perm h hdistinct name) hnames, hnames⟩

end Registry

/-! ### Providers -/

namespace Providers

/-- A registration of a provider, of pods or of images. -/
inductive Registration
  | pods (name : String) (provider : PodProvider)
  | images (name : String) (provider : ImageProvider)

namespace Registration

/-- What it comes to, and the providers afterwards. -/
def run (p : Providers) : Registration → Except Failure Unit × Providers
  | pods name provider => p.registerPods name provider
  | images name provider => p.registerImages name provider

def pods? : Registration → Option (String × PodProvider)
  | pods name provider => some (name, provider)
  | images .. => none

def images? : Registration → Option (String × ImageProvider)
  | pods .. => none
  | images name provider => some (name, provider)

theorem run_pods (p : Providers) (name : String) (provider : PodProvider) : (pods name provider).run p =
    ((p.pods.call name provider).1, { p with pods := (p.pods.call name provider).2 }) := by
  rw [run, registerPods, Registry.call]
  cases p.pods.register name provider <;> rfl

theorem run_images (p : Providers) (name : String) (provider : ImageProvider) : (images name provider).run p =
    ((p.images.call name provider).1, { p with images := (p.images.call name provider).2 }) := by
  rw [run, registerImages, Registry.call]
  cases p.images.register name provider <;> rfl

end Registration

/-- The providers after some registrations. -/
def after (p : Providers) (registrations : List Registration) : Providers :=
  registrations.foldl (fun p x => (x.run p).2) p

theorem after_eq (p : Providers) (registrations : List Registration) : p.after registrations =
    ⟨p.pods.after (registrations.filterMap Registration.pods?),
      p.images.after (registrations.filterMap Registration.images?)⟩ := by
  induction registrations generalizing p with
  | nil => rfl
  | cons x registrations ih =>
    show (x.run p).2.after registrations = _
    cases x with
    | pods name provider =>
      rw [Registration.run_pods, ih]
      rfl
    | images name provider =>
      rw [Registration.run_images, ih]
      rfl

/-- Providers of one kind are registered as if there were none of the other. -/
structure Apart (registrations : List Registration) : Prop where
  pods : (empty.after registrations).pods = (Registry.empty "pod").after (registrations.filterMap Registration.pods?)
  images : (empty.after registrations).images =
    (Registry.empty "image").after (registrations.filterMap Registration.images?)
  /-- What one more comes to is decided in its own registry. -/
  podsOutcome : ∀ name provider, ((empty.after registrations).registerPods name provider).1 =
    (((Registry.empty "pod").after (registrations.filterMap Registration.pods?)).call name provider).1
  imagesOutcome : ∀ name provider, ((empty.after registrations).registerImages name provider).1 =
    (((Registry.empty "image").after (registrations.filterMap Registration.images?)).call name provider).1

theorem apart (registrations : List Registration) : Apart registrations where
  pods := congrArg Providers.pods (empty.after_eq registrations)
  images := congrArg Providers.images (empty.after_eq registrations)
  podsOutcome name provider := by
    rw [after_eq]
    exact congrArg Prod.fst (Registration.run_pods _ name provider)
  imagesOutcome name provider := by
    rw [after_eq]
    exact congrArg Prod.fst (Registration.run_images _ name provider)

end Providers

/-- Whatever is registered in turn, a registry keeps what came first under each name, and so do the two registries of
    providers, each for its own kind. -/
theorem first_registration_stays :
    (∀ (α : Type) (kind : String) (calls : List (String × α)), Registry.FirstStays kind calls) ∧
    ∀ registrations : List Providers.Registration, Providers.Apart registrations :=
  ⟨fun _ => Registry.firstStays, Providers.apart⟩

/-- What is told of a name that no provider has. -/
example [Doc.Parsers] : Providers.builtin.startPods .empty "." "azure" =
    .done (.error (.unknownProvider "azure" "aws, gcp, virtualbox")) := by
  cbv

end PodMachines
