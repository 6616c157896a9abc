import Mathlib.Algebra.Ring.Nat
import PodMachines.Proofs.Backend.Leftover

/-! The size of an image of EC2. Main statement: whatever images the tool describes, each gets a record whose size is
    that of its volumes in bytes, as long as this is less than 16 EiB; the search breaks down at the first image of
    which it is not. -/

namespace PodMachines.Backend.Ec2

/-- The command that describes the images of a reference: those of the owner that it names, else of the configured
    ones. -/
def describing (c : Config.Ec2) (reference : Image.Reference) : Command :=
  let owners := match reference.qualifier with
    | some owner => [owner]
    | none => c.imageOwners
  command c ["ec2", "describe-images"] ("--owners" :: owners ++ ["--filters", "Name=name,Values=" ++ reference.name])

/-- The sizes of an image's volumes together, in GiB. -/
def Ami.gibs (a : Ami) : Nat :=
  (a.volumes.map UInt64.toNat).sum

/-- How many bytes the volumes of an image hold together. -/
def Ami.bytes (a : Ami) : Nat :=
  a.gibs * 2 ^ 30

/-- Why an image that is too large is not recorded: the sum comes first. -/
def Ami.overflow (a : Ami) : String :=
  if a.gibs < 2 ^ 64 then "attempt to multiply with overflow" else "attempt to add with overflow"

theorem total_eq {sum : Nat} (hsum : sum < 2 ^ 64) (sizes : List UInt64) :
    total sum sizes = if sum + (sizes.map UInt64.toNat).sum < 2 ^ 64 then
      .done (sum + (sizes.map UInt64.toNat).sum) else .crash "attempt to add with overflow" := by
  induction sizes generalizing sum with
  | nil =>
    rw [total, List.map_nil, List.sum_nil, Nat.add_zero, if_pos hsum]
    rfl
  | cons size sizes ih =>
    rw [total, List.map_cons, List.sum_cons, ← Nat.add_assoc]
    split
    · rename_i hnext
      exact ih hnext
    · rename_i hnext
      have hmore : ¬sum + size.toNat + (sizes.map UInt64.toNat).sum < 2 ^ 64 :=
        fun h => hnext (Nat.lt_of_le_of_lt (Nat.le_add_right ..) h)
      rw [if_neg hmore]

theorem toNat_toUInt64_of_lt {n : Nat} (h : n < 2 ^ 64) : n.toUInt64.toNat = n :=
  UInt64.toNat_ofNat_of_lt' h

theorem Ami.mul_gib_lt_iff {a : Ami} : a.gibs * gib < UInt64.size ↔ a.bytes < 2 ^ 64 := by
  rw [bytes, show gib = 2 ^ 30 from rfl, show UInt64.size = 2 ^ 64 from rfl]

theorem Ami.gibs_lt {a : Ami} (h : a.bytes < 2 ^ 64) : a.gibs < 2 ^ 64 := by
  unfold bytes at h
  omega

theorem Ami.size_of_lt {a : Ami} (h : a.bytes < 2 ^ 64) : a.size = .done a.bytes.toUInt64 := by
  have hsum : total 0 a.volumes = .done a.gibs := by
    rw [total_eq (Nat.two_pow_pos 64), Nat.zero_add, show (a.volumes.map UInt64.toNat).sum = a.gibs from rfl,
      if_pos (gibs_lt h)]
  have hbytes : a.gibs * gib = a.bytes := by
    rw [bytes, show gib = 2 ^ 30 from rfl]
  show (total 0 a.volumes).bind _ = _
  rw [hsum, ← hbytes, Program.bind, if_pos (mul_gib_lt_iff.mpr h)]
  rfl

theorem Ami.size_of_le {a : Ami} (h : 2 ^ 64 ≤ a.bytes) : a.size = .crash a.overflow := by
  show (total 0 a.volumes).bind _ = _
  rw [total_eq (Nat.two_pow_pos 64), Nat.zero_add, overflow, show (a.volumes.map UInt64.toNat).sum = a.gibs from rfl]
  by_cases hsum : a.gibs < 2 ^ 64
  · rw [if_pos hsum, if_pos hsum, Program.bind, if_neg fun hfit => Nat.not_lt_of_le h (mul_gib_lt_iff.mp hfit)]
  · rw [if_neg hsum, if_neg hsum]
    rfl

/-- The record of an image whose size can be counted. -/
def Ami.counted (a : Ami) : Image.Record :=
  ⟨a.id, [if a.name.isEmpty then a.id else a.name], [a.id], a.bytes.toUInt64⟩

theorem Ami.record_of_lt {a : Ami} (h : a.bytes < 2 ^ 64) : a.record = .done a.counted := by
  show a.size.bind _ = _
  rw [size_of_lt h]
  rfl

theorem Ami.record_of_le {a : Ami} (h : 2 ^ 64 ≤ a.bytes) : a.record = .crash a.overflow := by
  show a.size.bind _ = _
  rw [size_of_le h]
  rfl

/-- Images that can be counted are recorded before those that follow. -/
theorem records_append {before : List Ami} (h : ∀ a ∈ before, a.bytes < 2 ^ 64) (images : List Ami) :
    records (before ++ images) = (records images).bind fun found => .done (before.map Ami.counted ++ found) := by
  induction before with
  | nil => exact (Program.bind_done _).symm
  | cons a before ih =>
    obtain ⟨ha, hbefore⟩ := List.forall_mem_cons.mp h
    show a.record.bind (fun record => (records (before ++ images)).bind fun rest => .done (record :: rest)) = _
    rw [Ami.record_of_lt ha, ih hbefore]
    exact Program.bind_assoc ..

theorem records_of_lt {images : List Ami} (h : ∀ a ∈ images, a.bytes < 2 ^ 64) :
    records images = .done (images.map Ami.counted) := by
  have happend := records_append h []
  rw [List.append_nil] at happend
  rw [happend]
  exact congrArg Program.done (List.append_nil _)

theorem records_of_le {before after : List Ami} {image : Ami} (h : ∀ a ∈ before, a.bytes < 2 ^ 64)
    (himage : 2 ^ 64 ≤ image.bytes) : records (before ++ image :: after) = .crash image.overflow := by
  rw [records_append h]
  show (image.record.bind _).bind _ = _
  rw [Ami.record_of_le himage]
  rfl

section
variable [Doc.Parsers] {c : Config.Ec2} {reference : Image.Reference} {reply : Except String Ended} {images : List Ami}

theorem find_leads (h : (describing c reference).decoded describedImages reply = .ok images) :
    (find c reference).Leads [⟨.run (describing c reference), reply⟩]
      ((records images).bind fun found => .done (.ok found)) := by
  show (((describing c reference).runJson describedImages).bind _).Leads _ _
  rw [Command.runJson_bind]
  refine Program.Leads.reply (R := Ask.Reply) (q := .run (describing c reference)) reply ?_
  rw [h]
  exact .rest

/-- What a search comes to for which some images are described. -/
structure Sized (c : Config.Ec2) (reference : Image.Reference) (reply : Except String Ended) (images : List Ami) :
    Prop where
  /-- As long as every size can be counted, there is a record of each image, with its id and its true size. -/
  exact : (∀ image ∈ images, image.bytes < 2 ^ 64) → ∃ found,
    (find c reference).Leads [⟨.run (describing c reference), reply⟩] (.done (.ok found)) ∧
      found.map (·.id) = images.map (·.id) ∧ found.map (·.size.toNat) = images.map Ami.bytes
  /-- The search breaks down at the first image whose size cannot. -/
  broken : ∀ {before after : List Ami} {image : Ami}, images = before ++ image :: after →
    (∀ a ∈ before, a.bytes < 2 ^ 64) → 2 ^ 64 ≤ image.bytes →
      (find c reference).Leads [⟨.run (describing c reference), reply⟩] (.crash image.overflow)
  /-- So nothing is found unless all can. -/
  counted : ∀ {found : List Image.Record},
    (find c reference).Leads [⟨.run (describing c reference), reply⟩] (.done (.ok found)) →
      ∀ image ∈ images, image.bytes < 2 ^ 64

theorem image_sizes (h : (describing c reference).decoded describedImages reply = .ok images) :
    Sized c reference reply images := by
  have hfind := find_leads h
  have exact (hfits : ∀ image ∈ images, image.bytes < 2 ^ 64) :
      (find c reference).Leads [⟨.run (describing c reference), reply⟩] (.done (.ok (images.map Ami.counted))) := by
    rw [records_of_lt hfits] at hfind
    exact hfind
  have broken {before after : List Ami} {image : Ami} (himages : images = before ++ image :: after)
      (hbefore : ∀ a ∈ before, a.bytes < 2 ^ 64) (hlarge : 2 ^ 64 ≤ image.bytes) :
      (find c reference).Leads [⟨.run (describing c reference), reply⟩] (.crash image.overflow) := by
    rw [himages, records_of_le hbefore hlarge] at hfind
    exact hfind
  refine ⟨fun hfits => ⟨_, exact hfits, ?_, ?_⟩, broken, fun hfound => ?_⟩
  · rw [List.map_map]
    rfl
  · rw [List.map_map]
    refine List.map_congr_left fun image himage => ?_
    rw [Function.comp_apply, Ami.counted, toNat_toUInt64_of_lt (hfits image himage)]
  · cases hlarge : images.find? fun image => decide (2 ^ 64 ≤ image.bytes) with
    | none =>
      intro image himage
      simpa using List.find?_eq_none.mp hlarge image himage
    | some image =>
      obtain ⟨himage, before, after, himages, hbefore⟩ := List.find?_eq_some_iff_append.mp hlarge
      have hcrash := broken himages (fun a ha => by simpa using hbefore a ha) (of_decide_eq_true himage)
      cases hfound.unique hcrash

end

namespace Volumes

def config : Config.Ec2 :=
  ⟨"ami-123", "us-west-2", "sg-1", "vpc-1", "subnet-1", "/keys/infra.pem", "t3.medium", ["self"]⟩

def reference : Image.Reference :=
  ⟨none, "agent"⟩

/-- An image with the given devices. -/
def described (devices : String) : String :=
  "\x7b\"Images\":[\x7b\"ImageId\":\"ami-0\",\"BlockDeviceMappings\":[" ++ devices ++ "]\x7d]\x7d"

/-- A device with a volume. -/
def volume (gib : String) : String :=
  "\x7b\"Ebs\":\x7b\"VolumeSize\":" ++ gib ++ "\x7d\x7d"

/-- Volumes of 8 and 2 GiB, and a device without one between them. -/
def several : Except String Ended :=
  Leftover.prints (described (volume "8" ++ ",\x7b\x7d," ++ volume "2"))

/-- One volume of 16 EiB. -/
def vast : Except String Ended :=
  Leftover.prints (described (volume "17179869184"))

theorem several_decoded :
    (describing config reference).decoded describedImages several = .ok [⟨"ami-0", "", [8, 2]⟩] :=
  eq_ok_of_toOption (by decide +kernel)

theorem vast_decoded :
    (describing config reference).decoded describedImages vast = .ok [⟨"ami-0", "", [17179869184]⟩] :=
  eq_ok_of_toOption (by decide +kernel)

end Volumes

open Volumes in
/-- The volumes that there are are added. -/
theorem image_sizes_several :
    (describing config reference).decoded describedImages several = .ok [⟨"ami-0", "", [8, 2]⟩] ∧
      (∃ found, (find config reference).Leads [⟨.run (describing config reference), several⟩] (.done (.ok found)) ∧
        found.map (·.id) = ["ami-0"] ∧ found.map (·.size.toNat) = [10737418240]) := by
  refine ⟨several_decoded, ?_⟩
  exact (image_sizes several_decoded).exact (List.forall_mem_singleton.mpr (by decide))

open Volumes in
/-- No record is made of an image of 16 EiB: the search for it breaks down. -/
theorem size_overflows :
    (describing config reference).decoded describedImages vast = .ok [⟨"ami-0", "", [17179869184]⟩] ∧
      (Ami.mk "ami-0" "" [17179869184]).bytes = 18446744073709551616 ∧
      (find config reference).Leads [⟨.run (describing config reference), vast⟩]
        (.crash "attempt to multiply with overflow") := by
  refine ⟨vast_decoded, by decide, ?_⟩
  have hbefore : ∀ a ∈ ([] : List Ami), a.bytes < 2 ^ 64 := nofun
  have hlarge : records [⟨"ami-0", "", [17179869184]⟩] = .crash "attempt to multiply with overflow" :=
    records_of_le hbefore (by decide)
  have hfind := find_leads vast_decoded
  rw [hlarge] at hfind
  exact hfind

end PodMachines.Backend.Ec2
