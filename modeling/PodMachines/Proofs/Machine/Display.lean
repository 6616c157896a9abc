import Mathlib.Tactic.SplitIfs
import PodMachines.Machine.State

/-! How the states of machines read. A backend that keeps an unknown word as it is shows a machine as running exactly if
    it runs; one that keeps it in lower case shows as running whatever is spelled so. The lower case of a text is in
    plain letters exactly if the text is in plain letters of either case: no character beyond ASCII becomes one of
    them, but for the Kelvin sign. -/

namespace PodMachines

namespace Text

/-! ### Lower case in plain letters -/

/-- A character of ASCII which is the lower case of none beyond it. -/
def Plain (c : Char) : Prop :=
  0 < c.toNat ∧ c.toNat < 0x80 ∧ c ≠ 'k'

instance (c : Char) : Decidable (Plain c) :=
  inferInstanceAs (Decidable (_ ∧ _ ∧ _))

/-- No range leads into ASCII, but for that of the Kelvin sign. -/
theorem capitals_beyond : ∀ r ∈ capitals,
    0x80 ≤ (r.first : Int) + r.shift ∨ r.last = r.first ∧ (r.first : Int) + r.shift = 'k'.toNat := by
  decide +kernel

theorem toNat_ofNat_eq (n : Nat) : (Char.ofNat n).toNat = n ∨ (Char.ofNat n).toNat = 0 := by
  by_cases h : n.isValidChar
  · rw [Char.ofNat, dif_pos h]
    exact .inl rfl
  · rw [Char.ofNat, dif_neg h]
    exact .inr rfl

theorem not_plain_lowerChar {c : Char} (h : ¬c.toNat < 0x80) : ¬Plain (lowerChar c) := by
  rintro ⟨hpos, hlow, hk⟩
  unfold lowerChar at hpos hlow hk
  rw [if_neg h] at hpos hlow hk
  cases hfind : capitals.find? (·.has c.toNat) with
  | none =>
    rw [hfind] at hlow
    exact h hlow
  | some r =>
    rw [hfind] at hpos hlow hk
    dsimp only at hpos hlow hk
    have hhas := List.find?_some hfind
    simp only [CaseRange.has, Bool.and_eq_true, decide_eq_true_eq] at hhas
    obtain ⟨⟨hfirst, hlast⟩, -⟩ := hhas
    obtain hbeyond | ⟨hsingle, hkelvin⟩ := capitals_beyond r (List.mem_of_find?_eq_some hfind)
    · obtain heq | heq := toNat_ofNat_eq ((c.toNat : Int) + r.shift).toNat <;> omega
    · refine hk (congrArg Char.ofNat (?_ : _ = 'k'.toNat))
      omega

theorem toLower_of_beyond {c : Char} (h : ¬c.toNat < 0x80) : c.toLower = c := by
  refine dif_neg fun ⟨_, hz⟩ => h ?_
  have hz : c.toNat ≤ 'Z'.toNat := hz
  exact Nat.lt_of_le_of_lt hz (by decide)

/-- A character becomes a plain one only if it is that one, in either case. -/
theorem lowerChar_eq_iff {c d : Char} (hd : Plain d) : lowerChar c = d ↔ c.toLower = d := by
  by_cases h : c.toNat < 0x80
  · rw [lowerChar, if_pos h]
  · rw [toLower_of_beyond h]
    constructor
    · rintro rfl
      exact absurd hd (not_plain_lowerChar h)
    · rintro rfl
      exact absurd hd.2.1 h

/-- The characters whose lower case is not that of `lowerChar`. -/
def Odd (c : Char) : Prop :=
  c = 'Σ' ∨ c = 'İ'

theorem lowerFrom_cons {before s : List Char} {c : Char} (h : ¬Odd c) :
    lowerFrom before (c :: s) = lowerChar c :: lowerFrom (c :: before) s := by
  obtain ⟨hsigma, hdotted⟩ := not_or.mp h
  simp only [lowerFrom, if_neg hsigma, if_neg hdotted, List.singleton_append]

theorem not_plain_of_odd {c : Char} (before s : List Char) (h : Odd c) :
    ¬Plain c.toLower ∧ ∃ x ∈ lowerFrom before (c :: s), ¬Plain x := by
  obtain rfl | rfl := h
  · refine ⟨by decide, ?_⟩
    unfold lowerFrom
    dsimp only
    rw [if_pos rfl]
    split
    · exact ⟨'ς', List.mem_cons_self, by decide⟩
    · exact ⟨'σ', List.mem_cons_self, by decide⟩
  · exact ⟨by decide, '\u0307', List.mem_cons_of_mem _ List.mem_cons_self, by decide⟩

theorem lowerFrom_eq_iff {before s w : List Char} (hw : ∀ c ∈ w, Plain c) :
    lowerFrom before s = w ↔ s.map Char.toLower = w := by
  induction s generalizing before w with
  | nil => exact Iff.rfl
  | cons c s ih =>
    by_cases hc : Odd c
    · obtain ⟨hself, x, hx, hplain⟩ := not_plain_of_odd before s hc
      refine iff_of_false (fun h => hplain (hw x (h ▸ hx))) fun h => hself (hw _ (h ▸ ?_))
      exact List.mem_cons_self
    · rw [lowerFrom_cons hc, List.map_cons]
      cases w with
      | nil => exact iff_of_false nofun nofun
      | cons d w =>
        obtain ⟨hd, hw⟩ := List.forall_mem_cons.mp hw
        rw [List.cons.injEq, List.cons.injEq, lowerChar_eq_iff hd, ih hw]

/-- A text becomes plain letters exactly if it is those letters, each in either case. -/
theorem lowercase_eq_iff {s w : String} (hw : ∀ c ∈ w.toList, Plain c) :
    lowercase s = w ↔ s.toList.map Char.toLower = w.toList := by
  rw [← lowerFrom_eq_iff hw, lowercase, ← String.toList_inj, String.toList_ofList]

end Text

namespace Machine.State

/-! ### States that read as running -/

theorem toText_eq_running_iff {x : State} : x.toText = "running" ↔ x.isRunning = true ∨ x = .other "running" := by
  cases x with
  | other word => exact ⟨fun h => .inr (congrArg other h), by rintro (h | h) <;> cases h; rfl⟩
  | _ => simp [toText, isRunning]

theorem ofEc2_ne_other (word : String) : ofEc2 word ≠ .other "running" := by
  unfold ofEc2
  split_ifs <;> simp_all

theorem ofVirtualBox_ne_other (word : String) : ofVirtualBox word ≠ .other "running" := by
  unfold ofVirtualBox
  split_ifs <;> simp_all

theorem plain_running {c : Char} (h : c ∈ "running".toList) : Text.Plain c := by
  have hall : ("running".toList.all fun c => Text.Plain c) = true := by decide +kernel
  exact of_decide_eq_true (List.all_eq_true.mp hall c h)

/-- GCE has a word for running, and keeps every other spelling of it in lower case. -/
theorem ofGce_eq_other_iff {word : String} : ofGce word = .other "running" ↔
    word ≠ "RUNNING" ∧ word.toList.map Char.toLower = "running".toList := by
  unfold ofGce
  split_ifs with hstarting hrunning hstopping hstopped
  · exact iff_of_false nofun (by rcases hstarting with rfl | rfl <;> decide)
  · exact iff_of_false nofun fun h => h.1 hrunning
  · exact iff_of_false nofun (by rcases hstopping with rfl | rfl <;> decide)
  · exact iff_of_false nofun (by rcases hstopped with rfl | rfl | rfl <;> decide)
  · rw [other.injEq, Text.lowercase_eq_iff fun _ => plain_running, and_iff_right hrunning]

/-- A machine of which GCE tells `running` in small letters is shown as running, and is taken for one that is not. -/
theorem running_misshown : (ofGce "running").toText = "running" ∧ (ofGce "running").isRunning = false := by
  have hmisread : ofGce "running" = .other "running" := ofGce_eq_other_iff.mpr ⟨by decide, by decide⟩
  rw [hmisread]
  exact ⟨rfl, rfl⟩

end Machine.State
end PodMachines
