import Mathlib.Data.List.SplitBy
import Mathlib.Data.List.TakeWhile
import Mathlib.Data.String.Basic
import PodMachines.Machine.Name

/-! The names of machines, which are legal whatever a pod is called. What is kept of the pod's names is given by the
    maximal runs of their characters. That dashes stand alone is what the cut and the last dash rest on. -/

namespace PodMachines

namespace Text
variable {p : Char → Bool}

theorem dropTrailing_concat (s : List Char) (c : Char) :
    dropTrailing p (s ++ [c]) = if p c then dropTrailing p s else s ++ [c] := by
  simp only [dropTrailing, List.reverse_append, List.reverse_cons, List.reverse_nil, List.nil_append, List.cons_append,
    List.dropWhile_cons]
  split
  · rfl
  · rw [List.reverse_cons, List.reverse_reverse]

theorem dropTrailing_of_last {s : List Char} (h : ∀ c ∈ s.getLast?, p c = false) : dropTrailing p s = s := by
  rcases List.eq_nil_or_concat s with rfl | ⟨s, c, rfl⟩
  · rfl
  · rw [List.concat_eq_append, dropTrailing_concat, h c (by simp)]
    rfl

theorem dropTrailing_append {start : List Char} (h : ∀ c ∈ start.getLast?, p c = false) (s : List Char) :
    dropTrailing p (start ++ s) = start ++ dropTrailing p s := by
  induction s using List.reverseRecOn with
  | nil => rw [List.append_nil, dropTrailing_of_last h]; exact (List.append_nil start).symm
  | append_singleton s c ih =>
    rw [← List.append_assoc, dropTrailing_concat, dropTrailing_concat, ih]
    split
    · rfl
    · rw [List.append_assoc]

end Text

namespace Machine
open Text

/-! ### Runs -/

/-- Whether two characters are both of names, or neither of them is. -/
def sameKind (a b : Char) : Bool :=
  isNameChar a == isNameChar b

/-- What stands in a name for a run of characters of one kind. -/
def collapse (run : List Char) : List Char :=
  if run.all isNameChar then run else ['-']

/-- A text with one dash for each maximal run of characters that are none of names. -/
def dashed (s : List Char) : List Char :=
  (s.splitBy sameKind).flatMap collapse

theorem dashed_append {kind : Bool} {run rest : List Char} (hne : run ≠ []) (hrun : ∀ c ∈ run, isNameChar c = kind)
    (hrest : ∀ c ∈ rest.head?, isNameChar c ≠ kind) : dashed (run ++ rest) = collapse run ++ dashed rest := by
  have hchain : run.IsChain fun a b => sameKind a b = true :=
    (List.pairwise_of_forall_mem_list fun a ha b hb => by rw [sameKind, hrun a ha, hrun b hb, beq_self_eq_true]).isChain
  have hturn : ∀ a ∈ run.getLast?, ∀ b ∈ rest.head?, sameKind a b = false := fun a ha b hb => by
    rw [sameKind, hrun a (List.mem_of_getLast? ha), beq_eq_false_iff_ne]
    exact (hrest b hb).symm
  rw [dashed, List.splitBy_append hturn, List.splitBy_of_isChain hne hchain, List.flatMap_append]
  simp only [List.flatMap_cons, List.flatMap_nil, List.append_nil, dashed]

theorem collapse_name {run : List Char} (h : ∀ c ∈ run, isNameChar c = true) : collapse run = run :=
  if_pos (List.all_eq_true.mpr h)

theorem dashed_names {run rest : List Char} (hrun : ∀ c ∈ run, isNameChar c = true)
    (hrest : ∀ c ∈ rest.head?, isNameChar c ≠ true) : dashed (run ++ rest) = run ++ dashed rest := by
  cases run with
  | nil => rfl
  | cons c run => rw [dashed_append (List.cons_ne_nil c run) hrun hrest, collapse_name hrun]

theorem head?_dropWhile_ne {p : Char → Bool} (s : List Char) : ∀ c ∈ (s.dropWhile p).head?, p c ≠ true := by
  intro c hc
  have h := List.head?_dropWhile_not p s
  rw [Option.mem_def.mp hc] at h
  simpa using h

theorem dashed_cons_name {c : Char} (h : isNameChar c = true) (s : List Char) : dashed (c :: s) = c :: dashed s := by
  have hrun : ∀ d ∈ s.takeWhile isNameChar, isNameChar d = true := fun d hd => List.mem_takeWhile_imp hd
  have hrest := head?_dropWhile_ne (p := isNameChar) s
  calc dashed (c :: s) = dashed ((c :: s.takeWhile isNameChar) ++ s.dropWhile isNameChar) := by
        rw [List.cons_append, List.takeWhile_append_dropWhile]
    _ = c :: (s.takeWhile isNameChar ++ dashed (s.dropWhile isNameChar)) :=
        dashed_names (List.forall_mem_cons.mpr ⟨h, hrun⟩) hrest
    _ = c :: dashed s := by rw [← dashed_names hrun hrest, List.takeWhile_append_dropWhile]

theorem dashed_cons_other {c : Char} (h : isNameChar c = false) (s : List Char) :
    dashed (c :: s) = '-' :: dashed (s.dropWhile (!isNameChar ·)) := by
  have hrun : ∀ d ∈ c :: s.takeWhile (!isNameChar ·), isNameChar d = false :=
    List.forall_mem_cons.mpr ⟨h, fun d hd => by simpa using List.mem_takeWhile_imp hd⟩
  have hrest : ∀ d ∈ (s.dropWhile (!isNameChar ·)).head?, isNameChar d ≠ false := fun d hd => by
    simpa using head?_dropWhile_ne s d hd
  have hcollapse : collapse (c :: s.takeWhile (!isNameChar ·)) = ['-'] :=
    if_neg (by simp [h])
  calc dashed (c :: s) = dashed ((c :: s.takeWhile (!isNameChar ·)) ++ s.dropWhile (!isNameChar ·)) := by
        rw [List.cons_append, List.takeWhile_append_dropWhile]
    _ = '-' :: dashed (s.dropWhile (!isNameChar ·)) := by
        rw [dashed_append (List.cons_ne_nil _ _) hrun hrest, hcollapse]
        rfl

/-- Characters are replaced by runs of the text in lower case, and behind a dash without a run at its start. -/
theorem sanitize_eq (s : List Char) :
    sanitize false s = dashed (s.map lowerLetter) ∧
    sanitize true s = dashed ((s.map lowerLetter).dropWhile (!isNameChar ·)) := by
  induction s with
  | nil => exact ⟨rfl, rfl⟩
  | cons c s ih =>
    simp only [sanitize, List.map_cons, List.dropWhile_cons]
    cases h : isNameChar (lowerLetter c) with
    | true => simp [dashed_cons_name h, ih.1]
    | false => simp [dashed_cons_other h, ih.2]

/-! ### Dashes -/

/-- No two dashes stand in a row. -/
def Spaced (s : List Char) : Prop :=
  s.IsChain fun a b => a = '-' → b ≠ '-'

/-- A word of a name. -/
def IsWord (w : List Char) : Prop :=
  w ≠ [] ∧ ∀ c ∈ w, isNameChar c = true

theorem ne_dash_of_isNameChar {c : Char} (h : isNameChar c = true) : c ≠ '-' := by
  rintro rfl
  exact absurd h (by decide)

theorem sanitize_plain (afterDash : Bool) (s : List Char) :
    ∀ c ∈ sanitize afterDash s, isNameChar c = true ∨ c = '-' := by
  induction s generalizing afterDash with
  | nil => exact List.forall_mem_nil _
  | cons c s ih =>
    rw [sanitize]
    split
    · rename_i h
      exact List.forall_mem_cons.mpr ⟨.inl h, ih false⟩
    · split
      · exact ih true
      · exact List.forall_mem_cons.mpr ⟨.inr rfl, ih true⟩

theorem sanitize_head? (s : List Char) : (sanitize true s).head? ≠ some '-' := by
  induction s with
  | nil => nofun
  | cons c s ih =>
    rw [sanitize]
    split
    · rename_i h
      exact fun hc => ne_dash_of_isNameChar h (Option.some.inj hc)
    · exact ih

theorem sanitize_spaced (afterDash : Bool) (s : List Char) : Spaced (sanitize afterDash s) := by
  induction s generalizing afterDash with
  | nil => exact List.isChain_nil
  | cons c s ih =>
    rw [sanitize]
    split
    · rename_i h
      exact List.isChain_cons.mpr ⟨fun _ _ hc => absurd hc (ne_dash_of_isNameChar h), ih false⟩
    · split
      · exact ih true
      · exact List.isChain_cons.mpr ⟨fun d hd _ hdash => sanitize_head? s (hdash ▸ hd), ih true⟩

theorem dropTrailing_dash {s : List Char} (h : Spaced s) :
    (dropTrailing (· = '-') s).getLast? ≠ some '-' ∧
    (s = dropTrailing (· = '-') s ∨ s = dropTrailing (· = '-') s ++ ['-']) := by
  rcases List.eq_nil_or_concat s with rfl | ⟨s, c, rfl⟩
  · exact ⟨nofun, .inl rfl⟩
  · rw [List.concat_eq_append] at h ⊢
    rw [dropTrailing_concat]
    by_cases hc : c = '-'
    · subst hc
      have hlast : s.getLast? ≠ some '-' := fun hs => (List.isChain_append.mp h).2.2 '-' hs '-' rfl rfl rfl
      have hdrop : dropTrailing (· = '-') s = s :=
        dropTrailing_of_last fun c hc => decide_eq_false fun hdash => hlast (hdash ▸ hc)
      simp [hdrop, hlast]
    · simp [hc]

/-- Characters of names and single dashes, the last not a dash, are words behind dashes after a first one. -/
theorem exists_words {s : List Char} (hplain : ∀ c ∈ s, isNameChar c = true ∨ c = '-') (hs : Spaced s)
    (hlast : s.getLast? ≠ some '-') :
    ∃ (first : List Char) (words : List (List Char)), (∀ c ∈ first, isNameChar c = true) ∧ (∀ w ∈ words, IsWord w) ∧
      s = first ++ words.flatMap ('-' :: ·) := by
  induction s with
  | nil => exact ⟨[], [], List.forall_mem_nil _, List.forall_mem_nil _, rfl⟩
  | cons c s ih =>
    obtain ⟨hc, hplain⟩ := List.forall_mem_cons.mp hplain
    obtain ⟨hturn, hs⟩ := List.isChain_cons.mp hs
    have hrest : s.getLast? ≠ some '-' := by
      cases s with
      | nil => nofun
      | cons d s => rwa [List.getLast?_cons_cons] at hlast
    obtain ⟨first, words, hfirst, hwords, rfl⟩ := ih hplain hs hrest
    rcases hc with hc | rfl
    · exact ⟨c :: first, words, List.forall_mem_cons.mpr ⟨hc, hfirst⟩, hwords, rfl⟩
    · -- A dash ends nothing and stands before no other, so a word begins behind it.
      have hne : first ≠ [] := by
        rintro rfl
        cases words with
        | nil => exact hlast rfl
        | cons w words => exact hturn '-' rfl rfl rfl
      exact ⟨[], first :: words, List.forall_mem_nil _, List.forall_mem_cons.mpr ⟨⟨hne, hfirst⟩, hwords⟩, rfl⟩

/-! ### What is kept of a pod's names -/

/-- What a machine of a pod is named after. -/
def fullText (nspace pod : String) : List Char :=
  ("vmpod-" ++ nspace ++ "-" ++ pod).toList

/-- As much of it as there is room for in a name, with its capitals, those from A to Z, as small letters and with a dash
    for each run of characters that are neither letters from A to Z nor digits. -/
def cutText (nspace pod : String) : List Char :=
  (dashed ((fullText nspace pod).map lowerLetter)).take 54

section
variable (nspace pod : String)

theorem cutText_eq : cutText nspace pod = (sanitize false (fullText nspace pod)).take 54 := by
  rw [cutText, (sanitize_eq _).1]

theorem fullText_eq : fullText nspace pod = "vmpod-".toList ++ (nspace.toList ++ '-' :: pod.toList) := by
  simp [fullText]

theorem nameBase_eq : nameBase nspace pod = dropTrailing (· = '-') (cutText nspace pod) := by
  rw [cutText_eq, fullText_eq, nameBase, List.append_assoc]
  rfl

theorem cutText_takeWhile : (cutText nspace pod).takeWhile isNameChar = "vmpod".toList := by
  rw [cutText_eq, fullText_eq]
  rfl

theorem cutText_plain : ∀ c ∈ cutText nspace pod, isNameChar c = true ∨ c = '-' := fun c hc => by
  rw [cutText_eq] at hc
  exact sanitize_plain false _ c (List.mem_of_mem_take hc)

theorem cutText_spaced : Spaced (cutText nspace pod) := by
  rw [cutText_eq]
  exact (sanitize_spaced false _).take 54

theorem nameBase_cut : (nameBase nspace pod).getLast? ≠ some '-' ∧
    (cutText nspace pod = nameBase nspace pod ∨ cutText nspace pod = nameBase nspace pod ++ ['-']) := by
  rw [nameBase_eq]
  exact dropTrailing_dash (cutText_spaced nspace pod)

theorem nameBase_begins : nameBase nspace pod <+: cutText nspace pod :=
  (nameBase_cut nspace pod).2.elim (fun h => ⟨[], (List.append_nil _).trans h.symm⟩) fun h => ⟨['-'], h.symm⟩

theorem nameBase_plain : ∀ c ∈ nameBase nspace pod, isNameChar c = true ∨ c = '-' := fun c hc =>
  cutText_plain nspace pod c ((nameBase_begins nspace pod).subset hc)

theorem nameBase_spaced : Spaced (nameBase nspace pod) := by
  obtain ⟨rest, hrest⟩ := nameBase_begins nspace pod
  have h := cutText_spaced nspace pod
  rw [← hrest] at h
  exact h.left_of_append

/-- What is kept are words behind dashes after the first one. -/
theorem nameBase_words : ∃ words : List (List Char), (∀ w ∈ words, IsWord w) ∧
    nameBase nspace pod = "vmpod".toList ++ words.flatMap ('-' :: ·) := by
  obtain ⟨hlast, hcut⟩ := nameBase_cut nspace pod
  obtain ⟨first, words, hfirst, hwords, hbase⟩ :=
    exists_words (nameBase_plain nspace pod) (nameBase_spaced nspace pod) hlast
  -- The first word ends at the first dash, with or without a dash behind all words.
  have hfirst : first = "vmpod".toList := by
    rw [← cutText_takeWhile nspace pod]
    rcases hcut with hcut | hcut
    · have hstop : (words.flatMap ('-' :: ·)).takeWhile isNameChar = [] := by
        cases words <;> rfl
      rw [hcut, hbase, List.takeWhile_append_of_pos hfirst, hstop, List.append_nil]
    · have hstop : (words.flatMap ('-' :: ·) ++ ['-']).takeWhile isNameChar = [] := by
        cases words <;> rfl
      rw [hcut, hbase, List.append_assoc, List.takeWhile_append_of_pos hfirst, hstop, List.append_nil]
  exact ⟨words, hwords, hfirst ▸ hbase⟩

end

/-! ### Digits -/

theorem mem_hexPadded {width n : Nat} {c : Char} (h : c ∈ hexPadded width n) : ∃ d < 16, c = hexDigit d := by
  induction width generalizing n with
  | zero => exact absurd h List.not_mem_nil
  | succ width ih =>
    rcases List.mem_append.mp h with h | h
    · exact ih h
    · exact ⟨n % 16, Nat.mod_lt n (by decide), List.mem_singleton.mp h⟩

/-- A digit of base sixteen, in lower case. -/
def IsHexDigit (c : Char) : Prop :=
  ('0' ≤ c ∧ c ≤ '9') ∨ ('a' ≤ c ∧ c ≤ 'f')

instance : DecidablePred IsHexDigit := fun _ => inferInstanceAs (Decidable (_ ∨ _))

theorem isHexDigit_hexDigit : ∀ d < 16, IsHexDigit (hexDigit d) := by
  decide

theorem isHexDigit_suffix (n : UInt32) : ∀ c ∈ suffix n, IsHexDigit c := by
  intro c hc
  obtain ⟨d, hd, rfl⟩ := mem_hexPadded hc
  exact isHexDigit_hexDigit d hd

theorem isNameChar_of_isHexDigit {c : Char} (h : IsHexDigit c) : isNameChar c = true := by
  have hf : ∀ d : Char, d ≤ 'f' → d ≤ 'z' := fun d hd => Char.le_trans hd (by decide)
  simp only [isNameChar, Bool.or_eq_true, Bool.and_eq_true, decide_eq_true_eq]
  exact h.elim .inr fun h => .inl ⟨h.1, hf c h.2⟩

/-! ### Legal names -/

theorem utf8Size_of_plain {c : Char} (h : ('a' ≤ c ∧ c ≤ 'z') ∨ ('0' ≤ c ∧ c ≤ '9') ∨ c = '-') : c.utf8Size = 1 := by
  have hle (d : Char) (hc : c ≤ d) (hd : d.val ≤ 127) : c.utf8Size = 1 :=
    Char.utf8Size_eq_one_iff.mpr (UInt32.le_trans hc hd)
  rcases h with h | h | rfl
  · exact hle 'z' h.2 (by decide)
  · exact hle '9' h.2 (by decide)
  · rfl

theorem utf8Len_eq_length {s : List Char} (h : ∀ c ∈ s, c.utf8Size = 1) : String.utf8Len s = s.length := by
  induction s with
  | nil => rfl
  | cons c s ih =>
    obtain ⟨hc, hs⟩ := List.forall_mem_cons.mp h
    rw [String.utf8Len_cons, ih hs, hc, List.length_cons]

/-- Characters that end something in a tag of EC2 or on a command line. -/
def delimiters : List Char :=
  ":=,;[]()\x7b\x7d<>|&$#*?!~\"'\\ \t\r\n".toList

theorem not_plain_of_mem_delimiters : ∀ c ∈ delimiters, ¬(isNameChar c = true ∨ c = '-') := by
  have h : delimiters.all (fun c => !(isNameChar c || c == '-')) = true := by decide
  simpa using h

/-- What the name of a machine for a pod is. -/
structure LegalName (nspace pod : String) (n : UInt32) (name : String) : Prop where
  bytes : name.utf8ByteSize ≤ 63
  form : ∃ (words : List (List Char)) (digits : List Char), (∀ w ∈ words, IsWord w) ∧ digits.length = 8 ∧
    (∀ c ∈ digits, IsHexDigit c) ∧ name.toList = "vmpod".toList ++ words.flatMap ('-' :: ·) ++ '-' :: digits
  plain : ∀ c ∈ name.toList, ('a' ≤ c ∧ c ≤ 'z') ∨ ('0' ≤ c ∧ c ≤ '9') ∨ c = '-'
  letter : name.toList.head? = some 'v'
  spaced : Spaced name.toList
  ended : name.toList.getLast? ≠ some '-'
  /-- The digits stand behind what is kept of the pod's names, cut to its length, without a dash at its end. -/
  base : ∃ base, name.toList = base ++ '-' :: suffix n ∧ base.getLast? ≠ some '-' ∧
    (cutText nspace pod = base ∨ cutText nspace pod = base ++ ['-'])
  undelimited : ∀ c ∈ delimiters, c ∉ name.toList

section
variable (nspace pod : String) (n : UInt32)

theorem toList_name : (name nspace pod n).toList = nameBase nspace pod ++ '-' :: suffix n :=
  String.toList_ofList

theorem nameBase_length_le : (nameBase nspace pod).length ≤ 54 :=
  Nat.le_trans (nameBase_begins nspace pod).length_le (List.length_take_le ..)

theorem name_plain : ∀ c ∈ (name nspace pod n).toList, isNameChar c = true ∨ c = '-' := by
  rw [toList_name]
  refine List.forall_mem_append.mpr ⟨nameBase_plain nspace pod, ?_⟩
  exact List.forall_mem_cons.mpr ⟨.inr rfl, fun c hc => .inl (isNameChar_of_isHexDigit (isHexDigit_suffix n c hc))⟩

theorem ne_dash_of_mem_suffix {n : UInt32} {c : Char} (h : c ∈ suffix n) : c ≠ '-' :=
  ne_dash_of_isNameChar (isNameChar_of_isHexDigit (isHexDigit_suffix n c h))

theorem suffix_spaced : Spaced ('-' :: suffix n) := by
  have hpairs : (suffix n).Pairwise fun a b => a = '-' → b ≠ '-' :=
    List.pairwise_of_forall_mem_list fun a _ b hb _ => ne_dash_of_mem_suffix hb
  exact List.isChain_cons.mpr ⟨fun c hc _ => ne_dash_of_mem_suffix (List.mem_of_mem_head? hc), hpairs.isChain⟩

theorem name_spaced : Spaced (name nspace pod n).toList := by
  rw [toList_name]
  refine List.isChain_append.mpr ⟨nameBase_spaced nspace pod, suffix_spaced n, ?_⟩
  rintro a ha b - rfl
  exact absurd ha (nameBase_cut nspace pod).1

end

/-- Whatever a pod is called, the name of its machine is legal. -/
theorem forPod_legal (nspace pod : String) (image : Option String) (n : UInt32) :
    LegalName nspace pod n (Spec.forPod nspace pod image n).name := by
  have hlist := toList_name nspace pod n
  have hplain : ∀ c ∈ (name nspace pod n).toList, ('a' ≤ c ∧ c ≤ 'z') ∨ ('0' ≤ c ∧ c ≤ '9') ∨ c = '-' := fun c hc => by
    simpa [isNameChar, or_assoc] using name_plain nspace pod n c hc
  have hdigits : (suffix n).length = 8 := hexPadded_length 8 n.toNat
  obtain ⟨words, hwords, hbase⟩ := nameBase_words nspace pod
  exact {
    bytes := by
      have hascii : ∀ c ∈ (name nspace pod n).toList, c.utf8Size = 1 := fun c hc =>
        utf8Size_of_plain (hplain c hc)
      have hlength := nameBase_length_le nspace pod
      show (name nspace pod n).utf8ByteSize ≤ 63
      rw [← String.ofList_toList (s := name nspace pod n), String.utf8ByteSize_ofList, utf8Len_eq_length hascii, hlist,
        List.length_append, List.length_cons, hdigits]
      omega
    form := ⟨words, suffix n, hwords, hdigits, isHexDigit_suffix n, hbase ▸ hlist⟩
    plain := hplain
    letter := by
      show (name nspace pod n).toList.head? = _
      rw [hlist, hbase]
      rfl
    spaced := name_spaced nspace pod n
    ended := fun hlast => by
      have hne : suffix n ≠ [] := List.ne_nil_of_length_pos (by omega)
      change (name nspace pod n).toList.getLast? = _ at hlast
      rw [hlist, List.append_cons, List.getLast?_append_of_ne_nil _ hne] at hlast
      exact ne_dash_of_mem_suffix (List.mem_of_getLast? hlast) rfl
    base := ⟨nameBase nspace pod, hlist, nameBase_cut nspace pod⟩
    undelimited := fun c hc hname => not_plain_of_mem_delimiters c hc (name_plain nspace pod n c hname) }

/-- Capitals and other characters, and a cut at a dash. -/
example : name "Kube/System" "Core..DNS_é7f9c-on-a-node-with-a-long-name-x" 0xC0FFEE =
    "vmpod-kube-system-core-dns-7f9c-on-a-node-with-a-long-00c0ffee" := by
  decide

end Machine
end PodMachines
