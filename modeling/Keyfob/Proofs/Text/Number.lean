import Keyfob.Text.Number

/-!
# Reading back numbers that were written

A number is written with digits and a minus sign only, so it is told apart from whatever stands
around it, and read back as itself as long as it is one that can be read at all.
The number at the front of any text is told as a relation as well (`Counts`), of any size; what is
read is that number, as far as it can be read (`leadingInteger_of_counts`).
-/
namespace Keyfob.Text

/-- The digits are ten neighbouring characters. -/
theorem isDigit_iff (c : Char) : isDigit c = true ↔ 48 ≤ c.toNat ∧ c.toNat ≤ 57 := by
  unfold isDigit
  rw [Bool.and_eq_true, decide_eq_true_eq, decide_eq_true_eq]
  exact Iff.rfl

/-- Whether a character may stand in a written number. -/
def isNumeral (c : Char) : Bool := isDigit c || c == '-'

/-- A natural number is written in digits. -/
theorem isDigit_of_mem_ofNat {n : Nat} {c : Char} (listed : c ∈ ofNat n) : isDigit c = true := by
  have digit : c.isDigit = true := Nat.isDigit_of_mem_toDigits (by decide) (by decide) listed
  rw [isDigit_iff]
  unfold Char.isDigit at digit
  rw [Bool.and_eq_true, decide_eq_true_eq, decide_eq_true_eq, ge_iff_le,
    UInt32.le_iff_toNat_le, UInt32.le_iff_toNat_le] at digit
  exact digit

/-- An integer is written in digits and a minus sign. -/
theorem isNumeral_of_mem_ofInt {n : Int} {c : Char} (listed : c ∈ ofInt n) :
    isNumeral c = true := by
  unfold isNumeral
  cases n with
  | ofNat n => rw [isDigit_of_mem_ofNat listed, Bool.true_or]
  | negSucc n =>
    cases listed with
    | head => rfl
    | tail _ later => rw [isDigit_of_mem_ofNat later, Bool.true_or]

/-- No blank is a digit. -/
theorem isBlank_of_isDigit {c : Char} (digit : isDigit c = true) : isBlank c = false := by
  rw [isDigit_iff] at digit
  unfold isBlank
  simp only [Bool.or_eq_false_iff, Bool.and_eq_false_iff, decide_eq_false_iff_not,
    beq_eq_false_iff_ne]
  omega

/-- No blank stands in a written number. -/
theorem isBlank_of_isNumeral {c : Char} (numeral : isNumeral c = true) : isBlank c = false := by
  unfold isNumeral at numeral
  cases (Bool.or_eq_true _ _).mp numeral with
  | inl digit => exact isBlank_of_isDigit digit
  | inr minus =>
    rw [eq_of_beq minus]
    rfl

/-- A character that is no numeral is none of those of a written number. -/
theorem ne_of_isNumeral {c sign : Char} (numeral : isNumeral c = true)
    (other : isNumeral sign = false) : c ≠ sign := by
  intro same
  rw [same, other] at numeral
  exact Bool.false_ne_true numeral

/-- A text that no blank stands in is as it is without the blanks around it. -/
theorem trim_of_noBlank {t : Text} (noBlank : ∀ c ∈ t, isBlank c = false) : trim t = t := by
  have kept (s : Text) (solid : ∀ c ∈ s, isBlank c = false) : s.dropWhile isBlank = s := by
    cases s with
    | nil => rfl
    | cons c cs =>
      rw [List.dropWhile_cons, solid c List.mem_cons_self]
      rfl
  unfold trim trimEnd trimStart
  rw [kept t noBlank, kept t.reverse, List.reverse_reverse]
  intro c listed
  exact noBlank c (List.mem_reverse.mp listed)

/-- The value of the digits of a number is that number. -/
theorem digitsValue_ofNat (n : Nat) : digitsValue (ofNat n) = n := Nat.ofDigitChars_ten_toDigits

/-- A run of digits is taken as a whole. -/
theorem takeWhile_isDigit_ofNat (n : Nat) : (ofNat n).takeWhile isDigit = ofNat n := by
  have taken (s : Text) (digits : ∀ c ∈ s, isDigit c = true) : s.takeWhile isDigit = s := by
    induction s with
    | nil => rfl
    | cons c cs ih =>
      rw [List.takeWhile_cons, if_pos (digits c List.mem_cons_self),
        ih fun d later => digits d (List.mem_cons_of_mem _ later)]
  exact taken (ofNat n) fun c listed => isDigit_of_mem_ofNat listed

/-- The digits of a number have a first one. -/
theorem ofNat_eq_cons (n : Nat) : ∃ c cs, ofNat n = c :: cs ∧ isDigit c = true := by
  cases written : ofNat n with
  | nil => exact absurd written Nat.toDigits_ne_nil
  | cons c cs =>
    refine ⟨c, cs, rfl, ?_⟩
    apply isDigit_of_mem_ofNat (n := n)
    rw [written]
    exact List.mem_cons_self

/-- A natural number that is not too large is read back. -/
theorem leadingInteger_ofNat {n : Nat} (bounded : n ≤ integerBound) :
    leadingInteger (ofNat n) = n := by
  have solid : trim (ofNat n) = ofNat n :=
    trim_of_noBlank fun c listed => isBlank_of_isDigit (isDigit_of_mem_ofNat listed)
  obtain ⟨c, cs, written, digit⟩ := ofNat_eq_cons n
  have value :
      ((min (digitsValue ((ofNat n).takeWhile isDigit)) integerBound : Nat) : Int) = n := by
    rw [takeWhile_isDigit_ofNat, digitsValue_ofNat, Nat.min_eq_left bounded]
  unfold leadingInteger
  rw [solid]
  simp only
  split
  · next cs' signed =>
    rw [written, List.cons.injEq] at signed
    rw [signed.1] at digit
    exact absurd digit (by decide)
  · next cs' signed =>
    rw [written, List.cons.injEq] at signed
    rw [signed.1] at digit
    exact absurd digit (by decide)
  · exact value

/-- An integer whose magnitude is not too large is read back. -/
theorem leadingInteger_ofInt {n : Int} (bounded : n.natAbs ≤ integerBound) :
    leadingInteger (ofInt n) = n := by
  cases n with
  | ofNat n => exact leadingInteger_ofNat bounded
  | negSucc n =>
    have solid : trim (ofInt (.negSucc n)) = ofInt (.negSucc n) :=
      trim_of_noBlank fun c listed => isBlank_of_isNumeral (isNumeral_of_mem_ofInt listed)
    have small : n + 1 ≤ integerBound := bounded
    have value : min (digitsValue ((ofNat (n + 1)).takeWhile isDigit)) integerBound = n + 1 := by
      rw [takeWhile_isDigit_ofNat, digitsValue_ofNat, Nat.min_eq_left small]
    unfold leadingInteger
    rw [solid]
    simp only [ofInt]
    rw [value]
    rfl

/-- A text is cut at the first of a character that does not stand in its front. -/
theorem cutFirst?_append {sep : Char} {front : Text} (rest : Text)
    (without : ∀ c ∈ front, c ≠ sep) :
    cutFirst? sep (front ++ sep :: rest) = some (front, rest) := by
  induction front with
  | nil =>
    unfold cutFirst?
    exact if_pos rfl
  | cons c cs ih =>
    have apart := without c List.mem_cons_self
    have later := ih fun d listed => without d (List.mem_cons_of_mem _ listed)
    rw [List.cons_append, cutFirst?, if_neg apart, later]
    rfl

/-- A text is cut at a character that it holds. -/
theorem eq_of_cutFirst? {sep : Char} {t front rest : Text}
    (cut : cutFirst? sep t = some (front, rest)) : t = front ++ sep :: rest := by
  induction t generalizing front with
  | nil => cases cut
  | cons c cs ih =>
    rw [cutFirst?] at cut
    split at cut
    · next same =>
      cases cut
      rw [same]
      rfl
    · obtain ⟨parts, later, made⟩ := Option.map_eq_some_iff.mp cut
      cases made
      rw [ih later]
      rfl

/-- A text is not cut at a character that it does not hold. -/
theorem cutFirst?_of_notMem {sep : Char} {t : Text} (without : sep ∉ t) :
    cutFirst? sep t = none := by
  cases cut : cutFirst? sep t with
  | none => rfl
  | some parts =>
    have whole := eq_of_cutFirst? cut
    have inside : sep ∈ t := by
      rw [whole]
      exact List.mem_append_right _ List.mem_cons_self
    exact absurd inside without

/-- A text is cut at the last of a character that does not stand in what follows it. -/
theorem cutLast?_append {sep : Char} {rest : Text} (front : Text) (without : sep ∉ rest) :
    cutLast? sep (front ++ sep :: rest) = some (front, rest) := by
  have apart : ∀ c ∈ rest.reverse, c ≠ sep := by
    rintro c listed rfl
    exact without (List.mem_reverse.mp listed)
  have turned : (front ++ sep :: rest).reverse = rest.reverse ++ sep :: front.reverse := by
    rw [List.reverse_append, List.reverse_cons, List.append_assoc, List.singleton_append]
  rw [cutLast?, turned, cutFirst?_append front.reverse apart, Option.map_some]
  show some (front.reverse.reverse, rest.reverse.reverse) = some (front, rest)
  rw [List.reverse_reverse, List.reverse_reverse]

/-- A text has no last of a character that it does not hold. -/
theorem cutLast?_of_notMem {sep : Char} {t : Text} (without : sep ∉ t) : cutLast? sep t = none := by
  have turned : sep ∉ t.reverse := fun inside => without (List.mem_reverse.mp inside)
  rw [cutLast?, cutFirst?_of_notMem turned, Option.map_none]

/-! ## The number at the front of a text -/

/-- A text begins with the digits of a number, as many as there are. -/
def Leads (t : Text) (n : Nat) : Prop :=
  ∃ digits rest, t = digits ++ rest ∧ (∀ c ∈ digits, isDigit c = true) ∧
    (∀ c ∈ rest.head?, isDigit c = false) ∧ n = digitsValue digits

/-- The number at the front of a text, of any size: one sign or none, and digits or none. -/
inductive Counts : Text → Int → Prop where
  /-- The number after a plus sign. -/
  | plus {t : Text} {n : Nat} (leads : Leads t n) : Counts ('+' :: t) n
  /-- The number after a minus sign. -/
  | minus {t : Text} {n : Nat} (leads : Leads t n) : Counts ('-' :: t) (-n)
  /-- The number without a sign. -/
  | bare {t : Text} {n : Nat} (leads : Leads t n) (noPlus : t.head? ≠ some '+')
    (noMinus : t.head? ≠ some '-') : Counts t n

/-- The number is the value of the longest run of digits. -/
theorem leads_iff {t : Text} {n : Nat} : Leads t n ↔ n = digitsValue (t.takeWhile isDigit) := by
  constructor
  · rintro ⟨digits, rest, rfl, all, ends, rfl⟩
    have run : (digits ++ rest).takeWhile isDigit = digits := by
      rw [List.takeWhile_append_of_pos all]
      cases rest with
      | nil => exact List.append_nil digits
      | cons c cs =>
        have stops : ¬isDigit c = true := Bool.eq_false_iff.mp (ends c rfl)
        rw [List.takeWhile_cons_of_neg stops, List.append_nil]
    rw [run]
  · rintro rfl
    refine ⟨t.takeWhile isDigit, t.dropWhile isDigit, List.takeWhile_append_dropWhile.symm,
      List.all_eq_true.mp List.all_takeWhile, fun c first => ?_, rfl⟩
    have stops := List.head?_dropWhile_not isDigit t
    rw [Option.mem_def.mp first] at stops
    exact stops

/-- Every text has a number at its front. -/
theorem exists_counts (t : Text) : ∃ n, Counts t n := by
  by_cases signed : t.head? = some '+'
  · obtain ⟨digits, rfl⟩ := List.head?_eq_some_iff.mp signed
    exact ⟨_, .plus (leads_iff.mpr rfl)⟩
  · by_cases negative : t.head? = some '-'
    · obtain ⟨digits, rfl⟩ := List.head?_eq_some_iff.mp negative
      exact ⟨_, .minus (leads_iff.mpr rfl)⟩
    · exact ⟨_, .bare (leads_iff.mpr rfl) signed negative⟩

/-- The integer that is read is the number at the front of the text without its blanks, as far as
its magnitude is not too large. -/
theorem leadingInteger_of_counts {t : Text} {n : Int} (counts : Counts t.trim n) :
    leadingInteger t = clamp (-integerBound) integerBound n := by
  unfold leadingInteger
  generalize t.trim = trimmed at counts
  cases counts with
  | plus leads =>
    rw [leads_iff.mp leads]
    simp only [clamp]
    omega
  | minus leads =>
    rw [leads_iff.mp leads]
    simp only [clamp]
    omega
  | bare leads noPlus noMinus =>
    rw [leads_iff.mp leads]
    simp only [clamp]
    split
    · next digits => exact absurd rfl noMinus
    · next digits => exact absurd rfl noPlus
    · omega

/-- A value that is cut down lies between the bounds. -/
theorem clamp_bounds {low high : Int} (ordered : low ≤ high) (value : Int) :
    low ≤ clamp low high value ∧ clamp low high value ≤ high := by
  unfold clamp
  omega

/-- A value between the bounds is not cut down. -/
theorem clamp_of_bounds {low high value : Int} (above : low ≤ value) (below : value ≤ high) :
    clamp low high value = value := by
  unfold clamp
  omega

/-- A value is cut down once. -/
theorem clamp_clamp {low high : Int} (ordered : low ≤ high) (value : Int) :
    clamp low high (clamp low high value) = clamp low high value := by
  obtain ⟨above, below⟩ := clamp_bounds ordered value
  exact clamp_of_bounds above below

end Keyfob.Text
