import Keyfob.Macro.Scanner

/-!
# What fits between braces

A directive ends at the first pair of closing braces inside it. A text fits between braces
(`Text.fitsBraces`) when the pair that is written after it is the first: no two closing braces
stand in it, and none at its end. The scanner reads such a text back as it was written, and what
the scanner reads between braces always fits there.
-/
namespace Keyfob

/-- Whether the first pair of closing braces after a text begins right at its end. -/
def Text.fitsBraces : Text → Bool
  | [] => true
  | [c] => c ≠ '\x7d'
  | c :: d :: rest => !(c = '\x7d' && d = '\x7d') && fitsBraces (d :: rest)

namespace Text

/-- What follows the first character of a text that fits does too. -/
theorem fitsBraces_tail {c : Char} {cs : Text} (fits : fitsBraces (c :: cs) = true) :
    fitsBraces cs = true := by
  cases cs with
  | nil => rfl
  | cons d rest =>
    rw [fitsBraces, Bool.and_eq_true] at fits
    exact fits.2

/-- Two closing braces do not stand at the front of a text that fits. -/
theorem ne_of_fitsBraces {c : Char} {cs : Text} (fits : fitsBraces ('\x7d' :: c :: cs) = true) :
    c ≠ '\x7d' := by
  rw [fitsBraces, Bool.and_eq_true] at fits
  intro same
  rw [same] at fits
  exact absurd fits.1 (by decide)

/-- A text that fits does so with another character before it, unless both are closing
braces. -/
theorem fitsBraces_cons {c : Char} {cs : Text} (fits : fitsBraces cs = true) (apart : c ≠ '\x7d') :
    fitsBraces (c :: cs) = true := by
  cases cs with
  | nil => exact decide_eq_true apart
  | cons d rest =>
    rw [fitsBraces, Bool.and_eq_true]
    refine ⟨?_, fits⟩
    rw [decide_eq_false apart]
    rfl

/-- A text without closing braces fits. -/
theorem fitsBraces_of_noBrace {t : Text} (noBrace : ∀ c ∈ t, c ≠ '\x7d') :
    fitsBraces t = true := by
  induction t with
  | nil => rfl
  | cons c cs ih =>
    have later := ih fun d listed => noBrace d (List.mem_cons_of_mem _ listed)
    exact fitsBraces_cons later (noBrace c List.mem_cons_self)

/-- A text that fits does so with a character after it that is no closing brace. -/
theorem fitsBraces_append {t : Text} (fits : fitsBraces t = true) {c : Char} (apart : c ≠ '\x7d') :
    fitsBraces (t ++ [c]) = true := by
  induction t with
  | nil => exact decide_eq_true apart
  | cons d ds ih =>
    have later := ih (fitsBraces_tail fits)
    by_cases brace : d = '\x7d'
    · subst brace
      cases ds with
      | nil =>
        rw [List.cons_append, List.nil_append, fitsBraces, decide_eq_false apart]
        exact decide_eq_true apart
      | cons e es =>
        have inner := ne_of_fitsBraces fits
        rw [List.cons_append, List.cons_append, fitsBraces, decide_eq_false inner]
        exact later
    · exact fitsBraces_cons later brace

/-- A text that fits does so with a closing brace after it and another character. -/
theorem fitsBraces_append_brace {t : Text} (fits : fitsBraces t = true) {c : Char}
    (apart : c ≠ '\x7d') : fitsBraces (t ++ ['\x7d', c]) = true := by
  induction t with
  | nil =>
    rw [List.nil_append, fitsBraces, decide_eq_false apart]
    exact decide_eq_true apart
  | cons d ds ih =>
    have later := ih (fitsBraces_tail fits)
    by_cases brace : d = '\x7d'
    · subst brace
      cases ds with
      | nil => exact absurd fits (by decide)
      | cons e es =>
        have inner := ne_of_fitsBraces fits
        rw [List.cons_append, List.cons_append, fitsBraces, decide_eq_false inner]
        exact later
    · exact fitsBraces_cons later brace

end Text

namespace Scanner

/-- Feeding two texts in turn is feeding them as one. -/
theorem feedAll_append (scanner : Scanner) (first second : Text) :
    scanner.feedAll (first ++ second) =
      (((scanner.feedAll first).1.feedAll second).1,
        (scanner.feedAll first).2 ++ ((scanner.feedAll first).1.feedAll second).2) := by
  induction first generalizing scanner with
  | nil => rfl
  | cons c cs ih => simp only [List.cons_append, feedAll, ih, List.append_assoc]

/-- Inside a directive, a text that fits is read up to the braces after it. Where one closing
brace has been seen already, the text and that brace must fit. -/
theorem feedAll_inside (t : Text) (latest : Text) :
    (t.fitsBraces = true → (inside latest).feedAll (t ++ ['\x7d', '\x7d']) =
      (outside, [.directive (latest.reverse ++ t)])) ∧
    (Text.fitsBraces ('\x7d' :: t) = true →
      (closing latest).feedAll (t ++ ['\x7d', '\x7d']) =
        (outside, [.directive (latest.reverse ++ '\x7d' :: t)])) := by
  induction t generalizing latest with
  | nil =>
    constructor
    · intro _
      rw [List.append_nil]
      rfl
    · intro fits
      exact absurd fits (by decide)
  | cons c cs ih =>
    constructor
    · intro fits
      by_cases brace : c = '\x7d'
      · subst brace
        have step := (ih latest).2 fits
        rw [List.cons_append, feedAll, feed, if_pos rfl]
        exact step
      · have step := (ih (c :: latest)).1 (Text.fitsBraces_tail fits)
        rw [List.cons_append, feedAll, feed, if_neg brace]
        simp only [step, List.reverse_cons, List.append_assoc]
        rfl
    · intro fits
      have brace := Text.ne_of_fitsBraces fits
      have step := (ih (c :: '\x7d' :: latest)).1 (Text.fitsBraces_tail (Text.fitsBraces_tail fits))
      rw [List.cons_append, feedAll, feed, if_neg brace]
      simp only [step, List.reverse_cons, List.append_assoc]
      rfl

/-- A text that fits between braces is read from between them. -/
theorem feedAll_written {body : Text} (fits : body.fitsBraces = true) :
    outside.feedAll (Segment.directive body).written = (outside, [.directive body]) :=
  (feedAll_inside body []).1 fits

/-- What a scanner has read of a directive fits between braces. -/
def Fitting : Scanner → Prop
  | inside latest => Text.fitsBraces latest.reverse = true
  | closing latest => Text.fitsBraces latest.reverse = true
  | _ => True

/-- What is read goes on to fit, and a directive that is completed does. -/
theorem fitting_feed {scanner : Scanner} (fitting : scanner.Fitting) (c : Char) :
    (scanner.feed c).1.Fitting ∧
      ∀ body, .directive body ∈ (scanner.feed c).2 → body.fitsBraces = true := by
  cases scanner with
  | outside =>
    simp only [feed]
    split
    · exact ⟨trivial, nofun⟩
    · exact ⟨trivial, by simp⟩
  | opened =>
    simp only [feed]
    split
    · exact ⟨rfl, nofun⟩
    · exact ⟨trivial, by simp⟩
  | inside latest =>
    simp only [feed]
    split
    · exact ⟨fitting, nofun⟩
    · next apart =>
      refine ⟨?_, nofun⟩
      simp only [Fitting, List.reverse_cons]
      exact Text.fitsBraces_append fitting apart
  | closing latest =>
    simp only [feed]
    split
    · refine ⟨trivial, ?_⟩
      intro body listed
      cases List.mem_singleton.mp listed
      exact fitting
    · next apart =>
      refine ⟨?_, nofun⟩
      simp only [Fitting, List.reverse_cons, List.append_assoc]
      exact Text.fitsBraces_append_brace fitting apart

/-- Every directive that a scanner reads fits between braces. -/
theorem fits_of_mem_feedAll {scanner : Scanner} (fitting : scanner.Fitting) {t body : Text}
    (listed : .directive body ∈ (scanner.feedAll t).2) : body.fitsBraces = true := by
  induction t generalizing scanner with
  | nil => cases listed
  | cons c cs ih =>
    obtain ⟨next, completed⟩ := fitting_feed fitting c
    rw [feedAll] at listed
    cases List.mem_append.mp listed with
    | inl now => exact completed body now
    | inr later => exact ih next later

end Scanner

/-- Every directive of a text fits between braces. -/
theorem Piece.fits_of_mem_ofText {t body : Text} (listed : .directive body ∈ Piece.ofText t) :
    body.fitsBraces = true := by
  unfold ofText at listed
  cases List.mem_append.mp listed with
  | inl read =>
    have start : Scanner.outside.Fitting := trivial
    exact Scanner.fits_of_mem_feedAll start read
  | inr left =>
    obtain ⟨c, _, literal⟩ := List.mem_map.mp left
    cases literal

end Keyfob
