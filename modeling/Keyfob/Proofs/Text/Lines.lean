import Keyfob.Text.Basic

/-!
# The lines of a text

A text without a line feed is one line, and a line feed ends a line and the carriage return that
stands before it.
-/
namespace Keyfob.Text

/-- A text without a line feed is one line. -/
theorem lines_of_notMem {t : Text} (nonempty : t ≠ []) (oneLine : '\n' ∉ t) : t.lines = [t] := by
  induction t with
  | nil => exact absurd rfl nonempty
  | cons c cs ih =>
    obtain ⟨first, later⟩ := List.ne_and_not_mem_of_not_mem_cons oneLine
    have unbroken : ∀ rest, c = '\r' → cs = '\n' :: rest → False := by
      rintro rest - rfl
      exact later List.mem_cons_self
    rw [lines.eq_4 _ _ first.symm unbroken]
    cases cs with
    | nil => rfl
    | cons d ds => rw [ih (List.cons_ne_nil d ds) later]

/-- A text without the carriage return at its end, if there is one. -/
def withoutReturn (t : Text) : Text := if t.getLast? = some '\r' then t.dropLast else t

/-- Only the end of a text matters for that. -/
theorem withoutReturn_cons (c : Char) {t : Text} (more : t ≠ []) :
    withoutReturn (c :: t) = c :: withoutReturn t := by
  obtain ⟨d, ds, rfl⟩ := List.exists_cons_of_ne_nil more
  unfold withoutReturn
  rw [List.getLast?_cons_cons]
  split
  · rfl
  · rfl

/-- What stands before the first line feed is the first line, but for a carriage return at its
end. -/
theorem lines_append_feed {t : Text} (oneLine : '\n' ∉ t) (rest : Text) :
    lines (t ++ '\n' :: rest) = t.withoutReturn :: lines rest := by
  induction t with
  | nil => rfl
  | cons c cs ih =>
    obtain ⟨first, later⟩ := List.ne_and_not_mem_of_not_mem_cons oneLine
    have whole := ih later
    by_cases lone : c = '\r' ∧ cs = []
    · obtain ⟨rfl, rfl⟩ := lone
      rfl
    have unbroken : ∀ rest', c = '\r' → cs ++ '\n' :: rest = '\n' :: rest' → False := by
      intro rest' isReturn split
      cases cs with
      | nil => exact lone ⟨isReturn, rfl⟩
      | cons d ds =>
        obtain ⟨rfl, -⟩ := List.cons.inj split
        exact later List.mem_cons_self
    rw [List.cons_append, lines.eq_4 _ _ first.symm unbroken, whole]
    cases cs with
    | nil =>
      have other : c ≠ '\r' := fun isReturn => lone ⟨isReturn, rfl⟩
      have kept : withoutReturn [c] = [c] := if_neg fun last => other (Option.some.inj last)
      rw [kept]
      rfl
    | cons d ds =>
      rw [withoutReturn_cons c (List.cons_ne_nil d ds)]

/-- Lines that are written each with a line feed are read back, but for carriage returns at their
ends. -/
theorem lines_flatMap_feed {texts : List Text} (oneLine : ∀ t ∈ texts, '\n' ∉ t) :
    lines (texts.flatMap (· ++ ['\n'])) = texts.map withoutReturn := by
  induction texts with
  | nil => rfl
  | cons t texts ih =>
    obtain ⟨first, later⟩ := List.forall_mem_cons.mp oneLine
    rw [List.flatMap_cons, List.append_assoc, List.singleton_append, lines_append_feed first,
      ih later, List.map_cons]

end Keyfob.Text
