/-!
# Errors and crashes

What goes wrong is an error or a crash. An error is handed to the caller, which may handle it and
go on. A crash is handed to nobody: the program stops where it is, and what was to come next never
comes. A computation that can do both ends with a value or with a fault, so that whatever recovers
from errors is never given a crash.
-/
namespace Keyfob

/-- What makes the program stop. -/
inductive Crash where
  /-- A counter would leave the range of 32-bit numbers. -/
  | overflow
  /-- Names that were to be sorted are in no order. -/
  | disorder
deriving DecidableEq

/-- Why a computation did not come to its end. -/
inductive Fault (ε : Type) where
  /-- It failed with an error. -/
  | error (error : ε)
  /-- The program stopped in its middle. -/
  | crash (crash : Crash)
deriving DecidableEq

namespace Fault

/-- The fault with its error, if it is one, made another. -/
def map {ε ζ : Type} (f : ε → ζ) : Fault ε → Fault ζ
  | .error e => .error (f e)
  | .crash c => .crash c

/-- The crash that a computation ended with, where it did. An error is none. -/
def survival {ε α : Type} : Except (Fault ε) α → Except Crash Unit
  | .error (.crash c) => .error c
  | _ => .ok ()

/-- The error that a computation failed with, where it did. A crash is none. -/
def answer {ε α : Type} : Except (Fault ε) α → Except ε Unit
  | .error (.error e) => .error e
  | _ => .ok ()

section Results

variable {ε ζ α β : Type}

/-- Another value makes no other answer. -/
@[simp]
theorem answer_map (f : α → β) (result : Except (Fault ε) α) :
    answer (result.map f) = answer result := by
  cases result with
  | ok value => rfl
  | error fault => cases fault <;> rfl

/-- An error that is made another is the answer that way. -/
@[simp]
theorem answer_mapError_map (f : ε → ζ) (result : Except (Fault ε) α) :
    answer (result.mapError (map f)) = (answer result).mapError f := by
  cases result with
  | ok value => rfl
  | error fault => cases fault <;> rfl

/-- What cannot crash answers as it ends. -/
@[simp]
theorem answer_mapError_error (f : ε → ζ) (result : Except ε α) :
    answer (result.mapError (.error ∘ f)) = (result.map fun _ => ()).mapError f := by
  cases result <;> rfl

/-- What cannot crash and is told with a value answers as it ends. -/
@[simp]
theorem answer_told (result : Except ε Unit) (value : α) :
    answer ((result.map fun _ => value).mapError .error) = result := by
  cases result <;> rfl

/-- What cannot crash does not. -/
theorem mapError_error_ne_crash (f : ε → ζ) (result : Except ε α) (crash : Crash) :
    result.mapError (Fault.error ∘ f) ≠ .error (.crash crash) := by
  cases result <;> exact nofun

/-- An error that is made another makes no crash and keeps none away. -/
theorem mapError_map_eq_crash_iff {f : ε → ζ} {result : Except (Fault ε) α} {crash : Crash} :
    result.mapError (map f) = .error (.crash crash) ↔ result = .error (.crash crash) := by
  cases result with
  | ok value => exact iff_of_false nofun nofun
  | error fault =>
    cases fault with
    | error e => exact iff_of_false nofun nofun
    | crash other =>
      constructor
      · rintro ⟨⟩
        rfl
      · rintro ⟨⟩
        rfl

/-- Another value makes no other fault. -/
theorem map_eq_error_iff {f : α → β} {result : Except (Fault ε) α} {fault : Fault ε} :
    result.map f = .error fault ↔ result = .error fault := by
  cases result <;> simp [Except.map]

/-- Just a crash is not survived. -/
theorem survival_eq_error_iff {result : Except (Fault ε) α} {crash : Crash} :
    survival result = .error crash ↔ result = .error (.crash crash) := by
  cases result with
  | ok value => exact iff_of_false nofun nofun
  | error fault => cases fault <;> simp [survival]

end Results

end Fault

end Keyfob
