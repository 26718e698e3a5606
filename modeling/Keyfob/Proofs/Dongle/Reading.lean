import Keyfob.Proofs.Dongle.Course

/-!
# What presses enter

The button is handled press by press, with a pad or a menu in between. Here is what a whole sequence
of presses enters, read without any of these (`ButtonPress.read`): how many short presses come
before each long one, those numbers in groups of four, and each group as a code. Reading one press
more is the reading so far and one step of its mode (`ButtonPress.read_concat`).
-/
namespace Keyfob

namespace AccessCodes

/-- The codes in the order in which they count, with what they do. -/
def meanings (codes : AccessCodes) : List (Pin × PinMatch) :=
  [(codes.ble, .boot .ble), (codes.file, .files), (codes.msc, .boot .msc), (codes.cdc, .boot .cdc),
    (codes.primary, .primary)]

/-- What a code does: the first of its meanings, or nothing. -/
def meaning (codes : AccessCodes) (pin : Pin) : PinMatch :=
  ((codes.meanings.find? fun known => pin = known.1).map Prod.snd).getD .rejected

/-- A code does the first of its meanings. -/
theorem classify_eq_meaning (codes : AccessCodes) (pin : Pin) :
    codes.classify pin = codes.meaning pin := by
  unfold classify meaning meanings
  by_cases ble : pin = codes.ble
  · simp [ble]
  by_cases file : pin = codes.file
  · simp [← file, ble]
  by_cases msc : pin = codes.msc
  · simp [← msc, ble, file]
  by_cases cdc : pin = codes.cdc
  · simp [← cdc, ble, file, msc]
  by_cases primary : pin = codes.primary
  · simp [← primary, ble, file, msc, cdc]
  · simp [ble, file, msc, cdc, primary]

end AccessCodes

/-- Something that presses have done. -/
inductive Errand where
  /-- A mode is asked for at the next start. -/
  | request (mode : BootMode)
  /-- The credentials are read for the menu. -/
  | opens
  /-- The file of a number is typed byte for byte. -/
  | typeFile (pin : Pin)
  /-- The secret of the credential at a place is typed. -/
  | send (place : Nat)
deriving DecidableEq

/-- What presses come to. -/
structure Upshot where
  /-- What is done, in order. -/
  errands : List Errand
  /-- What the button works in the end. -/
  mode : Mode
deriving DecidableEq

/-- An upshot with errands before it. -/
def Upshot.after (errands : List Errand) (later : Upshot) : Upshot :=
  { later with errands := errands ++ later.errands }

/-- The pad on which digits were accepted, no more than three, and one is being entered: each is
the last digit of a number of short presses. -/
def PinPad.holding (counts : List Nat) (last : Nat) : PinPad where
  accepted := ((counts.take 3).map Pin.lastDigit).reverse
  unfinished := by
    rw [List.length_reverse, List.length_map, List.length_take]
    omega
  current := Pin.lastDigit last

namespace PinPad

/-- One short press more raises the digit that is being entered. -/
theorem raise_holding (counts : List Nat) (last : Nat) :
    (holding counts last).raise = holding counts (last + 1) := by
  have raised : Pin.lastDigit last + 1 = Pin.lastDigit (last + 1) := by
    apply Fin.ext
    simp [Pin.lastDigit, Fin.val_add, Nat.add_mod]
  unfold raise holding
  rw [raised]

/-- One long press more accepts the digit, while there are too few for a code. -/
theorem accept_holding {counts : List Nat} (few : counts.length < 3) (last : Nat) :
    (holding counts last).accept = (none, holding (counts ++ [last]) 0) := by
  obtain _ | ⟨a, _ | ⟨b, _ | ⟨c, more⟩⟩⟩ := counts
  · rfl
  · rfl
  · rfl
  · exact absurd few (by simp)

end PinPad

/-- The place in a menu after a number of short presses, from the first entry on round and round. -/
def Mode.place (entries total : Nat) : Nat := if entries = 0 then 0 else total % entries

/-- The first entry is selected from the start. -/
theorem Mode.place_zero (entries : Nat) : Mode.place entries 0 = 0 := by
  unfold place
  split
  · rfl
  · exact Nat.zero_mod _

/-- The place that follows another in a menu, the first after the last. -/
def Mode.placeAfter (entries selected : Nat) : Nat :=
  if entries = 0 then selected else (selected + 1) % entries

/-- One short press more goes on from the place where those before it led. -/
theorem Mode.placeAfter_place (entries total : Nat) :
    Mode.placeAfter entries (Mode.place entries total) = Mode.place entries (total + 1) := by
  unfold placeAfter place
  by_cases none : entries = 0
  · simp only [if_pos none]
  · simp only [if_neg none]
    rw [Nat.mod_add_mod]

namespace ButtonPress

/-- How many short presses come before each long one, and after the last. -/
def counts : List ButtonPress → List Nat × Nat
  | [] => ([], 0)
  | .long :: presses => (0 :: (counts presses).1, (counts presses).2)
  | .short :: presses =>
    match counts presses with
    | ([], last) => ([], last + 1)
    | (count :: counts, last) => ((count + 1) :: counts, last)

/-- What is entered in a menu with some entries, after a number of short presses in it. -/
def readMenu (entries : Nat) : Nat → List Nat → Nat → Upshot
  | total, [], last => ⟨[], .menu (Mode.place entries (total + last))⟩
  | total, count :: counts, last =>
    (readMenu entries (total + count) counts last).after
      [.send (Mode.place entries (total + count))]

/-- What is entered where files are named. -/
def readFiles : List Nat → Nat → Upshot
  | a :: b :: c :: d :: counts, last =>
    (readFiles counts last).after [.typeFile (Pin.ofNats a b c d)]
  | counts, last => ⟨[], .file (.holding counts last)⟩

/-- What is entered where a code is, given the codes and how many entries the menu would have. -/
def readCode (codes : AccessCodes) (entries : Nat) : List Nat → Nat → Upshot
  | a :: b :: c :: d :: counts, last =>
    match codes.meaning (Pin.ofNats a b c d) with
    | .boot mode => ⟨[.request mode], .restart mode⟩
    | .files => readFiles counts last
    | .primary => (readMenu entries 0 counts last).after [.opens]
    | .rejected => readCode codes entries counts last
  | counts, last => ⟨[], .code (.holding counts last)⟩

/-- What presses enter from the start. -/
def read (codes : AccessCodes) (entries : Nat) (presses : List ButtonPress) : Upshot :=
  readCode codes entries (counts presses).1 (counts presses).2

end ButtonPress

/-- What the entry of a code comes to. -/
def PinMatch.upshot : PinMatch → Upshot
  | boot mode => ⟨[.request mode], .restart mode⟩
  | files => ⟨[], .file .empty⟩
  | primary => ⟨[.opens], .menu 0⟩
  | rejected => ⟨[], .code .empty⟩

/-- What one press comes to in a mode. -/
def Mode.advance (codes : AccessCodes) (entries : Nat) (mode : Mode) (press : ButtonPress) :
    Upshot :=
  match mode.task press with
  | .pad next => ⟨[], next⟩
  | .enter _ pin => (codes.meaning pin).upshot
  | .typeFile pad pin => ⟨[.typeFile pin], .file pad⟩
  | .browse selected => ⟨[], .menu (Mode.placeAfter entries selected)⟩
  | .send selected => ⟨[.send selected], mode⟩
  | .nothing => ⟨[], mode⟩

namespace Upshot

/-- What one press more comes to. -/
def next (codes : AccessCodes) (entries : Nat) (upshot : Upshot) (press : ButtonPress) : Upshot :=
  (upshot.mode.advance codes entries press).after upshot.errands

variable (codes : AccessCodes) (entries : Nat)

/-- What was done before stays done before. -/
theorem next_after (errands : List Errand) (upshot : Upshot) (press : ButtonPress) :
    (upshot.after errands).next codes entries press =
      (upshot.next codes entries press).after errands := by
  unfold next after
  rw [List.append_assoc]

end Upshot

namespace ButtonPress

/-- One press more after some numbers of short presses. -/
def counted (counts : List Nat) (last : Nat) : ButtonPress → List Nat × Nat
  | short => (counts, last + 1)
  | long => (counts ++ [last], 0)

/-- One press more is counted at the end. -/
theorem counts_concat (presses : List ButtonPress) (press : ButtonPress) :
    counts (presses ++ [press]) = counted (counts presses).1 (counts presses).2 press := by
  induction presses with
  | nil => cases press <;> rfl
  | cons first rest ih =>
    rw [List.cons_append]
    cases first with
    | long =>
      rw [counts, counts, ih]
      cases press <;> rfl
    | short =>
      rw [counts, counts, ih]
      cases counts rest with
      | mk before last =>
        cases before <;> cases press <;> rfl

variable (codes : AccessCodes) (entries : Nat)

/-- One press more in the menu is one step of it. -/
theorem readMenu_counted (total : Nat) (counts : List Nat) (last : Nat) (press : ButtonPress) :
    readMenu entries total (counted counts last press).1 (counted counts last press).2 =
      (readMenu entries total counts last).next codes entries press := by
  induction counts generalizing total with
  | nil =>
    cases press with
    | short => exact congrArg (Upshot.mk [] ∘ Mode.menu) (Mode.placeAfter_place _ _).symm
    | long => rfl
  | cons count counts ih =>
    have later := ih (total + count)
    rw [readMenu, Upshot.next_after, ← later]
    cases press <;> rfl

/-- Numbers that begin with no group of four are fewer than four. -/
theorem few_of_no_group {counts : List Nat}
    (no : ∀ a b c d rest, counts = a :: b :: c :: d :: rest → False) : counts.length < 4 := by
  obtain _ | ⟨a, _ | ⟨b, _ | ⟨c, _ | ⟨d, rest⟩⟩⟩⟩ := counts
  · simp
  · simp
  · simp
  · simp
  · exact (no a b c d rest rfl).elim

/-- Fewer than four numbers are fewer than three, or three. -/
theorem fewer_or_three {counts : List Nat} (few : counts.length < 4) :
    counts.length < 3 ∨ ∃ a b c, counts = [a, b, c] := by
  obtain _ | ⟨a, _ | ⟨b, _ | ⟨c, _ | ⟨d, rest⟩⟩⟩⟩ := counts
  · exact .inl (by simp)
  · exact .inl (by simp)
  · exact .inl (by simp)
  · exact .inr ⟨a, b, c, rfl⟩
  · exact absurd few (by simp)

/-- Fewer than four numbers name no file. -/
theorem readFiles_of_few {counts : List Nat} (few : counts.length < 4) (last : Nat) :
    readFiles counts last = ⟨[], .file (.holding counts last)⟩ := by
  obtain _ | ⟨a, _ | ⟨b, _ | ⟨c, _ | ⟨d, more⟩⟩⟩⟩ := counts
  · rfl
  · rfl
  · rfl
  · rfl
  · exact absurd few (by simp)

/-- Fewer than four numbers make no code. -/
theorem readCode_of_few {counts : List Nat} (few : counts.length < 4) (last : Nat) :
    readCode codes entries counts last = ⟨[], .code (.holding counts last)⟩ := by
  obtain _ | ⟨a, _ | ⟨b, _ | ⟨c, _ | ⟨d, more⟩⟩⟩⟩ := counts
  · rfl
  · rfl
  · rfl
  · rfl
  · exact absurd few (by simp)

/-- Four numbers come to what their code comes to. -/
theorem readCode_four (a b c d : Nat) :
    readCode codes entries [a, b, c, d] 0 = (codes.meaning (Pin.ofNats a b c d)).upshot := by
  rw [readCode]
  cases codes.meaning (Pin.ofNats a b c d) with
  | boot mode => rfl
  | files => rfl
  | primary => exact congrArg (Upshot.mk [.opens] ∘ Mode.menu) (Mode.place_zero entries)
  | rejected => rfl

/-- One press more on the pad that names files, which a long one may complete. -/
theorem readFiles_counted_of_few {counts : List Nat} (few : counts.length < 4) (last : Nat)
    (press : ButtonPress) :
    readFiles (counted counts last press).1 (counted counts last press).2 =
      Mode.advance codes entries (.file (.holding counts last)) press := by
  cases press with
  | short =>
    rw [counted, readFiles_of_few few, ← PinPad.raise_holding]
    rfl
  | long =>
    obtain fewer | ⟨a, b, c, rfl⟩ := fewer_or_three few
    · have still : (counts ++ [last]).length < 4 := by
        rw [List.length_append, List.length_singleton]
        omega
      rw [counted, readFiles_of_few still, Mode.advance, Mode.task, PinPad.accept_holding fewer]
    · rfl

/-- One press more on the pad on which a code is entered, which a long one may complete. -/
theorem readCode_counted_of_few {counts : List Nat} (few : counts.length < 4) (last : Nat)
    (press : ButtonPress) :
    readCode codes entries (counted counts last press).1 (counted counts last press).2 =
      Mode.advance codes entries (.code (.holding counts last)) press := by
  cases press with
  | short =>
    rw [counted, readCode_of_few codes entries few, ← PinPad.raise_holding]
    rfl
  | long =>
    obtain fewer | ⟨a, b, c, rfl⟩ := fewer_or_three few
    · have still : (counts ++ [last]).length < 4 := by
        rw [List.length_append, List.length_singleton]
        omega
      rw [counted, readCode_of_few codes entries still, Mode.advance, Mode.task,
        PinPad.accept_holding fewer]
    · exact readCode_four codes entries a b c last

/-- One press more where files are named is one step of it. -/
theorem readFiles_counted (counts : List Nat) (last : Nat) (press : ButtonPress) :
    readFiles (counted counts last press).1 (counted counts last press).2 =
      (readFiles counts last).next codes entries press := by
  induction counts, last using readFiles.induct with
  | case1 a b c d counts last ih =>
    rw [readFiles, Upshot.next_after, ← ih]
    cases press <;> rfl
  | case2 counts last no =>
    have few := few_of_no_group no
    rw [readFiles_of_few few, readFiles_counted_of_few codes entries few]
    rfl

/-- One press more where a code is entered is one step of it. -/
theorem readCode_counted (counts : List Nat) (last : Nat) (press : ButtonPress) :
    readCode codes entries (counted counts last press).1 (counted counts last press).2 =
      (readCode codes entries counts last).next codes entries press := by
  have group (a b c d : Nat) (counts : List Nat) (last : Nat) :
      counted (a :: b :: c :: d :: counts) last press =
        (a :: b :: c :: d :: (counted counts last press).1, (counted counts last press).2) := by
    cases press <;> rfl
  induction counts, last using readCode.induct codes with
  | case1 a b c d counts last mode means =>
    simp only [group, readCode, means]
    rfl
  | case2 a b c d counts last means =>
    simp only [group, readCode, means]
    exact readFiles_counted codes entries counts last press
  | case3 a b c d counts last means =>
    simp only [group, readCode, means, Upshot.next_after]
    rw [readMenu_counted codes]
  | case4 a b c d counts last means ih =>
    simp only [group, readCode, means]
    exact ih
  | case5 counts last no =>
    have few := few_of_no_group no
    rw [readCode_of_few codes entries few, readCode_counted_of_few codes entries few]
    rfl

/-- Reading one press more is the reading so far and one step of its mode. -/
theorem read_concat (presses : List ButtonPress) (press : ButtonPress) :
    read codes entries (presses ++ [press]) =
      (read codes entries presses).next codes entries press := by
  unfold read
  rw [counts_concat, readCode_counted]

example :
    read {} 0 ((List.replicate 3 (List.replicate 5 short ++ [long])).flatten ++
        [long, long, long, long, short, long, short]) =
      ⟨[.typeFile (.ofNats 0 0 0 1)], .file (.holding [] 1)⟩ := by
  decide

/-- What is entered in a menu stays in the menu. -/
theorem mode_readMenu (total : Nat) (counts : List Nat) (last : Nat) :
    ∃ selected, (readMenu entries total counts last).mode = .menu selected := by
  induction counts generalizing total with
  | nil => exact ⟨_, rfl⟩
  | cons count counts ih => exact ih (total + count)

/-- Where files are named, they go on being named. -/
theorem mode_readFiles (counts : List Nat) (last : Nat) :
    ∃ pad, (readFiles counts last).mode = .file pad := by
  induction counts, last using readFiles.induct with
  | case1 a b c d counts last ih => exact ih
  | case2 counts last no =>
    rw [readFiles_of_few (few_of_no_group no)]
    exact ⟨_, rfl⟩

/-- Presses that lead to another mode ask for it, and do nothing else. -/
theorem errands_of_restart {presses : List ButtonPress} {boot : BootMode}
    (waiting : (read codes entries presses).mode = .restart boot) :
    (read codes entries presses).errands = [.request boot] := by
  unfold read at waiting ⊢
  generalize (counts presses).1 = counts, (counts presses).2 = last at waiting ⊢
  induction counts, last using readCode.induct codes with
  | case1 a b c d counts last mode means =>
    simp only [readCode, means] at waiting ⊢
    cases waiting
    rfl
  | case2 a b c d counts last means =>
    simp only [readCode, means] at waiting
    obtain ⟨pad, naming⟩ := mode_readFiles counts last
    exact nomatch naming.symm.trans waiting
  | case3 a b c d counts last means =>
    simp only [readCode, means] at waiting
    obtain ⟨selected, inMenu⟩ := mode_readMenu entries 0 counts last
    exact nomatch inMenu.symm.trans waiting
  | case4 a b c d counts last means ih =>
    simp only [readCode, means] at waiting ⊢
    exact ih waiting
  | case5 counts last no =>
    rw [readCode_of_few codes entries (few_of_no_group no)] at waiting
    cases waiting

end ButtonPress

end Keyfob
