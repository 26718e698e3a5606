import Keyfob.Expr.Token
import Keyfob.Proofs.Text.Number
import Keyfob.Proofs.Text.Ends

/-!
# How tokens of expressions are spelled

A list of tokens is spelled by its numbers, names, operators and parentheses in turn, with blanks
anywhere between them (`ExprToken.Spells`). A number or a name goes as far as it can: no digit
follows the digits of a number, and nothing that may stand in a name follows a name. A text is
scanned as some tokens exactly when it spells them (`ExprToken.scan_eq_ok_iff`).
-/
namespace Keyfob

namespace ExprToken

/-- Whether a text spells some tokens. -/
inductive Spells : List ExprToken → Text → Prop where
  /-- No text spells no token. -/
  | nil : Spells [] []
  /-- A blank spells nothing. -/
  | blank {c : Char} {tokens : List ExprToken} {t : Text} (blank : Text.isBlank c = true)
    (later : Spells tokens t) : Spells tokens (c :: t)
  /-- A run of digits spells a number, cut down to 32 bits. -/
  | number {digits : Text} {tokens : List ExprToken} {t : Text} (nonempty : digits ≠ [])
    (all : ∀ c ∈ digits, Text.isDigit c = true) (ends : ∀ c ∈ t.head?, Text.isDigit c = false)
    (later : Spells tokens t) :
    Spells (number (Int32.ofInt (Text.digitsValue digits)) :: tokens) (digits ++ t)
  /-- A name spells a variable. -/
  | ident {name : Text} {tokens : List ExprToken} {t : Text} (isName : Text.isName name = true)
    (ends : ∀ c ∈ t.head?, Text.continuesName c = false) (later : Spells tokens t) :
    Spells (ident name :: tokens) (name ++ t)
  /-- A sign spells an operator. -/
  | operator {tokens : List ExprToken} {t : Text} (op : Operator) (later : Spells tokens t) :
    Spells (operator op :: tokens) (op.symbol :: t)
  /-- An opening parenthesis. -/
  | opening {tokens : List ExprToken} {t : Text} (later : Spells tokens t) :
    Spells (opening :: tokens) ('(' :: t)
  /-- A closing parenthesis. -/
  | closing {tokens : List ExprToken} {t : Text} (later : Spells tokens t) :
    Spells (closing :: tokens) (')' :: t)

end ExprToken

namespace Text

/-- The letters are two runs of neighbouring characters. -/
theorem isLetter_iff (c : Char) :
    isLetter c = true ↔ (97 ≤ c.toNat ∧ c.toNat ≤ 122) ∨ (65 ≤ c.toNat ∧ c.toNat ≤ 90) := by
  unfold isLetter
  rw [Bool.or_eq_true, Bool.and_eq_true, Bool.and_eq_true, decide_eq_true_eq, decide_eq_true_eq,
    decide_eq_true_eq, decide_eq_true_eq]
  exact Iff.rfl

/-- The code of a character that may begin a name. -/
theorem code_of_startsName {c : Char} (starts : startsName c = true) :
    (97 ≤ c.toNat ∧ c.toNat ≤ 122) ∨ (65 ≤ c.toNat ∧ c.toNat ≤ 90) ∨ c.toNat = 95 := by
  unfold startsName at starts
  rw [Bool.or_eq_true, isLetter_iff, beq_iff_eq] at starts
  obtain (small | capital) | underscore := starts
  · exact .inl small
  · exact .inr (.inl capital)
  · exact .inr (.inr (congrArg Char.toNat underscore))

/-- The code of a character that may stand in a name. -/
theorem code_of_continuesName {c : Char} (continues : continuesName c = true) :
    (97 ≤ c.toNat ∧ c.toNat ≤ 122) ∨ (65 ≤ c.toNat ∧ c.toNat ≤ 90) ∨
      (48 ≤ c.toNat ∧ c.toNat ≤ 57) ∨ c.toNat = 95 := by
  unfold continuesName at continues
  rw [Bool.or_eq_true, Bool.or_eq_true, isLetter_iff, isDigit_iff, beq_iff_eq] at continues
  obtain ((small | capital) | digit) | underscore := continues
  · exact .inl small
  · exact .inr (.inl capital)
  · exact .inr (.inr (.inl digit))
  · exact .inr (.inr (.inr (congrArg Char.toNat underscore)))

/-- No blank stands in a name. -/
theorem isBlank_of_continuesName {c : Char} (continues : continuesName c = true) :
    isBlank c = false := by
  have code := code_of_continuesName continues
  unfold isBlank
  simp only [Bool.or_eq_false_iff, Bool.and_eq_false_iff, decide_eq_false_iff_not,
    beq_eq_false_iff_ne]
  omega

/-- No digit begins a name. -/
theorem isDigit_of_startsName {c : Char} (starts : startsName c = true) : isDigit c = false := by
  have code := code_of_startsName starts
  rw [Bool.eq_false_iff, ne_eq, isDigit_iff]
  omega

/-- What begins a name may stand in it. -/
theorem continuesName_of_startsName {c : Char} (starts : startsName c = true) :
    continuesName c = true := by
  unfold startsName at starts
  unfold continuesName
  cases (Bool.or_eq_true _ _).mp starts with
  | inl letter => rw [letter]; rfl
  | inr underscore => rw [underscore, Bool.or_true]

/-- A run of characters is taken up to where it ends. -/
theorem span_run {p : Char → Bool} {run rest : Text} (all : ∀ c ∈ run, p c = true)
    (ends : ∀ c ∈ rest.head?, p c = false) :
    (run ++ rest).takeWhile p = run ∧ (run ++ rest).dropWhile p = rest := by
  have stops : rest.takeWhile p = [] ∧ rest.dropWhile p = rest := by
    cases rest with
    | nil => exact ⟨rfl, rfl⟩
    | cons c cs =>
      have other : p c = false := ends c rfl
      simp [other]
  rw [List.takeWhile_append_of_pos all, List.dropWhile_append_of_pos all, stops.1, stops.2,
    List.append_nil]
  exact ⟨rfl, rfl⟩

/-- What is left after a run does not go on with it. -/
theorem head?_dropWhile {p : Char → Bool} (t : Text) :
    ∀ c ∈ (t.dropWhile p).head?, p c = false := by
  intro c first
  have stops := List.head?_dropWhile_not p t
  rw [Option.mem_def.mp first] at stops
  exact stops

end Text

namespace ExprToken

/-- No text is no token. -/
theorem scan_nil : scan [] = .ok [] := scan.eq_def []

/-- A text is scanned by its first character. -/
theorem scan_cons (c : Char) (cs : Text) :
    scan (c :: cs) =
      if Text.isBlank c then scan cs
      else if Text.isDigit c then
        (scan (cs.dropWhile Text.isDigit)).map
          (number (Int32.ofNat (Text.digitsValue (c :: cs.takeWhile Text.isDigit))) :: ·)
      else if Text.startsName c then
        (scan (cs.dropWhile Text.continuesName)).map
          (ident (c :: cs.takeWhile Text.continuesName) :: ·)
      else
        match ofSymbol? c with
        | none => .error (.unexpectedChar c)
        | some token => (scan cs).map (token :: ·) :=
  scan.eq_def (c :: cs)

/-- A blank is passed over. -/
theorem scan_blank {c : Char} (cs : Text) (blank : Text.isBlank c = true) :
    scan (c :: cs) = scan cs := by
  rw [scan_cons, if_pos blank]

/-- A number is scanned up to its last digit. -/
theorem scan_number {digits rest : Text} (nonempty : digits ≠ [])
    (all : ∀ c ∈ digits, Text.isDigit c = true) (ends : ∀ c ∈ rest.head?, Text.isDigit c = false) :
    scan (digits ++ rest) =
      (scan rest).map (number (Int32.ofInt (Text.digitsValue digits)) :: ·) := by
  cases digits with
  | nil => exact absurd rfl nonempty
  | cons c cs =>
    have digit := all c List.mem_cons_self
    obtain ⟨taken, left⟩ := Text.span_run (fun d later => all d (List.mem_cons_of_mem _ later)) ends
    rw [List.cons_append, scan_cons, if_neg (Bool.eq_false_iff.mp (Text.isBlank_of_isDigit digit)),
      if_pos digit, taken, left]
    rfl

/-- A name is scanned up to its last character. -/
theorem scan_name {name rest : Text} (isName : Text.isName name = true)
    (ends : ∀ c ∈ rest.head?, Text.continuesName c = false) :
    scan (name ++ rest) = (scan rest).map (ident name :: ·) := by
  cases name with
  | nil => cases isName
  | cons c cs =>
    obtain ⟨starts, all⟩ := Bool.and_eq_true_iff.mp isName
    obtain ⟨taken, left⟩ := Text.span_run (List.all_eq_true.mp all) ends
    have solid := Text.isBlank_of_continuesName (Text.continuesName_of_startsName starts)
    rw [List.cons_append, scan_cons, if_neg (Bool.eq_false_iff.mp solid),
      if_neg (Bool.eq_false_iff.mp (Text.isDigit_of_startsName starts)), if_pos starts, taken, left]

/-- Other characters are scanned one by one. -/
theorem scan_symbol {c : Char} (cs : Text) (solid : Text.isBlank c = false)
    (other : Text.isDigit c = false) (apart : Text.startsName c = false) {token : ExprToken}
    (symbol : ofSymbol? c = some token) : scan (c :: cs) = (scan cs).map (token :: ·) := by
  rw [scan_cons, if_neg (Bool.eq_false_iff.mp solid), if_neg (Bool.eq_false_iff.mp other),
    if_neg (Bool.eq_false_iff.mp apart), symbol]

/-- What spells some tokens is scanned as those. -/
theorem scan_of_spells {tokens : List ExprToken} {t : Text} (spelled : Spells tokens t) :
    scan t = .ok tokens := by
  induction spelled with
  | nil => exact scan_nil
  | blank blank _ ih => rw [scan_blank _ blank, ih]
  | number nonempty all ends _ ih =>
    rw [scan_number nonempty all ends, ih]
    rfl
  | ident isName ends _ ih =>
    rw [scan_name isName ends, ih]
    rfl
  | operator op _ ih =>
    have symbol : ofSymbol? op.symbol = some (.operator op) := by cases op <;> decide
    rw [scan_symbol _ (by cases op <;> decide) (by cases op <;> decide) (by cases op <;> decide)
      symbol, ih]
    rfl
  | opening _ ih =>
    have symbol : ofSymbol? '(' = some opening := by decide
    rw [scan_symbol _ (by decide) (by decide) (by decide) symbol, ih]
    rfl
  | closing _ ih =>
    have symbol : ofSymbol? ')' = some closing := by decide
    rw [scan_symbol _ (by decide) (by decide) (by decide) symbol, ih]
    rfl

/-- The characters that are a token by themselves. -/
theorem of_ofSymbol? {c : Char} {token : ExprToken} (symbol : ofSymbol? c = some token) :
    (c = '(' ∧ token = opening) ∨ (c = ')' ∧ token = closing) ∨
      ∃ op : Operator, c = op.symbol ∧ token = operator op := by
  unfold ofSymbol? at symbol
  split at symbol
  · next same =>
    cases symbol
    exact .inl ⟨same, rfl⟩
  · split at symbol
    · next same =>
      cases symbol
      exact .inr (.inl ⟨same, rfl⟩)
    · obtain ⟨op, found, rfl⟩ := Option.map_eq_some_iff.mp symbol
      unfold Operator.ofSymbol? at found
      have written := List.find?_some found
      exact .inr (.inr ⟨op, (eq_of_beq written).symm, rfl⟩)

/-- A character that is a token by itself spells that token. -/
theorem Spells.symbol {c : Char} {token : ExprToken} (symbol : ofSymbol? c = some token)
    {tokens : List ExprToken} {t : Text} (later : Spells tokens t) :
    Spells (token :: tokens) (c :: t) := by
  obtain ⟨rfl, rfl⟩ | ⟨rfl, rfl⟩ | ⟨op, rfl, rfl⟩ := of_ofSymbol? symbol
  · exact later.opening
  · exact later.closing
  · exact later.operator op

/-- A token is put before tokens that were scanned. -/
theorem ok_of_map {read : Except ExprError (List ExprToken)} {token : ExprToken}
    {tokens : List ExprToken} (scanned : read.map (token :: ·) = .ok tokens) :
    ∃ later, read = .ok later ∧ tokens = token :: later := by
  cases read with
  | error e => cases scanned
  | ok later =>
    cases scanned
    exact ⟨later, rfl, rfl⟩

/-- What is scanned as some tokens spells those. -/
theorem spells_of_scan {tokens : List ExprToken} {t : Text} (scanned : scan t = .ok tokens) :
    Spells tokens t := by
  fun_induction scan t generalizing tokens with
  | case1 =>
    cases scanned
    exact .nil
  | case2 c cs blank ih => exact .blank blank (ih scanned)
  | case3 c cs _ digit ih =>
    obtain ⟨later, read, rfl⟩ := ok_of_map scanned
    have all : ∀ d ∈ c :: cs.takeWhile Text.isDigit, Text.isDigit d = true :=
      List.forall_mem_cons.mpr ⟨digit, fun _ => List.mem_takeWhile_imp⟩
    have spelled := Spells.number (List.cons_ne_nil _ _) all (Text.head?_dropWhile cs) (ih read)
    rwa [List.cons_append, List.takeWhile_append_dropWhile] at spelled
  | case4 c cs _ _ starts ih =>
    obtain ⟨later, read, rfl⟩ := ok_of_map scanned
    have isName : Text.isName (c :: cs.takeWhile Text.continuesName) = true :=
      Bool.and_eq_true_iff.mpr ⟨starts, List.all_takeWhile⟩
    have spelled := Spells.ident isName (Text.head?_dropWhile cs) (ih read)
    rwa [List.cons_append, List.takeWhile_append_dropWhile] at spelled
  | case5 c cs _ _ _ unknown => cases scanned
  | case6 c cs _ _ _ token symbol ih =>
    obtain ⟨later, read, rfl⟩ := ok_of_map scanned
    exact Spells.symbol symbol (ih read)

/-- A text is scanned as some tokens exactly when it spells them. -/
theorem scan_eq_ok_iff {tokens : List ExprToken} {t : Text} :
    scan t = .ok tokens ↔ Spells tokens t :=
  ⟨spells_of_scan, scan_of_spells⟩

/-- Texts that are scanned alike spell the same tokens. -/
theorem Spells.of_scan_eq {tokens : List ExprToken} {s t : Text} (same : scan s = scan t)
    (spelled : Spells tokens t) : Spells tokens s :=
  spells_of_scan (same.trans (scan_of_spells spelled))

/-- Blanks spell nothing. -/
theorem spells_nil_iff {t : Text} : Spells [] t ↔ ∀ c ∈ t, Text.isBlank c = true := by
  constructor
  · intro spelled
    generalize nothing : [] = tokens at spelled
    induction spelled with
    | nil => nofun
    | blank blank _ ih => exact List.forall_mem_cons.mpr ⟨blank, ih nothing⟩
    | _ => cases nothing
  · intro blanks
    induction t with
    | nil => exact .nil
    | cons c cs ih =>
      obtain ⟨blank, later⟩ := List.forall_mem_cons.mp blanks
      exact .blank blank (ih later)

/-- What spells a token and others is divided behind the token where what spells the others is. -/
theorem split_cons {token : ExprToken} {first second tokens : List ExprToken} {t : Text}
    (piece : Text)
    (whole : first ++ second = token :: tokens) (spelled : Spells (token :: tokens) (piece ++ t))
    (put : ∀ front s u, t = s ++ u → Spells front s → Spells (token :: front) (piece ++ s))
    (later : ∀ front, front ++ second = tokens →
      ∃ s u, t = s ++ u ∧ Spells front s ∧ Spells second u) :
    ∃ s u, piece ++ t = s ++ u ∧ Spells first s ∧ Spells second u := by
  cases first with
  | nil =>
    cases whole
    exact ⟨[], piece ++ t, rfl, .nil, spelled⟩
  | cons _ front =>
    cases whole
    obtain ⟨s, u, rfl, before, after⟩ := later front rfl
    exact ⟨piece ++ s, u, (List.append_assoc ..).symm, put front s u rfl before, after⟩

/-- What spells some tokens and others after them is divided between the two. -/
theorem Spells.split {first second : List ExprToken} {t : Text}
    (spelled : Spells (first ++ second) t) :
    ∃ s u, t = s ++ u ∧ Spells first s ∧ Spells second u := by
  generalize whole : first ++ second = tokens at spelled
  -- What ends a number or a name ends it as well when less follows.
  have ends {p : Char → Bool} {t s u : Text} (stops : ∀ c ∈ t.head?, p c = false)
      (same : t = s ++ u) : ∀ c ∈ s.head?, p c = false := by
    intro c front
    exact stops c (same ▸ List.mem_head?_append_of_mem_head? front)
  induction spelled generalizing first with
  | nil =>
    obtain ⟨rfl, rfl⟩ := List.append_eq_nil_iff.mp whole
    exact ⟨[], [], rfl, .nil, .nil⟩
  | blank blank _ ih =>
    obtain ⟨s, u, rfl, front, back⟩ := ih whole
    exact ⟨_ :: s, u, rfl, .blank blank front, back⟩
  | number nonempty all stops later ih =>
    exact split_cons _ whole (.number nonempty all stops later)
      (fun _ _ _ same => .number nonempty all (ends stops same)) fun _ => ih
  | ident isName stops later ih =>
    exact split_cons _ whole (.ident isName stops later)
      (fun _ _ _ same => .ident isName (ends stops same)) fun _ => ih
  | operator op later ih =>
    exact split_cons [op.symbol] whole (.operator op later)
      (fun _ _ _ _ => .operator op) fun _ => ih
  | opening later ih =>
    exact split_cons ['('] whole (.opening later) (fun _ _ _ _ => .opening) fun _ => ih
  | closing later ih =>
    exact split_cons [')'] whole (.closing later) (fun _ _ _ _ => .closing) fun _ => ih

/-- A closing parenthesis is spelled by itself, with blanks around it. -/
theorem of_spells_closing {t : Text} (spelled : Spells [closing] t) :
    ∃ s u, t = s ++ ')' :: u ∧ Spells [] s ∧ Spells [] u := by
  generalize whole : [closing] = tokens at spelled
  induction spelled with
  | blank blank _ ih =>
    obtain ⟨s, u, rfl, front, back⟩ := ih whole
    exact ⟨_ :: s, u, rfl, .blank blank front, back⟩
  | closing later =>
    cases whole
    exact ⟨[], _, rfl, .nil, later⟩
  | _ => cases whole

/-- An opening parenthesis is spelled by itself, with blanks before it. -/
theorem of_spells_opening {tokens : List ExprToken} {t : Text}
    (spelled : Spells (opening :: tokens) t) :
    ∃ s u, t = s ++ '(' :: u ∧ Spells [] s ∧ Spells tokens u := by
  generalize whole : opening :: tokens = all at spelled
  induction spelled with
  | blank blank _ ih =>
    obtain ⟨s, u, rfl, front, back⟩ := ih whole
    exact ⟨_ :: s, u, rfl, .blank blank front, back⟩
  | opening later =>
    cases whole
    exact ⟨[], _, rfl, .nil, later⟩
  | _ => cases whole

/-- What is trimmed off the front of a text spells nothing. -/
theorem scan_trimStart (t : Text) : scan t.trimStart = scan t := by
  induction t with
  | nil => rfl
  | cons c cs ih =>
    unfold Text.trimStart
    rw [List.dropWhile_cons]
    split
    · next blank => rw [scan_blank _ blank, ← ih, Text.trimStart]
    · rfl

/-- Blanks after a text spell nothing. -/
theorem scan_append_blanks (t : Text) {blanks : Text}
    (blank : ∀ c ∈ blanks, Text.isBlank c = true) : scan (t ++ blanks) = scan t := by
  -- Nothing that goes on with a number or a name is blank.
  have ends {p : Char → Bool} (solid : ∀ c, p c = true → Text.isBlank c = false) (rest : Text) :
      ∀ c ∈ (rest.dropWhile p ++ blanks).head?, p c = false := by
    intro c first
    rw [Bool.eq_false_iff]
    intro continues
    cases remaining : rest.dropWhile p with
    | nil =>
      rw [remaining, List.nil_append] at first
      have empty := blank c (List.mem_of_mem_head? first)
      rw [solid c continues] at empty
      cases empty
    | cons d ds =>
      have stops := Text.head?_dropWhile (p := p) rest
      rw [remaining] at first stops
      rw [stops c first] at continues
      cases continues
  fun_induction scan t with
  | case1 => exact scan_of_spells (spells_nil_iff.mpr blank)
  | case2 c cs isBlank ih => rw [List.cons_append, scan_blank _ isBlank, ih]
  | case3 c cs _ digit ih =>
    have all : ∀ d ∈ c :: cs.takeWhile Text.isDigit, Text.isDigit d = true :=
      List.forall_mem_cons.mpr ⟨digit, fun _ => List.mem_takeWhile_imp⟩
    have whole : c :: cs ++ blanks =
        (c :: cs.takeWhile Text.isDigit) ++ (cs.dropWhile Text.isDigit ++ blanks) := by
      rw [List.cons_append, List.cons_append, ← List.append_assoc,
        List.takeWhile_append_dropWhile]
    rw [whole, scan_number (List.cons_ne_nil _ _) all
      (ends (fun _ => Text.isBlank_of_isDigit) cs), ih]
    rfl
  | case4 c cs _ _ starts ih =>
    have isName : Text.isName (c :: cs.takeWhile Text.continuesName) = true :=
      Bool.and_eq_true_iff.mpr ⟨starts, List.all_takeWhile⟩
    have whole : c :: cs ++ blanks =
        (c :: cs.takeWhile Text.continuesName) ++ (cs.dropWhile Text.continuesName ++ blanks) := by
      rw [List.cons_append, List.cons_append, ← List.append_assoc,
        List.takeWhile_append_dropWhile]
    rw [whole, scan_name isName (ends (fun _ => Text.isBlank_of_continuesName) cs), ih]
  | case5 c cs solid other apart unknown =>
    rw [List.cons_append, scan_cons, if_neg solid, if_neg other, if_neg apart, unknown]
  | case6 c cs solid other apart token symbol ih =>
    rw [List.cons_append, scan_symbol _ (Bool.eq_false_iff.mpr solid)
      (Bool.eq_false_iff.mpr other) (Bool.eq_false_iff.mpr apart) symbol, ih]

/-- What is trimmed off the end of a text spells nothing. -/
theorem scan_trimEnd (t : Text) : scan t.trimEnd = scan t := by
  obtain ⟨blanks, blank, whole⟩ := Text.exists_blanks_trimEnd t
  rw [← scan_append_blanks t.trimEnd blank, whole]

end ExprToken

end Keyfob
