import Keyfob.Proofs.Expr.Grammar
import Keyfob.Proofs.Expr.Spelling

/-!
# Reading expressions

The readers of sums, products and operands follow the grammar: what one of them takes from the
front of some tokens has a derivation (`sound`), and a derivation is read back in front of anything
that it could not go on with (`complete`). So a text has a value exactly when it spells the tokens
of a derivation, and then it is the value of that derivation, the only one there is
(`tryEvaluate_iff`).
-/
namespace Keyfob.Expr

/-- What a reader has found: an expression and the tokens after it. -/
abbrev Found := Option (Expr × List ExprToken)

/-- What is found by a reader that takes something. -/
def Read.found {tokens : List ExprToken} (read : Except ExprError (Read tokens)) : Found :=
  read.toOption.map fun read => (read.expr, read.rest)

/-- What is found by a reader that may take nothing. -/
def Extended.found {tokens : List ExprToken} (all : Except ExprError (Extended tokens)) : Found :=
  all.toOption.map fun all => (all.expr, all.rest)

section Readers

variable (left : Expr) (op : Operator) (tokens rest : List ExprToken)

/-- A sum at the front of some tokens. -/
def sum? : Found := Read.found (readSum tokens)

/-- A sum that goes on with the terms at the front of some tokens. -/
def terms? : Found := Extended.found (extendSum left tokens)

/-- A product at the front of some tokens. -/
def product? : Found := Read.found (readProduct tokens)

/-- A product that goes on with the factors at the front of some tokens. -/
def factors? : Found := Extended.found (extendProduct left tokens)

/-- A signed operand at the front of some tokens. -/
def signed? : Found := Read.found (readSigned tokens)

/-- An operand at the front of some tokens. -/
def operand? : Found := Read.found (readOperand tokens)

/-- A sum is a product and the terms after it. -/
theorem sum?_eq : sum? tokens = (product? tokens).bind fun (first, rest) => terms? first rest := by
  unfold sum? product?
  rw [readSum]
  cases readProduct tokens with
  | error e => rfl
  | ok first =>
    change Read.found (do return first.through (← extendSum first.expr first.rest)) = terms? _ _
    unfold terms?
    cases extendSum first.expr first.rest with
    | error e => rfl
    | ok all => rfl

/-- Terms go on where a plus or minus sign follows. -/
theorem terms?_operator :
    terms? left (.operator op :: tokens) =
      if op.isAdditive then
        (product? tokens).bind fun (term, rest) => terms? (.binary op left term) rest
      else some (left, .operator op :: tokens) := by
  unfold terms? product?
  rw [extendSum]
  split
  · cases readProduct tokens with
    | error e => rfl
    | ok term =>
      change Extended.found (do
        return .past term (← extendSum (.binary op left term.expr) term.rest)) = terms? _ _
      unfold terms?
      cases extendSum (.binary op left term.expr) term.rest with
      | error e => rfl
      | ok all => rfl
  · rfl

/-- Terms end where no operator follows. -/
theorem terms?_of_stops (stops : Stops (fun _ => true) tokens) :
    terms? left tokens = some (left, tokens) := by
  unfold terms?
  rw [extendSum.eq_def]
  cases tokens with
  | nil => rfl
  | cons token rest =>
    cases token with
    | operator op => exact Bool.noConfusion (stops op rest rfl)
    | _ => rfl

/-- A product is a signed operand and the factors after it. -/
theorem product?_eq :
    product? tokens = (signed? tokens).bind fun (first, rest) => factors? first rest := by
  unfold product? signed?
  rw [readProduct]
  cases readSigned tokens with
  | error e => rfl
  | ok first =>
    change Read.found (do return first.through (← extendProduct first.expr first.rest)) =
      factors? _ _
    unfold factors?
    cases extendProduct first.expr first.rest with
    | error e => rfl
    | ok all => rfl

/-- Factors go on where a multiplying operator follows. -/
theorem factors?_operator :
    factors? left (.operator op :: tokens) =
      if op.isAdditive then some (left, .operator op :: tokens)
      else (signed? tokens).bind fun (factor, rest) => factors? (.binary op left factor) rest := by
  unfold factors? signed?
  rw [extendProduct]
  split
  · rfl
  · cases readSigned tokens with
    | error e => rfl
    | ok factor =>
      change Extended.found (do
        return .past factor (← extendProduct (.binary op left factor.expr) factor.rest)) =
          factors? _ _
      unfold factors?
      cases extendProduct (.binary op left factor.expr) factor.rest with
      | error e => rfl
      | ok all => rfl

/-- Factors end where no multiplying operator follows. -/
theorem factors?_of_stops (stops : Stops (fun op => !op.isAdditive) tokens) :
    factors? left tokens = some (left, tokens) := by
  unfold factors?
  rw [extendProduct.eq_def]
  cases tokens with
  | nil => rfl
  | cons token rest =>
    cases token with
    | operator op =>
      have additive : op.isAdditive = true := (Bool.not_eq_false' ..).mp (stops op rest rfl)
      dsimp only
      rw [if_pos additive]
      rfl
    | _ => rfl

/-- A sign applies to what follows it; other operators do not begin an operand. -/
theorem signed?_operator :
    signed? (.operator op :: tokens) =
      if op.isAdditive then
        (signed? tokens).map fun (inner, rest) =>
          (if op = .sub then .negate inner else inner, rest)
      else none := by
  unfold signed?
  rw [readSigned.eq_def]
  have other : readOperand (.operator op :: tokens) =
      .error (.unexpectedToken (.operator op)) := by
    rw [readOperand.eq_def]
  cases op with
  | add =>
    dsimp only
    cases readSigned tokens <;> rfl
  | sub =>
    dsimp only
    cases readSigned tokens <;> rfl
  | mul => exact congrArg Read.found other
  | div => exact congrArg Read.found other
  | rem => exact congrArg Read.found other

/-- Without a sign, a signed operand is an operand. -/
theorem signed?_of_stops (stops : Stops (fun _ => true) tokens) :
    signed? tokens = operand? tokens := by
  unfold signed? operand?
  rw [readSigned.eq_def]
  cases tokens with
  | nil => rfl
  | cons token rest =>
    cases token with
    | operator op => exact Bool.noConfusion (stops op rest rfl)
    | _ => rfl

/-- A number is an operand. -/
theorem operand?_number (value : Int32) :
    operand? (.number value :: tokens) = some (.literal value, tokens) := by
  unfold operand?
  rw [readOperand.eq_def]
  rfl

/-- A variable is an operand. -/
theorem operand?_ident (name : Text) :
    operand? (.ident name :: tokens) = some (.var name, tokens) := by
  unfold operand?
  rw [readOperand.eq_def]
  rfl

/-- A sum in parentheses is an operand. -/
theorem operand?_opening :
    operand? (.opening :: tokens) =
      (sum? tokens).bind fun (inner, rest) =>
        match rest with
        | .closing :: after => some (inner, after)
        | _ => none := by
  unfold operand? sum?
  rw [readOperand.eq_def]
  dsimp only
  cases readSum tokens with
  | error e => rfl
  | ok inner =>
    obtain ⟨expr, rest, shorter⟩ := inner
    cases rest with
    | nil => rfl
    | cons token after => cases token <;> rfl

/-- No token is no operand. -/
theorem operand?_nil : operand? [] = none := by
  unfold operand?
  rw [readOperand.eq_def]
  rfl

/-- No operator begins an operand. -/
theorem operand?_operator : operand? (.operator op :: tokens) = none := by
  unfold operand?
  rw [readOperand.eq_def]
  rfl

/-- No closing parenthesis begins an operand. -/
theorem operand?_closing : operand? (.closing :: tokens) = none := by
  unfold operand?
  rw [readOperand.eq_def]
  rfl

end Readers

section Sound

/-- What does not stop begins with an operator. -/
theorem exists_of_not_stops {tokens : List ExprToken} (goesOn : ¬Stops (fun _ => true) tokens) :
    ∃ op rest, tokens = .operator op :: rest := by
  cases tokens with
  | nil => exact absurd nofun goesOn
  | cons token rest =>
    cases token with
    | operator op => exact ⟨op, rest, rfl⟩
    | _ => exact absurd nofun goesOn

mutual

/-- A derivation of a product has a token. -/
theorem ProductTree.length_pos (tree : ProductTree) : 0 < tree.tokens.length := by
  cases tree with
  | mk first more =>
    have := first.length_pos
    rw [ProductTree.tokens, List.length_append]
    omega

/-- A derivation of a signed operand has a token. -/
theorem SignedTree.length_pos (tree : SignedTree) : 0 < tree.tokens.length := by
  cases tree with
  | signed sign additive inner => exact Nat.succ_pos _
  | plain operand =>
    cases operand with
    | number value => exact Nat.one_pos
    | ident name => exact Nat.one_pos
    | group inner => exact Nat.succ_pos _

end

mutual

/-- What is read as a sum has a derivation. -/
theorem sum?_sound {e : Expr} {rest : List ExprToken} (tokens : List ExprToken)
    (read : sum? tokens = some (e, rest)) :
    ∃ tree : SumTree, tokens = tree.tokens ++ rest ∧ tree.expr = e := by
  rw [sum?_eq] at read
  obtain ⟨⟨first, after⟩, start, goesOn⟩ := Option.bind_eq_some_iff.mp read
  obtain ⟨product, whole, rfl⟩ := product?_sound tokens start
  have shorter : after.length < tokens.length := by
    have := product.length_pos
    rw [whole, List.length_append]
    omega
  obtain ⟨more, rfl, rfl⟩ := terms?_sound product.expr after goesOn
  exact ⟨.mk product more, by rw [whole, SumTree.tokens, List.append_assoc], rfl⟩
termination_by 6 * tokens.length + 4

/-- What is read as the terms of a sum has a derivation. -/
theorem terms?_sound {e : Expr} {rest : List ExprToken} (left : Expr) (tokens : List ExprToken)
    (read : terms? left tokens = some (e, rest)) :
    ∃ more : TermsTree, tokens = more.tokens ++ rest ∧ more.extend left = e := by
  by_cases stops : Stops (fun _ => true) tokens
  · rw [terms?_of_stops left tokens stops] at read
    cases read
    exact ⟨.done, rfl, rfl⟩
  · obtain ⟨op, inner, rfl⟩ := exists_of_not_stops stops
    rw [terms?_operator] at read
    split at read
    · next additive =>
      obtain ⟨⟨next, after⟩, start, goesOn⟩ := Option.bind_eq_some_iff.mp read
      obtain ⟨term, whole, rfl⟩ := product?_sound inner start
      have shorter : after.length < inner.length := by
        have := term.length_pos
        rw [whole, List.length_append]
        omega
      obtain ⟨more, rfl, rfl⟩ := terms?_sound (.binary op left term.expr) after goesOn
      refine ⟨.cons op additive term more, ?_, rfl⟩
      rw [whole, TermsTree.tokens, List.cons_append, List.append_assoc]
    · cases read
      exact ⟨.done, rfl, rfl⟩
termination_by 6 * tokens.length + 5

/-- What is read as a product has a derivation. -/
theorem product?_sound {e : Expr} {rest : List ExprToken} (tokens : List ExprToken)
    (read : product? tokens = some (e, rest)) :
    ∃ tree : ProductTree, tokens = tree.tokens ++ rest ∧ tree.expr = e := by
  rw [product?_eq] at read
  obtain ⟨⟨first, after⟩, start, goesOn⟩ := Option.bind_eq_some_iff.mp read
  obtain ⟨operand, whole, rfl⟩ := signed?_sound tokens start
  have shorter : after.length < tokens.length := by
    have := operand.length_pos
    rw [whole, List.length_append]
    omega
  obtain ⟨more, rfl, rfl⟩ := factors?_sound operand.expr after goesOn
  exact ⟨.mk operand more, by rw [whole, ProductTree.tokens, List.append_assoc], rfl⟩
termination_by 6 * tokens.length + 2

/-- What is read as the factors of a product has a derivation. -/
theorem factors?_sound {e : Expr} {rest : List ExprToken} (left : Expr) (tokens : List ExprToken)
    (read : factors? left tokens = some (e, rest)) :
    ∃ more : FactorsTree, tokens = more.tokens ++ rest ∧ more.extend left = e := by
  by_cases stops : Stops (fun _ => true) tokens
  · rw [factors?_of_stops left tokens (stops.some _)] at read
    cases read
    exact ⟨.done, rfl, rfl⟩
  · obtain ⟨op, inner, rfl⟩ := exists_of_not_stops stops
    rw [factors?_operator] at read
    split at read
    · cases read
      exact ⟨.done, rfl, rfl⟩
    · next multiplying =>
      obtain ⟨⟨next, after⟩, start, goesOn⟩ := Option.bind_eq_some_iff.mp read
      obtain ⟨factor, whole, rfl⟩ := signed?_sound inner start
      have shorter : after.length < inner.length := by
        have := factor.length_pos
        rw [whole, List.length_append]
        omega
      obtain ⟨more, rfl, rfl⟩ := factors?_sound (.binary op left factor.expr) after goesOn
      refine ⟨.cons op (Bool.eq_false_iff.mpr multiplying) factor more, ?_, rfl⟩
      rw [whole, FactorsTree.tokens, List.cons_append, List.append_assoc]
termination_by 6 * tokens.length + 3

/-- What is read as a signed operand has a derivation. -/
theorem signed?_sound {e : Expr} {rest : List ExprToken} (tokens : List ExprToken)
    (read : signed? tokens = some (e, rest)) :
    ∃ tree : SignedTree, tokens = tree.tokens ++ rest ∧ tree.expr = e := by
  by_cases stops : Stops (fun _ => true) tokens
  · rw [signed?_of_stops tokens stops] at read
    obtain ⟨operand, whole, rfl⟩ := operand?_sound tokens read
    exact ⟨.plain operand, whole, rfl⟩
  · obtain ⟨op, inner, rfl⟩ := exists_of_not_stops stops
    rw [signed?_operator] at read
    split at read
    · next additive =>
      obtain ⟨⟨found, after⟩, start, made⟩ := Option.map_eq_some_iff.mp read
      obtain ⟨operand, whole, rfl⟩ := signed?_sound inner start
      cases made
      exact ⟨.signed op additive operand, by rw [whole]; rfl, rfl⟩
    · cases read
termination_by 6 * tokens.length + 1

/-- What is read as an operand has a derivation. -/
theorem operand?_sound {e : Expr} {rest : List ExprToken} (tokens : List ExprToken)
    (read : operand? tokens = some (e, rest)) :
    ∃ tree : OperandTree, tokens = tree.tokens ++ rest ∧ tree.expr = e := by
  match tokens with
  | [] =>
    rw [operand?_nil] at read
    cases read
  | .number value :: after =>
    rw [operand?_number] at read
    cases read
    exact ⟨.number value, rfl, rfl⟩
  | .ident name :: after =>
    rw [operand?_ident] at read
    cases read
    exact ⟨.ident name, rfl, rfl⟩
  | .opening :: inner =>
    rw [operand?_opening] at read
    obtain ⟨⟨found, after⟩, start, closed⟩ := Option.bind_eq_some_iff.mp read
    obtain ⟨sum, whole, rfl⟩ := sum?_sound inner start
    dsimp only at closed
    split at closed
    · cases closed
      exact ⟨.group sum, by rw [whole, OperandTree.tokens]; simp, rfl⟩
    · cases closed
  | .operator op :: after =>
    rw [operand?_operator] at read
    cases read
  | .closing :: after =>
    rw [operand?_closing] at read
    cases read
termination_by 6 * tokens.length

end

end Sound

section Complete

mutual

/-- A derivation of a sum is read back where no operator follows. -/
theorem sum?_complete {rest : List ExprToken} (tree : SumTree)
    (stops : Stops (fun _ => true) rest) :
    sum? (tree.tokens ++ rest) = some (tree.expr, rest) := by
  cases tree with
  | mk first more =>
    rw [sum?_eq, SumTree.tokens, List.append_assoc, product?_complete first (more.stops stops),
      Option.bind_some]
    exact terms?_complete more first.expr stops
termination_by structural tree

/-- A derivation of terms is read back where no operator follows. -/
theorem terms?_complete {rest : List ExprToken} (more : TermsTree) (left : Expr)
    (stops : Stops (fun _ => true) rest) :
    terms? left (more.tokens ++ rest) = some (more.extend left, rest) := by
  cases more with
  | done => exact terms?_of_stops left rest stops
  | cons sign additive term later =>
    rw [TermsTree.tokens, List.cons_append, List.append_assoc, terms?_operator, if_pos additive,
      product?_complete term (later.stops stops), Option.bind_some]
    exact terms?_complete later (.binary sign left term.expr) stops
termination_by structural more

/-- A derivation of a product is read back where no multiplying operator follows. -/
theorem product?_complete {rest : List ExprToken} (tree : ProductTree)
    (stops : Stops (fun op => !op.isAdditive) rest) :
    product? (tree.tokens ++ rest) = some (tree.expr, rest) := by
  cases tree with
  | mk first more =>
    rw [product?_eq, ProductTree.tokens, List.append_assoc, signed?_complete first,
      Option.bind_some]
    exact factors?_complete more first.expr stops
termination_by structural tree

/-- A derivation of factors is read back where no multiplying operator follows. -/
theorem factors?_complete {rest : List ExprToken} (more : FactorsTree) (left : Expr)
    (stops : Stops (fun op => !op.isAdditive) rest) :
    factors? left (more.tokens ++ rest) = some (more.extend left, rest) := by
  cases more with
  | done => exact factors?_of_stops left rest stops
  | cons sign multiplying factor later =>
    rw [FactorsTree.tokens, List.cons_append, List.append_assoc, factors?_operator,
      if_neg (Bool.eq_false_iff.mp multiplying), signed?_complete factor, Option.bind_some]
    exact factors?_complete later (.binary sign left factor.expr) stops
termination_by structural more

/-- A derivation of a signed operand is read back, whatever follows. -/
theorem signed?_complete {rest : List ExprToken} (tree : SignedTree) :
    signed? (tree.tokens ++ rest) = some (tree.expr, rest) := by
  cases tree with
  | signed sign additive inner =>
    rw [SignedTree.tokens, List.cons_append, signed?_operator, if_pos additive,
      signed?_complete inner]
    rfl
  | plain operand =>
    have stops : Stops (fun _ => true) (operand.tokens ++ rest) := by
      cases operand <;> nofun
    rw [SignedTree.tokens, signed?_of_stops _ stops]
    exact operand?_complete operand
termination_by structural tree

/-- A derivation of an operand is read back, whatever follows. -/
theorem operand?_complete {rest : List ExprToken} (tree : OperandTree) :
    operand? (tree.tokens ++ rest) = some (tree.expr, rest) := by
  cases tree with
  | number value => exact operand?_number rest value
  | ident name => exact operand?_ident rest name
  | group inner =>
    have shape : (OperandTree.group inner).tokens ++ rest =
        .opening :: (inner.tokens ++ .closing :: rest) := by
      simp [OperandTree.tokens]
    rw [shape, operand?_opening, sum?_complete inner (stops_closing _ rest), Option.bind_some]
    rfl
termination_by structural tree

end

end Complete

/-- Tokens are an expression exactly when they have a derivation that is read as it. -/
theorem ofTokens_iff {tokens : List ExprToken} {e : Expr} :
    ofTokens tokens = .ok e ↔ ∃ tree : SumTree, tree.tokens = tokens ∧ tree.expr = e := by
  have whole : ofTokens tokens = .ok e ↔ sum? tokens = some (e, []) := by
    unfold ofTokens sum? Read.found
    cases readSum tokens with
    | error err => exact ⟨nofun, nofun⟩
    | ok all =>
      obtain ⟨found, rest, shorter⟩ := all
      cases rest with
      | nil =>
        constructor
        · intro read
          cases read
          rfl
        · intro read
          cases read
          rfl
      | cons extra more => exact ⟨nofun, nofun⟩
  rw [whole]
  constructor
  · intro read
    obtain ⟨tree, spelled, made⟩ := sum?_sound tokens read
    exact ⟨tree, by rw [spelled, List.append_nil], made⟩
  · rintro ⟨tree, rfl, rfl⟩
    have nothing : Stops (fun _ => true) [] := nofun
    have read := sum?_complete tree nothing
    rwa [List.append_nil] at read

/-- Whether a text spells the tokens of a derivation. -/
def SumTree.Spells (tree : SumTree) (t : Text) : Prop := ExprToken.Spells tree.tokens t

/-- A text has a value exactly when it spells a derivation, and then it is that of the expression
which the derivation is read as. -/
theorem tryEvaluate_eq_ok_iff {env : Text → Int32} {t : Text} {v : Int32} :
    tryEvaluate env t = .ok v ↔ ∃ tree : SumTree, tree.Spells t ∧ tree.expr.value env = v := by
  unfold tryEvaluate parse SumTree.Spells
  constructor
  · intro evaluated
    cases scanned : ExprToken.scan t with
    | error err =>
      rw [scanned] at evaluated
      cases evaluated
    | ok tokens =>
      rw [scanned] at evaluated
      change (ofTokens tokens).map (value env) = .ok v at evaluated
      cases read : ofTokens tokens with
      | error err =>
        rw [read] at evaluated
        cases evaluated
      | ok e =>
        rw [read] at evaluated
        cases evaluated
        obtain ⟨tree, rfl, rfl⟩ := ofTokens_iff.mp read
        exact ⟨tree, ExprToken.spells_of_scan scanned, rfl⟩
  · rintro ⟨tree, spelled, rfl⟩
    rw [ExprToken.scan_of_spells spelled]
    change (ofTokens tree.tokens).map (value env) = _
    rw [ofTokens_iff.mpr ⟨tree, rfl, rfl⟩]
    rfl

/-- The derivation that a text spells is the only one. -/
theorem SumTree.Spells.unique {a b : SumTree} {t : Text} (first : a.Spells t)
    (second : b.Spells t) : a = b := by
  have scanned := (ExprToken.scan_of_spells first).symm.trans (ExprToken.scan_of_spells second)
  have same : a.tokens ++ [] = b.tokens ++ [] := congrArg (· ++ []) (Except.ok.inj scanned)
  exact (SumTree.unique a b same nofun nofun).1

/-- What a text is worth where it spells a derivation. -/
theorem evaluate_of_spells {env : Text → Int32} {tree : SumTree} {t : Text}
    (spelled : tree.Spells t) : evaluate env t = tree.expr.value env := by
  unfold evaluate
  rw [tryEvaluate_eq_ok_iff.mpr ⟨tree, spelled, rfl⟩]

/-- A text has a value exactly when its tokens have a derivation, which is then the only one, and
it is the value that the machine gives that derivation: no operation is ever asked of the machine
that it has no result for. Any other text is an error, and worth zero. -/
theorem tryEvaluate_iff (vars : Text → Option Int32) (t : Text) :
    (∀ tokens, ExprToken.scan t = .ok tokens ↔ ExprToken.Spells tokens t) ∧
      (∀ v, tryEvaluate (valuation vars) t = .ok v ↔
        ∃ tree : SumTree, tree.Spells t ∧ tree.value? vars = some v) ∧
      (∀ a b : SumTree, a.Spells t → b.Spells t → a = b) ∧
      (∀ tree : SumTree, tree.Spells t →
        tree.value? vars = some (evaluate (valuation vars) t)) ∧
      ((∀ tree : SumTree, ¬tree.Spells t) →
        (∃ error, tryEvaluate (valuation vars) t = .error error) ∧
          evaluate (valuation vars) t = 0) := by
  refine ⟨fun tokens => ExprToken.scan_eq_ok_iff, fun v => ?_, fun a b => SumTree.Spells.unique,
    fun tree spelled => ?_, fun other => ?_⟩
  · rw [tryEvaluate_eq_ok_iff]
    simp only [SumTree.value?_eq, Option.some.injEq]
  · rw [SumTree.value?_eq, evaluate_of_spells spelled]
  · cases evaluated : tryEvaluate (valuation vars) t with
    | ok v =>
      obtain ⟨tree, spelled, _⟩ := tryEvaluate_eq_ok_iff.mp evaluated
      exact absurd spelled (other tree)
    | error error =>
      refine ⟨⟨error, rfl⟩, ?_⟩
      unfold evaluate
      rw [evaluated]

/-- A sign before an operand, and a division by zero of a variable that is not set. -/
theorem tryEvaluate_sign_before_division :
    tryEvaluate (valuation fun _ => none) "2--x/0" = .ok 2 := by
  let divided : ProductTree :=
    .mk (.signed .sub rfl (.plain (.ident "x"))) (.cons .div rfl (.plain (.number 0)) .done)
  let tree : SumTree := .mk (.mk (.plain (.number 2)) .done) (.cons .sub rfl divided .done)
  have spelled : tree.Spells "2--x/0" := ExprToken.scan_eq_ok_iff.mp (by decide +kernel)
  obtain ⟨_, evaluated, _⟩ := tryEvaluate_iff (fun _ => none) "2--x/0"
  exact (evaluated 2).mpr ⟨tree, spelled, rfl⟩

end Keyfob.Expr
