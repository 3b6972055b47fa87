import Straightedge.Proofs.Script.Soundness

/-! # Expressions by levels

The grammar of expressions without precedences has a rule for sums, one for products and one for
factors. A reader with a function for each rule needs no least precedence; it reads what climbing
reads, whatever the operations on numbers are. So climbing stops before the right lexeme and groups
operators to the left.

* **`Stratified.sum`**: the reader by levels.
* **`Stratified.toOption_climb_two`**, **`Stratified.toOption_climb_one`**: the loop of climbing
  takes the rest of a product, and then the rest of a sum.
* **`Stratified.toOption_atom`**: what climbing joins are factors.
* **`Stratified.toOption_expression_eq_sum`**: both readers agree on all lexemes. -/

namespace Straightedge.Script

variable {α β : Type}

/-- What is left after the rest of a chain is less than the bound of its first operand. -/
theorem Rest.length_lt_of_rest {bound : Nat} (first : Rest α β bound)
    (whole : Rest α β (first.lexemes.length + 1)) : whole.lexemes.length < bound :=
  Nat.lt_of_lt_of_le whole.length_lt first.length_lt

namespace Stratified

/-! ## The rules -/

variable [Scalar α]

mutual

/-- `sum = product { ("+" | "-") product }`, from left to right. -/
def sum (ts : List (Lexeme α)) : Option (Rest α α ts.length) := do
  let first ← product ts
  let whole ← moreTerms first.value first.lexemes
  return ⟨whole.value, whole.lexemes, first.length_lt_of_rest whole⟩
termination_by (ts.length, 2)
decreasing_by
  · exact Prod.Lex.right _ (by decide)
  · exact Prod.Lex.left _ _ first.length_lt

/-- What follows the terms of a sum that were read, with the value `left`. -/
def moreTerms (left : α) (ts : List (Lexeme α)) : Option (Rest α α (ts.length + 1)) :=
  match ts with
  | ⟨.symbol .plus, _⟩ :: rest => do
    let right ← product rest
    let whole ← moreTerms (left + right.value) right.lexemes
    return ⟨whole.value, whole.lexemes, by
      have := right.length_lt; have := whole.length_lt; simp only [List.length_cons]; omega⟩
  | ⟨.symbol .minus, _⟩ :: rest => do
    let right ← product rest
    let whole ← moreTerms (left - right.value) right.lexemes
    return ⟨whole.value, whole.lexemes, by
      have := right.length_lt; have := whole.length_lt; simp only [List.length_cons]; omega⟩
  | ts => some ⟨left, ts, Nat.lt_succ_self _⟩
termination_by (ts.length, 0)
decreasing_by
  · exact Prod.Lex.left _ _ (Nat.lt_succ_self _)
  · exact Prod.Lex.left _ _ (Nat.lt_succ_of_lt right.length_lt)
  · exact Prod.Lex.left _ _ (Nat.lt_succ_self _)
  · exact Prod.Lex.left _ _ (Nat.lt_succ_of_lt right.length_lt)

/-- `product = factor { ("*" | "/") factor }`, from left to right. -/
def product (ts : List (Lexeme α)) : Option (Rest α α ts.length) := do
  let first ← factor ts
  let whole ← moreFactors first.value first.lexemes
  return ⟨whole.value, whole.lexemes, first.length_lt_of_rest whole⟩
termination_by (ts.length, 1)
decreasing_by
  · exact Prod.Lex.right _ (by decide)
  · exact Prod.Lex.left _ _ first.length_lt

/-- What follows the factors of a product that were read, with the value `left`. -/
def moreFactors (left : α) (ts : List (Lexeme α)) : Option (Rest α α (ts.length + 1)) :=
  match ts with
  | ⟨.symbol .star, _⟩ :: rest => do
    let right ← factor rest
    let whole ← moreFactors (left * right.value) right.lexemes
    return ⟨whole.value, whole.lexemes, by
      have := right.length_lt; have := whole.length_lt; simp only [List.length_cons]; omega⟩
  | ⟨.symbol .slash, _⟩ :: rest => do
    let right ← factor rest
    let whole ← moreFactors (left / right.value) right.lexemes
    return ⟨whole.value, whole.lexemes, by
      have := right.length_lt; have := whole.length_lt; simp only [List.length_cons]; omega⟩
  | ts => some ⟨left, ts, Nat.lt_succ_self _⟩
termination_by (ts.length, 0)
decreasing_by
  · exact Prod.Lex.left _ _ (Nat.lt_succ_self _)
  · exact Prod.Lex.left _ _ (Nat.lt_succ_of_lt right.length_lt)
  · exact Prod.Lex.left _ _ (Nat.lt_succ_self _)
  · exact Prod.Lex.left _ _ (Nat.lt_succ_of_lt right.length_lt)

/-- `factor = NUMBER | "-" factor | "+" factor | "(" sum ")" | WORD "(" sums ")"`. -/
def factor (ts : List (Lexeme α)) : Option (Rest α α ts.length) :=
  match ts with
  | ⟨.number x, _⟩ :: rest => some (.single x _ rest)
  | ⟨.symbol .minus, _⟩ :: rest => do
    let operand ← factor rest
    return ⟨-operand.value, operand.lexemes, Nat.lt_succ_of_lt operand.length_lt⟩
  | ⟨.symbol .plus, _⟩ :: rest => do
    let operand ← factor rest
    return ⟨operand.value, operand.lexemes, Nat.lt_succ_of_lt operand.length_lt⟩
  | ⟨.symbol .leftParen, _⟩ :: rest => do
    let inside ← sum rest
    match h : inside.lexemes with
    | ⟨.symbol .rightParen, _⟩ :: after =>
      return ⟨inside.value, after, Nat.lt_succ_of_lt (inside.length_tail_lt h)⟩
    | _ => none
  | ⟨.word name, _⟩ :: ⟨.symbol .leftParen, _⟩ :: rest => do
    let args ← operands rest
    let value ← (callFunction name args.value).toOption
    return ⟨value, args.lexemes, Nat.lt_succ_of_lt (Nat.lt_succ_of_lt args.length_lt)⟩
  | _ => none
termination_by (ts.length, 0)
decreasing_by
  · exact Prod.Lex.left _ _ (Nat.lt_succ_self _)
  · exact Prod.Lex.left _ _ (Nat.lt_succ_self _)
  · exact Prod.Lex.left _ _ (Nat.lt_succ_self _)
  · exact Prod.Lex.left _ _ (Nat.lt_succ_of_lt (Nat.lt_succ_self _))

/-- `operands = [ sum { "," sum } [ "," ] ] ")"`. -/
def operands (ts : List (Lexeme α)) : Option (Rest α (List α) ts.length) :=
  match ts with
  | ⟨.symbol .rightParen, _⟩ :: rest => some (.single [] _ rest)
  | ts => do
    let first ← sum ts
    let more ← moreOperands first.lexemes
    return ⟨first.value :: more.value, more.lexemes, Nat.lt_trans more.length_lt first.length_lt⟩
termination_by (ts.length, 3)
decreasing_by
  · exact Prod.Lex.right _ (by decide)
  · exact Prod.Lex.left _ _ first.length_lt

/-- What follows the operands that were read: `{ "," sum } [ "," ] ")"`. -/
def moreOperands (ts : List (Lexeme α)) : Option (Rest α (List α) ts.length) :=
  match ts with
  | ⟨.symbol .rightParen, _⟩ :: rest => some (.single [] _ rest)
  | ⟨.symbol .comma, _⟩ :: ⟨.symbol .rightParen, _⟩ :: rest =>
    some ⟨[], rest, Nat.lt_succ_of_lt (Nat.lt_succ_self _)⟩
  | ⟨.symbol .comma, _⟩ :: rest => do
    let next ← sum rest
    let more ← moreOperands next.lexemes
    return ⟨next.value :: more.value, more.lexemes,
      Nat.lt_succ_of_lt (Nat.lt_trans more.length_lt next.length_lt)⟩
  | _ => none
termination_by (ts.length, 0)
decreasing_by
  · exact Prod.Lex.left _ _ (Nat.lt_succ_self _)
  · exact Prod.Lex.left _ _ (Nat.lt_succ_of_lt next.length_lt)

end

/-! ## What follows an operand -/

/-- An operator of sums takes a product. -/
theorem moreTerms_of_operator {t : Lexeme α} {o : Operator}
    (ho : Operator.ofToken? t.token = some o) (hone : o.precedence = 1) (left : α)
    (rest : List (Lexeme α)) :
    moreTerms left (t :: rest) = (product rest).bind fun right =>
      (moreTerms (o.apply left right.value) right.lexemes).bind fun whole =>
        some ⟨whole.value, whole.lexemes, by
          have := right.length_lt; have := whole.length_lt; simp only [List.length_cons]; omega⟩ := by
  obtain ⟨token, line⟩ := t
  cases token with
  | symbol s =>
    cases s with
    | plus => cases ho; rw [moreTerms]; rfl
    | minus => cases ho; rw [moreTerms]; rfl
    | star => cases ho; cases hone
    | slash => cases ho; cases hone
    | _ => cases ho
  | _ => cases ho

/-- The terms end before everything else. -/
theorem moreTerms_of_stop {ts : List (Lexeme α)} (h : nextPrecedence ts ≠ 1) (left : α) :
    moreTerms left ts = some ⟨left, ts, Nat.lt_succ_self _⟩ := by
  rw [moreTerms.eq_def]
  split
  · exact absurd rfl h
  · exact absurd rfl h
  · rfl

/-- An operator of products takes a factor. -/
theorem moreFactors_of_operator {t : Lexeme α} {o : Operator}
    (ho : Operator.ofToken? t.token = some o) (htwo : o.precedence = 2) (left : α)
    (rest : List (Lexeme α)) :
    moreFactors left (t :: rest) = (factor rest).bind fun right =>
      (moreFactors (o.apply left right.value) right.lexemes).bind fun whole =>
        some ⟨whole.value, whole.lexemes, by
          have := right.length_lt; have := whole.length_lt; simp only [List.length_cons]; omega⟩ := by
  obtain ⟨token, line⟩ := t
  cases token with
  | symbol s =>
    cases s with
    | star => cases ho; rw [moreFactors]; rfl
    | slash => cases ho; rw [moreFactors]; rfl
    | plus => cases ho; cases htwo
    | minus => cases ho; cases htwo
    | _ => cases ho
  | _ => cases ho

/-- The factors end before everything else. -/
theorem moreFactors_of_stop {ts : List (Lexeme α)} (h : nextPrecedence ts ≠ 2) (left : α) :
    moreFactors left ts = some ⟨left, ts, Nat.lt_succ_self _⟩ := by
  rw [moreFactors.eq_def]
  split
  · exact absurd rfl h
  · exact absurd rfl h
  · rfl

omit [Scalar α] in
theorem nextPrecedence_nil : nextPrecedence ([] : List (Lexeme α)) = 0 := rfl

/-- After a product no operator of products follows. -/
theorem nextPrecedence_of_moreFactors {n : Nat} {left : α} {ts : List (Lexeme α)}
    (hts : ts.length ≤ n) {r : Rest α α (ts.length + 1)} (h : moreFactors left ts = some r) :
    nextPrecedence r.lexemes ≠ 2 := by
  induction n generalizing left ts with
  | zero =>
    obtain rfl := List.eq_nil_of_length_eq_zero (Nat.le_zero.1 hts)
    rw [moreFactors_of_stop (nextPrecedence_nil.trans_ne (by decide))] at h
    cases h
    exact nextPrecedence_nil.trans_ne (by decide)
  | succ n ih =>
    by_cases htwo : nextPrecedence ts = 2
    · have hpos : 0 < nextPrecedence ts := by omega
      obtain ⟨t, rest, o, rfl, ho, hprecedence⟩ := exists_operator_of_nextPrecedence_pos hpos
      rw [moreFactors_of_operator ho (hprecedence.symm.trans htwo)] at h
      obtain ⟨right, -, h⟩ := Option.bind_eq_some_iff.1 h
      obtain ⟨whole, hwhole, h⟩ := Option.bind_eq_some_iff.1 h
      cases h
      have hlength : right.lexemes.length ≤ n := by
        have := right.length_lt
        rw [List.length_cons] at hts
        omega
      exact ih hlength hwhole
    · rw [moreFactors_of_stop htwo] at h
      cases h
      exact htwo

/-! ## Answers without errors -/

omit [Scalar α] in
/-- Without its errors a step answers if its first part and its second part do. -/
theorem toOption_bind {ε γ : Type} {x : Except ε β} {f : β → Except ε γ} :
    (x >>= f).toOption = x.toOption.bind fun b => (f b).toOption := by
  cases x <;> rfl

variable [Numeral α] {lastLine : Nat}

/-- Climbing stops before a lexeme that is no operator or binds too loosely. -/
theorem toOption_climb_of_stop {least : Nat} {ts : List (Lexeme α)}
    (h : nextPrecedence ts ≤ least - 1) (left : α) :
    (climb lastLine least left ts).toOption = some ⟨left, ts, Nat.lt_succ_self _⟩ := by
  have hreads : Reads (climb lastLine least left ts) left ts :=
    (reads_climb_iff_of_stop h).2 ⟨rfl, rfl⟩
  obtain ⟨_, hclimb⟩ := hreads
  rw [hclimb]
  rfl

/-- Climbing takes an operator that binds tightly enough, with its right operand. -/
theorem toOption_climb_of_operator {least : Nat} {t : Lexeme α} {o : Operator}
    (ho : Operator.ofToken? t.token = some o) (hle : least ≤ o.precedence) (left : α)
    (rest : List (Lexeme α)) :
    (climb lastLine least left (t :: rest)).toOption =
      (expression lastLine (o.precedence + 1) rest).toOption.bind fun right =>
        (climb lastLine least (o.apply left right.value) right.lexemes).toOption.bind fun whole =>
          some ⟨whole.value, whole.lexemes, by
            have := right.length_lt; have := whole.length_lt; simp only [List.length_cons]
            omega⟩ := by
  rw [climb, ho]
  simp only
  rw [if_neg (Nat.not_lt.2 hle), toOption_bind]
  refine Option.bind_congr fun right _ => ?_
  exact toOption_bind

/-- An expression above all operators is an atom. -/
theorem toOption_expression_sign {ts : List (Lexeme α)} :
    (expression lastLine signPrecedence ts).toOption = (atom lastLine ts).toOption := by
  rw [expression, toOption_bind]
  refine (Option.bind_congr fun first _ => ?_).trans (Option.bind_fun_some _)
  rw [toOption_bind, toOption_climb_of_stop (nextPrecedence_le _)]
  rfl

/-- Climbing from multiplications on takes the factors of a product. -/
theorem toOption_climb_two {n : Nat}
    (hfactor : ∀ us : List (Lexeme α), us.length < n →
      (expression lastLine 3 us).toOption = factor us)
    {ts : List (Lexeme α)} (hts : ts.length ≤ n) (left : α) :
    (climb lastLine 2 left ts).toOption = moreFactors left ts := by
  have hle := nextPrecedence_le ts
  by_cases htwo : nextPrecedence ts = 2
  · have hpos : 0 < nextPrecedence ts := by omega
    obtain ⟨t, rest, o, rfl, ho, hprecedence⟩ := exists_operator_of_nextPrecedence_pos hpos
    have ho2 := hprecedence.symm.trans htwo
    rw [List.length_cons] at hts
    obtain ⟨n, rfl⟩ := Nat.exists_eq_succ_of_ne_zero (n := n) (by omega)
    rw [toOption_climb_of_operator ho (Nat.le_of_eq ho2.symm), moreFactors_of_operator ho ho2, ho2,
      hfactor rest (by omega)]
    refine Option.bind_congr fun right _ => ?_
    have hright := right.length_lt
    rw [toOption_climb_two (n := n) (fun us hus => hfactor us (by omega)) (by omega)]
  · have hstop : nextPrecedence ts ≤ 2 - 1 := by omega
    rw [toOption_climb_of_stop hstop, moreFactors_of_stop htwo]
termination_by n

/-- Climbing from sums on takes the factors of the product that was begun and then the terms of the
sum. -/
theorem toOption_climb_one {n least : Nat} (hleast : least ≤ 1)
    (hfactor : ∀ us : List (Lexeme α), us.length < n →
      (expression lastLine 3 us).toOption = factor us)
    (hproduct : ∀ us : List (Lexeme α), us.length < n →
      (expression lastLine 2 us).toOption = product us)
    {ts : List (Lexeme α)} (hts : ts.length ≤ n) (left : α) :
    (climb lastLine least left ts).toOption = (moreFactors left ts).bind fun whole =>
      (moreTerms whole.value whole.lexemes).bind fun all =>
        some ⟨all.value, all.lexemes, by have := whole.length_lt; have := all.length_lt; omega⟩ := by
  have hle := nextPrecedence_le ts
  by_cases hzero : nextPrecedence ts = 0
  · have hstop : nextPrecedence ts ≤ least - 1 := by omega
    have hone : nextPrecedence ts ≠ 1 := by omega
    rw [toOption_climb_of_stop hstop, moreFactors_of_stop (by omega), Option.bind_some,
      moreTerms_of_stop hone]
    rfl
  have hpos : 0 < nextPrecedence ts := by omega
  obtain ⟨t, rest, o, rfl, ho, hprecedence⟩ := exists_operator_of_nextPrecedence_pos hpos
  rw [List.length_cons] at hts
  obtain ⟨n, rfl⟩ := Nat.exists_eq_succ_of_ne_zero (n := n) (by omega)
  have ih (left : α) {us : List (Lexeme α)} (hus : us.length ≤ n) :=
    toOption_climb_one hleast (fun vs hvs => hfactor vs (Nat.lt_succ_of_lt hvs))
      (fun vs hvs => hproduct vs (Nat.lt_succ_of_lt hvs)) hus left
  rw [toOption_climb_of_operator ho (by omega)]
  by_cases htwo : nextPrecedence (t :: rest) = 2
  · -- an operator of products takes one more factor of the product that was begun
    have ho2 := hprecedence.symm.trans htwo
    rw [moreFactors_of_operator ho ho2, ho2, hfactor rest (by omega), Option.bind_assoc]
    refine Option.bind_congr fun right _ => ?_
    have hright := right.length_lt
    rw [ih _ (by omega)]
    simp only [Option.bind_assoc, Option.bind_some]
  · -- an operator of sums takes a product, behind which no operator of products stands
    have ho1 : o.precedence = 1 := by omega
    rw [moreFactors_of_stop htwo, Option.bind_some, moreTerms_of_operator ho ho1, ho1,
      hproduct rest (by omega), Option.bind_assoc]
    refine Option.bind_congr fun right hright => ?_
    have hlt := right.length_lt
    have hstop : nextPrecedence right.lexemes ≠ 2 := by
      rw [product] at hright
      obtain ⟨first, -, h⟩ := Option.bind_eq_some_iff.1 hright
      obtain ⟨whole, hwhole, h⟩ := Option.bind_eq_some_iff.1 h
      cases h
      exact nextPrecedence_of_moreFactors (Nat.le_refl _) hwhole
    rw [ih _ (by omega), moreFactors_of_stop hstop]
    simp only [Option.bind_assoc, Option.bind_some]
termination_by n

/-! ## Factors -/

omit [Scalar α] in
theorem expect_mark (s : Symbol) (n : Nat) (ts : List (Lexeme α)) :
    expect lastLine s (mark s n :: ts) = .ok (.single () (mark s n) ts) :=
  if_pos rfl

/-- A word calls a function in both, if operands that are shorter are read alike. -/
theorem toOption_call {name : String} {n : Nat} {ts : List (Lexeme α)}
    (hoperands : ∀ us : List (Lexeme α), us.length < ts.length →
      (arguments lastLine us).toOption = operands us) :
    (atom lastLine (⟨.word name, n⟩ :: ts)).toOption = factor (⟨.word name, n⟩ :: ts) := by
  rw [atom, toOption_bind]
  rcases ts with _ | ⟨⟨token, m⟩, ts⟩
  · rw [factor.eq_def]; rfl
  cases token with
  | symbol s =>
    cases s with
    | leftParen =>
      rw [factor, expect_mark, Except.toOption, Option.bind_some, toOption_bind,
        hoperands (Rest.single () (mark .leftParen m) ts).lexemes (Nat.lt_succ_self _)]
      refine Option.bind_congr fun args _ => ?_
      cases callFunction name args.value <;> rfl
    | _ => rw [factor.eq_def]; rfl
  | _ => rw [factor.eq_def]; rfl

/-- Factors are atoms, if sums, factors and operands that are shorter are read alike. -/
theorem toOption_atom {ts : List (Lexeme α)}
    (hsum : ∀ us : List (Lexeme α), us.length < ts.length →
      (expression lastLine 0 us).toOption = sum us)
    (hfactor : ∀ us : List (Lexeme α), us.length < ts.length →
      (expression lastLine 3 us).toOption = factor us)
    (hoperands : ∀ us : List (Lexeme α), us.length < ts.length →
      (arguments lastLine us).toOption = operands us) :
    (atom lastLine ts).toOption = factor ts := by
  rcases ts with _ | ⟨⟨token, n⟩, ts⟩
  · rw [atom, factor]
    rfl
    all_goals intros; contradiction
  cases token with
  | number x => rw [atom, factor]; rfl
  | quoted text => rw [atom.eq_def, factor.eq_def]; rfl
  | separator => rw [atom.eq_def, factor.eq_def]; rfl
  | finish => rw [atom.eq_def, factor.eq_def]; rfl
  | word name => exact toOption_call fun us hus => hoperands us (Nat.lt_succ_of_lt hus)
  | symbol s =>
    cases s with
    | minus =>
      rw [atom, factor, toOption_bind]
      rw [signPrecedence, hfactor ts (Nat.lt_succ_self _)]
      rfl
    | plus =>
      rw [atom, factor, toOption_bind]
      rw [signPrecedence, hfactor ts (Nat.lt_succ_self _)]
      rfl
    | leftParen =>
      rw [atom, factor, toOption_bind, hsum ts (Nat.lt_succ_self _)]
      refine Option.bind_congr fun inside _ => ?_
      obtain ⟨x, us, hus⟩ := inside
      rcases us with _ | ⟨⟨token, m⟩, us⟩
      · rfl
      cases token with
      | symbol s => cases s <;> rfl
      | _ => rfl
    | _ => rw [atom.eq_def, factor.eq_def]; rfl

/-! ## Arguments of a function -/

omit [Numeral α] in
/-- Behind a comma there are more operands, or the comma was the last. -/
theorem moreOperands_comma (k : Nat) (ts : List (Lexeme α)) :
    moreOperands (mark .comma k :: ts) = (operands ts).bind fun more =>
      some ⟨more.value, more.lexemes, Nat.lt_succ_of_lt more.length_lt⟩ := by
  rw [operands.eq_def]
  split
  · rw [moreOperands]
    rfl
  · rename_i hts
    rw [moreOperands, Option.bind_eq_bind, Option.bind_eq_bind, Option.bind_assoc]
    · refine Option.bind_congr fun next _ => ?_
      rw [Option.bind_eq_bind, Option.bind_eq_bind, Option.bind_assoc]
      rfl
    · exact hts

/-- Operands are the arguments of a function, if sums that are no longer are read alike. -/
theorem toOption_arguments {n : Nat}
    (hsum : ∀ us : List (Lexeme α), us.length ≤ n →
      (expression lastLine 0 us).toOption = sum us)
    {ts : List (Lexeme α)} (hts : ts.length ≤ n) :
    (arguments lastLine ts).toOption = operands ts := by
  rw [arguments.eq_def]
  split
  · rw [operands.eq_1]
    rfl
  rename_i hopen
  rw [operands.eq_2 ts hopen, toOption_bind, hsum ts hts]
  refine Option.bind_congr fun first _ => ?_
  obtain ⟨x, us, hus⟩ := first
  obtain ⟨n, rfl⟩ := Nat.exists_eq_succ_of_ne_zero (n := n) (by omega)
  rcases us with _ | ⟨⟨token, m⟩, us⟩
  · show none = Option.bind (moreOperands []) _
    rw [moreOperands.eq_def]; rfl
  cases token with
  | symbol s =>
    cases s with
    | comma =>
      show (arguments lastLine us >>= _).toOption = Option.bind (moreOperands (mark .comma m :: us)) _
      rw [List.length_cons] at hus
      rw [toOption_bind, moreOperands_comma, Option.bind_assoc,
        toOption_arguments (n := n) (fun vs hvs => hsum vs (Nat.le_succ_of_le hvs)) (by omega)]
      rfl
    | rightParen =>
      show _ = Option.bind (moreOperands (mark .rightParen m :: us)) _
      rw [moreOperands]; rfl
    | _ =>
      show none = Option.bind (moreOperands (_ :: us)) _
      rw [moreOperands.eq_def]; rfl
  | _ =>
    show none = Option.bind (moreOperands (_ :: us)) _
    rw [moreOperands.eq_def]; rfl
termination_by n

/-! ## All levels -/

/-- The levels read expressions of at most `n` lexemes as climbing does. -/
structure Agrees (lastLine n : Nat) : Prop where
  /-- Without a least precedence a sum is read. -/
  sum : ∀ ts : List (Lexeme α), ts.length ≤ n → (expression lastLine 0 ts).toOption = sum ts
  /-- From the precedence of multiplication on a product is read. -/
  product : ∀ ts : List (Lexeme α), ts.length ≤ n →
    (expression lastLine 2 ts).toOption = product ts
  /-- From the precedence of a sign on a factor is read. -/
  factor : ∀ ts : List (Lexeme α), ts.length ≤ n →
    (expression lastLine 3 ts).toOption = factor ts

/-- The levels are read alike, by induction on the number of lexemes. -/
theorem agrees (n : Nat) : Agrees (α := α) lastLine n := by
  induction n using Nat.strong_induction_on with
  | _ n ih =>
    -- operands, parentheses and signs stand before fewer lexemes
    have hsum (us : List (Lexeme α)) (hus : us.length < n) := (ih _ hus).sum us (Nat.le_refl _)
    have hproduct (us : List (Lexeme α)) (hus : us.length < n) :=
      (ih _ hus).product us (Nat.le_refl _)
    have hfactor (us : List (Lexeme α)) (hus : us.length < n) :=
      (ih _ hus).factor us (Nat.le_refl _)
    have hatom (ts : List (Lexeme α)) (hts : ts.length ≤ n) :
        (atom lastLine ts).toOption = Stratified.factor ts :=
      toOption_atom (fun us hus => hsum us (by omega)) (fun us hus => hfactor us (by omega))
        fun us hus => toOption_arguments (n := us.length) (fun vs hvs => hsum vs (by omega))
          (Nat.le_refl _)
    constructor
    case factor =>
      intro ts hts
      exact toOption_expression_sign.trans (hatom ts hts)
    case product =>
      intro ts hts
      rw [expression, toOption_bind, hatom ts hts, Stratified.product]
      refine Option.bind_congr fun first _ => ?_
      have hlt := first.length_lt
      rw [toOption_bind, toOption_climb_two (fun us hus => hfactor us (by omega)) (Nat.le_refl _)]
      rfl
    case sum =>
      intro ts hts
      rw [expression, toOption_bind, hatom ts hts, Stratified.sum, Stratified.product]
      simp only [Option.bind_eq_bind, Option.bind_assoc]
      refine Option.bind_congr fun first _ => ?_
      have hlt := first.length_lt
      rw [toOption_bind, toOption_climb_one (Nat.zero_le 1) (fun us hus => hfactor us (by omega))
        (fun us hus => hproduct us (by omega)) (Nat.le_refl _), Option.bind_assoc]
      refine Option.bind_congr fun whole _ => ?_
      simp only [Option.bind_assoc]
      rfl

/-- **Precedence climbing reads what the grammar of sums, products and factors reads**: it succeeds
on the same lexemes, with the same value and the same lexemes left. -/
theorem toOption_expression_eq_sum (lastLine : Nat) (ts : List (Lexeme α)) :
    (expression lastLine 0 ts).toOption = sum ts :=
  (agrees ts.length).sum ts (Nat.le_refl _)

end Stratified

end Straightedge.Script
