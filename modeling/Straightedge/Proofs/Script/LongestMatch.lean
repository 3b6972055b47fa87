import Straightedge.Proofs.Script.Lines
import Straightedge.Proofs.Script.Scanners

/-! # Longest match

A grammar says which texts a script is made of and which tokens they denote. It does not say where
in a longer text each of them ends; the rule for that is to take the longest one. The scanners do
not compare texts: each goes on as far as it can, and only the exponent of a number and the second
slash of a comment are looked for ahead.

* **`Denotes`**: the token grammar.
* **`LongestMatch`**: a text read by taking the longest match over and over.
* **`denotes_of_piece`**: pieces are texts of the grammar.
* **`Denotes.hasPiece`**: where a text of the grammar stands there is a piece no shorter.
* **`tokenize_iff_longestMatch`**: the tokens of a script are those read by longest match, and
  without such a reading there are none. -/

namespace Straightedge.Script

open Decimal

variable {α : Type}

/-! ## The grammar of tokens -/

/-- The fraction of a number: a point and digits. -/
inductive IsFraction : List Char → Option (List Char) → Prop
  | none : IsFraction [] none
  | some {digits : List Char} (hdigits : ∀ d ∈ digits, d.isDigit = true) :
      IsFraction ('.' :: digits) (some digits)

/-- The exponent of a number: a mark, an optional sign and at least one digit. -/
inductive IsExponent : List Char → Option Exponent → Prop
  | none : IsExponent [] none
  | some {mark : Char} {sign : Option Char} {digits : List Char} (hmark : mark = 'e' ∨ mark = 'E')
      (hsign : sign = none ∨ sign = some '+' ∨ sign = some '-') (hne : digits ≠ [])
      (hdigits : ∀ d ∈ digits, d.isDigit = true) :
      IsExponent (mark :: (sign.toList ++ digits)) (some ⟨sign, digits⟩)

/-- A number: digits with at most one point among them, at least one of them, and an exponent. -/
inductive IsLiteral : List Char → Literal → Prop
  | mk {whole point mark : List Char} {fraction : Option (List Char)} {exponent : Option Exponent}
      (hwhole : ∀ d ∈ whole, d.isDigit = true) (hpoint : IsFraction point fraction)
      (hmark : IsExponent mark exponent) (hne : whole ++ fraction.getD [] ≠ []) :
      IsLiteral (whole ++ (point ++ mark)) ⟨whole, fraction, exponent⟩

/-- The inside of a quoted text and the characters that it stands for. A backslash takes the next
character, whatever it is, into the text; the quote and line breaks are only possible so. -/
inductive IsInside (quote : Char) : List Char → List Char → Prop
  | nil : IsInside quote [] []
  | plain {c : Char} {cs inside : List Char} (hquote : c ≠ quote) (hescape : c ≠ '\\')
      (hbreak : c ≠ '\n') (h : IsInside quote cs inside) : IsInside quote (c :: cs) (c :: inside)
  | lineBreak {cs inside : List Char} (h : IsInside quote cs inside) :
      IsInside quote ('\\' :: 'n' :: cs) ('\n' :: inside)
  | tab {cs inside : List Char} (h : IsInside quote cs inside) :
      IsInside quote ('\\' :: 't' :: cs) ('\t' :: inside)
  | escaped {e : Char} {cs inside : List Char} (hn : e ≠ 'n') (ht : e ≠ 't')
      (h : IsInside quote cs inside) : IsInside quote ('\\' :: e :: cs) (e :: inside)

/-- **The token grammar**: the texts of which a script is made, each with the token that it denotes.
Blanks and comments denote none. -/
inductive Denotes [Scalar α] : List Char → Option (Token α) → Prop
  | blank {c : Char} (h : Text.isBlank c = true) (hbreak : c ≠ '\n') : Denotes [c] none
  | hashComment {text : List Char} (h : '\n' ∉ text) : Denotes ('#' :: text) none
  | slashComment {text : List Char} (h : '\n' ∉ text) : Denotes ('/' :: '/' :: text) none
  | lineBreak : Denotes ['\n'] (some .separator)
  | semicolon : Denotes [';'] (some .separator)
  | symbol (s : Symbol) : Denotes [s.char] (some (.symbol s))
  | word {c : Char} {cs : List Char} (hc : Text.isLetter c = true ∨ c = '_')
      (hcs : ∀ d ∈ cs, Text.isLetterOrNumeral d = true ∨ d = '_') :
      Denotes (c :: cs) (some (.word (String.ofList (c :: cs))))
  | number {text : List Char} {l : Literal} (h : IsLiteral text l) :
      Denotes text (some (.number (Scalar.ofDecimal l.coefficient l.scale)))
  | quoted {quote : Char} {text inside : List Char} (hquote : quote = '"' ∨ quote = '\'')
      (h : IsInside quote text inside) :
      Denotes (quote :: (text ++ [quote])) (some (.quoted (String.ofList inside)))

/-- **A text read by longest match**: from left to right, the longest text of the grammar that the
rest starts with is taken. -/
inductive LongestMatch [Scalar α] : List Char → List (Option (Token α)) → Prop
  | nil : LongestMatch [] []
  | cons {text rest : List Char} {t : Option (Token α)} {ts : List (Option (Token α))}
      (hdenotes : Denotes text t)
      (hlongest : ∀ more later (t' : Option (Token α)), rest = more ++ later →
        Denotes (text ++ more) t' → more = [])
      (hrest : LongestMatch rest ts) : LongestMatch (text ++ rest) (t :: ts)

/-! ## Numbers -/

/-- What is split off as a fraction is one. -/
theorem isFraction_splitFraction (cs : List Char) :
    ∃ text, cs = text ++ (Literal.splitFraction cs).2 ∧
      IsFraction text (Literal.splitFraction cs).1 := by
  unfold Literal.splitFraction
  split
  · rename_i rest
    refine ⟨'.' :: rest.takeWhile Char.isDigit, ?_, .some fun d hd => List.mem_takeWhile_imp hd⟩
    rw [List.cons_append, List.takeWhile_append_dropWhile]
  · exact ⟨[], rfl, .none⟩

/-- What is split off as a sign is one. -/
theorem splitSign_eq (cs : List Char) :
    cs = (splitSign cs).1.toList ++ (splitSign cs).2 ∧
      ((splitSign cs).1 = none ∨ (splitSign cs).1 = some '+' ∨ (splitSign cs).1 = some '-') := by
  unfold splitSign
  split
  · exact ⟨rfl, .inr (.inl rfl)⟩
  · exact ⟨rfl, .inr (.inr rfl)⟩
  · exact ⟨rfl, .inl rfl⟩

/-- What is split off as an exponent is one. -/
theorem isExponent_split (cs : List Char) :
    ∃ text, cs = text ++ (Exponent.split cs).2 ∧ IsExponent text (Exponent.split cs).1 := by
  cases cs with
  | nil => exact ⟨[], rfl, .none⟩
  | cons c cs =>
    unfold Exponent.split
    by_cases hmark : c = 'e' ∨ c = 'E'
    · obtain ⟨hsplit, hsign⟩ := splitSign_eq cs
      simp only [if_pos hmark]
      split
      · exact ⟨[], rfl, .none⟩
      · rename_i d ds hdigits
        refine ⟨c :: ((splitSign cs).1.toList ++ d :: ds), ?_,
          .some hmark hsign (List.cons_ne_nil d ds) fun x hx => ?_⟩
        · rw [List.cons_append, List.append_assoc, ← hdigits, List.takeWhile_append_dropWhile,
            ← hsplit]
        · exact List.mem_takeWhile_imp (hdigits ▸ hx)
    · simp only [if_neg hmark]
      exact ⟨[], rfl, .none⟩

theorem split_literal_eq (cs : List Char) :
    Literal.split cs =
      (⟨cs.takeWhile Char.isDigit, (Literal.splitFraction (cs.dropWhile Char.isDigit)).1,
        (Exponent.split (Literal.splitFraction (cs.dropWhile Char.isDigit)).2).1⟩,
      (Exponent.split (Literal.splitFraction (cs.dropWhile Char.isDigit)).2).2) := rfl

/-- What a number is taken from spells it. -/
theorem isLiteral_split {cs : List Char} (h : (Literal.split cs).1.isNumber = true) :
    ∃ text, cs = text ++ (Literal.split cs).2 ∧ IsLiteral text (Literal.split cs).1 := by
  obtain ⟨point, hpoint, hfraction⟩ := isFraction_splitFraction (cs.dropWhile Char.isDigit)
  obtain ⟨mark, hmark, hexponent⟩ :=
    isExponent_split (Literal.splitFraction (cs.dropWhile Char.isDigit)).2
  rw [split_literal_eq] at h ⊢
  refine ⟨cs.takeWhile Char.isDigit ++ (point ++ mark), ?_,
    .mk (fun d hd => List.mem_takeWhile_imp hd) hfraction hexponent ?_⟩
  · rw [List.append_assoc, List.append_assoc, ← hmark, ← hpoint, List.takeWhile_append_dropWhile]
  · simpa [Literal.isNumber, Literal.digits] using h

/-- An exponent is split off with all digits behind it. -/
theorem split_of_isExponent {mark : Char} {sign : Option Char} {digits : List Char}
    (hmark : mark = 'e' ∨ mark = 'E')
    (hsign : sign = none ∨ sign = some '+' ∨ sign = some '-') (hne : digits ≠ [])
    (hdigits : ∀ d ∈ digits, d.isDigit = true) (more : List Char) :
    Exponent.split (mark :: (sign.toList ++ digits) ++ more) =
      (some ⟨sign, digits ++ more.takeWhile Char.isDigit⟩, more.dropWhile Char.isDigit) := by
  have hsplit : splitSign (sign.toList ++ digits ++ more) = (sign, digits ++ more) := by
    obtain ⟨d, ds, rfl⟩ := List.exists_cons_of_ne_nil hne
    have hd := hdigits d List.mem_cons_self
    rcases hsign with rfl | rfl | rfl
    · unfold splitSign
      split
      · rename_i heq; cases heq; cases hd
      · rename_i heq; cases heq; cases hd
      · rfl
    · rfl
    · rfl
  rw [List.cons_append]
  unfold Exponent.split
  simp only [if_pos hmark, hsplit, List.takeWhile_append_of_pos hdigits,
    List.dropWhile_append_of_pos hdigits]
  obtain ⟨d, ds, rfl⟩ := List.exists_cons_of_ne_nil hne
  rfl

/-- The mark of an exponent ends the digits and starts no fraction. -/
theorem not_isDigit_of_mark {mark : Char} (hmark : mark = 'e' ∨ mark = 'E') :
    mark.isDigit = false ∧ mark ≠ '.' := by
  rcases hmark with rfl | rfl <;> decide

/-- A fraction is split off with all digits behind it. -/
theorem splitFraction_of_isFraction {digits : List Char}
    (hdigits : ∀ d ∈ digits, d.isDigit = true) (more : List Char) :
    Literal.splitFraction ('.' :: (digits ++ more)) =
      (some (digits ++ more.takeWhile Char.isDigit), more.dropWhile Char.isDigit) := by
  rw [Literal.splitFraction, List.takeWhile_append_of_pos hdigits,
    List.dropWhile_append_of_pos hdigits]

/-- Without a point there is no fraction. -/
theorem splitFraction_of_ne {c : Char} (h : c ≠ '.') (cs : List Char) :
    Literal.splitFraction (c :: cs) = (none, c :: cs) := by
  unfold Literal.splitFraction
  split
  · rename_i heq; cases heq; exact absurd rfl h
  · rfl

/-- A number is split off with at least its own text, and with nothing else if nothing follows. -/
theorem IsLiteral.split_append {text : List Char} {l : Literal} (h : IsLiteral text l)
    (more : List Char) :
    (Literal.split (text ++ more)).2.length ≤ more.length ∧
      (more = [] → (Literal.split (text ++ more)).1 = l) := by
  have hmore := Literal.length_dropWhile_le Char.isDigit more
  cases h with
  | @mk whole point mark fraction exponent hwhole hpoint hmark hne =>
    rw [split_literal_eq]
    simp only [List.append_assoc, List.takeWhile_append_of_pos hwhole,
      List.dropWhile_append_of_pos hwhole]
    cases hpoint with
    | none =>
      cases hmark with
      | none =>
        refine ⟨?_, ?_⟩
        · have hfraction := Literal.length_splitFraction_le (more.dropWhile Char.isDigit)
          exact (Exponent.length_split_le _).trans (hfraction.trans hmore)
        · rintro rfl
          simp only [List.takeWhile_nil, List.append_nil]
          rfl
      | @some mark sign digits hmark hsign hne hdigits =>
        obtain ⟨hdigit, hpoint⟩ := not_isDigit_of_mark hmark
        have hsplit := split_of_isExponent hmark hsign hne hdigits more
        simp only [List.nil_append, List.cons_append] at hsplit ⊢
        rw [List.takeWhile_cons_of_neg (ne_true_of_eq_false hdigit),
          List.dropWhile_cons_of_neg (ne_true_of_eq_false hdigit),
          splitFraction_of_ne hpoint, hsplit]
        refine ⟨hmore, ?_⟩
        rintro rfl
        simp
    | @some fractional hfraction =>
      simp only [List.cons_append]
      rw [List.takeWhile_cons_of_neg (by decide), List.dropWhile_cons_of_neg (by decide),
        splitFraction_of_isFraction hfraction]
      cases hmark with
      | none =>
        refine ⟨(Exponent.length_split_le _).trans hmore, ?_⟩
        rintro rfl
        simp only [List.takeWhile_nil, List.append_nil]
        rfl
      | @some mark sign digits hmark hsign hne hdigits =>
        obtain ⟨hdigit, hpoint⟩ := not_isDigit_of_mark hmark
        have hsplit := split_of_isExponent hmark hsign hne hdigits more
        simp only [List.cons_append] at hsplit ⊢
        rw [List.takeWhile_cons_of_neg (ne_true_of_eq_false hdigit),
          List.dropWhile_cons_of_neg (ne_true_of_eq_false hdigit), hsplit]
        refine ⟨hmore, ?_⟩
        rintro rfl
        simp

/-- A number starts with a digit or a point. -/
theorem IsLiteral.exists_cons {text : List Char} {l : Literal} (h : IsLiteral text l) :
    ∃ c cs, text = c :: cs ∧ startsNumber c = true := by
  cases h with
  | @mk whole point mark fraction exponent hwhole hpoint hmark hne =>
    cases whole with
    | cons d ds =>
      exact ⟨d, ds ++ (point ++ mark), rfl, by simp [startsNumber, hwhole d List.mem_cons_self]⟩
    | nil =>
      cases hpoint with
      | none => exact absurd rfl hne
      | @some digits hdigits => exact ⟨'.', digits ++ mark, rfl, rfl⟩

/-- What is split off from a number and more is a number. -/
theorem IsLiteral.isNumber_split {text : List Char} {l : Literal} (h : IsLiteral text l)
    (more : List Char) : (Literal.split (text ++ more)).1.isNumber = true := by
  cases h with
  | @mk whole point mark fraction exponent hwhole hpoint hmark hne =>
    have hdigits : (Literal.split (whole ++ (point ++ mark) ++ more)).1.digits ≠ [] := by
      rw [split_literal_eq]
      simp only [Literal.digits, List.append_assoc, List.takeWhile_append_of_pos hwhole,
        List.dropWhile_append_of_pos hwhole]
      cases whole with
      | cons d ds => simp
      | nil =>
        cases hpoint with
        | none => exact absurd rfl hne
        | @some digits hfraction =>
          rw [List.cons_append, List.dropWhile_cons_of_neg (by decide),
            splitFraction_of_isFraction hfraction]
          simpa using fun hnil => absurd hnil (by simpa using hne)
    simpa [Literal.isNumber] using hdigits

/-- A text spells one number at most. -/
theorem IsLiteral.unique {text : List Char} {l l' : Literal} (h : IsLiteral text l)
    (h' : IsLiteral text l') : l = l' :=
  ((h.split_append []).2 rfl).symm.trans ((h'.split_append []).2 rfl)

/-! ## Quoted texts -/

/-- The inside of a quoted text is scanned up to its quote. -/
theorem scanQuoted_of_isInside {quote : Char} (hquote : quote ≠ '\\') {text inside : List Char}
    (h : IsInside quote text inside) (more : List Char) :
    scanQuoted quote (text ++ quote :: more) = some (inside, more) := by
  induction h with
  | nil =>
    rw [List.nil_append]
    unfold scanQuoted
    rw [if_pos rfl]
  | plain hne hescape hbreak _ ih =>
    rw [List.cons_append]
    unfold scanQuoted
    rw [if_neg hne, if_neg hescape, if_neg hbreak, ih]
    rfl
  | lineBreak _ ih =>
    rw [List.cons_append, List.cons_append, scanQuoted, if_neg hquote.symm, if_pos rfl, ih]
    rfl
  | tab _ ih =>
    rw [List.cons_append, List.cons_append, scanQuoted, if_neg hquote.symm, if_pos rfl, ih]
    rfl
  | @escaped e _ _ hn ht _ ih =>
    have hself : unescape e = e := by
      unfold unescape
      split
      · exact absurd rfl hn
      · exact absurd rfl ht
      · rfl
    rw [List.cons_append, List.cons_append, scanQuoted, if_neg hquote.symm, if_pos rfl, ih,
      Option.map_some, hself]

/-- What is scanned up to a quote is the inside of a quoted text. -/
theorem isInside_of_scanQuoted {quote : Char} {cs inside rest : List Char}
    (h : scanQuoted quote cs = some (inside, rest)) :
    ∃ text, cs = text ++ quote :: rest ∧ IsInside quote text inside := by
  fun_induction scanQuoted quote cs generalizing inside rest with
  | case1 => cases h
  | case2 =>
    -- the closing quote
    cases h
    exact ⟨[], rfl, .nil⟩
  | case3 => cases h
  | case4 e more _ ih =>
    -- a backslash and the character behind it
    obtain ⟨⟨_, _⟩, hmore, heq⟩ := Option.map_eq_some_iff.1 h
    cases heq
    obtain ⟨text, rfl, htext⟩ := ih hmore
    refine ⟨'\\' :: e :: text, rfl, ?_⟩
    unfold unescape
    split
    · exact .lineBreak htext
    · exact .tab htext
    · rename_i hn ht
      exact .escaped hn ht htext
  | case5 => cases h
  | case6 c cs hquote hescape hbreak ih =>
    obtain ⟨⟨_, _⟩, hcs, heq⟩ := Option.map_eq_some_iff.1 h
    cases heq
    obtain ⟨text, rfl, htext⟩ := ih hcs
    exact ⟨c :: text, rfl, .plain hquote hescape hbreak htext⟩

/-! ## First characters -/

/-- A character whose code is in no range of blanks is not blank. -/
theorem not_isBlank_of_range {c : Char} {first last : Nat} (hfirst : first ≤ c.toNat)
    (hlast : c.toNat ≤ last) (h : ∀ b ∈ Text.blankRanges, b.2 < first ∨ last < b.1) :
    Text.isBlank c = false := by
  refine eq_false_of_ne_true fun hblank => ?_
  obtain ⟨b, hb, hle, hle'⟩ := Text.inRanges_eq_true_iff.1 hblank
  rcases h b hb with hlt | hlt <;> omega

theorem toNat_of_isDigit {c : Char} (h : c.isDigit = true) : 48 ≤ c.toNat ∧ c.toNat ≤ 57 := by
  simp [Char.isDigit, UInt32.le_iff_toNat_le] at h
  exact h

theorem toNat_of_isAlpha {c : Char} (h : c.isAlpha = true) :
    (65 ≤ c.toNat ∧ c.toNat ≤ 90) ∨ (97 ≤ c.toNat ∧ c.toNat ≤ 122) := by
  rcases (Bool.or_eq_true_iff (x := c.isUpper)).1 h with hupper | hlower
  · obtain ⟨hle, hle'⟩ : 65 ≤ c.val ∧ c.val ≤ 90 := of_decide_eq_true hupper
    exact .inl ⟨UInt32.le_iff_toNat_le.1 hle, UInt32.le_iff_toNat_le.1 hle'⟩
  · obtain ⟨hle, hle'⟩ := (Bool.and_eq_true_iff (x := decide (97 ≤ c.val))).1 hlower
    exact .inr ⟨UInt32.le_iff_toNat_le.1 (of_decide_eq_true hle),
      UInt32.le_iff_toNat_le.1 (of_decide_eq_true hle')⟩

/-- The letters are those of two ranges below 128, and others from there on. -/
theorem toNat_of_isLetter {c : Char} (h : Text.isLetter c = true) :
    (65 ≤ c.toNat ∧ c.toNat ≤ 90) ∨ (97 ≤ c.toNat ∧ c.toNat ≤ 122) ∨
      128 ≤ c.toNat ∧ ∃ r ∈ Text.letterRanges, r.1 ≤ c.toNat ∧ c.toNat ≤ r.2 := by
  unfold Text.isLetter at h
  split at h
  · rcases toNat_of_isAlpha h with h | h
    · exact .inl h
    · exact .inr (.inl h)
  · exact .inr (.inr ⟨by omega, Text.inRanges_eq_true_iff.1 h⟩)

/-- No letter is blank. -/
theorem not_isBlank_of_isLetter {c : Char} (h : Text.isLetter c = true) :
    Text.isBlank c = false := by
  have hdisjoint : ∀ r ∈ Text.letterRanges, ∀ b ∈ Text.blankRanges, b.2 < r.1 ∨ r.2 < b.1 := by
    decide +kernel
  rcases toNat_of_isLetter h with ⟨hfirst, hlast⟩ | ⟨hfirst, hlast⟩ | ⟨-, r, hr, hfirst, hlast⟩
  · exact not_isBlank_of_range hfirst hlast (by decide)
  · exact not_isBlank_of_range hfirst hlast (by decide)
  · exact not_isBlank_of_range hfirst hlast (hdisjoint r hr)

/-- Words and numbers start with different characters. -/
theorem startsNumber_of_startsWord {c : Char} (h : startsWord c = true) :
    startsNumber c = false := by
  refine eq_false_of_ne_true fun hnumber => ?_
  simp only [startsWord, startsNumber, Bool.or_eq_true, decide_eq_true_eq] at h hnumber
  rcases hnumber with hdigit | rfl
  · have := toNat_of_isDigit hdigit
    rcases h with hletter | rfl
    · rcases toNat_of_isLetter hletter with h | h | ⟨h, -⟩ <;> omega
    · exact absurd hdigit (by decide)
  · exact absurd h (by decide)

theorem continuesWord_of_startsWord {c : Char} (h : startsWord c = true) :
    continuesWord c = true := by
  simp only [startsWord, continuesWord, Text.isLetterOrNumeral, Bool.or_eq_true] at h ⊢
  exact h.imp .inl id

theorem char_eq_of_ofChar? {c : Char} {s : Symbol} (h : Symbol.ofChar? c = some s) :
    c = s.char := by
  unfold Symbol.ofChar? at h
  split at h
  all_goals
    cases h
    try rfl

section

variable [Scalar α] {c : Char}

/-- At a letter or an underscore there is a word. -/
theorem piece_of_startsWord (h : startsWord c = true) (cs : List Char) :
    piece (α := α) c cs =
      .ok (.token (.word (scanWord (c :: cs)).1), (scanWord (c :: cs)).2) := by
  have hblank : Text.isBlank c = false := by
    simp only [startsWord, Bool.or_eq_true, decide_eq_true_eq] at h
    rcases h with hletter | rfl
    · exact not_isBlank_of_isLetter hletter
    · decide
  have hne (d : Char) (hd : startsWord d = false) : c ≠ d := by
    rintro rfl
    exact absurd (h.symm.trans hd) Bool.noConfusion
  unfold piece
  rw [if_neg (hne _ (by decide)), if_neg (ne_true_of_eq_false hblank),
    if_neg (hne _ (by decide)), if_neg (hne _ (by decide)),
    if_neg (ne_true_of_eq_false (startsNumber_of_startsWord h)), if_pos h]

/-- At a digit or a point there is a number. -/
theorem piece_of_startsNumber (h : startsNumber c = true) (cs : List Char) :
    piece (α := α) c cs =
      (scanNumber (c :: cs)).map fun (value, rest) => (.token (.number value), rest) := by
  have hblank : Text.isBlank c = false := by
    simp only [startsNumber, Bool.or_eq_true, decide_eq_true_eq] at h
    rcases h with hdigit | rfl
    · obtain ⟨hfirst, hlast⟩ := toNat_of_isDigit hdigit
      exact not_isBlank_of_range hfirst hlast (by decide)
    · decide
  have hne (d : Char) (hd : startsNumber d = false) : c ≠ d := by
    rintro rfl
    exact absurd (h.symm.trans hd) Bool.noConfusion
  unfold piece
  rw [if_neg (hne _ (by decide)), if_neg (ne_true_of_eq_false hblank),
    if_neg (hne _ (by decide)), if_neg (hne _ (by decide)), if_pos h]

/-- At a quote there is a quoted text, if it is closed. -/
theorem piece_of_quote (hc : c = '"' ∨ c = '\'') {cs inside rest : List Char}
    (h : scanQuoted c cs = some (inside, rest)) :
    piece (α := α) c cs = .ok (.token (.quoted (String.ofList inside)), rest) := by
  rw [piece_at_quote hc, h]

end

/-! ## Pieces and the grammar -/

/-- What stays on its line is dropped with what follows. -/
theorem dropWhile_staysOnLine_append {text : List Char} (h : '\n' ∉ text) (rest : List Char) :
    (text ++ rest).dropWhile staysOnLine = rest.dropWhile staysOnLine := by
  refine List.dropWhile_append_of_pos fun c hc => ?_
  have hne : c ≠ '\n' := by rintro rfl; exact h hc
  simpa [staysOnLine] using hne

variable [Scalar α]

/-- A number is scanned from a literal. -/
theorem denotes_of_scanNumber {c : Char} {cs rest : List Char} {x : α}
    (h : scanNumber (c :: cs) = .ok (x, rest)) :
    ∃ text, c :: cs = text ++ rest ∧ Denotes text (some (.number x)) := by
  unfold scanNumber at h
  simp only at h
  split at h
  · rename_i hnumber
    cases h
    obtain ⟨text, htext, hliteral⟩ := isLiteral_split hnumber
    exact ⟨text, htext, .number hliteral⟩
  · cases h

/-- A word is scanned from a word of the grammar. -/
theorem denotes_of_scanWord {c : Char} (h : startsWord c = true) (cs : List Char) :
    c :: cs = (c :: cs.takeWhile continuesWord) ++ (scanWord (c :: cs)).2 ∧
      Denotes (α := α) (c :: cs.takeWhile continuesWord) (some (.word (scanWord (c :: cs)).1)) := by
  have hcontinues : continuesWord c = true := continuesWord_of_startsWord h
  constructor
  · rw [scanWord, List.dropWhile_cons_of_pos hcontinues, List.cons_append,
      List.takeWhile_append_dropWhile]
  · rw [scanWord, List.takeWhile_cons_of_pos hcontinues]
    exact .word (by simpa [startsWord] using h) fun d hd => by
      simpa [continuesWord] using List.mem_takeWhile_imp hd

/-- A piece is taken from a text of the grammar. -/
theorem denotes_of_piece {c : Char} {cs rest : List Char} {p : Piece α}
    (h : piece c cs = .ok (p, rest)) : ∃ text, c :: cs = text ++ rest ∧ Denotes text p.token? := by
  have hcomment : ∀ text : List Char, '\n' ∉ text.takeWhile staysOnLine := fun text hmem =>
    absurd (List.mem_takeWhile_imp hmem) (by decide)
  unfold piece at h
  split at h
  · rename_i hc
    cases h
    subst hc
    exact ⟨['\n'], rfl, .lineBreak⟩
  rename_i hbreak
  split at h
  · rename_i hblank
    cases h
    exact ⟨[c], rfl, .blank hblank hbreak⟩
  split at h
  · rename_i hmark
    cases h
    subst hmark
    exact ⟨'#' :: cs.takeWhile staysOnLine, by
      rw [List.cons_append, List.takeWhile_append_dropWhile], .hashComment (hcomment cs)⟩
  split at h
  · rename_i hslash
    subst hslash
    split at h
    · rename_i more
      cases h
      exact ⟨'/' :: '/' :: more.takeWhile staysOnLine, by
        rw [List.cons_append, List.cons_append, List.takeWhile_append_dropWhile],
        .slashComment (hcomment more)⟩
    · cases h
      exact ⟨['/'], rfl, .symbol .slash⟩
  split at h
  · obtain ⟨⟨value, after⟩, hscan, heq⟩ := map_eq_ok_iff.1 h
    cases heq
    exact denotes_of_scanNumber hscan
  split at h
  · rename_i hword
    cases h
    exact ⟨_, denotes_of_scanWord hword cs⟩
  split at h
  · rename_i hquote
    split at h
    · rename_i inside after hscan
      cases h
      obtain ⟨text, rfl, hinside⟩ := isInside_of_scanQuoted hscan
      exact ⟨c :: (text ++ [c]), by simp, .quoted hquote hinside⟩
    · cases h
  split at h
  · rename_i hc
    cases h
    subst hc
    exact ⟨[';'], rfl, .semicolon⟩
  split at h
  · rename_i s hs
    cases h
    exact ⟨[c], rfl, by rw [char_eq_of_ofChar? hs]; exact .symbol s⟩
  · cases h

/-- **A piece stands where a text stands before `more`**: it takes no less than the text, and if it
takes no more, it is a given token. -/
def HasPiece (text more : List Char) (t : Option (Token α)) : Prop :=
  ∃ c cs p rest, text ++ more = c :: cs ∧ piece c cs = .ok (p, rest) ∧
    rest.length ≤ more.length ∧ (rest = more → p.token? = t)

/-- A slash is a symbol, unless a second one makes a comment of it. -/
theorem hasPiece_slash (more : List Char) : HasPiece (α := α) ['/'] more (some (.symbol .slash)) := by
  by_cases hmore : ∃ later, more = '/' :: later
  · obtain ⟨later, rfl⟩ := hmore
    have hle := Literal.length_dropWhile_le staysOnLine later
    refine ⟨'/', '/' :: later, .gap, _, rfl, rfl, Nat.le_succ_of_le hle, fun hrest => ?_⟩
    have hlength := congrArg List.length hrest
    rw [List.length_cons] at hlength
    omega
  · exact ⟨'/', more, .token (.symbol .slash), more, rfl,
      piece_of_slash fun later hlater => hmore ⟨later, hlater⟩, Nat.le_refl _, fun _ => rfl⟩

/-- A word goes on as long as the characters do. -/
theorem hasPiece_word {c : Char} {cs : List Char} (hc : startsWord c = true)
    (hcs : ∀ d ∈ cs, continuesWord d = true) (more : List Char) :
    HasPiece (α := α) (c :: cs) more (some (.word (String.ofList (c :: cs)))) := by
  have hall : ∀ d ∈ c :: cs, continuesWord d = true :=
    List.forall_mem_cons.2 ⟨continuesWord_of_startsWord hc, hcs⟩
  refine ⟨c, cs ++ more, _, _, rfl, piece_of_startsWord hc _, ?_, fun hrest => ?_⟩
  · rw [scanWord, ← List.cons_append, List.dropWhile_append_of_pos hall]
    exact Literal.length_dropWhile_le _ _
  · have hrest' : more.dropWhile continuesWord = more := by
      rwa [scanWord, ← List.cons_append, List.dropWhile_append_of_pos hall] at hrest
    have hnone : more.takeWhile continuesWord = [] :=
      List.append_left_eq_self.1 ((congrArg _ hrest'.symm).trans List.takeWhile_append_dropWhile)
    rw [scanWord, ← List.cons_append, List.takeWhile_append_of_pos hall, hnone, List.append_nil]
    rfl

/-- A number takes no less than a literal, and the text of a literal spells no other one. -/
theorem hasPiece_number {text : List Char} {l : Literal} (h : IsLiteral text l)
    (more : List Char) : HasPiece (α := α) text more (some (.number (Scalar.ofDecimal l.coefficient l.scale))) := by
  obtain ⟨c, cs, rfl, hstarts⟩ := h.exists_cons
  have hpiece : piece (α := α) c (cs ++ more) = _ := piece_of_startsNumber hstarts _
  rw [← List.cons_append, scanNumber] at hpiece
  simp only [if_pos (h.isNumber_split more)] at hpiece
  refine ⟨c, cs ++ more, _, _, rfl, hpiece, (h.split_append more).1, fun hrest => ?_⟩
  obtain ⟨text, htext, hliteral⟩ := isLiteral_split (h.isNumber_split more)
  have hrest' : (Literal.split (c :: cs ++ more)).2 = more := hrest
  rw [hrest'] at htext
  obtain rfl := List.append_cancel_right htext
  rw [h.unique hliteral]
  rfl

/-- **Where a text of the grammar stands there is a piece.** -/
theorem Denotes.hasPiece {text : List Char} {t : Option (Token α)} (h : Denotes text t)
    (more : List Char) : HasPiece text more t := by
  have hcomment {cs : List Char} (hcs : '\n' ∉ cs) :
      ((cs ++ more).dropWhile staysOnLine).length ≤ more.length := by
    rw [dropWhile_staysOnLine_append hcs]
    exact Literal.length_dropWhile_le _ _
  cases h with
  | @blank c hblank hbreak =>
    refine ⟨c, more, .gap, more, rfl, ?_, Nat.le_refl _, fun _ => rfl⟩
    unfold piece
    rw [if_neg hbreak, if_pos hblank]
  | @hashComment cs hcs => exact ⟨'#', cs ++ more, .gap, _, rfl, rfl, hcomment hcs, fun _ => rfl⟩
  | @slashComment cs hcs =>
    exact ⟨'/', '/' :: (cs ++ more), .gap, _, rfl, rfl, hcomment hcs, fun _ => rfl⟩
  | lineBreak => exact ⟨'\n', more, .lineBreak, more, rfl, rfl, Nat.le_refl _, fun _ => rfl⟩
  | semicolon => exact ⟨';', more, .token .separator, more, rfl, rfl, Nat.le_refl _, fun _ => rfl⟩
  | symbol s =>
    by_cases hslash : s = .slash
    · subst hslash
      exact hasPiece_slash more
    · refine ⟨s.char, more, .token (.symbol s), more, rfl, ?_, Nat.le_refl _, fun _ => rfl⟩
      cases s with
      | slash => exact absurd rfl hslash
      | _ => rfl
  | @word c cs hc hcs =>
    have hword : startsWord c = true := by simpa [startsWord] using hc
    exact hasPiece_word hword (fun d hd => by simpa [continuesWord] using hcs d hd) more
  | number hliteral => exact hasPiece_number hliteral more
  | @quoted quote cs inside hquote hinside =>
    have hne : quote ≠ '\\' := by rcases hquote with rfl | rfl <;> decide
    exact ⟨quote, cs ++ quote :: more, .token (.quoted (String.ofList inside)), more, by simp,
      piece_of_quote hquote (scanQuoted_of_isInside hne hinside more), Nat.le_refl _, fun _ => rfl⟩

/-! ## Readings -/

/-- **Pieces are taken by longest match.** -/
theorem longestMatch_iff_splits {cs : List Char} {ts : List (Option (Token α))} :
    LongestMatch cs ts ↔ ∃ parts, Splits cs parts ∧ ts = parts.map Part.token? := by
  constructor
  · intro h
    induction h with
    | nil => exact ⟨[], .nil, rfl⟩
    | @cons text rest t ts hdenotes hlongest hrest ih =>
      obtain ⟨parts, hparts, rfl⟩ := ih
      obtain ⟨c, cs, p, rest', hcs, hpiece, hle, htoken⟩ := hdenotes.hasPiece rest
      obtain ⟨text', htext', hdenotes'⟩ := denotes_of_piece hpiece
      -- the piece takes the text and perhaps more, but nothing more is in the grammar
      have hsuffix : rest' <:+ rest :=
        List.suffix_of_suffix_length_le ⟨text', htext'.symm.trans hcs.symm⟩ ⟨text, rfl⟩ hle
      obtain ⟨more, rfl⟩ := hsuffix
      have htext : text' = text ++ more := by
        have happend : text' ++ rest' = (text ++ more) ++ rest' := by
          rw [← htext', ← hcs, List.append_assoc]
        exact List.append_cancel_right happend
      have hnil : more = [] := hlongest more rest' _ rfl (htext ▸ hdenotes')
      subst hnil
      rw [hcs]
      exact ⟨⟨p, text⟩ :: parts, .cons hpiece hcs.symm hparts, by
        rw [List.map_cons, Part.token?, htoken rfl]⟩
  · rintro ⟨parts, hparts, rfl⟩
    induction hparts with
    | nil => exact .nil
    | @cons c cs text rest p parts hpiece htext hrest ih =>
      obtain ⟨text', htext', hdenotes⟩ := denotes_of_piece hpiece
      obtain rfl := List.append_cancel_right (htext.symm.trans htext')
      rw [htext]
      refine .cons hdenotes (fun more later t' hmore hlonger => ?_) ih
      -- at a longer text of the grammar the piece would be longer
      obtain ⟨c', cs', p', rest', hcs, hpiece', hle, -⟩ := hlonger.hasPiece later
      rw [List.append_assoc, ← hmore, ← htext] at hcs
      cases hcs
      cases hpiece.symm.trans hpiece'
      rw [hmore, List.length_append] at hle
      exact List.eq_nil_of_length_eq_zero (by omega)

/-- **The tokens of a script are read by longest match.** A script has tokens exactly if it is read
so; they are the ones that its texts denote, in order, and the end. -/
theorem tokenize_iff_longestMatch (source : String) (tokens : List (Token α)) :
    (∃ lexemes, tokenize source = .ok lexemes ∧ lexemes.map Lexeme.token = tokens) ↔
      ∃ denoted, LongestMatch source.toList denoted ∧
        tokens = denoted.filterMap id ++ [.finish] := by
  constructor
  · rintro ⟨lexemes, hlexemes, rfl⟩
    obtain ⟨parts, hparts, rfl⟩ := tokensFrom_eq_ok_iff.1 hlexemes
    refine ⟨parts.map Part.token?, longestMatch_iff_splits.2 ⟨parts, hparts, rfl⟩, ?_⟩
    rw [map_token_numbered, List.filterMap_map]
    rfl
  · rintro ⟨denoted, hdenoted, rfl⟩
    obtain ⟨parts, hparts, rfl⟩ := longestMatch_iff_splits.1 hdenoted
    refine ⟨numbered 1 parts, tokensFrom_eq_ok_iff.2 ⟨parts, hparts, rfl⟩, ?_⟩
    rw [map_token_numbered, List.filterMap_map]
    rfl

end Straightedge.Script
