import Straightedge.Proofs.Inversion
import Straightedge.Script.Evaluation

/-! # What a call gives

A reader of arguments succeeds on an argument of the right kind, and a command answers as the
operation that it asks for.

* **`Call.reference_eq_ok_iff`**, **`Call.number_eq_ok_iff`**, **`Call.word_eq_ok_iff`**: what an
  argument has to be.
* **`Call.nameAt_eq_ok_iff_of_some`**: where a name by keyword leaves no room for another one.
* **`reading`**: the operation that a command asks for.
* **`attempt_of_ok`**, **`attempt_of_error`**: how the command answers. -/

namespace Straightedge.Script

variable {α : Type}

/-! ## Reading arguments -/

namespace Call

variable {c : Call α} {i : Nat} {arg : Arg α}

theorem argument_eq_ok_iff : c.argument i = .ok arg ↔ c.items[i]? = some arg := by
  unfold argument argument?
  cases c.items[i]? <;> simp

theorem reference_eq_ok_iff {r : Reference α} :
    c.reference i = .ok r ↔ ∃ arg, c.items[i]? = some arg ∧ toReference? arg = some r := by
  simp only [reference, bind_eq_ok_iff, argument_eq_ok_iff]
  refine exists_congr fun arg => and_congr_right fun _ => ?_
  cases toReference? arg with
  | none => simp [throw_ne_ok]
  | some r' => exact pure_eq_ok_iff.trans (by rw [Option.some.injEq, eq_comm])

theorem number_eq_ok_iff {x : α} : c.number i = .ok x ↔ c.items[i]? = some (.number x) := by
  simp only [number, bind_eq_ok_iff, argument_eq_ok_iff]
  constructor
  · rintro ⟨arg, harg, h⟩
    split at h
    · rw [harg, pure_eq_ok_iff.1 h]
    · exact absurd h throw_ne_ok
  · exact fun h => ⟨_, h, rfl⟩

theorem count_eq_ok_iff [Scalar α] {n : Nat} :
    c.count i = .ok n ↔ ∃ x, c.number i = .ok x ∧ Scalar.toCount? x = some n := by
  simp only [count, bind_eq_ok_iff]
  refine exists_congr fun x => and_congr_right fun _ => ?_
  cases Scalar.toCount? x with
  | none => simp [throw_ne_ok]
  | some m => exact pure_eq_ok_iff.trans (by rw [Option.some.injEq, eq_comm])

theorem word_eq_ok_iff {w : String} :
    c.word i = .ok w ↔ c.items[i]? = some (.quoted w) ∨ c.items[i]? = some (.word w) := by
  simp only [word, bind_eq_ok_iff, argument_eq_ok_iff]
  constructor
  · rintro ⟨arg, harg, h⟩
    split at h
    · rw [harg, pure_eq_ok_iff.1 h]
      exact .inl rfl
    · rw [harg, pure_eq_ok_iff.1 h]
      exact .inr rfl
    · exact absurd h throw_ne_ok
  · rintro (h | h)
    · exact ⟨_, h, rfl⟩
    · exact ⟨_, h, rfl⟩

theorem text_eq_ok_iff [Scalar α] [Numeral α] {t : String} :
    c.text i = .ok t ↔ c.word i = .ok t ∨ ∃ x, c.number i = .ok x ∧ Numeral.shown x = t := by
  simp only [word_eq_ok_iff, number_eq_ok_iff, text, bind_eq_ok_iff, argument_eq_ok_iff]
  constructor
  · rintro ⟨arg, harg, h⟩
    split at h
    · rw [harg, pure_eq_ok_iff.1 h]
      exact .inl (.inl rfl)
    · rw [harg, pure_eq_ok_iff.1 h]
      exact .inl (.inr rfl)
    · exact .inr ⟨_, harg, (pure_eq_ok_iff.1 h).symm⟩
    · exact absurd h throw_ne_ok
  · rintro ((h | h) | ⟨x, h, rfl⟩)
    · exact ⟨_, h, rfl⟩
    · exact ⟨_, h, rfl⟩
    · exact ⟨_, h, rfl⟩

theorem flag_eq_ok_iff {b : Bool} : c.flag i = .ok b ↔ c.items[i]? = some (.flag b) := by
  simp only [flag, bind_eq_ok_iff, argument_eq_ok_iff]
  constructor
  · rintro ⟨arg, harg, h⟩
    split at h
    · rw [harg, pure_eq_ok_iff.1 h]
    · exact absurd h throw_ne_ok
  · exact fun h => ⟨_, h, rfl⟩

theorem requireCount_eq_ok_iff {least most : Nat} :
    c.requireCount least most = .ok () ↔ least ≤ c.size ∧ c.size ≤ most := by
  unfold requireCount
  split
  · simp
    omega
  · simp
    omega

theorem requireLast_eq_ok_iff : c.requireLast i = .ok () ↔ c.size ≤ i + 1 := by
  unfold requireLast
  split <;> simp <;> omega

theorem nameAt_eq_ok_iff_of_some {key : String} (hkey : c.keyName = some key)
    {name : Option String} : c.nameAt i = .ok name ↔ c.size ≤ i ∧ name = some key := by
  simp only [nameAt, hkey]
  split
  · simp [throw_ne_ok]
    omega
  · simp [pure_eq_ok_iff]
    omega

/-! ## The direction of a regular polygon -/

/-- The direction that a regular polygon is given after the number of its corners. -/
def direction (c : Call α) : Except Misuse (Option (Reference α)) :=
  match c.argument? 3 with
  | some (.vector _ _) => some <$> c.reference 3
  | some (.pair _ _) => some <$> c.reference 3
  | _ => pure none

/-- The place for the name of a regular polygon, behind its direction if it has one. -/
def regularPolygonPlace (direction : Option (Reference α)) : Nat :=
  if direction.isSome then 4 else 3

theorem reference_of_direction {d : Reference α} (h : c.direction = .ok (some d)) :
    c.reference 3 = .ok d := by
  have hmap : ∀ e : Except Misuse (Reference α), some <$> e = .ok (some d) → e = .ok d := by
    rintro (misuse | r) he <;> cases he
    rfl
  unfold direction at h
  split at h
  · exact hmap _ h
  · exact hmap _ h
  · cases h

/-- A regular polygon is read from its direction on. -/
theorem regularPolygon_eq [Scalar α] (c : Call α) : c.regularPolygon = (do
    c.requireCount 3 5
    let direction ← c.direction
    c.requireLast (regularPolygonPlace direction)
    let name ← c.nameAt (regularPolygonPlace direction)
    return .regularPolygon (← c.reference 0) (← c.reference 1) (← c.count 2) direction name) := by
  refine bind_congr fun _ => ?_
  unfold direction
  cases c.argument? 3 with
  | none => rfl
  | some arg => cases arg <;> rfl

end Call

/-! ## Commands -/

variable [Scalar α] [Numeral α]

/-- The operation that a command asks for, under bindings and on a session. -/
def reading (s : Session α) (bindings : Bindings α) (c : ResolvedCommand α) :
    Except Misuse (Operation α) :=
  Call.ofCommand bindings c.command >>= fun call => call.operation s.registry c.verb

variable {s s' : Session α} {bindings : Bindings α} {c : ResolvedCommand α}

/-- A command that asks for no operation is refused. -/
theorem attempt_of_error {misuse : Misuse} (h : reading s bindings c = .error misuse) :
    attempt s bindings c = (.error ⟨c.command.line, .misuse c.verb misuse⟩, s) := by
  unfold attempt
  rw [← reading, h]

/-- A command answers as its operation does. -/
theorem attempt_of_ok {op : Operation α} (h : reading s bindings c = .ok op) :
    attempt s bindings c =
      ((s.perform op).1.mapError fun e => ⟨c.command.line, .refused c.verb e⟩,
        (s.perform op).2) := by
  unfold attempt
  rw [← reading, h]
  dsimp only
  rcases s.perform op with ⟨_ | _, _⟩ <;> rfl

/-- **A command succeeds exactly if it asks for an operation that does.** -/
theorem attempt_eq_ok_iff {v : Value α} :
    attempt s bindings c = (.ok v, s') ↔
      ∃ call op, Call.ofCommand bindings c.command = .ok call ∧
        call.operation s.registry c.verb = .ok op ∧ s.perform op = (.ok v, s') := by
  constructor
  · intro h
    cases hreading : reading s bindings c with
    | error misuse =>
      rw [attempt_of_error hreading] at h
      cases h
    | ok op =>
      obtain ⟨call, hcall, hop⟩ := bind_eq_ok_iff.1 hreading
      rw [attempt_of_ok hreading] at h
      refine ⟨call, op, hcall, hop, ?_⟩
      rcases hperform : s.perform op with ⟨_ | _, _⟩ <;> rw [hperform] at h <;> cases h
      rfl
  · rintro ⟨call, op, hcall, hop, hperform⟩
    rw [attempt_of_ok (bind_eq_ok_iff.2 ⟨call, hcall, hop⟩), hperform]
    rfl

end Straightedge.Script
