import Straightedge.Binary64
import Straightedge.Proofs.Session.Atomicity
import Straightedge.Proofs.Session.Policy

/-! # Leaving failing commands out

A session whose policy is to skip runs a script as if its failing commands had not been written: a
command that fails changes neither the session nor the bindings. A strict session runs the same
commands up to the first that fails.

* **`Trial`**, **`trials`**: the commands of a script with what each of them answers.
* **`run_skip_eq`**: a run that skips reports all of them.
* **`run_succeeding_eq`**: the commands that succeed lead to the same session on their own.
* **`run_abort_eq`**: a strict run ends at the first command that fails.
* **`run_skip_eq_run_succeeding`**: how the three runs and the evaluation of a source compare. -/

namespace Straightedge.Script

variable {α : Type}

/-! ## What commands answer -/

/-- A command and what it answered. -/
structure Trial (α : Type) where
  /-- The command. -/
  command : ResolvedCommand α
  /-- Its value or its error. -/
  answer : Except ScriptError (Value α)

namespace Trial

/-- Whether the command succeeded. -/
def succeeded (t : Trial α) : Bool := t.answer.isOk

/-- The outcome of a command that succeeded. -/
def outcome? (t : Trial α) : Option (Outcome α) :=
  match t.answer with
  | .ok value => some ⟨t.command.command.line, t.command.verb, value⟩
  | .error _ => none

/-- The error of a command that failed. -/
def error? (t : Trial α) : Option ScriptError :=
  match t.answer with
  | .ok _ => none
  | .error e => some e

end Trial

/-- The commands that succeeded. -/
def succeeding (tried : List (Trial α)) : List (ResolvedCommand α) :=
  (tried.filter Trial.succeeded).map Trial.command

/-- The commands before the first that failed. -/
def beforeFailure (tried : List (Trial α)) : List (ResolvedCommand α) :=
  (tried.takeWhile Trial.succeeded).map Trial.command

@[simp] theorem succeeding_cons_ok (c : ResolvedCommand α) (value : Value α)
    (tried : List (Trial α)) : succeeding (⟨c, .ok value⟩ :: tried) = c :: succeeding tried := rfl

@[simp] theorem succeeding_cons_error (c : ResolvedCommand α) (e : ScriptError)
    (tried : List (Trial α)) : succeeding (⟨c, .error e⟩ :: tried) = succeeding tried := rfl

@[simp] theorem beforeFailure_cons_ok (c : ResolvedCommand α) (value : Value α)
    (tried : List (Trial α)) :
    beforeFailure (⟨c, .ok value⟩ :: tried) = c :: beforeFailure tried := rfl

@[simp] theorem beforeFailure_cons_error (c : ResolvedCommand α) (e : ScriptError)
    (tried : List (Trial α)) : beforeFailure (⟨c, .error e⟩ :: tried) = [] := rfl

variable [Scalar α] [Numeral α]

/-- What commands answer one after another. Only a command that succeeds can bind a word. -/
def trials (s : Session α) (bindings : Bindings α) : List (ResolvedCommand α) → List (Trial α)
  | [] => []
  | c :: cs =>
    match attempt s bindings c with
    | (.ok value, s') => ⟨c, .ok value⟩ :: trials s' (bindResult bindings c.command value) cs
    | (.error e, s') => ⟨c, .error e⟩ :: trials s' bindings cs

/-! ## One command -/

section

variable {s s' : Session α} {bindings : Bindings α} {c : ResolvedCommand α}

/-- A command answers the same under either policy. -/
theorem attempt_withPolicy (s : Session α) (policy : ErrorPolicy) (bindings : Bindings α)
    (c : ResolvedCommand α) :
    attempt (s.withPolicy policy) bindings c =
      ((attempt s bindings c).1, (attempt s bindings c).2.withPolicy policy) := by
  simp only [attempt, Session.registry_withPolicy, Session.perform_withPolicy]
  cases Call.ofCommand bindings c.command >>= fun call => call.operation s.registry c.verb with
  | error misuse => rfl
  | ok op =>
    dsimp only
    rcases s.perform op with ⟨_ | _, _⟩ <;> rfl

/-- **A command that fails changes nothing**, whether its arguments do not fit or its operation is
refused. -/
theorem attempt_session_of_error (hs : s.registry.Indexed) {e : ScriptError}
    (h : attempt s bindings c = (.error e, s')) : s' = s := by
  unfold attempt at h
  split at h
  · cases h; rfl
  · rename_i op _
    split at h
    · cases h
    · rename_i e' s₁ hperform
      cases h
      have hsession := Session.session_perform_of_error hs (congrArg Prod.fst hperform)
      rw [hperform] at hsession
      exact hsession

/-- The error of a command is on its line. -/
theorem line_of_attempt_error {e : ScriptError} (h : attempt s bindings c = (.error e, s')) :
    e.line = c.command.line := by
  unfold attempt at h
  split at h
  · cases h; rfl
  · split at h
    · cases h
    · cases h; rfl

/-- A command keeps the index of the registry right. -/
theorem indexed_of_attempt (hs : s.registry.Indexed) {answer : Except ScriptError (Value α)}
    (h : attempt s bindings c = (answer, s')) : s'.registry.Indexed := by
  unfold attempt at h
  split at h
  · cases h; exact hs
  · rename_i op _
    have hop : (s.perform op).2.registry.Indexed :=
      Session.perform_induction (motive := fun s => s.registry.Indexed)
        (fun _ _ _ hs hc => Session.indexed_change hs hc) hs op
    split at h
    · rename_i hperform
      cases h; rw [hperform] at hop; exact hop
    · rename_i hperform
      cases h; rw [hperform] at hop; exact hop

theorem trials_cons_of_ok {value : Value α} (h : attempt s bindings c = (.ok value, s'))
    (cs : List (ResolvedCommand α)) :
    trials s bindings (c :: cs) =
      ⟨c, .ok value⟩ :: trials s' (bindResult bindings c.command value) cs := by
  simp only [trials, h]

theorem trials_cons_of_error {e : ScriptError} (h : attempt s bindings c = (.error e, s'))
    (cs : List (ResolvedCommand α)) :
    trials s bindings (c :: cs) = ⟨c, .error e⟩ :: trials s' bindings cs := by
  simp only [trials, h]

/-- A command that succeeds gives an outcome and is followed by the others. -/
theorem run_cons_of_ok {value : Value α} (h : attempt s bindings c = (.ok value, s'))
    (cs : List (ResolvedCommand α)) :
    run s bindings (c :: cs) =
      { run s' (bindResult bindings c.command value) cs with
        outcomes := ⟨c.command.line, c.verb, value⟩ ::
          (run s' (bindResult bindings c.command value) cs).outcomes } := by
  simp only [run, h]

/-- A command that fails in a run that skips is reported, and the others follow. -/
theorem run_cons_of_skip {e : ScriptError} (h : attempt s bindings c = (.error e, s'))
    (hpolicy : s.settings.onError = .skip) (cs : List (ResolvedCommand α)) :
    run s bindings (c :: cs) =
      { run s' bindings cs with diagnostics := e :: (run s' bindings cs).diagnostics } := by
  simp only [run, h, hpolicy]

/-- A command that fails in a strict run is the last one. -/
theorem run_cons_of_abort {e : ScriptError} (h : attempt s bindings c = (.error e, s'))
    (hpolicy : s.settings.onError = .abort) (cs : List (ResolvedCommand α)) :
    run s bindings (c :: cs) = ⟨s', [], [], some e⟩ := by
  simp only [run, h, hpolicy]

end

/-! ## Runs -/

/-- Every command is tried once, in order. -/
theorem map_command_trials (s : Session α) (bindings : Bindings α)
    (commands : List (ResolvedCommand α)) :
    (trials s bindings commands).map Trial.command = commands := by
  induction commands generalizing s bindings with
  | nil => rfl
  | cons c cs ih =>
    rcases hattempt : attempt s bindings c with ⟨e | value, s'⟩
    · rw [trials_cons_of_error hattempt, List.map_cons, ih]
    · rw [trials_cons_of_ok hattempt, List.map_cons, ih]

/-- The error of a command is on its line. -/
theorem line_of_mem_trials {s : Session α} {bindings : Bindings α}
    {commands : List (ResolvedCommand α)} {t : Trial α} (ht : t ∈ trials s bindings commands)
    {e : ScriptError} (he : t.answer = .error e) : e.line = t.command.command.line := by
  induction commands generalizing s bindings with
  | nil => cases ht
  | cons c cs ih =>
    rcases hattempt : attempt s bindings c with ⟨e' | value, s'⟩
    · rw [trials_cons_of_error hattempt, List.mem_cons] at ht
      rcases ht with rfl | ht
      · cases he
        exact line_of_attempt_error hattempt
      · exact ih ht
    · rw [trials_cons_of_ok hattempt, List.mem_cons] at ht
      rcases ht with rfl | ht
      · cases he
      · exact ih ht

/-- **A run that skips does not fail**, and reports what every command answered. -/
theorem run_skip_eq (s : Session α) (bindings : Bindings α)
    (commands : List (ResolvedCommand α)) :
    run (s.withPolicy .skip) bindings commands =
      ⟨(run (s.withPolicy .skip) bindings commands).session,
        (trials s bindings commands).filterMap Trial.outcome?,
        (trials s bindings commands).filterMap Trial.error?, none⟩ := by
  induction commands generalizing s bindings with
  | nil => rfl
  | cons c cs ih =>
    have hskip := attempt_withPolicy s .skip bindings c
    rcases hattempt : attempt s bindings c with ⟨e | value, s'⟩
    · rw [hattempt] at hskip
      rw [run_cons_of_skip hskip rfl, trials_cons_of_error hattempt, ih s' bindings]
      rfl
    · rw [hattempt] at hskip
      rw [run_cons_of_ok hskip, trials_cons_of_ok hattempt,
        ih s' (bindResult bindings c.command value)]
      rfl

/-- **The commands that succeed lead to the same session on their own**, and none of them fails. -/
theorem run_succeeding_eq {s : Session α} (hs : s.registry.Indexed) (bindings : Bindings α)
    (commands : List (ResolvedCommand α)) :
    run (s.withPolicy .abort) bindings (succeeding (trials s bindings commands)) =
      ⟨(run (s.withPolicy .skip) bindings commands).session.withPolicy .abort,
        (trials s bindings commands).filterMap Trial.outcome?, [], none⟩ := by
  induction commands generalizing s bindings with
  | nil => rfl
  | cons c cs ih =>
    have hskip := attempt_withPolicy s .skip bindings c
    have habort := attempt_withPolicy s .abort bindings c
    rcases hattempt : attempt s bindings c with ⟨e | value, s'⟩
    · -- the command is left out, and nothing has changed
      rw [hattempt] at hskip
      obtain rfl := attempt_session_of_error hs hattempt
      rw [run_cons_of_skip hskip rfl, trials_cons_of_error hattempt, succeeding_cons_error]
      exact ih hs bindings
    · -- the command is run again, and gives the same value
      rw [hattempt] at hskip habort
      rw [run_cons_of_ok hskip, trials_cons_of_ok hattempt, succeeding_cons_ok,
        run_cons_of_ok habort, ih (indexed_of_attempt hs hattempt)]
      rfl

/-- **A strict run ends at the first command that fails**, with its error, and leaves the session as
the commands before it leave it. -/
theorem run_abort_eq {s : Session α} (hs : s.registry.Indexed) (bindings : Bindings α)
    (commands : List (ResolvedCommand α)) :
    (run (s.withPolicy .abort) bindings commands).failure =
        ((trials s bindings commands).filterMap Trial.error?).head? ∧
      (run (s.withPolicy .abort) bindings commands).session =
        (run (s.withPolicy .abort) bindings
          (beforeFailure (trials s bindings commands))).session ∧
      (run (s.withPolicy .abort) bindings
        (beforeFailure (trials s bindings commands))).failure = none := by
  induction commands generalizing s bindings with
  | nil => exact ⟨rfl, rfl, rfl⟩
  | cons c cs ih =>
    have habort := attempt_withPolicy s .abort bindings c
    rcases hattempt : attempt s bindings c with ⟨e | value, s'⟩
    · rw [hattempt] at habort
      obtain rfl := attempt_session_of_error hs hattempt
      rw [run_cons_of_abort habort rfl, trials_cons_of_error hattempt, beforeFailure_cons_error]
      exact ⟨rfl, rfl, rfl⟩
    · rw [hattempt] at habort
      rw [run_cons_of_ok habort, trials_cons_of_ok hattempt, beforeFailure_cons_ok,
        run_cons_of_ok habort]
      exact ih (indexed_of_attempt hs hattempt) (bindResult bindings c.command value)

/-! ## Sources -/

/-- A source that is no script of known operations is refused with its error, and nothing runs. -/
theorem evaluate_of_check_error {s : Session α} {source : String} {e : ScriptError}
    (h : check (α := α) source = .error e) (limits : Option (AxisLimits α)) :
    s.evaluate source limits = (.error e, s.reset) := by
  simp only [Session.evaluate, h]

/-- A script is evaluated by running its commands on the session as new. -/
theorem evaluate_of_check_ok {s : Session α} {source : String}
    {commands : List (ResolvedCommand α)} (h : check source = .ok commands)
    (limits : Option (AxisLimits α)) :
    s.evaluate source limits =
      let r := run s.reset [] commands
      match r.failure with
      | some e => (.error e, r.session)
      | none => (.ok ⟨r.session.render limits, r.outcomes, r.diagnostics⟩, r.session) := by
  unfold Session.evaluate
  split
  · rename_i hcheck
    cases h.symm.trans hcheck
  · rename_i hcheck
    cases h.symm.trans hcheck
    rfl

/-- An evaluation whose run does not fail gives the chart and everything reported. -/
theorem evaluate_of_failure_eq_none {s : Session α} {source : String}
    {commands : List (ResolvedCommand α)} (h : check source = .ok commands)
    (hnone : (run s.reset [] commands).failure = none) (limits : Option (AxisLimits α)) :
    s.evaluate source limits =
      (.ok ⟨(run s.reset [] commands).session.render limits, (run s.reset [] commands).outcomes,
        (run s.reset [] commands).diagnostics⟩, (run s.reset [] commands).session) := by
  simp only [evaluate_of_check_ok h, hnone]

/-- An evaluation ends with the failure of its run, if there is one, and leaves its session. -/
theorem evaluate_error_iff {s : Session α} {source : String}
    {commands : List (ResolvedCommand α)} (h : check source = .ok commands)
    (limits : Option (AxisLimits α)) (e : ScriptError) :
    (s.evaluate source limits).2 = (run s.reset [] commands).session ∧
      ((s.evaluate source limits).1 = .error e ↔ (run s.reset [] commands).failure = some e) := by
  rw [evaluate_of_check_ok h]
  cases hfailure : (run s.reset [] commands).failure with
  | none => simp [hfailure]
  | some e' => simp [hfailure]

/-! ## The three runs -/

/-- **Skipping a failing command is the same as not having written it.** On every session that
operations lead to, for every list of commands:
* the run that skips tries every command once and in order, gives the outcomes of those that
  succeed and the errors of the others, and does not fail;
* on their own the commands that succeed do not fail either, and give the same outcomes, session
  and chart;
* a strict run fails exactly if the run that skips reports an error, with the first one, and leaves
  the session as the commands before that one do, none of which fails.

The evaluation of a source runs the commands that its check gives; a source that its check refuses
is refused with the same error under either policy, and no command runs. -/
theorem run_skip_eq_run_succeeding {s : Session α} (hs : s.Reachable) :
    (∀ commands : List (ResolvedCommand α),
      let tried := trials s [] commands
      let skipping := run (s.withPolicy .skip) [] commands
      let kept := run (s.withPolicy .abort) [] (succeeding tried)
      let strict := run (s.withPolicy .abort) [] commands
      let before := run (s.withPolicy .abort) [] (beforeFailure tried)
      (tried.map Trial.command = commands ∧
        (∀ t ∈ tried, ∀ e, t.answer = .error e → e.line = t.command.command.line) ∧
        skipping.outcomes = tried.filterMap Trial.outcome? ∧
        skipping.diagnostics = tried.filterMap Trial.error? ∧ skipping.failure = none) ∧
      (kept.failure = none ∧ kept.outcomes = skipping.outcomes ∧
        kept.session = skipping.session.withPolicy .abort ∧
        ∀ limits, kept.session.render limits = skipping.session.render limits) ∧
      strict.failure = skipping.diagnostics.head? ∧ strict.session = before.session ∧
        before.failure = none) ∧
    ∀ (source : String) (limits : Option (AxisLimits α)),
      (∀ e, check (α := α) source = .error e → ∀ policy,
        (s.withPolicy policy).evaluate source limits = (.error e, (s.withPolicy policy).reset)) ∧
      ∀ commands, check source = .ok commands →
        let skipping := run (s.withPolicy .skip).reset [] commands
        let strict := run (s.withPolicy .abort).reset [] commands
        (s.withPolicy .skip).evaluate source limits =
          (.ok ⟨skipping.session.render limits, skipping.outcomes, skipping.diagnostics⟩,
            skipping.session) ∧
        ∀ e, ((s.withPolicy .abort).evaluate source limits).2 = strict.session ∧
          (((s.withPolicy .abort).evaluate source limits).1 = .error e ↔
            skipping.diagnostics.head? = some e) := by
  constructor
  · intro commands tried skipping kept strict before
    have hskip : skipping = ⟨skipping.session, tried.filterMap Trial.outcome?,
        tried.filterMap Trial.error?, none⟩ := run_skip_eq s [] commands
    have hkept : kept = ⟨skipping.session.withPolicy .abort, tried.filterMap Trial.outcome?, [],
        none⟩ := run_succeeding_eq hs.indexed [] commands
    have hstrict := run_abort_eq hs.indexed [] commands
    refine ⟨⟨map_command_trials s [] commands, fun t ht e he => line_of_mem_trials ht he,
      by rw [hskip], by rw [hskip], by rw [hskip]⟩, ⟨by rw [hkept], by rw [hkept, hskip],
      by rw [hkept], fun limits => ?_⟩, ?_⟩
    · rw [hkept, Session.render_withPolicy]
    · rw [hskip]
      exact hstrict
  · intro source limits
    refine ⟨fun e he policy => evaluate_of_check_error he limits, ?_⟩
    intro commands hcheck skipping strict
    have hskip : skipping = _ := run_skip_eq s.reset [] commands
    obtain ⟨hfailure, -, -⟩ := run_abort_eq (Session.Reachable.reset s).indexed [] commands
    refine ⟨evaluate_of_failure_eq_none hcheck (congrArg Run.failure hskip) limits, fun e => ?_⟩
    -- the failure of the strict run is the first error of the run that skips
    rw [hskip, ← hfailure]
    exact evaluate_error_iff hcheck limits e

/-- Between two titles the renaming of a figure that does not exist is left out: the two titles lead
to the same session on their own, and a strict run ends with the renaming. -/
theorem run_skip_of_unknown_figure :
    let s : Session Float := .new .standard
    let first : ResolvedCommand Float := ⟨⟨1, none, "Title", [.quoted "a"], []⟩, .title⟩
    let failing : ResolvedCommand Float :=
      ⟨⟨2, none, "Rename", [.word "A", .word "B"], []⟩, .rename⟩
    let last : ResolvedCommand Float := ⟨⟨3, none, "Title", [.quoted "b"], []⟩, .title⟩
    let error : ScriptError := ⟨2, .refused .rename (.notFound "A")⟩
    let skipping := run (s.withPolicy .skip) [] [first, failing, last]
    s.Reachable ∧ skipping.failure = none ∧ skipping.diagnostics = [error] ∧
      (run (s.withPolicy .abort) [] [first, last]).session = skipping.session.withPolicy .abort ∧
      (run (s.withPolicy .abort) [] [first, failing, last]).failure = some error := by
  intro s first failing last error skipping
  have hs : s.Reachable := .new .standard
  let s' : Session Float := { s with title := "a" }
  -- there is no figure to be renamed
  have hrename : s'.change (.rename "A" "B") = .error (.notFound "A") := by
    simp [s', s, Session.change, Registry.rename, Registry.requireFree, Session.new, Registry.empty,
      Registry.contains, bind, Except.bind, throw, throwThe, MonadExceptOf.throw]
  have hplan : (.rename "A" "B" : Operation Float).plan s' =
      .ok ⟨[.rename "A" "B"], .name "B"⟩ := rfl
  have hperform : s'.perform (.rename "A" "B") = (.error (.notFound "A"), s') := by
    rw [Session.perform_of_ok hplan, Session.enact_cons_of_error hrename]
    rfl
  -- the three commands are tried one after another
  have hfirst : attempt s [] first = (.ok .done, s') := rfl
  have hfailing : attempt s' [] failing = (.error error, s') := by
    have hcall : (Call.ofCommand [] failing.command >>= fun call =>
        call.operation s'.registry failing.verb) = .ok (.rename "A" "B") := rfl
    simp only [attempt, hcall, hperform]
    rfl
  have hlast : attempt s' [] last = (.ok .done, { s' with title := "b" }) := rfl
  have htried : trials s [] [first, failing, last] =
      [⟨first, .ok .done⟩, ⟨failing, .error error⟩, ⟨last, .ok .done⟩] := by
    refine (trials_cons_of_ok hfirst _).trans (congrArg _ ?_)
    refine (trials_cons_of_error hfailing _).trans (congrArg _ ?_)
    exact trials_cons_of_ok hlast []
  obtain ⟨⟨-, -, -, hdiagnostics, hfailure⟩, ⟨-, -, hkept, -⟩, hstrict, -⟩ :=
    (run_skip_eq_run_succeeding hs).1 [first, failing, last]
  rw [htried] at hdiagnostics hkept
  rw [hdiagnostics] at hstrict
  exact ⟨hs, hfailure, hdiagnostics, hkept, hstrict⟩

end Straightedge.Script
