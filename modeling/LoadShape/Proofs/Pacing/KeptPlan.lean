import LoadShape.Proofs.Pacing.BuiltPacer

/-!
# A kept plan is never stale

Questions to a ramp and changes by its builders come in any order, from one caller or from
several that share it.  Every question is answered as by a ramp that was just made with the
conditions that were set last, and the plan is worked out at most once until they are set anew.
-/

namespace LoadShape.Pacing

open LoadShape.Time

/-! ## Calls -/

/-- A question to a pacer. -/
inductive Question where
  | plan
  | rate (elapsed : Span)
  | pace (elapsed : Span) (hits : UInt64)
  deriving DecidableEq

/-- What a question is answered with. -/
inductive Reply where
  | plan (plan? : Option Plan)
  | rate (rate : Rat)
  | pace (pace : Pace)
  deriving DecidableEq

/-- A call to a pacer: a question, or a change by one of its builders. -/
inductive Call where
  | ask (question : Question)
  | hold (hold : ConstantPacer)
  | loadDuration (duration : Span)
  | cap (cap : UInt64)
  deriving DecidableEq

/-- The call does not set a condition of the constant phase. -/
def Call.KeepsCourse : Call → Prop
  | .ask _ | .cap _ => True
  | .hold _ | .loadDuration _ => False

instance : (call : Call) → Decidable call.KeepsCourse
  | .ask _ | .cap _ => .isTrue trivial
  | .hold _ | .loadDuration _ => .isFalse id

/-- What the builders of a ramp set; no load duration is none of any length. -/
structure Settings where
  hold : ConstantPacer := {}
  loadDuration : Span := .zero
  cap : UInt64 := 0
  deriving DecidableEq

namespace Settings

/-- The settings after one more call. -/
def call (s : Settings) : Call → Settings
  | .ask _ => s
  | .hold hold => { s with hold }
  | .loadDuration loadDuration => { s with loadDuration }
  | .cap cap => { s with cap }

/-- What was set last by the calls. -/
def after (calls : List Call) : Settings := calls.foldl call {}

end Settings

/-- The answer with its value seen as a reply. -/
def Answer.reply {pacer value : Type} (kind : value → Reply) (a : Answer pacer value) :
    Answer pacer Reply :=
  { a with value := kind a.value }

theorem Course.length_planWarnings (c : Course) : c.planWarnings.length ≤ 1 := by
  unfold planWarnings
  split
  · exact Nat.le_refl _
  · exact Nat.zero_le _

namespace StepPacer

/-- A cap makes no difference to the plan and its warnings. -/
theorem ready_withCap (p : StepPacer) (cap : UInt64) :
    (p.withCap cap).ready = { p.ready with pacer := p.ready.pacer.withCap cap } := by
  cases known : p.plan? with
  | none => simp [ready, withCap, known]
  | some plan => simp [ready, withCap, known]

/-- The plan is worked out only if none is kept, and then it is kept. -/
theorem ready_pacer (p : StepPacer) :
    p.ready.pacer = p ∧ p.ready.warnings = [] ∨
      p.plan? = none ∧ p.ready.pacer.plan?.isSome = true ∧ p.ready.warnings.length ≤ 1 := by
  cases known : p.plan? with
  | none =>
      refine Or.inr ⟨rfl, by simp [ready, known], ?_⟩
      simp [ready, known, p.course.length_planWarnings]
  | some plan => exact Or.inl (by simp [ready, known])

end StepPacer

namespace Pacer

/-- The answer to a question of any kind. -/
def ask (p : Pacer) : Question → Answer Pacer Reply
  | .plan => p.plan?.reply .plan
  | .rate elapsed => (p.rate elapsed).reply .rate
  | .pace elapsed hits => (p.pace elapsed hits).reply .pace

/-- The pacer after a call. -/
def call (p : Pacer) : Call → Pacer
  | .ask question => (p.ask question).pacer
  | .hold hold => p.withHold hold
  | .loadDuration duration => p.withLoadDuration duration
  | .cap cap => p.withCap cap

/-- The pacer after the calls, in their order. -/
def after (p : Pacer) (calls : List Call) : Pacer := calls.foldl call p

/-- The pacer with the settings. -/
def carrying (p : Pacer) (s : Settings) : Pacer :=
  ((p.withHold s.hold).withLoadDuration s.loadDuration).withCap s.cap

/-- The plan that is kept. -/
def kept? : Pacer → Option Plan
  | .constant _ => none
  | .step s => s.plan?
  | .linear l => l.steps.plan?

/-- The call is the one at which a plan is worked out: none was kept before, and one is after. -/
def worksOut (p : Pacer) (call : Call) : Bool := p.kept?.isNone && (p.call call).kept?.isSome

/-- The warnings that come with a call. -/
def warningsOf (p : Pacer) : Call → List Warning
  | .ask question => (p.ask question).warnings
  | .hold _ | .loadDuration _ | .cap _ => []

/-- How many times a plan is worked out in the course of the calls. -/
def plansWorkedOut : Pacer → List Call → Nat
  | _, [] => 0
  | p, call :: calls => (p.worksOut call).toNat + (p.call call).plansWorkedOut calls

/-- The warnings given in the course of the calls. -/
def warnings : Pacer → List Call → List Warning
  | _, [] => []
  | p, call :: calls => p.warningsOf call ++ (p.call call).warnings calls

/-- A ramp that was just made. -/
inductive Made : Pacer → Prop
  | step {start : UInt64} {step : Int64} {period : Span} {pacer : StepPacer}
      (made : StepPacer.make start step period = .ok pacer) : Made (.step pacer)
  | linear {start : UInt64} {slope : Int64} {pacer : LinearPacer}
      (made : LinearPacer.make start slope = .ok pacer) : Made (.linear pacer)

theorem Made.built {p : Pacer} (made : p.Made) : p.Built := by
  cases made with
  | step made => exact .step made
  | linear made => exact .linear made

theorem Built.call {p : Pacer} (built : p.Built) (call : Call) : (p.call call).Built := by
  cases call with
  | ask question =>
      cases question with
      | plan => exact built.plan?
      | rate elapsed => exact built.rate elapsed
      | pace elapsed hits => exact built.pace elapsed hits
  | hold hold => exact built.withHold hold
  | loadDuration duration => exact built.withLoadDuration duration
  | cap cap => exact built.withCap cap

theorem Built.after {p : Pacer} (built : p.Built) (calls : List Call) : (p.after calls).Built := by
  induction calls generalizing p with
  | nil => exact built
  | cons call calls ih => exact ih (built.call call)

/-! ## One call -/

theorem kept?_withCap (p : Pacer) (cap : UInt64) : (p.withCap cap).kept? = p.kept? := by
  cases p <;> rfl

theorem plan?_withCap (p : Pacer) (cap : UInt64) :
    (p.withCap cap).plan?.value = p.plan?.value := by
  cases p with
  | constant c => rfl
  | step s => exact congrArg (fun a => some a.value) (s.ready_withCap cap)
  | linear l => rfl

/-- A question leaves a pacer as it is, or with its plan worked out. -/
theorem ask_pacer (p : Pacer) (question : Question) :
    (p.ask question).pacer = p ∧ (p.ask question).warnings = [] ∨
      (p.ask question).pacer = p.plan?.pacer ∧ (p.ask question).warnings = p.plan?.warnings := by
  cases question with
  | plan => exact Or.inr ⟨rfl, rfl⟩
  | rate elapsed =>
      cases p with
      | constant c => exact Or.inl ⟨rfl, rfl⟩
      | step s => exact Or.inr ⟨rfl, rfl⟩
      | linear l => exact Or.inr ⟨rfl, rfl⟩
  | pace elapsed hits =>
      cases p with
      | constant c => exact Or.inl ⟨rfl, rfl⟩
      | step s =>
          simp only [ask, Answer.reply, pace, lift, plan?, StepPacer.pace]
          split
          · exact Or.inl ⟨rfl, rfl⟩
          · exact Or.inr ⟨rfl, rfl⟩
      | linear l =>
          simp only [ask, Answer.reply, pace, lift, plan?, LinearPacer.pace, LinearPacer.ofSteps,
            LinearPacer.ready, StepPacer.pace]
          split
          · exact Or.inl ⟨rfl, rfl⟩
          · split
            · exact Or.inl ⟨rfl, rfl⟩
            · exact Or.inr ⟨rfl, rfl⟩

/-- The plan is worked out only if none is kept, and then it is kept. -/
theorem plan?_pacer (p : Pacer) :
    p.plan?.pacer = p ∧ p.plan?.warnings = [] ∨
      p.kept? = none ∧ p.plan?.pacer.kept?.isSome = true ∧ p.plan?.warnings.length ≤ 1 := by
  cases p with
  | constant c => exact Or.inl ⟨rfl, rfl⟩
  | step s =>
      rcases s.ready_pacer with same | worked
      · exact Or.inl (by simp [plan?, lift, same])
      · exact Or.inr (by simpa [plan?, lift, kept?] using worked)
  | linear l =>
      rcases l.steps.ready_pacer with same | worked
      · exact Or.inl (by simp [plan?, lift, LinearPacer.ready, LinearPacer.ofSteps, same])
      · exact Or.inr (by
          simpa [plan?, lift, kept?, LinearPacer.ready, LinearPacer.ofSteps] using worked)

/-- A call that sets no condition leaves the plan that is kept, without a warning, or it is the
one at which a plan is worked out. -/
theorem call_cases (p : Pacer) {call : Call} (keeps : call.KeepsCourse) :
    (p.call call).kept? = p.kept? ∧ p.warningsOf call = [] ∨
      p.worksOut call = true ∧ (p.warningsOf call).length ≤ 1 := by
  cases call with
  | hold hold => exact keeps.elim
  | loadDuration duration => exact keeps.elim
  | cap cap => exact Or.inl ⟨p.kept?_withCap cap, rfl⟩
  | ask question =>
      have asked := p.ask_pacer question
      rcases p.plan?_pacer with ⟨same, silent⟩ | ⟨unknown, kept, few⟩
      · rw [same, silent, or_self] at asked
        exact Or.inl ⟨congrArg kept? asked.1, asked.2⟩
      · rcases asked with ⟨same, silent⟩ | ⟨worked, warned⟩
        · exact Or.inl ⟨congrArg kept? same, silent⟩
        · rw [← warned] at few
          refine Or.inr ⟨?_, few⟩
          rw [worksOut, unknown, call, worked, kept]
          rfl

/-! ## The plan forgotten -/

/-- The pacer without the plan that it keeps. -/
def forget : Pacer → Pacer
  | .constant c => .constant c
  | .step s => .step { s with plan? := none }
  | .linear l => .linear { l with steps := { l.steps with plan? := none } }

/-- A question changes nothing but the plan that is kept. -/
theorem forget_ask (p : Pacer) (question : Question) :
    (p.ask question).pacer.forget = p.forget := by
  rcases p.ask_pacer question with ⟨same, -⟩ | ⟨worked, -⟩
  · rw [same]
  · rw [worked]
    cases p with
    | constant c => rfl
    | step s => simp [plan?, lift, forget]
    | linear l => simp [plan?, lift, forget, LinearPacer.ready, LinearPacer.ofSteps]

@[simp]
theorem capped_forget (p : Pacer) (hits : UInt64) : p.forget.capped hits = p.capped hits := by
  cases p <;> rfl

theorem planned?_forget {p : Pacer} (current : p.Current) : p.forget.planned? = p.planned? := by
  have ready (s : StepPacer) (current : s.Current) :
      ({ s with plan? := none } : StepPacer).ready.value = s.ready.value :=
    (StepPacer.current_of_none rfl).ready_value.trans current.ready_value.symm
  cases p with
  | constant c => rfl
  | step s => exact congrArg (fun plan => some (s.course, plan)) (ready s current)
  | linear l => exact congrArg (fun plan => some (l.steps.course, plan)) (ready l.steps current)

/-- Ramps with the same course, plan and caps answer alike. -/
theorem ask_of_planned {p other : Pacer} {followed : Course × Plan}
    (planned : p.planned? = some followed) (planned_other : other.planned? = some followed)
    (caps : ∀ hits, other.capped hits = p.capped hits) (question : Question) :
    (other.ask question).value = (p.ask question).value := by
  cases question with
  | plan =>
      exact congrArg Reply.plan
        ((plan?_of_planned planned_other).trans (plan?_of_planned planned).symm)
  | rate elapsed =>
      exact congrArg Reply.rate
        ((rate_of_planned planned_other elapsed).trans (rate_of_planned planned elapsed).symm)
  | pace elapsed hits =>
      refine congrArg Reply.pace ?_
      have same := caps hits
      cases reached : p.capped hits with
      | true => rw [pace_of_capped reached, pace_of_capped (same.trans reached)]
      | false =>
          rw [pace_of_planned planned reached, pace_of_planned planned_other (same.trans reached)]

/-- A pacer that keeps the plan of its course answers as one that has forgotten it. -/
theorem ask_forget {p : Pacer} (current : p.Current) (question : Question) :
    (p.forget.ask question).value = (p.ask question).value := by
  have same := planned?_forget current
  cases planned : p.planned? with
  | some followed => exact ask_of_planned planned (same.trans planned) p.capped_forget question
  | none =>
      cases p with
      | constant c => rfl
      | step s => cases planned
      | linear l => cases planned

/-! ## Many calls -/

theorem Made.forget_eq {made : Pacer} (isMade : made.Made) : made.forget = made.carrying {} := by
  cases isMade with
  | step made =>
      obtain ⟨ramp, -, rfl⟩ := StepPacer.exists_ramp_of_make made
      rfl
  | linear made =>
      obtain ⟨ramp, -, rfl⟩ := LinearPacer.exists_ramp_of_make made
      rfl

/-- The builders replace what was set before. -/
theorem forget_call {p made : Pacer} {s : Settings} (same : p.forget = made.carrying s)
    (call : Call) : (p.call call).forget = made.carrying (s.call call) := by
  have replaced : p.forget.call call = (made.carrying s).call call :=
    congrArg (Pacer.call · call) same
  cases call with
  | ask question => exact (p.forget_ask question).trans same
  | hold hold => cases p <;> cases made <;> exact replaced
  | loadDuration duration => cases p <;> cases made <;> exact replaced
  | cap cap => cases p <;> cases made <;> exact replaced

theorem forget_after {p made : Pacer} {s : Settings} (same : p.forget = made.carrying s)
    (calls : List Call) : (p.after calls).forget = made.carrying (calls.foldl Settings.call s) := by
  induction calls generalizing p s with
  | nil => exact same
  | cons call calls ih => exact ih (forget_call same call)

theorem worksOut_eq_false {p : Pacer} {call : Call} (same : (p.call call).kept? = p.kept?) :
    p.worksOut call = false := by
  rw [worksOut, same]
  cases p.kept? <;> rfl

/-- While a plan is kept no other is worked out. -/
theorem silent_of_kept {p : Pacer} (kept : p.kept?.isSome = true) (calls : List Call)
    (keeps : ∀ call ∈ calls, call.KeepsCourse) :
    p.plansWorkedOut calls = 0 ∧ p.warnings calls = [] := by
  induction calls generalizing p with
  | nil => exact ⟨rfl, rfl⟩
  | cons call calls ih =>
      obtain ⟨keeps_call, keeps_calls⟩ := List.forall_mem_cons.mp keeps
      rcases p.call_cases keeps_call with ⟨same, silent⟩ | ⟨worked, -⟩
      · obtain ⟨none_worked, none_warned⟩ := ih (same ▸ kept) keeps_calls
        rw [plansWorkedOut, warnings, worksOut_eq_false same, silent, none_worked, none_warned]
        exact ⟨rfl, rfl⟩
      · have unknown : p.kept?.isNone = true := (Bool.and_eq_true _ _ ▸ worked).1
        simp [Option.isNone_iff_eq_none.mp unknown] at kept

/-- Until a condition is set at most one plan is worked out, and a warning is given only then. -/
theorem plansWorkedOut_le_one (p : Pacer) (calls : List Call)
    (keeps : ∀ call ∈ calls, call.KeepsCourse) :
    (p.warnings calls).length ≤ p.plansWorkedOut calls ∧ p.plansWorkedOut calls ≤ 1 := by
  induction calls generalizing p with
  | nil => exact ⟨Nat.le_refl _, Nat.zero_le _⟩
  | cons call calls ih =>
      obtain ⟨keeps_call, keeps_calls⟩ := List.forall_mem_cons.mp keeps
      rcases p.call_cases keeps_call with ⟨same, silent⟩ | ⟨worked, few⟩
      · rw [plansWorkedOut, warnings, worksOut_eq_false same, silent, Bool.toNat_false,
          Nat.zero_add]
        exact ih (p.call call) keeps_calls
      · have kept : (p.call call).kept?.isSome = true := (Bool.and_eq_true _ _ ▸ worked).2
        obtain ⟨none_worked, none_warned⟩ := silent_of_kept kept calls keeps_calls
        rw [plansWorkedOut, warnings, worked, none_worked, none_warned, List.append_nil]
        exact ⟨few, Nat.le_refl _⟩

/-- However it was asked and changed before, a ramp answers every question as one that was just
made and given the conditions and the cap that were set last, without ever having been asked.
Until a condition is set anew, at most one plan is worked out and a warning is given only then;
a cap leaves the plan that is kept, and the plan by which the ramp is followed. -/
theorem answers_as_never_asked {made : Pacer} (isMade : made.Made) (calls : List Call) :
    (∀ question, ((made.after calls).ask question).value =
        ((made.carrying (Settings.after calls)).ask question).value) ∧
      (∀ later, (∀ call ∈ later, call.KeepsCourse) →
        ((made.after calls).warnings later).length ≤ (made.after calls).plansWorkedOut later ∧
          (made.after calls).plansWorkedOut later ≤ 1) ∧
      ∀ cap, ((made.after calls).withCap cap).kept? = (made.after calls).kept? ∧
        ((made.after calls).withCap cap).plan?.value = (made.after calls).plan?.value := by
  refine ⟨fun question => ?_, fun later => (made.after calls).plansWorkedOut_le_one later,
    fun cap => ?_⟩
  · rw [← ask_forget (isMade.built.after calls).current question,
      forget_after isMade.forget_eq calls]
    rfl
  · exact ⟨kept?_withCap _ cap, plan?_withCap _ cap⟩

/-- A ramp is asked before and after it is given a rate to hold, which rounding hides from it: it
is followed without a constant phase, as a new one would be, and warns of that once. -/
theorem answers_as_never_asked_hidden_rate :
    let ramp : Ramp := ⟨18014398509481984, 1, .ofSeconds 1, by decide, by decide, by decide⟩
    let made : Pacer := .step { course := { ramp } }
    let calls : List Call := [.ask .plan, .hold { rate := 18014398509481985 }, .cap 9]
    let later : List Call := [.ask (.pace .zero 9), .ask .plan, .cap 5, .ask (.rate .zero)]
    made.Made ∧ (∀ call ∈ later, call.KeepsCourse) ∧
      ((made.after calls).ask .plan).value =
        .plan (some ⟨none, { rate := 18014398509481985 }, 0⟩) ∧
      (made.after calls).warnings later = [.neverCrosses ramp 18014398509481985 2] ∧
      (made.after calls).plansWorkedOut later = 1 := by
  intro ramp made calls later
  have course_made : StepPacer.make 18014398509481984 1 (.ofSeconds 1) =
      .ok { course := { ramp } } := rfl
  have isMade : made.Made := .step course_made
  have keeps : ∀ call ∈ later, call.KeepsCourse := by decide
  obtain ⟨answers, few, -⟩ := answers_as_never_asked isMade calls
  obtain ⟨warned, once⟩ := few later keeps
  have warnings : (made.after calls).warnings later =
      [.neverCrosses ramp 18014398509481985 2] := by decide +kernel
  have fresh : ((made.carrying (Settings.after calls)).ask .plan).value =
      .plan (some ⟨none, { rate := 18014398509481985 }, 0⟩) := by decide +kernel
  rw [warnings] at warned
  exact ⟨isMade, keeps, (answers .plan).trans fresh, warnings, Nat.le_antisymm once warned⟩

end Pacer

end LoadShape.Pacing
