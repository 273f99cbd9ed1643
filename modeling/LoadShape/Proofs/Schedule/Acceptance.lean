import LoadShape.Proofs.Schedule.LineAsSteps
import LoadShape.Proofs.Schedule.WrittenProfile

/-!
# Which schedules are accepted

A schedule is looked at twice: by its own rules, and by the constructors of what is built from
it.  The rules come first, and the only fault that they leave to the constructors is a ramp of
hits that starts at a rate of zero.
-/

namespace LoadShape

/-- The rejections of the constructors of pacers and tickers; all others are for the rules of
schedules. -/
def Rejection.ofConstructor : Rejection → Bool
  | .equalEnds _ | .zeroStep _ | .zeroPeriod _ | .noWorkers => false
  | _ => true

end LoadShape

/-! ## Constructors -/

namespace LoadShape.Pacing

open LoadShape.Time

variable {step : Int64} {period : Span}

/-- A step pacer whose periods take time and change the rate is rejected for a start of zero
only. -/
theorem StepPacer.make_of_rules (start : UInt64) (changing : step ≠ 0)
    (lasting : period.nanos ≠ 0) :
    (start = 0 → make start step period = .error .stepPacerStartZero) ∧
      (start ≠ 0 → ∃ pacer, make start step period = .ok pacer) := by
  unfold make
  rw [dif_neg lasting, dif_neg changing]
  exact ⟨fun startless => dif_pos startless, fun started => ⟨_, dif_neg started⟩⟩

/-- A linear pacer with a slope is rejected for a start of zero only. -/
theorem LinearPacer.make_of_rules (start : UInt64) {slope : Int64} (changing : slope ≠ 0) :
    (start = 0 → make start slope = .error .linearPacerStartZero) ∧
      (start ≠ 0 → ∃ pacer, make start slope = .ok pacer) := by
  refine ⟨fun startless => if_pos startless, fun started => ?_⟩
  obtain ⟨steps, made⟩ := (StepPacer.make_of_rules start changing Schedule.second_ne_zero).2 started
  exact ⟨{ slope, steps }, by rw [make, if_neg started, if_neg changing, made]⟩

end LoadShape.Pacing

namespace LoadShape.Workers

open LoadShape.Time

variable {step : Int64} {period : Span}

theorem StepTicker.exists_make (start : UInt32) (changing : step ≠ 0) (lasting : period.nanos ≠ 0) :
    ∃ ticker, make start step period = .ok ticker := by
  unfold make
  rw [dif_neg changing, dif_neg lasting]
  exact ⟨_, rfl⟩

theorem LineTicker.exists_make (start : UInt32) {slope : Int64} (changing : slope ≠ 0) :
    ∃ ticker, make start slope = .ok ticker := by
  obtain ⟨steps, made⟩ := StepTicker.exists_make start changing Schedule.second_ne_zero
  exact ⟨{ slope, steps }, by rw [make, if_neg changing, made]⟩

end LoadShape.Workers

namespace LoadShape.Schedule

open LoadShape.Pacing LoadShape.Time LoadShape.Workers

/-! ## Faults -/

/-- The fault that counts is the first one. -/
def firstFault : List Rejection → Except Rejection Unit
  | [] => .ok ()
  | fault :: _ => .error fault

/-- The fault, if it is there. -/
def faultIf (present : Prop) [Decidable present] (fault : Rejection) : List Rejection :=
  if present then [fault] else []

/-- The faults of a ramp without regard to its periods. -/
def rampFaults (subject : Subject) (start : Nat) (step : Int) (target : Nat) : List Rejection :=
  faultIf (start = target) (.equalEnds subject) ++ faultIf (step = 0) (.zeroStep subject)

/-- The faults by the rules of load schedules, in the order in which they are looked for. -/
def LoadSchedule.faults : LoadSchedule → List Rejection
  | .constant _ _ => []
  | .step start change period target _ _ =>
    rampFaults .load start.toNat change.toInt target.toNat ++
      faultIf (period.nanos = 0) (.zeroPeriod .load)
  | .line start slope target _ _ => rampFaults .load start.toNat slope.toInt target.toNat

/-- The faults by the rules of concurrency schedules, in the order in which they are looked
for. -/
def ConcurrencySchedule.faults : ConcurrencySchedule → List Rejection
  | .constant workers => faultIf (workers = 0) .noWorkers
  | .step start change period target _ =>
    rampFaults .concurrency start.toNat change.toInt target.toNat ++
      faultIf (period.nanos = 0) (.zeroPeriod .concurrency)
  | .line start slope target _ => rampFaults .concurrency start.toNat slope.toInt target.toNat

section Faults

variable {faults more : List Rejection} {rejection : Rejection}

theorem firstFault_eq_ok_iff : firstFault faults = .ok () ↔ faults = [] := by
  cases faults <;> simp [firstFault]

theorem firstFault_eq_error_iff :
    firstFault faults = .error rejection ↔ faults.head? = some rejection := by
  cases faults <;> simp [firstFault]

/-- Later faults are looked for if there are none before. -/
theorem firstFault_append :
    firstFault (faults ++ more) = (firstFault faults).bind fun _ => firstFault more := by
  cases faults <;> rfl

theorem firstFault_faultIf (present : Prop) [Decidable present] :
    firstFault (faultIf present rejection) =
      if present then .error rejection else .ok () := by
  unfold faultIf
  split <;> rfl

theorem faultIf_eq_nil_iff {present : Prop} [Decidable present] :
    faultIf present rejection = [] ↔ ¬ present := by
  unfold faultIf
  split <;> simp [*]

theorem eq_of_mem_faultIf {present : Prop} [Decidable present] {fault : Rejection}
    (mem : rejection ∈ faultIf present fault) : rejection = fault := by
  unfold faultIf at mem
  split at mem
  · exact List.mem_singleton.mp mem
  · cases mem

theorem ofConstructor_of_mem_rampFaults {subject : Subject} {start target : Nat} {step : Int}
    (mem : rejection ∈ rampFaults subject start step target) :
    rejection.ofConstructor = false := by
  rcases List.mem_append.mp mem with equal | zero
  · rw [eq_of_mem_faultIf equal, Rejection.ofConstructor]
  · rw [eq_of_mem_faultIf zero, Rejection.ofConstructor]

theorem ne_zero_of_toInt {step : Int64} (changing : step.toInt ≠ 0) : step ≠ 0 := by
  rintro rfl
  exact changing rfl

theorem checkRamp_eq (subject : Subject) (start : Nat) (step : Int) (target : Nat) :
    checkRamp subject start step target = firstFault (rampFaults subject start step target) := by
  rw [rampFaults, firstFault_append, firstFault_faultIf, firstFault_faultIf, checkRamp]
  split <;> rfl

end Faults

/-! ## Load schedules -/

namespace LoadSchedule

variable {s : LoadSchedule} {rejection : Rejection}

/-- A ramp starts at a rate above zero. -/
def StartsAboveZero : LoadSchedule → Prop
  | .constant _ _ => True
  | .step start _ _ _ _ _ => 0 < start
  | .line start _ _ _ _ => 0 < start

/-- How a pacer's constructor rejects a ramp that starts at a rate of zero. -/
def startFault? : LoadSchedule → Option Rejection
  | .constant _ _ => none
  | .step start _ _ _ _ _ => if start = 0 then some .stepPacerStartZero else none
  | .line start _ _ _ _ => if start = 0 then some .linearPacerStartZero else none

theorem startFault?_eq_none_iff (s : LoadSchedule) :
    s.startFault? = none ↔ s.StartsAboveZero := by
  have positive (start : UInt64) : start ≠ 0 ↔ 0 < start := by
    rw [UInt64.lt_iff_toNat_lt, ne_eq, ← UInt64.toNat_inj]
    exact Nat.pos_iff_ne_zero.symm
  cases s <;> simp [startFault?, StartsAboveZero, positive]

/-- The rules are looked at in the order of the faults. -/
theorem validate_eq (s : LoadSchedule) : s.validate = firstFault s.faults := by
  cases s with
  | constant rate cap => rfl
  | step start change period target duration? cap =>
      rw [validate, faults, firstFault_append, firstFault_faultIf, checkRamp_eq]
      cases firstFault (rampFaults _ _ _ _) <;> rfl
  | line start slope target duration? cap => exact checkRamp_eq _ _ _ _

theorem build_of_rejected (rejected : s.validate = .error rejection) :
    s.build = .error rejection := by
  unfold build
  rw [rejected]
  rfl

/-- Of a schedule that keeps the rules only the start rate can still be wrong. -/
theorem build_of_kept (kept : s.validate = .ok ()) :
    (∀ fault, s.startFault? = some fault → s.build = .error fault) ∧
      (s.startFault? = none → ∃ pacer, s.build = .ok pacer ∧ pacer.Built) := by
  have rules := kept
  rw [validate_eq, firstFault_eq_ok_iff] at rules
  unfold build
  rw [kept]
  cases s with
  | constant rate cap => exact ⟨fun _ found => (by cases found), fun _ => ⟨_, rfl, .constant _⟩⟩
  | step start change period target duration? cap =>
      simp only [faults, rampFaults, List.append_eq_nil_iff, faultIf_eq_nil_iff] at rules
      obtain ⟨⟨-, changing⟩, lasting⟩ := rules
      obtain ⟨startless, started⟩ := StepPacer.make_of_rules start
        (ne_zero_of_toInt changing) lasting
      by_cases zero : start = 0
      · simp only [startFault?, if_pos zero, startless zero]
        exact ⟨fun fault found => by cases found; rfl, fun none => by cases none⟩
      · obtain ⟨pacer, made⟩ := started zero
        simp only [startFault?, if_neg zero, made]
        have built := (((Pacer.Built.step made).withHold { rate := target }).withLoadDuration
          (duration?.getD .zero)).withCap cap
        exact ⟨fun _ found => (by cases found), fun _ => ⟨_, rfl, built⟩⟩
  | line start slope target duration? cap =>
      simp only [faults, rampFaults, List.append_eq_nil_iff, faultIf_eq_nil_iff] at rules
      obtain ⟨-, changing⟩ := rules
      obtain ⟨startless, started⟩ := LinearPacer.make_of_rules start
        (ne_zero_of_toInt changing)
      by_cases zero : start = 0
      · simp only [startFault?, if_pos zero, startless zero]
        exact ⟨fun fault found => by cases found; rfl, fun none => by cases none⟩
      · obtain ⟨pacer, made⟩ := started zero
        simp only [startFault?, if_neg zero, made]
        have built := (((Pacer.Built.linear made).withHold { rate := target }).withLoadDuration
          (duration?.getD .zero)).withCap cap
        exact ⟨fun _ found => (by cases found), fun _ => ⟨_, rfl, built⟩⟩

/-- A schedule is rejected by its rules, or by the constructor for its start rate, or built. -/
theorem build_cases (s : LoadSchedule) :
    (∃ r, s.validate = .error r ∧ s.build = .error r) ∨
      s.validate = .ok () ∧
        ((∃ r, s.startFault? = some r ∧ s.build = .error r) ∨
          s.startFault? = none ∧ ∃ pacer, s.build = .ok pacer ∧ pacer.Built) := by
  cases validated : s.validate with
  | error r => exact Or.inl ⟨r, rfl, build_of_rejected validated⟩
  | ok =>
      obtain ⟨startless, started⟩ := build_of_kept validated
      cases start : s.startFault? with
      | some r => exact Or.inr ⟨rfl, Or.inl ⟨r, rfl, startless r start⟩⟩
      | none => exact Or.inr ⟨rfl, Or.inr ⟨rfl, started start⟩⟩

theorem build_eq_error_iff (s : LoadSchedule) (rejection : Rejection) :
    s.build = .error rejection ↔
      s.validate = .error rejection ∨
        s.validate = .ok () ∧ s.startFault? = some rejection := by
  rcases s.build_cases with
    ⟨r, rejected, build⟩ | ⟨kept, ⟨r, start, build⟩ | ⟨start, pacer, build, -⟩⟩
  · simp [rejected, build]
  · simp [kept, start, build]
  · simp [kept, start, build]

theorem exists_build_iff (s : LoadSchedule) :
    (∃ pacer, s.build = .ok pacer) ↔ s.validate = .ok () ∧ s.StartsAboveZero := by
  rw [← startFault?_eq_none_iff]
  rcases s.build_cases with
    ⟨r, rejected, build⟩ | ⟨kept, ⟨r, start, build⟩ | ⟨start, pacer, build, -⟩⟩
  · simp [rejected, build]
  · simp [start, build]
  · simp [kept, start, build]

/-- What is built from a load schedule is a pacer that constructors and builders give. -/
theorem built_of_build {pacer : Pacer} (success : s.build = .ok pacer) : pacer.Built := by
  rcases s.build_cases with ⟨r, -, build⟩ | ⟨-, ⟨r, -, build⟩ | ⟨-, other, build, built⟩⟩
  · cases build.symm.trans success
  · cases build.symm.trans success
  · cases build.symm.trans success
    exact built

end LoadSchedule

/-! ## Concurrency schedules -/

namespace ConcurrencySchedule

variable {s : ConcurrencySchedule} {rejection : Rejection}

/-- The rules are looked at in the order of the faults. -/
theorem validate_eq (s : ConcurrencySchedule) : s.validate = firstFault s.faults := by
  cases s with
  | constant workers =>
      rw [faults, firstFault_faultIf]
      rfl
  | step start change period target duration? =>
      rw [validate, faults, firstFault_append, firstFault_faultIf, checkRamp_eq]
      cases firstFault (rampFaults _ _ _ _) <;> rfl
  | line start slope target duration? => exact checkRamp_eq _ _ _ _

theorem build_of_rejected (rejected : s.validate = .error rejection) :
    s.build = .error rejection := by
  unfold build
  rw [rejected]
  rfl

/-- The rules leave nothing to the constructors. -/
theorem exists_build (kept : s.validate = .ok ()) : ∃ ticker, s.build = .ok ticker := by
  have rules := kept
  rw [validate_eq, firstFault_eq_ok_iff] at rules
  unfold build
  rw [kept]
  cases s with
  | constant workers => exact ⟨_, rfl⟩
  | step start change period target duration? =>
      simp only [faults, rampFaults, List.append_eq_nil_iff, faultIf_eq_nil_iff] at rules
      obtain ⟨⟨-, changing⟩, lasting⟩ := rules
      obtain ⟨ticker, made⟩ := StepTicker.exists_make start (ne_zero_of_toInt changing) lasting
      simp only [made]
      exact ⟨_, rfl⟩
  | line start slope target duration? =>
      simp only [faults, rampFaults, List.append_eq_nil_iff, faultIf_eq_nil_iff] at rules
      obtain ⟨-, changing⟩ := rules
      obtain ⟨ticker, made⟩ := LineTicker.exists_make start (ne_zero_of_toInt changing)
      simp only [made]
      exact ⟨_, rfl⟩

/-- No rule is worded as a constructor's. -/
theorem ofConstructor_of_mem_faults (mem : rejection ∈ s.faults) :
    rejection.ofConstructor = false := by
  cases s with
  | constant workers => rw [eq_of_mem_faultIf mem, Rejection.ofConstructor]
  | step start change period target duration? =>
      rcases List.mem_append.mp mem with ramp | instant
      · exact ofConstructor_of_mem_rampFaults ramp
      · rw [eq_of_mem_faultIf instant, Rejection.ofConstructor]
  | line start slope target duration? => exact ofConstructor_of_mem_rampFaults mem

theorem build_eq_error_iff (s : ConcurrencySchedule) (rejection : Rejection) :
    s.build = .error rejection ↔ s.validate = .error rejection := by
  cases validated : s.validate with
  | error r => simp [build_of_rejected validated]
  | ok =>
      obtain ⟨ticker, build⟩ := exists_build validated
      simp [build]

theorem exists_build_iff (s : ConcurrencySchedule) :
    (∃ ticker, s.build = .ok ticker) ↔ s.validate = .ok () := by
  cases validated : s.validate with
  | error r => simp [build_of_rejected validated]
  | ok => exact iff_of_true (exists_build validated) rfl

end ConcurrencySchedule

/-! ## Both layers -/

namespace Profile

variable {text : List Char} {profile : Profile}

/-- A text that describes a profile is rejected for the schedules alone. -/
theorem ofText_of_rejected {rejection : Rejection} (parsed : parse text = .ok profile)
    (rejected : profile.validate = .error rejection) :
    ofText text = .error (.rejected rejection) := by
  simp only [ofText, parsed, rejected]

theorem ofText_of_kept (parsed : parse text = .ok profile) (kept : profile.validate = .ok ()) :
    ofText text = .ok profile := by
  simp only [ofText, parsed, kept]

theorem validate_eq_ok_iff (p : Profile) :
    p.validate = .ok () ↔ p.load.validate = .ok () ∧ p.concurrency.validate = .ok () := by
  unfold validate
  split
  · next rejected => simp [rejected]
  · next kept => simp [kept]

theorem validate_eq_error_iff (p : Profile) (rejection : Rejection) :
    p.validate = .error rejection ↔
      p.load.validate = .error rejection ∨
        p.load.validate = .ok () ∧ p.concurrency.validate = .error rejection := by
  unfold validate
  split
  · next rejected => simp [rejected]
  · next kept => simp [kept]

end Profile

/-- A load schedule is built exactly if it keeps the rules and does not start at a rate of zero,
and a concurrency schedule exactly if it keeps the rules.  A schedule that breaks rules is
rejected for the first of them, whether it is looked at or built; no constructor of a ticker
rejects what is built from a schedule, and that of a pacer only a start of zero.  A text that
describes a profile is accepted exactly if both schedules keep the rules, and is rejected for
the load schedule if that one breaks a rule, else for the concurrency schedule. -/
theorem building_fits_rules :
    (∀ s : LoadSchedule,
      (∀ r, s.validate = .error r ↔ s.faults.head? = some r) ∧
      ((∃ pacer, s.build = .ok pacer) ↔ s.validate = .ok () ∧ s.StartsAboveZero) ∧
      ∀ r, s.build = .error r ↔
        s.validate = .error r ∨ s.validate = .ok () ∧ s.startFault? = some r) ∧
    (∀ s : ConcurrencySchedule,
      (∀ r, s.validate = .error r ↔ s.faults.head? = some r) ∧
      ((∃ ticker, s.build = .ok ticker) ↔ s.validate = .ok ()) ∧
      ∀ r, s.build = .error r ↔ s.validate = .error r ∧ r.ofConstructor = false) ∧
    ∀ text profile, Profile.parse text = .ok profile →
      ((∃ accepted, Profile.ofText text = .ok accepted) ↔
        profile.load.validate = .ok () ∧ profile.concurrency.validate = .ok ()) ∧
      ∀ fault, Profile.ofText text = .error fault ↔
        ∃ r, fault = .rejected r ∧
          (profile.load.validate = .error r ∨
            profile.load.validate = .ok () ∧ profile.concurrency.validate = .error r) := by
  refine ⟨fun s => ⟨fun r => ?_, s.exists_build_iff, s.build_eq_error_iff⟩,
    fun s => ⟨fun r => ?_, s.exists_build_iff, fun r => ?_⟩, fun text profile parsed => ⟨?_, ?_⟩⟩
  · rw [s.validate_eq, firstFault_eq_error_iff]
  · rw [s.validate_eq, firstFault_eq_error_iff]
  · rw [s.build_eq_error_iff, iff_self_and, s.validate_eq, firstFault_eq_error_iff]
    exact fun first => ConcurrencySchedule.ofConstructor_of_mem_faults (List.mem_of_head? first)
  · rw [← profile.validate_eq_ok_iff]
    cases validated : profile.validate with
    | error r => simp [Profile.ofText_of_rejected parsed validated]
    | ok => exact iff_of_true ⟨profile, Profile.ofText_of_kept parsed validated⟩ rfl
  · intro fault
    simp only [← profile.validate_eq_error_iff]
    cases validated : profile.validate with
    | error r => simp [Profile.ofText_of_rejected parsed validated, eq_comm]
    | ok => simp [Profile.ofText_of_kept parsed validated]

/-- A line of hits from zero keeps the rules and is not built; with it, no workers are the fault
for which the text is rejected. -/
theorem building_fits_rules_no_workers :
    let load : LoadSchedule := .line 0 5 20 none 0
    let text := "[load]\nschedule = \"line\"\nstart = 0\nslope = 5\nend = 20\nmax = 0\n\n" ++
      "[concurrency]\nschedule = \"const\"\nworkers = 0\n"
    Profile.parse text.toList = .ok { load, concurrency := .constant 0 } ∧
      load.validate = .ok () ∧ load.build = .error .linearPacerStartZero ∧
      Profile.ofText text.toList = .error (.rejected .noWorkers) := by
  intro load text
  obtain ⟨loads, workers, texts⟩ := building_fits_rules
  have parsed : Profile.parse text.toList = .ok { load, concurrency := .constant 0 } :=
    Profile.parse_print (by decide +kernel)
  have kept : load.validate = .ok () := rfl
  have none_there : (ConcurrencySchedule.constant 0).validate = .error .noWorkers :=
    ((workers _).1 _).mpr rfl
  exact ⟨parsed, kept, ((loads load).2.2 _).mpr (Or.inr ⟨kept, rfl⟩),
    ((texts _ _ parsed).2 _).mpr ⟨_, rfl, Or.inr ⟨kept, none_there⟩⟩⟩

end LoadShape.Schedule
