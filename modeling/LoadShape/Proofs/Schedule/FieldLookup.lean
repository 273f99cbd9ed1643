import LoadShape.Proofs.Schedule.WrittenProfile
import LoadShape.Proofs.Toml.DistinctKeys

/-!
# Profiles by look-up

The entries of a document are decoded in their order, and the first mistake is the one that is
reported.  Which profile they describe, if any, depends only on what is found under the names
of the sections, and in a section only on what is found under the tag and the declared fields.
-/

namespace LoadShape.Schedule

open LoadShape.Toml

/-! ## Tables of schedules -/

/-- What is found under the key of the field will do: a value of its type, or nothing where
the field may be left out. -/
def Field.Accepts (field : Field) : Option Value → Prop
  | none => field.required = false
  | some value => field.type.check value = .ok ()

/-- The table has a tag, which names the shape. -/
def Selects (entries : Entries) (shape : Shape) : Prop :=
  ∃ tag, entries.lookup tagKey = some tag ∧ shapeOf tag = .ok shape

section Tables

variable {declared : List Field} {entries : Entries}

/-- Entries are without mistakes if each of them is. -/
theorem checkEntries_eq_ok_iff :
    checkEntries declared entries = .ok () ↔
      ∀ entry ∈ entries, ∀ field, declared.find? (·.key = entry.1) = some field →
        field.type.check entry.2 = .ok () := by
  induction entries with
  | nil => simp [checkEntries]
  | cons entry entries ih =>
      obtain ⟨key, value⟩ := entry
      rw [List.forall_mem_cons, ← ih, checkEntries]
      cases found : declared.find? (·.key = key) with
      | none => simp
      | some field =>
          cases checked : field.type.check value with
          | error fault => simp [checked]
          | ok => simp [checked]

theorem firstMissing?_eq_none_iff :
    firstMissing? declared entries = none ↔
      ∀ field ∈ declared, entries.lookup field.key = none → field.required = false := by
  rw [firstMissing?, List.find?_eq_none]
  refine forall_congr' fun field => imp_congr_right fun _ => ?_
  cases field.required <;> cases entries.lookup field.key <;> simp

variable {subject : Subject} {shape : Shape}

/-- Every declared field is given what will do. -/
def Accepted (subject : Subject) (shape : Shape) (entries : Entries) : Prop :=
  ∀ field ∈ fields subject shape, field.Accepts (entries.lookup field.key)

theorem accepted_iff (distinct : (entries.map (·.1)).Nodup) :
    Accepted subject shape entries ↔
      checkEntries (fields subject shape) entries = .ok () ∧
        firstMissing? (fields subject shape) entries = none := by
  rw [checkEntries_eq_ok_iff, firstMissing?_eq_none_iff]
  constructor
  · intro accepts
    refine ⟨fun entry mem field found => ?_, fun field mem absent => ?_⟩
    · have key : field.key = entry.1 := by simpa using List.find?_some found
      have accepts := accepts field (List.mem_of_find?_eq_some found)
      rwa [key, lookup_of_mem distinct mem] at accepts
    · have accepts := accepts field mem
      rwa [absent] at accepts
  · rintro ⟨checked, complete⟩ field mem
    cases found : entries.lookup field.key with
    | none => exact complete field mem found
    | some value =>
        exact checked _ (mem_of_lookup found) field (find?_key_of_mem_fields _ _ field mem)

theorem namedFields_of_accepted (distinct : (entries.map (·.1)).Nodup)
    (accepted : Accepted subject shape entries) :
    namedFields (fields subject shape) entries = .ok entries := by
  obtain ⟨checked, complete⟩ := (accepted_iff distinct).mp accepted
  rw [namedFields, checked]
  simp only [complete]
  rfl

theorem namedFields_of_not_accepted (distinct : (entries.map (·.1)).Nodup)
    (failed : ¬ Accepted subject shape entries) :
    ∃ fault, namedFields (fields subject shape) entries = .error fault := by
  rw [namedFields]
  cases checked : checkEntries (fields subject shape) entries with
  | error fault => exact ⟨fault, rfl⟩
  | ok =>
      cases missing : firstMissing? (fields subject shape) entries with
      | some field => exact ⟨.missingField field.key, rfl⟩
      | none => exact absurd ((accepted_iff distinct).mpr ⟨checked, missing⟩) failed

end Tables

/-! ## Schedules of a subject -/

/-- The schedules of a subject. -/
def ScheduleOf : Subject → Type
  | .load => LoadSchedule
  | .concurrency => ConcurrencySchedule

/-- The schedule where the document has no section. -/
def usualSchedule : (subject : Subject) → ScheduleOf subject
  | .load => .unlimited
  | .concurrency => .usual

/-- The schedule with the given fields. -/
def scheduleOf : (subject : Subject) → Shape → Entries → ScheduleOf subject
  | .load => LoadSchedule.ofFields
  | .concurrency => ConcurrencySchedule.ofFields

/-- The schedule that a section describes. -/
def decodeSection : (subject : Subject) → Value → Except DecodeFault (ScheduleOf subject)
  | .load => LoadSchedule.decode
  | .concurrency => ConcurrencySchedule.decode

/-- The schedule of the subject in a profile. -/
def Profile.schedule (p : Profile) : (subject : Subject) → ScheduleOf subject
  | .load => p.load
  | .concurrency => p.concurrency

theorem decodeSection_eq (subject : Subject) (value : Value) :
    decodeSection subject value =
      (scheduleParts subject value).map fun (shape, entries) =>
        scheduleOf subject shape entries := by
  cases subject with
  | load =>
      change LoadSchedule.decode value = _
      rw [LoadSchedule.decode]
      cases scheduleParts .load value <;> rfl
  | concurrency =>
      change ConcurrencySchedule.decode value = _
      rw [ConcurrencySchedule.decode]
      cases scheduleParts .concurrency value <;> rfl

/-- A table describes a schedule if its tag selects a shape and every field of the shape is
given what will do; it is the schedule with these fields. -/
theorem decodeSection_table_eq_ok_iff {subject : Subject} {entries : Entries}
    {schedule : ScheduleOf subject} (distinct : (entries.map (·.1)).Nodup) :
    decodeSection subject (.table entries) = .ok schedule ↔
      ∃ shape, Selects entries shape ∧ Accepted subject shape entries ∧
        scheduleOf subject shape entries = schedule := by
  rw [decodeSection_eq, scheduleParts]
  cases tagged : entries.lookup tagKey with
  | none => simp [Except.map, Selects, tagged]
  | some tag =>
      cases named : shapeOf tag with
      | error fault => simp [Except.map, Selects, tagged, named, bind, Except.bind]
      | ok shape =>
          have selected : ∀ other, Selects entries other ↔ other = shape := by
            intro other
            simp [Selects, tagged, named, eq_comm]
          by_cases accepted : Accepted subject shape entries
          · simp [selected, accepted, named, namedFields_of_accepted distinct accepted,
              Except.map, bind, Except.bind, pure, Except.pure]
          · obtain ⟨fault, failed⟩ := namedFields_of_not_accepted distinct accepted
            simp [selected, accepted, named, failed, Except.map, bind, Except.bind]

/-! ## Profiles -/

/-- The schedule of a section that may not be there. -/
def sectionOr {subject : Subject} (default : ScheduleOf subject) :
    Option Value → Except DecodeFault (ScheduleOf subject)
  | none => .ok default
  | some value => decodeSection subject value

/-- The names of the sections differ. -/
theorem word_inj {subject other : Subject} : subject.word = other.word ↔ subject = other := by
  cases subject <;> cases other <;> decide

namespace Profile

variable {p q : Profile} {key : String} {value : Value}

theorem addEntry_other (other : ∀ subject : Subject, key ≠ subject.word) :
    p.addEntry (key, value) = .ok p := by
  rw [addEntry, if_neg (other .load), if_neg (other .concurrency)]

/-- A section changes the schedule of its subject and no other. -/
theorem addEntry_section (p : Profile) (subject : Subject) (value : Value) :
    (∃ fault, decodeSection subject value = .error fault ∧
        p.addEntry (subject.word, value) = .error fault) ∨
      ∃ q, p.addEntry (subject.word, value) = .ok q ∧
        decodeSection subject value = .ok (q.schedule subject) ∧
        ∀ other, other ≠ subject → q.schedule other = p.schedule other := by
  cases subject with
  | load =>
      rw [addEntry, if_pos rfl]
      cases decoded : LoadSchedule.decode value with
      | error fault => exact .inl ⟨fault, decoded, rfl⟩
      | ok load =>
          refine .inr ⟨{ p with load }, rfl, decoded, fun other differs => ?_⟩
          cases other with
          | load => exact absurd rfl differs
          | concurrency => rfl
  | concurrency =>
      rw [addEntry, if_neg (show Subject.concurrency.word ≠ Subject.load.word by decide),
        if_pos rfl]
      cases decoded : ConcurrencySchedule.decode value with
      | error fault => exact .inl ⟨fault, decoded, rfl⟩
      | ok concurrency =>
          refine .inr ⟨{ p with concurrency }, rfl, decoded, fun other differs => ?_⟩
          cases other with
          | load => rfl
          | concurrency => exact absurd rfl differs

/-- What the entries of a document add to a profile. -/
theorem foldlM_addEntry_eq_ok_iff {document : Entries} (distinct : (document.map (·.1)).Nodup) :
    document.foldlM addEntry p = .ok q ↔
      ∀ subject : Subject, sectionOr (p.schedule subject) (document.lookup subject.word) =
        .ok (q.schedule subject) := by
  induction document generalizing p with
  | nil =>
      have same : p = q ↔ ∀ subject : Subject, p.schedule subject = q.schedule subject := by
        constructor
        · rintro rfl subject
          rfl
        · intro equal
          obtain ⟨load, concurrency⟩ := p
          cases equal .load
          cases equal .concurrency
          rfl
      simp [sectionOr, pure, Except.pure, same]
  | cons entry document ih =>
      obtain ⟨key, value⟩ := entry
      obtain ⟨fresh, others⟩ := List.nodup_cons.mp distinct
      rw [List.foldlM_cons]
      by_cases named : ∃ subject : Subject, key = subject.word
      · obtain ⟨subject, rfl⟩ := named
        rcases addEntry_section p subject value with
          ⟨fault, failed, added⟩ | ⟨next, added, decoded, kept⟩
        · rw [added]
          constructor
          · intro impossible
            cases impossible
          · intro described
            have first := described subject
            rw [List.lookup_cons_self, sectionOr, failed] at first
            cases first
        · rw [added]
          refine (ih (p := next) others).trans (forall_congr' fun other => ?_)
          by_cases same : other = subject
          · subst same
            rw [List.lookup_cons_self, lookup_eq_none_iff_fresh.mpr fresh, sectionOr, sectionOr,
              decoded]
          · rw [lookup_cons_of_ne (mt word_inj.mp same), kept other same]
      · have noSection : ∀ subject : Subject, subject.word ≠ key :=
          fun subject same => named ⟨subject, same.symm⟩
        rw [addEntry_other fun subject => (noSection subject).symm]
        refine (ih (p := p) others).trans (forall_congr' fun subject => ?_)
        rw [lookup_cons_of_ne (noSection subject)]

/-- A document describes a profile if each of its sections describes the schedule that the
profile has for the subject; where there is no section it is the usual one. -/
theorem decode_eq_ok_iff {document : Entries} (distinct : (document.map (·.1)).Nodup) :
    decode document = .ok q ↔
      ∀ subject : Subject, sectionOr (usualSchedule subject) (document.lookup subject.word) =
        .ok (q.schedule subject) := by
  have usual : ∀ subject, ({} : Profile).schedule subject = usualSchedule subject := by
    intro subject
    cases subject <;> rfl
  simp only [decode, foldlM_addEntry_eq_ok_iff distinct, usual]

/-- A text holds a profile if the document describes it and its schedules keep the rules. -/
theorem ofText_eq_ok_iff {text : List Char} {document : Entries}
    (read : Toml.read? text = some document) :
    ofText text = .ok p ↔ decode document = .ok p ∧ p.validate = .ok () := by
  cases decoded : decode document with
  | error fault => simp [ofText, parse, read, decoded]
  | ok profile =>
      cases kept : profile.validate with
      | error rejection =>
          simp only [ofText, parse, read, decoded, kept, Except.ok.injEq]
          constructor
          · intro impossible
            cases impossible
          · rintro ⟨rfl, valid⟩
            exact absurd (kept.symm.trans valid) (by simp)
      | ok =>
          simp only [ofText, parse, read, decoded, kept, Except.ok.injEq]
          exact ⟨fun same => ⟨same, same ▸ kept⟩, fun described => described.1⟩

end Profile

end LoadShape.Schedule
