import LoadShape.Proofs.Schedule.FieldLookup
import Mathlib.Logic.Relation

/-!
# Edits of a document

A profile does not depend on how its document is laid out: on the order of the sections and of
their keys, on whether usual values and usual sections are written down, and on keys that the
selected shape does not declare.  Texts whose documents differ in nothing else hold the same
profile, or they all hold none.
-/

namespace LoadShape.Schedule

open LoadShape.Toml

/-! ## Edits -/

/-- The fields that have a usual value, with that value. -/
def usualEntries : Subject → Entries
  | .load => [("rate", .integer 0), ("max", .integer 0), ("end", .integer 0)]
  | .concurrency => [("workers", .integer 50), ("end", .integer 0)]

/-- An array or a table. -/
inductive Compound : Value → Prop
  | array (items : List Value) : Compound (.array items)
  | table (entries : Entries) : Compound (.table entries)

/-- An edit of the table of a section. -/
inductive SectionEdit (subject : Subject) : Entries → Entries → Prop
  /-- The keys, that of the tag included, come in another order. -/
  | reorder {entries others : Entries} (perm : entries.Perm others) :
      SectionEdit subject entries others
  /-- A field with its usual value is left out. -/
  | leaveOut {key : String} {value : Value} {entries : Entries}
      (isUsual : (key, value) ∈ usualEntries subject) (fresh : key ∉ entries.map (·.1)) :
      SectionEdit subject ((key, value) :: entries) entries
  /-- A key that the selected shape does not declare is left out, whatever its value. -/
  | ignore {key : String} {value : Value} {entries : Entries} (notTag : key ≠ tagKey)
      (undeclared : ∀ shape, Selects entries shape → key ∉ (fields subject shape).map (·.key))
      (fresh : key ∉ entries.map (·.1)) (keyed : value.WellKeyed) :
      SectionEdit subject ((key, value) :: entries) entries
  /-- Something else is in an array or a table: no tag and no field is one. -/
  | within {key : String} {value other : Value} {entries : Entries}
      (compound : Compound value) (otherCompound : Compound other) (keyed : value.WellKeyed)
      (otherKeyed : other.WellKeyed) :
      SectionEdit subject ((key, value) :: entries) ((key, other) :: entries)

/-- An edit of a document. -/
inductive DocumentEdit : Entries → Entries → Prop
  /-- The sections come in another order. -/
  | reorder {document other : Entries} (perm : document.Perm other) : DocumentEdit document other
  /-- A section is edited. -/
  | within {subject : Subject} {entries others document : Entries}
      (edit : SectionEdit subject entries others) :
      DocumentEdit ((subject.word, .table entries) :: document)
        ((subject.word, .table others) :: document)
  /-- A section that describes the usual schedule is left out. -/
  | leaveOut {subject : Subject} {value : Value} {document : Entries}
      (isUsual : decodeSection subject value = .ok (usualSchedule subject))
      (fresh : subject.word ∉ document.map (·.1)) (keyed : value.WellKeyed) :
      DocumentEdit ((subject.word, value) :: document) document
  /-- An entry that is no section is left out. -/
  | ignore {key : String} {value : Value} {document : Entries}
      (noSection : ∀ subject : Subject, key ≠ subject.word)
      (fresh : key ∉ document.map (·.1)) (keyed : value.WellKeyed) :
      DocumentEdit ((key, value) :: document) document

variable {subject : Subject}

/-! ## Distinct keys -/

theorem exists_integer_of_usual {key : String} {value : Value}
    (isUsual : (key, value) ∈ usualEntries subject) : ∃ n, value = .integer n := by
  cases subject with
  | load =>
      simp only [usualEntries, List.mem_cons, Prod.mk.injEq, List.not_mem_nil, or_false] at isUsual
      rcases isUsual with ⟨-, rfl⟩ | ⟨-, rfl⟩ | ⟨-, rfl⟩ <;> exact ⟨0, rfl⟩
  | concurrency =>
      simp only [usualEntries, List.mem_cons, Prod.mk.injEq, List.not_mem_nil, or_false] at isUsual
      rcases isUsual with ⟨-, rfl⟩ | ⟨-, rfl⟩
      · exact ⟨50, rfl⟩
      · exact ⟨0, rfl⟩

/-- Keys that are distinct stay distinct, before the edit as well as after it. -/
theorem SectionEdit.keyed_iff {entries others : Entries}
    (edit : SectionEdit subject entries others) :
    Keyed Value.WellKeyed entries ↔ Keyed Value.WellKeyed others := by
  cases edit with
  | reorder perm => exact ⟨keyed_of_perm perm, keyed_of_perm perm.symm⟩
  | leaveOut isUsual fresh =>
      obtain ⟨n, rfl⟩ := exists_integer_of_usual isUsual
      exact keyed_cons.trans ⟨fun keyed => keyed.2.2, fun keyed => ⟨fresh, .integer n, keyed⟩⟩
  | ignore notTag undeclared fresh keyed =>
      exact keyed_cons.trans ⟨fun all => all.2.2, fun rest => ⟨fresh, keyed, rest⟩⟩
  | within compound otherCompound keyed otherKeyed =>
      rw [keyed_cons, keyed_cons]
      exact ⟨fun all => ⟨all.1, otherKeyed, all.2.2⟩, fun all => ⟨all.1, keyed, all.2.2⟩⟩

theorem DocumentEdit.keyed_iff {document other : Entries} (edit : DocumentEdit document other) :
    Keyed Value.WellKeyed document ↔ Keyed Value.WellKeyed other := by
  cases edit with
  | reorder perm => exact ⟨keyed_of_perm perm, keyed_of_perm perm.symm⟩
  | within edit =>
      rw [keyed_cons, keyed_cons, Value.wellKeyed_table, Value.wellKeyed_table, edit.keyed_iff]
  | leaveOut isUsual fresh keyed =>
      exact keyed_cons.trans ⟨fun all => all.2.2, fun rest => ⟨fresh, keyed, rest⟩⟩
  | ignore noSection fresh keyed =>
      exact keyed_cons.trans ⟨fun all => all.2.2, fun rest => ⟨fresh, keyed, rest⟩⟩

/-! ## What is found -/

/-- What is found under a key before an edit, and what is found after it: the same, a usual
value or nothing, or something that is no tag and no field either way. -/
inductive FoundAlike (subject : Subject) (key : String) : Option Value → Option Value → Prop
  | same (value? : Option Value) : FoundAlike subject key value? value?
  | leftOut {value : Value} (isUsual : (key, value) ∈ usualEntries subject) :
      FoundAlike subject key (some value) none
  | compound {value other : Value} (compound : Compound value) (otherCompound : Compound other) :
      FoundAlike subject key (some value) (some other)

/-- An edit changes nothing that is found under the tag or a declared field. -/
theorem SectionEdit.foundAlike {entries others : Entries}
    (edit : SectionEdit subject entries others) (distinct : (entries.map (·.1)).Nodup)
    {key : String}
    (counts : key = tagKey ∨
      ∃ shape, Selects others shape ∧ key ∈ (fields subject shape).map (·.key)) :
    FoundAlike subject key (entries.lookup key) (others.lookup key) := by
  cases edit with
  | reorder perm =>
      rw [lookup_eq_of_perm distinct perm]
      exact .same _
  | @leaveOut other value _ isUsual fresh =>
      by_cases same : key = other
      · subst same
        rw [List.lookup_cons_self, lookup_eq_none_iff_fresh.mpr fresh]
        exact .leftOut isUsual
      · rw [lookup_cons_of_ne same]
        exact .same _
  | @ignore other value _ notTag undeclared fresh keyed =>
      have differs : key ≠ other := by
        rintro rfl
        rcases counts with tag | ⟨shape, selects, declared⟩
        · exact notTag tag
        · exact undeclared shape selects declared
      rw [lookup_cons_of_ne differs]
      exact .same _
  | @within other value changed _ compound otherCompound keyed otherKeyed =>
      by_cases same : key = other
      · subst same
        rw [List.lookup_cons_self, List.lookup_cons_self]
        exact .compound compound otherCompound
      · rw [lookup_cons_of_ne same, lookup_cons_of_ne same]
        exact .same _

theorem check_compound {type : FieldType} {value : Value} (compound : Compound value) :
    type.check value ≠ .ok () := by
  cases compound <;> cases type <;> simp [FieldType.check]

/-- A usual value will do for its field, and the field may be left out. -/
theorem accepts_usual {shape : Shape} :
    ∀ field ∈ fields subject shape, ∀ value, (field.key, value) ∈ usualEntries subject →
      field.type.check value = .ok () ∧ field.required = false := by
  cases subject <;> cases shape <;>
    simp [fields, usualEntries, FieldType.check, UInt64.size, UInt32.size]

namespace FoundAlike

variable {key : String} {value? other? : Option Value}

theorem accepts_iff {shape : Shape} {field : Field} (mem : field ∈ fields subject shape)
    (alike : FoundAlike subject field.key value? other?) :
    field.Accepts value? ↔ field.Accepts other? := by
  cases alike with
  | same => rfl
  | leftOut isUsual =>
      obtain ⟨checked, optional⟩ := accepts_usual field mem _ isUsual
      simp [Field.Accepts, checked, optional]
  | compound compound otherCompound =>
      simp [Field.Accepts, check_compound compound, check_compound otherCompound]

theorem tag_iff (alike : FoundAlike subject tagKey value? other?) (shape : Shape) :
    (∃ tag, value? = some tag ∧ shapeOf tag = .ok shape) ↔
      ∃ tag, other? = some tag ∧ shapeOf tag = .ok shape := by
  cases alike with
  | same => rfl
  | leftOut isUsual =>
      cases subject <;> simp [usualEntries, tagKey] at isUsual
  | compound compound otherCompound =>
      cases compound <;> cases otherCompound <;> simp [shapeOf]

end FoundAlike

section Fields

variable {entries others : Entries} {key : String}

theorem word64D_eq (alike : FoundAlike .load key (entries.lookup key) (others.lookup key)) :
    word64D entries key 0 = word64D others key 0 := by
  rw [word64D, word64D]
  generalize entries.lookup key = value? at alike
  generalize others.lookup key = other? at alike
  cases alike with
  | same => rfl
  | leftOut isUsual =>
      simp only [usualEntries, List.mem_cons, Prod.mk.injEq, List.not_mem_nil, or_false] at isUsual
      rcases isUsual with ⟨-, rfl⟩ | ⟨-, rfl⟩ | ⟨-, rfl⟩ <;> rfl
  | compound first second => cases first <;> cases second <;> rfl

theorem word32D_eq (default : UInt32)
    (usual : ∀ value, (key, value) ∈ usualEntries .concurrency → value = .integer default.toNat)
    (alike : FoundAlike .concurrency key (entries.lookup key) (others.lookup key)) :
    word32D entries key default = word32D others key default := by
  rw [word32D, word32D]
  generalize entries.lookup key = value? at alike
  generalize others.lookup key = other? at alike
  cases alike with
  | same => rfl
  | leftOut isUsual => simp [usual _ isUsual]
  | compound first second => cases first <;> cases second <;> rfl

theorem signed64D_eq (required : ∀ value, (key, value) ∉ usualEntries subject)
    (alike : FoundAlike subject key (entries.lookup key) (others.lookup key)) :
    signed64D entries key = signed64D others key := by
  rw [signed64D, signed64D]
  generalize entries.lookup key = value? at alike
  generalize others.lookup key = other? at alike
  cases alike with
  | same => rfl
  | leftOut isUsual => exact absurd isUsual (required _)
  | compound first second => cases first <;> cases second <;> rfl

theorem spanAt?_eq (alike : FoundAlike subject key (entries.lookup key) (others.lookup key)) :
    spanAt? entries key = spanAt? others key := by
  rw [spanAt?, spanAt?]
  generalize entries.lookup key = value? at alike
  generalize others.lookup key = other? at alike
  cases alike with
  | same => rfl
  | leftOut isUsual =>
      obtain ⟨n, rfl⟩ := exists_integer_of_usual isUsual
      rfl
  | compound first second => cases first <;> cases second <;> rfl

/-- A load schedule is made of the declared fields alone. -/
theorem LoadSchedule.ofFields_eq {shape : Shape}
    (alike : ∀ key ∈ (fields .load shape).map (·.key),
      FoundAlike .load key (entries.lookup key) (others.lookup key)) :
    ofFields shape entries = ofFields shape others := by
  have counter : ∀ key ∈ (fields .load shape).map (·.key),
      word64D entries key 0 = word64D others key 0 := fun key mem => word64D_eq (alike key mem)
  cases shape with
  | constant => simp only [ofFields, counter "rate" (by decide), counter "max" (by decide)]
  | step =>
      have change := signed64D_eq (by simp [usualEntries]) (alike "step" (by decide))
      have period := spanAt?_eq (alike "step_duration" (by decide))
      have duration := spanAt?_eq (alike "duration" (by decide))
      simp only [ofFields, counter "start" (by decide), change, period,
        counter "end" (by decide), duration, counter "max" (by decide)]
  | line =>
      have slope := signed64D_eq (by simp [usualEntries]) (alike "slope" (by decide))
      have duration := spanAt?_eq (alike "duration" (by decide))
      simp only [ofFields, counter "start" (by decide), slope, counter "end" (by decide),
        duration, counter "max" (by decide)]

/-- A concurrency schedule is made of the declared fields alone. -/
theorem ConcurrencySchedule.ofFields_eq {shape : Shape}
    (alike : ∀ key ∈ (fields .concurrency shape).map (·.key),
      FoundAlike .concurrency key (entries.lookup key) (others.lookup key)) :
    ofFields shape entries = ofFields shape others := by
  cases shape with
  | constant =>
      have workers := word32D_eq usualWorkers (by simp [usualEntries, usualWorkers])
        (alike "workers" (by decide))
      simp only [ofFields, workers]
  | step =>
      have start := word32D_eq 0 (by simp [usualEntries]) (alike "start" (by decide))
      have change := signed64D_eq (by simp [usualEntries]) (alike "step" (by decide))
      have period := spanAt?_eq (alike "step_duration" (by decide))
      have target := word32D_eq 0 (by simp [usualEntries]) (alike "end" (by decide))
      have duration := spanAt?_eq (alike "duration" (by decide))
      simp only [ofFields, start, change, period, target, duration]
  | line =>
      have start := word32D_eq 0 (by simp [usualEntries]) (alike "start" (by decide))
      have slope := signed64D_eq (by simp [usualEntries]) (alike "slope" (by decide))
      have target := word32D_eq 0 (by simp [usualEntries]) (alike "end" (by decide))
      have duration := spanAt?_eq (alike "duration" (by decide))
      simp only [ofFields, start, slope, target, duration]

theorem scheduleOf_eq {shape : Shape}
    (alike : ∀ key ∈ (fields subject shape).map (·.key),
      FoundAlike subject key (entries.lookup key) (others.lookup key)) :
    scheduleOf subject shape entries = scheduleOf subject shape others := by
  cases subject with
  | load => exact LoadSchedule.ofFields_eq alike
  | concurrency => exact ConcurrencySchedule.ofFields_eq alike

end Fields

/-! ## What is described -/

namespace SectionEdit

variable {entries others : Entries} (edit : SectionEdit subject entries others)
  (distinct : (entries.map (·.1)).Nodup)
include edit distinct

theorem selects_iff (shape : Shape) : Selects entries shape ↔ Selects others shape :=
  (edit.foundAlike distinct (.inl rfl)).tag_iff shape

theorem fields_alike {shape : Shape} (selects : Selects others shape) :
    ∀ key ∈ (fields subject shape).map (·.key),
      FoundAlike subject key (entries.lookup key) (others.lookup key) :=
  fun _ mem => edit.foundAlike distinct (.inr ⟨shape, selects, mem⟩)

theorem accepted_iff {shape : Shape} (selects : Selects others shape) :
    Accepted subject shape entries ↔ Accepted subject shape others :=
  forall_congr' fun field => forall_congr' fun mem =>
    (edit.fields_alike distinct selects field.key (List.mem_map_of_mem mem)).accepts_iff mem

end SectionEdit

/-- An edit of a section leaves the schedule that it describes, if it describes any. -/
theorem SectionEdit.decodeSection_iff {entries others : Entries}
    (edit : SectionEdit subject entries others) (keyed : Keyed Value.WellKeyed entries)
    (schedule : ScheduleOf subject) :
    decodeSection subject (.table entries) = .ok schedule ↔
      decodeSection subject (.table others) = .ok schedule := by
  have distinct := keyed.distinct
  rw [decodeSection_table_eq_ok_iff distinct,
    decodeSection_table_eq_ok_iff (edit.keyed_iff.mp keyed).distinct]
  refine exists_congr fun shape => ?_
  rw [edit.selects_iff distinct]
  refine and_congr_right fun selects => ?_
  rw [edit.accepted_iff distinct selects, scheduleOf_eq (edit.fields_alike distinct selects)]

/-- An edit of a document leaves the schedule of each subject. -/
theorem DocumentEdit.section_iff {document other : Entries} (edit : DocumentEdit document other)
    (keyed : Keyed Value.WellKeyed document) (subject : Subject) (schedule : ScheduleOf subject) :
    sectionOr (usualSchedule subject) (document.lookup subject.word) = .ok schedule ↔
      sectionOr (usualSchedule subject) (other.lookup subject.word) = .ok schedule := by
  cases edit with
  | reorder perm => rw [lookup_eq_of_perm keyed.distinct perm]
  | @within edited entries others document edit =>
      by_cases same : subject = edited
      · subst same
        have entriesKeyed := Value.wellKeyed_table.mp (keyed_cons.mp keyed).2.1
        rw [List.lookup_cons_self, List.lookup_cons_self]
        exact edit.decodeSection_iff entriesKeyed schedule
      · have differs := mt word_inj.mp same
        rw [lookup_cons_of_ne differs, lookup_cons_of_ne differs]
  | @leaveOut edited value document isUsual fresh valueKeyed =>
      by_cases same : subject = edited
      · subst same
        rw [List.lookup_cons_self, lookup_eq_none_iff_fresh.mpr fresh, sectionOr, sectionOr,
          isUsual]
      · rw [lookup_cons_of_ne (mt word_inj.mp same)]
  | ignore noSection fresh valueKeyed =>
      rw [lookup_cons_of_ne (noSection subject).symm]

/-- Documents that differ by edits describe the same profile, or none of them describes any. -/
theorem decode_iff_of_edits {document other : Entries}
    (edits : Relation.EqvGen DocumentEdit document other) (p : Profile) :
    (Keyed Value.WellKeyed document ↔ Keyed Value.WellKeyed other) ∧
      (Keyed Value.WellKeyed document →
        (Profile.decode document = .ok p ↔ Profile.decode other = .ok p)) := by
  induction edits with
  | rel document other edit =>
      refine ⟨edit.keyed_iff, fun keyed => ?_⟩
      rw [Profile.decode_eq_ok_iff keyed.distinct,
        Profile.decode_eq_ok_iff (edit.keyed_iff.mp keyed).distinct]
      exact forall_congr' fun subject => edit.section_iff keyed subject _
  | refl document => exact ⟨.rfl, fun _ => .rfl⟩
  | symm document other _ ih => exact ⟨ih.1.symm, fun keyed => (ih.2 (ih.1.mpr keyed)).symm⟩
  | trans document middle other _ _ first second =>
      exact ⟨first.1.trans second.1,
        fun keyed => (first.2 keyed).trans (second.2 (first.1.mp keyed))⟩

/-- How a document is laid out does not matter.  Two well-formed texts whose documents differ
only in the order of sections and keys, in usual values and usual sections that are written or
left out, and in keys that the selected shapes do not declare, hold the same profile, or neither
of them is accepted. -/
theorem Profile.ofText_iff_of_edits {text other : List Char} {document otherDocument : Entries}
    (read : Toml.read? text = some document) (readOther : Toml.read? other = some otherDocument)
    (edits : Relation.EqvGen DocumentEdit document otherDocument) (p : Profile) :
    ofText text = .ok p ↔ ofText other = .ok p := by
  rw [ofText_eq_ok_iff read, ofText_eq_ok_iff readOther,
    (decode_iff_of_edits edits p).2 (keyed_of_read? read)]

/-- Five hits a second, written out and in short: then the tag comes last, a cap of zero and the
usual section of workers are gone, and a step is given that a constant rate does not declare. -/
theorem Profile.ofText_iff_of_edits_in_short :
    let text := "[load]\nschedule = \"const\"\nrate = 5\nmax = 0\n\n" ++
      "[concurrency]\nworkers = 50\nschedule = \"const\"\n"
    let other := "[load]\nstep = \"none\"\nrate = 5\nschedule = \"const\"\n"
    ofText text.toList = .ok { load := .constant 5 0 } ∧
      ofText other.toList = .ok { load := .constant 5 0 } := by
  intro text other
  let tag : String × Value := ("schedule", .string "const")
  let rate : String × Value := ("rate", .integer 5)
  let cap : String × Value := ("max", .integer 0)
  let step : String × Value := ("step", .string "none")
  let workers : String × Value := ("workers", .integer 50)
  let loadTable : PrintedTable := ⟨"load".toList,
    [tagEntry .constant, entryOf "rate" (.integer 5), entryOf "max" (.integer 0)]⟩
  let workerTable : PrintedTable := ⟨"concurrency".toList,
    [entryOf "workers" (.integer 50), tagEntry .constant]⟩
  let shortTable : PrintedTable := ⟨"load".toList,
    [entryOf "step" (.string "none".toList), entryOf "rate" (.integer 5), tagEntry .constant]⟩
  obtain ⟨loadFormed, workerFormed, shortFormed⟩ :
      loadTable.WellFormed ∧ workerTable.WellFormed ∧ shortTable.WellFormed := by
    refine ⟨?_, ?_, ?_⟩ <;>
      exact ⟨by decide +kernel, by decide +kernel, by decide +kernel, by
        simp [loadTable, workerTable, shortTable, tagEntry, entryOf, Printable.InRange,
          Number.signedMin, Number.signedMax]⟩
  have read : Toml.read? text.toList =
      some [("load", .table [tag, rate, cap]), ("concurrency", .table [workers, tag])] := by
    have printed : text.toList = Toml.print [loadTable, workerTable] := by decide +kernel
    have names : ([loadTable, workerTable].map (·.name)).Nodup := by decide +kernel
    rw [printed, read?_print (by simp [loadFormed, workerFormed]) names]
    simp [loadTable, workerTable, PrintedTable.values, tagEntry, entryOf, Printable.value, tagKey,
      Shape.tag, tag, rate, cap, workers]
  have readOther : Toml.read? other.toList = some [("load", .table [step, rate, tag])] := by
    have printed : other.toList = Toml.print [shortTable] := by decide +kernel
    rw [printed, read?_print (by simp [shortFormed]) (by simp)]
    simp [shortTable, PrintedTable.values, tagEntry, entryOf, Printable.value, tagKey, Shape.tag,
      step, rate, tag]
  have withoutWorkers : DocumentEdit
      [("concurrency", .table [workers, tag]), ("load", .table [tag, rate, cap])]
      [("load", .table [tag, rate, cap])] := by
    refine @DocumentEdit.leaveOut .concurrency _ _ rfl (by decide) ?_
    exact Value.wellKeyed_table.mpr (keyed_cons.mpr ⟨by decide, .integer 50,
      keyed_cons.mpr ⟨by decide, .string "const", keyed_nil⟩⟩)
  have tagLast : SectionEdit .load [tag, rate, cap] [cap, rate, tag] :=
    .reorder (List.reverse_perm [cap, rate, tag])
  have withoutCap : SectionEdit .load [cap, rate, tag] [rate, tag] :=
    .leaveOut (by simp [usualEntries]) (by decide)
  have withStep : SectionEdit .load [step, rate, tag] [rate, tag] := by
    refine .ignore (by decide) ?_ (by decide) (.string "none")
    rintro shape ⟨selected, found, named⟩
    cases found
    cases (show Except.ok Shape.constant = Except.ok shape from named)
    decide
  have edits : Relation.EqvGen DocumentEdit
      [("load", .table [tag, rate, cap]), ("concurrency", .table [workers, tag])]
      [("load", .table [step, rate, tag])] :=
    .trans _ _ _ (.rel _ _ (.reorder (.swap _ _ _))) <|
    .trans _ _ _ (.rel _ _ withoutWorkers) <|
    .trans _ _ _ (.rel _ _ (.within tagLast)) <|
    .trans _ _ _ (.rel _ _ (.within withoutCap)) <|
    .symm _ _ (.rel _ _ (.within withStep))
  have accepted : ofText text.toList = .ok { load := .constant 5 0 } :=
    (ofText_eq_ok_iff read).mpr ⟨by rfl, by rfl⟩
  exact ⟨accepted, (ofText_iff_of_edits read readOther edits _).mp accepted⟩

end LoadShape.Schedule
