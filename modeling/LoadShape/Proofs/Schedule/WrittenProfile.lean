import LoadShape.Proofs.Time.SpanText
import LoadShape.Proofs.Toml.PrintedDocument
import LoadShape.Schedule.ProfileText

/-!
# Reading written profiles

The written entries of a schedule follow the layout by which they are read.  A profile can
be written unless a counter of its load schedule is greater than the whole numbers of a
document, and what is written is read back as the same profile.
-/

namespace LoadShape.Schedule

open LoadShape.Number LoadShape.Time LoadShape.Toml

/-! ## Written values -/

/-- A counter that can be written. -/
def Writable (w : UInt64) : Prop := w.toNat ≤ signedMax

theorem printableWord?_of_writable {w : UInt64} (writable : Writable w) :
    printableWord? w = some (.integer w.toNat) := if_pos writable

theorem printableWord?_of_not_writable {w : UInt64} (tooGreat : ¬ Writable w) :
    printableWord? w = none := if_neg tooGreat

/-- A value that is printed for a field of the type: it is in range, and it is one of the
type when it is read back. -/
structure FieldType.Prints (type : FieldType) (p : Printable) : Prop where
  inRange : p.InRange
  checked : type.check p.value = .ok ()

theorem prints_word64 {w : UInt64} (writable : Writable w) :
    FieldType.word64.Prints (.integer w.toNat) where
  inRange := by
    have least : signedMin ≤ 0 := by decide
    exact ⟨Int.le_trans least (Int.natCast_nonneg _), Int.ofNat_le.mpr writable⟩
  checked := by
    have small : (w.toNat : Int) < UInt64.size := Int.ofNat_lt.mpr w.toNat_lt
    rw [Printable.value, FieldType.check, if_pos ⟨Int.natCast_nonneg _, small⟩]

theorem prints_word32 (w : UInt32) : FieldType.word32.Prints (.integer w.toNat) where
  inRange := by
    have least : signedMin ≤ 0 := by decide
    have small : w.toNat < 4294967296 := w.toNat_lt
    have greatest : w.toNat ≤ signedMax := by
      unfold signedMax
      omega
    exact ⟨Int.le_trans least (Int.natCast_nonneg _), Int.ofNat_le.mpr greatest⟩
  checked := by
    have small : (w.toNat : Int) < UInt32.size := Int.ofNat_lt.mpr w.toNat_lt
    rw [Printable.value, FieldType.check, if_pos ⟨Int.natCast_nonneg _, small⟩]

theorem prints_signed64 (i : Int64) : FieldType.signed64.Prints (.integer i.toInt) := by
  have bounds : signedMin ≤ i.toInt ∧ i.toInt ≤ signedMax :=
    ⟨i.le_toInt, Int.le_of_lt_add_one i.toInt_lt⟩
  exact ⟨bounds, if_pos bounds⟩

theorem prints_span (s : Span) : FieldType.span.Prints (.string s.write) where
  inRange := trivial
  checked := by simp [Printable.value, FieldType.check, Span.read?_write]

/-! ## Entries in the order of the layout -/

/-- The entries are those of the declared fields in their order; fields that are not
required may be left out. -/
inductive Follows : List Field → List (List Char × Printable) → Prop where
  | done : Follows [] []
  | field {field : Field} {declared : List Field} {p : Printable}
      {entries : List (List Char × Printable)} (prints : field.type.Prints p)
      (others : Follows declared entries) :
      Follows (field :: declared) (entryOf field.key p :: entries)
  | leftOut {field : Field} {declared : List Field} {entries : List (List Char × Printable)}
      (optional : field.required = false) (others : Follows declared entries) :
      Follows (field :: declared) entries

/-- The entries of a document that printed entries become. -/
def written (entries : List (List Char × Printable)) : Entries :=
  entries.map fun entry => (String.ofList entry.1, entry.2.value)

theorem values_eq_written (name : List Char) (entries : List (List Char × Printable)) :
    PrintedTable.values ⟨name, entries⟩ = written entries := rfl

variable {declared : List Field} {entries : List (List Char × Printable)}

/-- The keys are those of the layout. -/
theorem Follows.keys_sublist (follows : Follows declared entries) :
    (entries.map (·.1)).Sublist (declared.map (·.key.toList)) := by
  induction follows with
  | done => exact .slnil
  | field prints others ih => exact ih.cons_cons _
  | leftOut optional others ih => exact ih.cons _

/-- Every entry is a value for a declared field. -/
theorem Follows.exists_field (follows : Follows declared entries)
    {entry : List Char × Printable} (mem : entry ∈ entries) :
    ∃ field ∈ declared, field.key = String.ofList entry.1 ∧ field.type.Prints entry.2 := by
  induction follows with
  | done => cases mem
  | @field field declared p entries prints others ih =>
      rcases List.mem_cons.mp mem with rfl | later
      · exact ⟨field, List.mem_cons_self, String.ofList_toList.symm, prints⟩
      · obtain ⟨other, otherMem, found⟩ := ih later
        exact ⟨other, List.mem_cons_of_mem _ otherMem, found⟩
  | leftOut optional others ih =>
      obtain ⟨other, otherMem, found⟩ := ih mem
      exact ⟨other, List.mem_cons_of_mem _ otherMem, found⟩

/-- Every required field has an entry. -/
theorem Follows.exists_entry (follows : Follows declared entries) {field : Field}
    (mem : field ∈ declared) (required : field.required = true) :
    ∃ entry ∈ written entries, entry.1 = field.key := by
  induction follows with
  | done => cases mem
  | @field first declared p entries prints others ih =>
      rcases List.mem_cons.mp mem with rfl | later
      · exact ⟨(String.ofList field.key.toList, p.value), List.mem_cons_self,
          String.ofList_toList⟩
      · obtain ⟨entry, entryMem, key⟩ := ih later
        exact ⟨entry, List.mem_cons_of_mem _ entryMem, key⟩
  | leftOut optional others ih =>
      rcases List.mem_cons.mp mem with rfl | later
      · exact absurd required (by simp [optional])
      · exact ih later

/-! ## Tables of schedules -/

/-- In every layout a key belongs to one field. -/
theorem find?_key_of_mem_fields (subject : Subject) (shape : Shape) :
    ∀ field ∈ fields subject shape,
      (fields subject shape).find? (·.key = field.key) = some field := by
  cases subject <;> cases shape <;> decide

/-- The tag is no field. -/
theorem find?_tagKey (subject : Subject) (shape : Shape) :
    (fields subject shape).find? (·.key = tagKey) = none := by
  cases subject <;> cases shape <;> decide

/-- The keys of a table, the tag included, can stand without quotation marks. -/
theorem keys_bare (subject : Subject) (shape : Shape) :
    ∀ key ∈ tagKey.toList :: (fields subject shape).map (·.key.toList), IsBare key := by
  cases subject <;> cases shape <;> decide +kernel

/-- The keys of a table, the tag included, differ. -/
theorem keys_nodup (subject : Subject) (shape : Shape) :
    (tagKey.toList :: (fields subject shape).map (·.key.toList)).Nodup := by
  cases subject <;> cases shape <;> decide +kernel

section Tables

variable {subject : Subject} {shape : Shape}

/-- A written table can be read back. -/
theorem Follows.wellFormed (follows : Follows (fields subject shape) entries)
    {name : List Char} (bare : IsBare name) :
    PrintedTable.WellFormed ⟨name, tagEntry shape :: entries⟩ := by
  have keys : ((tagEntry shape :: entries).map (·.1)).Sublist
      (tagKey.toList :: (fields subject shape).map (·.key.toList)) :=
    follows.keys_sublist.cons_cons _
  refine ⟨bare, ?_, (keys_nodup subject shape).sublist keys, ?_⟩
  · intro entry mem
    exact keys_bare subject shape _ (keys.subset (List.mem_map_of_mem mem))
  · intro entry mem
    rcases List.mem_cons.mp mem with rfl | later
    · trivial
    · obtain ⟨field, -, -, prints⟩ := follows.exists_field later
      exact prints.inRange

/-- Entries that are values for declared fields are no mistakes. -/
theorem checkEntries_written (follows : Follows (fields subject shape) entries) :
    checkEntries (fields subject shape) (written entries) = .ok () := by
  have entryChecks : ∀ entry ∈ entries, ∃ field,
      (fields subject shape).find? (·.key = String.ofList entry.1) = some field ∧
        field.type.check entry.2.value = .ok () := by
    intro entry mem
    obtain ⟨field, declaredField, key, prints⟩ := follows.exists_field mem
    exact ⟨field, key ▸ find?_key_of_mem_fields subject shape field declaredField,
      prints.checked⟩
  clear follows
  induction entries with
  | nil => rfl
  | cons entry entries ih =>
      obtain ⟨field, found, checked⟩ := entryChecks entry List.mem_cons_self
      have others := ih fun e mem => entryChecks e (List.mem_cons_of_mem _ mem)
      rw [written] at others ⊢
      simp only [List.map_cons, checkEntries, found, checked]
      exact others

/-- The fields of a written table are taken as they are. -/
theorem namedFields_written (follows : Follows (fields subject shape) entries) :
    namedFields (fields subject shape) (written (tagEntry shape :: entries)) =
      .ok (written (tagEntry shape :: entries)) := by
  have tag : written (tagEntry shape :: entries) =
      (tagKey, .string shape.tag) :: written entries := by
    simp [written, tagEntry, entryOf, Printable.value]
  have checked : checkEntries (fields subject shape) (written (tagEntry shape :: entries)) =
      .ok () := by
    rw [tag, checkEntries, find?_tagKey]
    exact checkEntries_written follows
  have complete : firstMissing? (fields subject shape)
      (written (tagEntry shape :: entries)) = none := by
    rw [firstMissing?, List.find?_eq_none]
    intro field mem missing
    simp only [Bool.and_eq_true, Option.isNone_iff_eq_none, List.lookup_eq_none_iff] at missing
    obtain ⟨required, absent⟩ := missing
    obtain ⟨entry, entryMem, key⟩ := follows.exists_entry mem required
    have differs := absent entry (tag ▸ List.mem_cons_of_mem _ entryMem)
    rw [bne_iff_ne] at differs
    exact differs key.symm
  rw [namedFields, checked]
  simp only [complete]
  rfl

/-- A written table has the shape of its tag. -/
theorem scheduleParts_written (follows : Follows (fields subject shape) entries) :
    scheduleParts subject (.table (written (tagEntry shape :: entries))) =
      .ok (shape, written (tagEntry shape :: entries)) := by
  have tag : (written (tagEntry shape :: entries)).lookup tagKey = some (.string shape.tag) := by
    simp [written, tagEntry, entryOf, Printable.value]
  have named : shapeOf (.string shape.tag) = .ok shape := by
    rw [shapeOf, Shape.ofTag?_tag]
  rw [scheduleParts, tag]
  simp only [named, bind, Except.bind, namedFields_written follows]
  rfl

end Tables

/-- The entry of a span follows its optional field, whether it is there or not. -/
theorem Follows.span (key : String) (duration? : Option Span)
    (others : Follows declared entries) :
    Follows (⟨key, .span, false⟩ :: declared) (spanEntry key duration? ++ entries) := by
  cases duration? with
  | none => exact .leftOut rfl others
  | some duration => exact .field (prints_span duration) others

@[simp]
theorem spanOf?_write (s : Span) : spanOf? (.string (String.ofList s.write)) = some s := by
  simp [spanOf?, Span.read?_write]

/-! ## Load schedules -/

namespace LoadSchedule

/-- The shape of a load schedule. -/
def shape : LoadSchedule → Shape
  | .constant .. => .constant
  | .step .. => .step
  | .line .. => .line

/-- The counters of a load schedule. -/
def counters : LoadSchedule → List UInt64
  | .constant rate cap => [rate, cap]
  | .step start _ _ target _ cap => [start, target, cap]
  | .line start _ target _ cap => [start, target, cap]

/-- A load schedule with a counter that is too great cannot be written. -/
theorem entries?_eq_none {s : LoadSchedule} (tooGreat : ∃ w ∈ s.counters, ¬ Writable w) :
    s.entries? = none := by
  obtain ⟨w, mem, tooGreat⟩ := tooGreat
  have failed := printableWord?_of_not_writable tooGreat
  cases s with
  | constant rate cap =>
      simp only [counters, List.mem_cons, List.not_mem_nil, or_false] at mem
      rcases mem with rfl | rfl <;> simp [entries?, failed]
  | step start change period target duration? cap =>
      simp only [counters, List.mem_cons, List.not_mem_nil, or_false] at mem
      rcases mem with rfl | rfl | rfl <;> simp [entries?, failed]
  | line start slope target duration? cap =>
      simp only [counters, List.mem_cons, List.not_mem_nil, or_false] at mem
      rcases mem with rfl | rfl | rfl <;> simp [entries?, failed]

/-- The entries of a load schedule follow the layout of its shape, and the schedule can be
made from them. -/
theorem entries?_of_writable {s : LoadSchedule} (writable : ∀ w ∈ s.counters, Writable w) :
    ∃ entries, s.entries? = some (tagEntry s.shape :: entries) ∧
      Follows (fields .load s.shape) entries ∧
      ofFields s.shape (written (tagEntry s.shape :: entries)) = s := by
  cases s with
  | constant rate cap =>
      have rateWritable := writable rate (by simp [counters])
      have capWritable := writable cap (by simp [counters])
      refine ⟨_, ?_, .field (prints_word64 rateWritable)
        (.field (prints_word64 capWritable) .done), ?_⟩
      · simp only [entries?, printableWord?_of_writable rateWritable,
          printableWord?_of_writable capWritable]
        rfl
      · simp [ofFields, shape, written, tagEntry, entryOf, Printable.value, tagKey, word64D,
          List.lookup_cons]
  | step start change period target duration? cap =>
      have startWritable := writable start (by simp [counters])
      have targetWritable := writable target (by simp [counters])
      have capWritable := writable cap (by simp [counters])
      refine ⟨_, ?_, .field (prints_word64 startWritable) (.field (prints_signed64 change)
        (.field (prints_span period) (.field (prints_word64 targetWritable)
          (.span _ duration? (.field (prints_word64 capWritable) .done))))), ?_⟩
      · simp only [entries?, printableWord?_of_writable startWritable,
          printableWord?_of_writable targetWritable, printableWord?_of_writable capWritable]
        rfl
      · cases duration? <;>
          simp [ofFields, shape, written, tagEntry, entryOf, Printable.value, tagKey, word64D,
            signed64D, spanAt?, spanEntry, List.lookup_cons]
  | line start slope target duration? cap =>
      have startWritable := writable start (by simp [counters])
      have targetWritable := writable target (by simp [counters])
      have capWritable := writable cap (by simp [counters])
      refine ⟨_, ?_, .field (prints_word64 startWritable) (.field (prints_signed64 slope)
        (.field (prints_word64 targetWritable)
          (.span _ duration? (.field (prints_word64 capWritable) .done)))), ?_⟩
      · simp only [entries?, printableWord?_of_writable startWritable,
          printableWord?_of_writable targetWritable, printableWord?_of_writable capWritable]
        rfl
      · cases duration? <;>
          simp [ofFields, shape, written, tagEntry, entryOf, Printable.value, tagKey, word64D,
            signed64D, spanAt?, spanEntry, List.lookup_cons]

/-- The table of a load schedule describes it. -/
theorem decode_written {s : LoadSchedule} {entries : List (List Char × Printable)}
    (follows : Follows (fields .load s.shape) entries)
    (made : ofFields s.shape (written (tagEntry s.shape :: entries)) = s) :
    decode (.table (written (tagEntry s.shape :: entries))) = .ok s := by
  rw [decode, scheduleParts_written follows]
  exact congrArg Except.ok made

end LoadSchedule

/-! ## Concurrency schedules -/

namespace ConcurrencySchedule

/-- The shape of a concurrency schedule. -/
def shape : ConcurrencySchedule → Shape
  | .constant .. => .constant
  | .step .. => .step
  | .line .. => .line

/-- The entries of a concurrency schedule follow the layout of its shape, and the schedule
can be made from them. -/
theorem exists_entries_eq (s : ConcurrencySchedule) :
    ∃ entries, s.entries = tagEntry s.shape :: entries ∧
      Follows (fields .concurrency s.shape) entries ∧
      ofFields s.shape (written (tagEntry s.shape :: entries)) = s := by
  cases s with
  | constant workers =>
      refine ⟨_, rfl, .field (prints_word32 workers) .done, ?_⟩
      simp [ofFields, shape, written, tagEntry, entryOf, Printable.value, tagKey, word32D,
        List.lookup_cons]
  | step start change period target duration? =>
      refine ⟨_, ?_, .field (prints_word32 start) (.field (prints_signed64 change)
        (.field (prints_span period) (.field (prints_word32 target)
          (.span _ duration? .done)))), ?_⟩
      · rw [List.append_nil]
        rfl
      · cases duration? <;>
          simp [ofFields, shape, written, tagEntry, entryOf, Printable.value, tagKey, word32D,
            signed64D, spanAt?, spanEntry, List.lookup_cons]
  | line start slope target duration? =>
      refine ⟨_, ?_, .field (prints_word32 start) (.field (prints_signed64 slope)
        (.field (prints_word32 target) (.span _ duration? .done))), ?_⟩
      · rw [List.append_nil]
        rfl
      · cases duration? <;>
          simp [ofFields, shape, written, tagEntry, entryOf, Printable.value, tagKey, word32D,
            signed64D, spanAt?, spanEntry, List.lookup_cons]

/-- The table of a concurrency schedule describes it. -/
theorem decode_written {s : ConcurrencySchedule} {entries : List (List Char × Printable)}
    (follows : Follows (fields .concurrency s.shape) entries)
    (made : ofFields s.shape (written (tagEntry s.shape :: entries)) = s) :
    decode (.table (written (tagEntry s.shape :: entries))) = .ok s := by
  rw [decode, scheduleParts_written follows]
  exact congrArg Except.ok made

end ConcurrencySchedule

/-! ## Profiles -/

namespace Profile

/-- A profile whose counters are not too great can be written, and is read back. -/
theorem exists_print?_eq {p : Profile} (writable : ∀ w ∈ p.load.counters, Writable w) :
    ∃ text, p.print? = some text ∧ parse text = .ok p := by
  obtain ⟨load, loadEntries, loadFollows, loadMade⟩ :=
    LoadSchedule.entries?_of_writable writable
  obtain ⟨workers, workerEntries, workersFollow, workersMade⟩ :=
    p.concurrency.exists_entries_eq
  have tables : p.tables? =
      some [⟨Subject.load.word.toList, tagEntry p.load.shape :: load⟩,
        ⟨Subject.concurrency.word.toList, tagEntry p.concurrency.shape :: workers⟩] := by
    rw [tables?, loadEntries, workerEntries]
    rfl
  refine ⟨_, by rw [print?, tables, Option.map_some], ?_⟩
  have wellFormed : ∀ t ∈ [(⟨Subject.load.word.toList, tagEntry p.load.shape :: load⟩ :
        PrintedTable),
      ⟨Subject.concurrency.word.toList, tagEntry p.concurrency.shape :: workers⟩],
      t.WellFormed := by
    intro t mem
    simp only [List.mem_cons, List.not_mem_nil, or_false] at mem
    rcases mem with rfl | rfl
    · exact loadFollows.wellFormed (by decide +kernel)
    · exact workersFollow.wellFormed (by decide +kernel)
  have read := read?_print wellFormed
    (show [Subject.load.word.toList, Subject.concurrency.word.toList].Nodup by decide +kernel)
  have decoded : decode
      [(Subject.load.word, .table (written (tagEntry p.load.shape :: load))),
        (Subject.concurrency.word,
          .table (written (tagEntry p.concurrency.shape :: workers)))] = .ok p := by
    have differ : Subject.concurrency.word ≠ Subject.load.word := by decide
    simp only [decode, List.foldlM_cons, List.foldlM_nil, addEntry, if_pos, if_neg differ,
      LoadSchedule.decode_written loadFollows loadMade,
      ConcurrencySchedule.decode_written workersFollow workersMade]
    rfl
  rw [parse, read]
  simp only [List.map_cons, List.map_nil, String.ofList_toList, values_eq_written, decoded]

/-- A profile cannot be written exactly if a counter of its load schedule is too great. -/
theorem print?_eq_none_iff (p : Profile) :
    p.print? = none ↔ ∃ w ∈ p.load.counters, signedMax < w.toNat := by
  constructor
  · intro failed
    by_cases writable : ∀ w ∈ p.load.counters, Writable w
    · obtain ⟨text, printed, -⟩ := exists_print?_eq writable
      exact absurd (failed.symm.trans printed) (by simp)
    · simpa [Writable] using writable
  · rintro ⟨w, mem, tooGreat⟩
    have failed := LoadSchedule.entries?_eq_none
      ⟨w, mem, show ¬ Writable w from Nat.not_le.mpr tooGreat⟩
    rw [print?, tables?, failed]
    rfl

/-- A written profile is read back as it was. -/
theorem parse_print {p : Profile} {text : List Char} (printed : p.print? = some text) :
    parse text = .ok p := by
  have writable : ∀ w ∈ p.load.counters, Writable w := by
    intro w mem
    refine Nat.le_of_not_lt fun tooGreat => ?_
    have failed := p.print?_eq_none_iff.mpr ⟨w, mem, tooGreat⟩
    exact absurd (failed.symm.trans printed) (by simp)
  obtain ⟨other, printedOther, parsed⟩ := exists_print?_eq writable
  rw [printed, Option.some.injEq] at printedOther
  rw [printedOther]
  exact parsed

/-- Writing a profile and reading it back loses nothing.  Only a counter of the load schedule
that is greater than the whole numbers of a document cannot be written; what is written is
read back as the profile itself, or rejected for the reason for which the profile is. -/
theorem ofText_print (p : Profile) :
    (p.print? = none ↔ ∃ w ∈ p.load.counters, signedMax < w.toNat) ∧
      ∀ text, p.print? = some text → ofText text =
        match p.validate with
        | .ok () => .ok p
        | .error rejection => .error (.rejected rejection) := by
  refine ⟨p.print?_eq_none_iff, ?_⟩
  intro text printed
  rw [ofText, parse_print printed]
  simp only
  cases p.validate with
  | ok _ => rfl
  | error rejection => rfl

/-- A line of load over a ramp of workers, as text and back. -/
theorem ofText_print_line :
    let p : Profile :=
      { load := .line 10 (-5) 2 (some (.ofSeconds 90)) 0
        concurrency := .step 1 3 (.ofSeconds 86400) 7 none }
    let text := "[load]\nschedule = \"line\"\nstart = 10\nslope = -5\nend = 2\n" ++
      "duration = \"1m 30s\"\nmax = 0\n\n[concurrency]\nschedule = \"step\"\n" ++
      "start = 1\nstep = 3\nstep_duration = \"1day\"\nend = 7\n"
    p.print? = some text.toList ∧ ofText text.toList = .ok p := by
  intro p text
  have printed : p.print? = some text.toList := by decide +kernel
  exact ⟨printed, (ofText_print p).2 _ printed⟩

end Profile

end LoadShape.Schedule
