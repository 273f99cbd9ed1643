import LoadShape.Proofs.Toml.PrintedValue

/-!
# Reading printed documents

A printed document is read back line by line, and its lines add up to the printed tables,
as long as names can stand without quotation marks and none comes twice.
-/

namespace LoadShape.Toml

open LoadShape.Text

/-! ## Keys -/

/-- A key that can stand without quotation marks. -/
def IsBare (key : List Char) : Prop := key ≠ [] ∧ ∀ c ∈ key, isBareKey c = true

-- Named, since an instance for all characters would be found first.
instance (key : List Char) : Decidable (IsBare key) :=
  @instDecidableAnd _ _ inferInstance (List.decidableBAll _ key)

/-- Characters of other classes are not those of bare keys. -/
theorem ne_of_isBareKey {c d : Char} (bare : isBareKey c = true) (notBare : isBareKey d = false) :
    c ≠ d := by
  rintro rfl
  exact absurd bare (by simp [notBare])

theorem IsBare.exists_eq_cons {key : List Char} (bare : IsBare key) :
    ∃ c others, key = c :: others ∧ isBareKey c = true := by
  cases key with
  | nil => exact absurd rfl bare.1
  | cons c others => exact ⟨c, others, rfl, bare.2 c List.mem_cons_self⟩

/-- A bare key is found whole. -/
theorem simpleKey?_of_isBare {key rest : List Char} (bare : IsBare key)
    (stops : Stops isBareKey rest) :
    simpleKey? (key ++ rest) = some (String.ofList key, rest) := by
  have run := takeWhile_run bare.2 stops
  obtain ⟨c, others, rfl, first⟩ := bare.exists_eq_cons
  have notQuote := ne_of_isBareKey (d := '"') first (by decide)
  have notApostrophe := ne_of_isBareKey (d := '\x27') first (by decide)
  rw [List.cons_append] at run ⊢
  simp [simpleKey?, notQuote, notApostrophe, run]

theorem skipBlanks_of_stops {cs : List Char} (stops : Stops isBlank cs) : skipBlanks cs = cs :=
  dropWhile_of_stops stops

theorem not_isBlank_of_isBareKey {c : Char} (bare : isBareKey c = true) : isBlank c = false := by
  have notSpace := ne_of_isBareKey (d := ' ') bare (by decide)
  have notTab := ne_of_isBareKey (d := '\t') bare (by decide)
  simp [isBlank, notSpace, notTab]

theorem stops_of_isBare {key : List Char} (bare : IsBare key) (rest : List Char) :
    Stops isBlank (key ++ rest) := by
  obtain ⟨c, others, rfl, first⟩ := bare.exists_eq_cons
  exact stops_cons.mpr (not_isBlank_of_isBareKey first)

/-- A bare key has no parents, if no point follows it. -/
theorem key?_of_isBare {key : List Char} (bare : IsBare key) (rest : List Char)
    (stops : Stops isBareKey rest) (noPoint : ∀ tail, skipBlanks rest ≠ '.' :: tail) :
    key? (key ++ rest) = some (([], String.ofList key), skipBlanks rest) := by
  rw [key?, show depthLimit - 1 = 78 + 1 from rfl, dottedKey?,
    skipBlanks_of_stops (stops_of_isBare bare rest), simpleKey?_of_isBare bare stops]
  simp only

/-! ## Lines -/

theorem lineEnd?_newline (rest : List Char) : lineEnd? ('\n' :: rest) = some rest := rfl

/-- The header of a table. -/
def PrintedTable.header (t : PrintedTable) : Header := ⟨[], String.ofList t.name, false⟩

/-- The assignment of an entry. -/
def assignmentOf (entry : String × Value) : Assignment := ⟨[], entry.1, entry.2⟩

/-- A header line is read back. -/
theorem statement?_header {t : PrintedTable} (bare : IsBare t.name) (rest : List Char) :
    statement? ('[' :: (t.name ++ ']' :: '\n' :: rest)) =
      some (.header t.header, '\n' :: rest) := by
  have key := key?_of_isBare bare (']' :: '\n' :: rest) (stops_cons.mpr (by decide))
    (by simp [skipBlanks, isBlank])
  have found : headerKey? false (t.name ++ ']' :: '\n' :: rest) =
      some (.header t.header, '\n' :: rest) := by
    simp [headerKey?, key, skipBlanks, isBlank, expect?, PrintedTable.header]
  have single : ∀ tail, t.name ++ ']' :: '\n' :: rest ≠ '[' :: tail := by
    intro tail heq
    obtain ⟨c, others, name, first⟩ := bare.exists_eq_cons
    rw [name, List.cons_append] at heq
    exact ne_of_isBareKey first (by decide) (List.cons.inj heq).1
  rw [statement?]
  · exact found
  · exact single

/-- No blank stands before a printed value. -/
theorem stops_print (p : Printable) (rest : List Char) : Stops isBlank (p.print ++ rest) := by
  cases p with
  | string cs => exact stops_cons.mpr (by decide)
  | integer n =>
      obtain ⟨first, more, text, begins⟩ := numeral_eq_cons n
      have notSpace := ne_of_begins_number (d := ' ') begins (by decide) (by decide)
      have notTab := ne_of_begins_number (d := '\t') begins (by decide) (by decide)
      rw [Printable.print, text]
      exact stops_cons.mpr (by simp [isBlank, notSpace, notTab])

/-- The line of an entry is read back. -/
theorem statement?_entry {entry : List Char × Printable} (bare : IsBare entry.1)
    (inRange : entry.2.InRange) (rest : List Char) :
    statement? (printEntry entry ++ rest) =
      some (.assign (assignmentOf (String.ofList entry.1, entry.2.value)), '\n' :: rest) := by
  have line : printEntry entry ++ rest =
      entry.1 ++ ' ' :: '=' :: ' ' :: (entry.2.print ++ '\n' :: rest) := by
    simp [printEntry]
  have key := key?_of_isBare bare (' ' :: '=' :: ' ' :: (entry.2.print ++ '\n' :: rest))
    (stops_cons.mpr (by decide)) (by simp [skipBlanks, isBlank])
  have toEquals : skipBlanks (' ' :: '=' :: ' ' :: (entry.2.print ++ '\n' :: rest)) =
      '=' :: ' ' :: (entry.2.print ++ '\n' :: rest) := rfl
  have toValue : skipBlanks (' ' :: (entry.2.print ++ '\n' :: rest)) =
      entry.2.print ++ '\n' :: rest :=
    skipBlanks_of_stops (stops_print entry.2 ('\n' :: rest))
  have value : value? (depthLimit - 1) (entry.2.print ++ '\n' :: rest) =
      some (entry.2.value, '\n' :: rest) := value?_print (depthLimit - 2) inRange rest
  have found : assignment? (value? (depthLimit - 1)) (printEntry entry ++ rest) =
      some (assignmentOf (String.ofList entry.1, entry.2.value), '\n' :: rest) := by
    simp [line, assignment?, key, toEquals, expect?, toValue, value, assignmentOf]
  have notHeader : ∀ tail, printEntry entry ++ rest ≠ '[' :: tail := by
    intro tail heq
    obtain ⟨c, others, name, first⟩ := bare.exists_eq_cons
    rw [line, name, List.cons_append] at heq
    exact ne_of_isBareKey first (by decide) (List.cons.inj heq).1
  rw [statement?, found]
  · rfl
  · exact fun tail heq => notHeader _ heq
  · exact fun tail heq => notHeader _ heq

/-! ## Statements -/

/-- The text is read as the given statements. -/
def ReadsAs (text : List Char) (statements : List Statement) : Prop :=
  ∀ fuel, text.length < fuel → statements? fuel text = some statements

theorem readsAs_nil : ReadsAs [] [] := by
  intro fuel enough
  obtain ⟨fuel, rfl⟩ : ∃ less, fuel = less + 1 := ⟨fuel - 1, by omega⟩
  rfl

/-- An empty line adds nothing. -/
theorem ReadsAs.newline {rest : List Char} {statements : List Statement}
    (reads : ReadsAs rest statements) : ReadsAs ('\n' :: rest) statements := by
  intro fuel enough
  rw [List.length_cons] at enough
  obtain ⟨fuel, rfl⟩ : ∃ less, fuel = less + 1 := ⟨fuel - 1, by omega⟩
  have others := reads fuel (by omega)
  simp [statements?, skipBlanks, isBlank, lineEnd?_newline, others]

/-- A line with a statement adds the statement. -/
theorem ReadsAs.line {c : Char} {line rest : List Char} {statement : Statement}
    {statements : List Statement} (reads : ReadsAs rest statements)
    (begins : c = '[' ∨ isBareKey c = true) (shorter : rest.length ≤ line.length)
    (found : statement? (c :: line) = some (statement, '\n' :: rest)) :
    ReadsAs (c :: line) (statement :: statements) := by
  intro fuel enough
  rw [List.length_cons] at enough
  obtain ⟨fuel, rfl⟩ : ∃ less, fuel = less + 1 := ⟨fuel - 1, by omega⟩
  have others := reads fuel (by omega)
  have notBlank : isBlank c = false := by
    rcases begins with rfl | bare
    · decide
    · exact not_isBlank_of_isBareKey bare
  have notEmpty : ¬ (c = '#' ∨ c = '\n' ∨ c = '\r') := by
    rcases begins with rfl | bare
    · decide
    · have notComment := ne_of_isBareKey (d := '#') bare (by decide)
      have notNewline := ne_of_isBareKey (d := '\n') bare (by decide)
      have notReturn := ne_of_isBareKey (d := '\r') bare (by decide)
      simp [notComment, notNewline, notReturn]
  rw [statements?, skipBlanks_of_stops (stops_cons.mpr notBlank)]
  simp only [if_neg notEmpty, found, Option.bind_eq_bind, Option.bind_some, lineEnd?_newline,
    others]
  rfl

/-- The assignments in a table. -/
def PrintedTable.assignments (t : PrintedTable) : List Assignment := t.values.map assignmentOf

/-- The statements of a table. -/
def PrintedTable.statements (t : PrintedTable) : List Statement :=
  .header t.header :: t.assignments.map .assign

/-- A table that can be printed and read back: it has a bare name, different bare keys, and
values that a document can hold. -/
structure PrintedTable.WellFormed (t : PrintedTable) : Prop where
  name_bare : IsBare t.name
  keys_bare : ∀ entry ∈ t.entries, IsBare entry.1
  keys_nodup : (t.entries.map (·.1)).Nodup
  inRange : ∀ entry ∈ t.entries, entry.2.InRange

/-- The lines of entries are read as their assignments. -/
theorem readsAs_entries {entries : List (List Char × Printable)}
    (bare : ∀ entry ∈ entries, IsBare entry.1) (inRange : ∀ entry ∈ entries, entry.2.InRange)
    {rest : List Char} {statements : List Statement} (reads : ReadsAs rest statements) :
    ReadsAs (entries.flatMap printEntry ++ rest)
      (entries.map (fun entry =>
        .assign (assignmentOf (String.ofList entry.1, entry.2.value))) ++ statements) := by
  induction entries with
  | nil => exact reads
  | cons entry entries ih =>
      have others := ih (fun e mem => bare e (List.mem_cons_of_mem _ mem))
        (fun e mem => inRange e (List.mem_cons_of_mem _ mem))
      have entryBare := bare entry List.mem_cons_self
      have found := statement?_entry entryBare (inRange entry List.mem_cons_self)
        (entries.flatMap printEntry ++ rest)
      obtain ⟨c, more, name, first⟩ := entryBare.exists_eq_cons
      rw [List.flatMap_cons, List.append_assoc, List.map_cons, List.cons_append]
      have text : printEntry entry ++ (entries.flatMap printEntry ++ rest) =
          c :: (more ++ [' ', '=', ' '] ++ entry.2.print ++ ['\n'] ++
            (entries.flatMap printEntry ++ rest)) := by
        simp [printEntry, name]
      rw [text] at found ⊢
      refine others.line (Or.inr first) ?_ found
      simp only [List.length_append]
      omega

/-- The lines of a table are read as its statements. -/
theorem PrintedTable.WellFormed.readsAs {t : PrintedTable} (wellFormed : t.WellFormed)
    {rest : List Char} {statements : List Statement} (reads : ReadsAs rest statements) :
    ReadsAs (t.print ++ rest) (t.statements ++ statements) := by
  have entries := readsAs_entries wellFormed.keys_bare wellFormed.inRange reads
  have found := statement?_header wellFormed.name_bare (t.entries.flatMap printEntry ++ rest)
  have text : t.print ++ rest =
      '[' :: (t.name ++ ']' :: '\n' :: (t.entries.flatMap printEntry ++ rest)) := by
    simp [PrintedTable.print]
  have assignments : t.statements ++ statements = .header t.header ::
      (t.entries.map (fun entry =>
        .assign (assignmentOf (String.ofList entry.1, entry.2.value))) ++ statements) := by
    simp [PrintedTable.statements, PrintedTable.assignments, PrintedTable.values]
  rw [text, assignments]
  refine entries.line (Or.inl rfl) ?_ found
  simp only [List.length_append, List.length_cons]
  omega

/-- A printed document is read as the statements of its tables. -/
theorem readsAs_print {tables : List PrintedTable}
    (wellFormed : ∀ t ∈ tables, t.WellFormed) :
    ReadsAs (print tables) (tables.flatMap PrintedTable.statements) := by
  induction tables with
  | nil => exact readsAs_nil
  | cons t tables ih =>
      have first := wellFormed t List.mem_cons_self
      have others := ih fun u mem => wellFormed u (List.mem_cons_of_mem _ mem)
      cases tables with
      | nil => simpa [print] using first.readsAs readsAs_nil
      | cons u tables =>
          have text : print (t :: u :: tables) = t.print ++ '\n' :: print (u :: tables) := by
            simp [print, List.intercalate_cons_cons]
          rw [text, List.flatMap_cons]
          exact first.readsAs others.newline

/-! ## Tables -/

theorem nodup_ofList {names : List (List Char)} (nodup : names.Nodup) :
    (names.map String.ofList).Nodup :=
  List.Pairwise.map String.ofList (fun _ _ ne eq => ne (String.ofList_injective eq)) nodup

theorem Node.values_eq_map (nodes : Nodes) :
    Node.values nodes = nodes.map fun entry => (entry.1, entry.2.value) := by
  induction nodes with
  | nil => rfl
  | cons entry nodes ih => rw [Node.values, ih, List.map_cons]

/-- A key that is not there has no entry. -/
theorem Nodes.find?_eq_none {nodes : Nodes} {key : String} (fresh : key ∉ nodes.map (·.1)) :
    Nodes.find? nodes key = none := by
  rw [find?, List.lookup_eq_none_iff]
  intro entry mem
  rw [bne_iff_ne]
  rintro rfl
  exact fresh (List.mem_map_of_mem mem)

/-- Assignments to different keys add one entry each. -/
theorem Nodes.assignAll?_eq {entries : Entries} (nodes : Nodes)
    (nodup : (nodes.map (·.1) ++ entries.map (·.1)).Nodup) :
    Nodes.assignAll? nodes (entries.map assignmentOf) =
      some (nodes ++ entries.map fun entry => (entry.1, .leaf entry.2)) := by
  induction entries generalizing nodes with
  | nil => simp [assignAll?]
  | cons entry entries ih =>
      have fresh : entry.1 ∉ nodes.map (·.1) := by
        intro mem
        exact (List.nodup_append.mp nodup).2.2 _ mem _ (by simp) rfl
      have first : Nodes.assign? entry.1 entry.2 [] nodes =
          some (nodes ++ [(entry.1, .leaf entry.2)]) := by
        rw [assign?, find?_eq_none fresh]
        rfl
      have others := ih (nodes ++ [(entry.1, .leaf entry.2)]) (by simpa using nodup)
      rw [assignAll?] at others ⊢
      simp only [List.map_cons, List.foldlM_cons, assignmentOf] at others ⊢
      rw [first, Option.bind_eq_bind, Option.bind_some, others, List.append_assoc]
      rfl

/-- The entries of a printed table under construction. -/
def PrintedTable.nodes (t : PrintedTable) : Nodes :=
  t.values.map fun entry => (entry.1, .leaf entry.2)

theorem PrintedTable.values_nodes (t : PrintedTable) : Node.values t.nodes = t.values := by
  rw [Node.values_eq_map, nodes, List.map_map]
  exact List.map_id' t.values

/-- A table under a new name stands behind the others. -/
theorem Nodes.openHeader?_eq {t : PrintedTable} (wellFormed : t.WellFormed) {nodes : Nodes}
    (fresh : String.ofList t.name ∉ nodes.map (·.1)) :
    Nodes.openHeader? nodes t.header t.assignments =
      some (nodes ++ [(String.ofList t.name, .table .opened t.nodes)]) := by
  have keys : (t.values.map (·.1)).Nodup := by
    have distinct := nodup_ofList wellFormed.keys_nodup
    rw [List.map_map] at distinct
    rw [PrintedTable.values, List.map_map]
    exact distinct
  have body : Nodes.assignAll? [] t.assignments = some t.nodes :=
    assignAll?_eq [] (by simpa using keys)
  have opened : Nodes.openTable? (String.ofList t.name) t.assignments nodes =
      some (nodes ++ [(String.ofList t.name, .table .opened t.nodes)]) := by
    rw [openTable?, find?_eq_none fresh]
    simp only [body, Option.bind_eq_bind, Option.bind_some]
    rfl
  simpa [openHeader?, PrintedTable.header, under?] using opened

/-- The section of a table. -/
def PrintedTable.toSection (t : PrintedTable) : Section := ⟨t.header, t.assignments⟩

theorem sections_assignments (assignments : List Assignment) (statements : List Statement) :
    sections (assignments.map .assign ++ statements) =
      (assignments ++ (sections statements).1, (sections statements).2) := by
  induction assignments with
  | nil => rfl
  | cons assignment assignments ih =>
      rw [List.map_cons, List.cons_append, sections, ih]
      rfl

/-- The statements of tables make one section each. -/
theorem sections_statements (tables : List PrintedTable) :
    sections (tables.flatMap PrintedTable.statements) =
      ([], tables.map PrintedTable.toSection) := by
  induction tables with
  | nil => rfl
  | cons t tables ih =>
      rw [List.flatMap_cons, PrintedTable.statements, List.cons_append, sections,
        sections_assignments, ih]
      simp [PrintedTable.toSection]

/-- Sections of different tables add one entry each. -/
theorem foldlM_openHeader? {tables : List PrintedTable}
    (wellFormed : ∀ t ∈ tables, t.WellFormed) (nodes : Nodes)
    (nodup : (nodes.map (·.1) ++ tables.map fun t => String.ofList t.name).Nodup) :
    (tables.map PrintedTable.toSection).foldlM
        (fun nodes s => Nodes.openHeader? nodes s.header s.assignments) nodes =
      some (nodes ++
        tables.map fun t => (String.ofList t.name, .table .opened t.nodes)) := by
  induction tables generalizing nodes with
  | nil => simp
  | cons t tables ih =>
      have fresh : String.ofList t.name ∉ nodes.map (·.1) := by
        intro mem
        exact (List.nodup_append.mp nodup).2.2 _ mem _ (by simp) rfl
      have first := Nodes.openHeader?_eq (wellFormed t List.mem_cons_self) fresh
      have others := ih (fun u mem => wellFormed u (List.mem_cons_of_mem _ mem))
        (nodes ++ [(String.ofList t.name, .table .opened t.nodes)])
        (by simpa using nodup)
      rw [List.map_cons, List.foldlM_cons, PrintedTable.toSection, first, Option.bind_eq_bind,
        Option.bind_some, others, List.append_assoc]
      rfl

/-- A printed document is read back as its tables. -/
theorem read?_print {tables : List PrintedTable} (wellFormed : ∀ t ∈ tables, t.WellFormed)
    (nodup : (tables.map (·.name)).Nodup) :
    read? (print tables) =
      some (tables.map fun t => (String.ofList t.name, .table t.values)) := by
  have names : (tables.map fun t => String.ofList t.name).Nodup := by
    have distinct := nodup_ofList nodup
    rw [List.map_map] at distinct
    exact distinct
  have noMark : skipMark (print tables) = print tables := by
    cases tables with
    | nil => rfl
    | cons t tables =>
        cases tables with
        | nil => rfl
        | cons u tables => rfl
  have statements : statements? ((print tables).length + 1) (print tables) =
      some (tables.flatMap PrintedTable.statements) :=
    readsAs_print wellFormed _ (Nat.lt_succ_self _)
  have opened := foldlM_openHeader? wellFormed [] (by simpa using names)
  have root : Nodes.assignAll? [] [] = some [] := rfl
  rw [read?, noMark]
  simp only [statements, Option.bind_eq_bind, Option.bind_some, documentOf?,
    sections_statements, root, opened]
  simp [Node.values_eq_map (List.map _ tables), Node.value, PrintedTable.values_nodes]

end LoadShape.Toml
