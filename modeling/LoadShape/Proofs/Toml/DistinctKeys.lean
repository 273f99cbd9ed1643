import LoadShape.Proofs.Toml.PrintedDocument

/-!
# Distinct keys

A document that is read has no key twice in any of its tables, however deep the table is and
however it was written.  So what stands under a key does not depend on the order of the keys.
-/

namespace LoadShape.Toml

/-! ## Tables with distinct keys -/

section Keyed

variable {α : Type} {P : α → Prop} {entries others : List (String × α)} {key : String} {x : α}

/-- A table whose keys are distinct and whose values have the given property. -/
structure Keyed (P : α → Prop) (entries : List (String × α)) : Prop where
  distinct : (entries.map (·.1)).Nodup
  each : ∀ entry ∈ entries, P entry.2

theorem keyed_nil : Keyed P [] := ⟨List.nodup_nil, by simp⟩

theorem keyed_cons : Keyed P ((key, x) :: entries) ↔
    key ∉ entries.map (·.1) ∧ P x ∧ Keyed P entries := by
  constructor
  · rintro ⟨distinct, each⟩
    obtain ⟨fresh, distinct⟩ := List.nodup_cons.mp distinct
    obtain ⟨first, each⟩ := List.forall_mem_cons.mp each
    exact ⟨fresh, first, distinct, each⟩
  · rintro ⟨fresh, first, distinct, each⟩
    exact ⟨List.nodup_cons.mpr ⟨fresh, distinct⟩, List.forall_mem_cons.mpr ⟨first, each⟩⟩

/-- The order of the entries does not matter. -/
theorem keyed_of_perm (perm : entries.Perm others) (keyed : Keyed P entries) :
    Keyed P others :=
  ⟨(perm.map _).nodup_iff.mp keyed.distinct,
    fun entry mem => keyed.each entry (perm.mem_iff.mpr mem)⟩

theorem lookup_eq_none_iff_fresh : entries.lookup key = none ↔ key ∉ entries.map (·.1) := by
  simp only [List.lookup_eq_none_iff, bne_iff_ne, List.mem_map, not_exists, not_and]
  exact ⟨fun differ entry mem same => differ entry mem same.symm,
    fun absent entry mem same => absent entry mem same.symm⟩

theorem mem_of_lookup (found : entries.lookup key = some x) : (key, x) ∈ entries := by
  obtain ⟨before, after, rfl, -⟩ := List.lookup_eq_some_iff.mp found
  exact List.mem_append_right _ List.mem_cons_self

theorem lookup_cons_of_ne {other : String} (differ : key ≠ other) :
    ((other, x) :: entries).lookup key = entries.lookup key := by
  rw [List.lookup_cons, beq_false_of_ne differ]

/-- Under distinct keys each entry is found. -/
theorem lookup_of_mem (distinct : (entries.map (·.1)).Nodup) (mem : (key, x) ∈ entries) :
    entries.lookup key = some x := by
  induction entries with
  | nil => cases mem
  | cons entry entries ih =>
      obtain ⟨fresh, distinct⟩ := List.nodup_cons.mp distinct
      rcases List.mem_cons.mp mem with rfl | later
      · exact List.lookup_cons_self
      · have differ : key ≠ entry.1 := by
          rintro rfl
          exact fresh (List.mem_map.mpr ⟨_, later, rfl⟩)
        exact (lookup_cons_of_ne differ).trans (ih distinct later)

/-- What stands under a key does not depend on the order. -/
theorem lookup_eq_of_perm (distinct : (entries.map (·.1)).Nodup) (perm : entries.Perm others)
    (key : String) : entries.lookup key = others.lookup key := by
  have distinctOthers := (perm.map (·.1)).nodup_iff.mp distinct
  refine Option.ext fun x => ⟨fun found => ?_, fun found => ?_⟩
  · exact lookup_of_mem distinctOthers (perm.mem_iff.mp (mem_of_lookup found))
  · exact lookup_of_mem distinct (perm.mem_iff.mpr (mem_of_lookup found))

end Keyed

/-- No table in the value has a key twice. -/
inductive Value.WellKeyed : Value → Prop
  | string (text : String) : WellKeyed (.string text)
  | integer (n : Int) : WellKeyed (.integer n)
  | float (x : Number.Binary64) : WellKeyed (.float x)
  | boolean (b : Bool) : WellKeyed (.boolean b)
  | datetime (text : String) : WellKeyed (.datetime text)
  | array {items : List Value} (each : ∀ item ∈ items, WellKeyed item) : WellKeyed (.array items)
  | table {entries : Entries} (distinct : (entries.map (·.1)).Nodup)
      (each : ∀ entry ∈ entries, WellKeyed entry.2) : WellKeyed (.table entries)

/-- No table in the entry has a key twice. -/
inductive Node.WellKeyed : Node → Prop
  | leaf {value : Value} (keyed : value.WellKeyed) : WellKeyed (.leaf value)
  | table {kind : TableKind} {nodes : Nodes} (distinct : (nodes.map (·.1)).Nodup)
      (each : ∀ entry ∈ nodes, WellKeyed entry.2) : WellKeyed (.table kind nodes)
  | tables {items : List Nodes} (distinct : ∀ nodes ∈ items, (nodes.map (·.1)).Nodup)
      (each : ∀ nodes ∈ items, ∀ entry ∈ nodes, WellKeyed entry.2) : WellKeyed (.tables items)

theorem Value.wellKeyed_table {entries : Entries} :
    (Value.table entries).WellKeyed ↔ Keyed Value.WellKeyed entries :=
  ⟨fun | .table distinct each => ⟨distinct, each⟩, fun keyed => .table keyed.distinct keyed.each⟩

theorem Node.wellKeyed_table {kind : TableKind} {nodes : Nodes} :
    (Node.table kind nodes).WellKeyed ↔ Keyed Node.WellKeyed nodes :=
  ⟨fun | .table distinct each => ⟨distinct, each⟩, fun keyed => .table keyed.distinct keyed.each⟩

theorem Node.wellKeyed_tables {items : List Nodes} :
    (Node.tables items).WellKeyed ↔ ∀ nodes ∈ items, Keyed Node.WellKeyed nodes :=
  ⟨fun | .tables distinct each => fun nodes mem => ⟨distinct nodes mem, each nodes mem⟩,
    fun keyed => .tables (fun nodes mem => (keyed nodes mem).distinct)
      fun nodes mem => (keyed nodes mem).each⟩

/-! ## Finished entries -/

mutual

/-- An entry is finished with the keys it has. -/
theorem Node.wellKeyed_value : (node : Node) → node.WellKeyed → node.value.WellKeyed
  | .leaf _, .leaf keyed => keyed
  | .table _ nodes, keyed =>
      Value.wellKeyed_table.mpr (Node.keyed_values nodes (Node.wellKeyed_table.mp keyed))
  | .tables items, keyed =>
      .array (Node.wellKeyed_arrayItems items (Node.wellKeyed_tables.mp keyed))

theorem Node.keyed_values : (nodes : List (String × Node)) → Keyed Node.WellKeyed nodes →
    Keyed Value.WellKeyed (Node.values nodes)
  | [], _ => keyed_nil
  | (key, node) :: nodes, keyed => by
      obtain ⟨fresh, first, others⟩ := keyed_cons.mp keyed
      rw [Node.values]
      refine keyed_cons.mpr ⟨?_, node.wellKeyed_value first, Node.keyed_values nodes others⟩
      rwa [Node.values_eq_map, List.map_map]

theorem Node.wellKeyed_arrayItems : (items : List (List (String × Node))) →
    (∀ nodes ∈ items, Keyed Node.WellKeyed nodes) →
      ∀ item ∈ Node.arrayItems items, item.WellKeyed
  | [], _ => by simp [Node.arrayItems]
  | nodes :: items, each => by
      obtain ⟨first, others⟩ := List.forall_mem_cons.mp each
      rw [Node.arrayItems]
      exact List.forall_mem_cons.mpr
        ⟨Value.wellKeyed_table.mpr (Node.keyed_values nodes first),
          Node.wellKeyed_arrayItems items others⟩

end

/-! ## Tables under construction -/

namespace Nodes

variable {nodes changed : Nodes} {key : String} {node : Node} {path : List String}

/-- A change that gives no key to a table twice. -/
def KeepsKeys (change? : Nodes → Option Nodes) : Prop :=
  ∀ ⦃nodes changed⦄, Keyed Node.WellKeyed nodes → change? nodes = some changed →
    Keyed Node.WellKeyed changed

theorem keyed_append (keyed : Keyed Node.WellKeyed nodes) (absent : nodes.find? key = none)
    (proper : node.WellKeyed) : Keyed Node.WellKeyed (nodes.append key node) :=
  keyed_of_perm (List.perm_append_singleton (key, node) nodes).symm
    (keyed_cons.mpr ⟨lookup_eq_none_iff_fresh.mp absent, proper, keyed⟩)

theorem keyed_replace (keyed : Keyed Node.WellKeyed nodes) (proper : node.WellKeyed) :
    Keyed Node.WellKeyed (nodes.replace key node) := by
  have keys : (nodes.replace key node).map (·.1) = nodes.map (·.1) := by
    rw [replace, List.map_map]
    refine List.map_congr_left fun entry _ => ?_
    by_cases same : entry.1 = key
    · simp [same]
    · simp [same]
  refine ⟨keys ▸ keyed.distinct, fun entry mem => ?_⟩
  obtain ⟨old, oldMem, rfl⟩ := List.mem_map.mp mem
  by_cases same : old.1 = key
  · rw [if_pos same]
    exact proper
  · rw [if_neg same]
    exact keyed.each old oldMem

theorem keyed_erase (keyed : Keyed Node.WellKeyed nodes) (key : String) :
    Keyed Node.WellKeyed (nodes.erase key) :=
  ⟨keyed.distinct.sublist (List.filter_sublist.map _),
    fun entry mem => keyed.each entry (List.mem_filter.mp mem).1⟩

theorem find?_erase (nodes : Nodes) (key : String) : (nodes.erase key).find? key = none := by
  rw [find?, lookup_eq_none_iff_fresh]
  simp [erase]

theorem wellKeyed_of_find? (keyed : Keyed Node.WellKeyed nodes)
    (found : nodes.find? key = some node) : node.WellKeyed :=
  keyed.each _ (mem_of_lookup found)

theorem KeepsKeys.changeLast? {change? : Nodes → Option Nodes} (keeps : KeepsKeys change?)
    {items others : List Nodes} (keyed : ∀ nodes ∈ items, Keyed Node.WellKeyed nodes)
    (result : Nodes.changeLast? change? items = some others) :
    ∀ nodes ∈ others, Keyed Node.WellKeyed nodes := by
  simp only [Nodes.changeLast?, Option.bind_eq_bind, Option.bind_eq_some_iff, Option.pure_def,
    Option.some.injEq] at result
  obtain ⟨last, lastItem, changed, done, rfl⟩ := result
  have lastKeyed := keyed last (List.mem_of_getLast? lastItem)
  intro nodes mem
  rcases List.mem_append.mp mem with before | isLast
  · exact keyed nodes (List.dropLast_subset _ before)
  · rw [List.mem_singleton.mp isLast]
    exact keeps lastKeyed done

/-- What a change under a parent can come to: the parent is new, a table, or an array of tables,
of which the last one changes. -/
inductive ChangedUnder (change? : Nodes → Option Nodes) (parent : String) (nodes : Nodes) :
    Nodes → Prop
  | new {kind : TableKind} {inner : Nodes} (absent : nodes.find? parent = none)
      (done : change? [] = some inner) :
      ChangedUnder change? parent nodes (nodes.append parent (.table kind inner))
  | table {kind : TableKind} {inner changed : Nodes}
      (found : nodes.find? parent = some (.table kind inner))
      (done : change? inner = some changed) :
      ChangedUnder change? parent nodes (nodes.replace parent (.table kind changed))
  | tables {items changed : List Nodes} (found : nodes.find? parent = some (.tables items))
      (done : Nodes.changeLast? change? items = some changed) :
      ChangedUnder change? parent nodes (nodes.replace parent (.tables changed))

theorem ChangedUnder.keyed {change? : Nodes → Option Nodes} {parent : String}
    (under : ChangedUnder change? parent nodes changed) (keeps : KeepsKeys change?)
    (keyed : Keyed Node.WellKeyed nodes) : Keyed Node.WellKeyed changed := by
  cases under with
  | new absent done =>
      exact keyed_append keyed absent (Node.wellKeyed_table.mpr (keeps keyed_nil done))
  | table found done =>
      have inner := Node.wellKeyed_table.mp (wellKeyed_of_find? keyed found)
      exact keyed_replace keyed (Node.wellKeyed_table.mpr (keeps inner done))
  | tables found done =>
      have items := Node.wellKeyed_tables.mp (wellKeyed_of_find? keyed found)
      exact keyed_replace keyed (Node.wellKeyed_tables.mpr (keeps.changeLast? items done))

theorem changedUnder_of_assign? {value : Value} {parent : String}
    (assigned : assign? key value (parent :: path) nodes = some changed) :
    ChangedUnder (assign? key value path) parent nodes changed := by
  rw [assign?.eq_def] at assigned
  simp only at assigned
  split at assigned
  case h_1 absent =>
      obtain ⟨inner, done, ⟨⟩⟩ := Option.bind_eq_some_iff.mp assigned
      exact .new absent done
  case h_2 kind inner found =>
      split at assigned
      · cases assigned
      · obtain ⟨inner, done, ⟨⟩⟩ := Option.bind_eq_some_iff.mp assigned
        exact .table found done
  case h_3 items found =>
      split at assigned
      · cases assigned
      · obtain ⟨items, done, ⟨⟩⟩ := Option.bind_eq_some_iff.mp assigned
        exact .tables found done
  case h_4 => cases assigned

theorem changedUnder_of_under? {change? : Nodes → Option Nodes} {parent : String}
    (made : under? change? (parent :: path) nodes = some changed) :
    ChangedUnder (under? change? path) parent nodes changed := by
  rw [under?.eq_def] at made
  simp only at made
  split at made
  case h_1 absent =>
      obtain ⟨inner, done, ⟨⟩⟩ := Option.bind_eq_some_iff.mp made
      exact .new absent done
  case h_2 kind inner found =>
      obtain ⟨inner, done, ⟨⟩⟩ := Option.bind_eq_some_iff.mp made
      exact .table found done
  case h_3 items found =>
      obtain ⟨items, done, ⟨⟩⟩ := Option.bind_eq_some_iff.mp made
      exact .tables found done
  case h_4 => cases made

/-- A value is assigned to a key that has none. -/
theorem keepsKeys_assign? {value : Value} (proper : value.WellKeyed) :
    KeepsKeys (assign? key value path) := by
  induction path with
  | nil =>
      intro nodes changed keyed assigned
      rw [assign?] at assigned
      split at assigned
      · rename_i absent
        exact Option.some.inj assigned ▸ keyed_append keyed absent (.leaf proper)
      · cases assigned
  | cons parent path ih =>
      intro nodes changed keyed assigned
      exact (changedUnder_of_assign? assigned).keyed ih keyed

theorem keepsKeys_under? {change? : Nodes → Option Nodes} (keeps : KeepsKeys change?) :
    KeepsKeys (under? change? path) := by
  induction path with
  | nil => exact keeps
  | cons parent path ih =>
      intro nodes changed keyed done
      exact (changedUnder_of_under? done).keyed ih keyed

/-- Assignments of values whose own tables have distinct keys. -/
def ProperAssignments (assignments : List Assignment) : Prop :=
  ∀ a ∈ assignments, a.value.WellKeyed

variable {assignments : List Assignment}

theorem keyed_of_assignAll? (proper : ProperAssignments assignments)
    (keyed : Keyed Node.WellKeyed nodes) (assigned : assignAll? nodes assignments = some changed) :
    Keyed Node.WellKeyed changed := by
  induction assignments generalizing nodes with
  | nil => exact Option.some.inj assigned ▸ keyed
  | cons a assignments ih =>
      obtain ⟨first, others⟩ := List.forall_mem_cons.mp proper
      obtain ⟨next, done, assigned⟩ := Option.bind_eq_some_iff.mp assigned
      exact ih others (keepsKeys_assign? first keyed done) assigned

theorem keepsKeys_openTable? (proper : ProperAssignments assignments) :
    KeepsKeys (openTable? key assignments) := by
  intro nodes changed keyed opened
  rw [openTable?] at opened
  split at opened
  case h_1 absent =>
      obtain ⟨body, done, ⟨⟩⟩ := Option.bind_eq_some_iff.mp opened
      exact keyed_append keyed absent
        (Node.wellKeyed_table.mpr (keyed_of_assignAll? proper keyed_nil done))
  case h_2 inner found =>
      obtain ⟨body, done, ⟨⟩⟩ := Option.bind_eq_some_iff.mp opened
      have innerKeyed := Node.wellKeyed_table.mp (wellKeyed_of_find? keyed found)
      exact keyed_append (keyed_erase keyed key) (find?_erase nodes key)
        (Node.wellKeyed_table.mpr (keyed_of_assignAll? proper innerKeyed done))
  case h_3 => cases opened

theorem keepsKeys_openItem? (proper : ProperAssignments assignments) :
    KeepsKeys (openItem? key assignments) := by
  intro nodes changed keyed opened
  rw [openItem?] at opened
  split at opened
  case h_1 absent =>
      obtain ⟨body, done, ⟨⟩⟩ := Option.bind_eq_some_iff.mp opened
      have bodyKeyed := keyed_of_assignAll? proper keyed_nil done
      exact keyed_append keyed absent (Node.wellKeyed_tables.mpr (by simpa using bodyKeyed))
  case h_2 items found =>
      obtain ⟨body, done, ⟨⟩⟩ := Option.bind_eq_some_iff.mp opened
      have bodyKeyed := keyed_of_assignAll? proper keyed_nil done
      have itemsKeyed := Node.wellKeyed_tables.mp (wellKeyed_of_find? keyed found)
      refine keyed_replace keyed (Node.wellKeyed_tables.mpr fun nodes mem => ?_)
      rcases List.mem_append.mp mem with before | isBody
      · exact itemsKeyed nodes before
      · exact List.mem_singleton.mp isBody ▸ bodyKeyed
  case h_3 => cases opened

theorem keyed_of_openHeader? {header : Header} (proper : ProperAssignments assignments)
    (keyed : Keyed Node.WellKeyed nodes)
    (opened : nodes.openHeader? header assignments = some changed) :
    Keyed Node.WellKeyed changed := by
  rw [openHeader?] at opened
  split at opened
  · exact keepsKeys_under? (keepsKeys_openItem? proper) keyed opened
  · exact keepsKeys_under? (keepsKeys_openTable? proper) keyed opened

end Nodes

/-- Assignments add up to a table of distinct keys. -/
theorem keyed_of_tableOf? {assignments : List Assignment} {entries : Entries}
    (proper : Nodes.ProperAssignments assignments) (made : tableOf? assignments = some entries) :
    Keyed Value.WellKeyed entries := by
  obtain ⟨nodes, assigned, rfl⟩ := Option.map_eq_some_iff.mp made
  exact Node.keyed_values nodes (Nodes.keyed_of_assignAll? proper keyed_nil assigned)

/-! ## Values -/

/-- Whatever the scanner reads has the given property. -/
def Yields {α : Type} (P : α → Prop) (scan? : Scanner α) : Prop :=
  ∀ ⦃cs x rest⦄, scan? cs = some (x, rest) → P x

theorem wellKeyed_of_integerOf? {n : Int} {value : Value} (made : integerOf? n = some value) :
    value.WellKeyed := by
  rw [integerOf?] at made
  split at made
  · cases made
    exact .integer n
  · cases made

theorem wellKeyed_of_floatOf? {x : Number.Binary64} {value : Value}
    (made : floatOf? x = some value) : value.WellKeyed := by
  rw [floatOf?.eq_def] at made
  split at made
  · cases made
  · cases made
    exact .float x

theorem yields_basedInteger? (base : Nat) (isDigit : Char → Bool) :
    Yields Value.WellKeyed (basedInteger? base isDigit) := by
  intro cs value rest found
  obtain ⟨digits, -, found⟩ := Option.bind_eq_some_iff.mp found
  obtain ⟨value, made, ⟨⟩⟩ := Option.bind_eq_some_iff.mp found
  exact wellKeyed_of_integerOf? made

theorem yields_integer? : Yields Value.WellKeyed integer? := by
  intro cs value rest found
  rw [integer?.eq_def] at found
  split at found
  · exact yields_basedInteger? _ _ found
  · exact yields_basedInteger? _ _ found
  · exact yields_basedInteger? _ _ found
  · obtain ⟨digits, -, found⟩ := Option.bind_eq_some_iff.mp found
    obtain ⟨value, made, ⟨⟩⟩ := Option.bind_eq_some_iff.mp found
    exact wellKeyed_of_integerOf? made

theorem yields_float? : Yields Value.WellKeyed float? := by
  intro cs value rest found
  obtain ⟨⟨whole, afterWhole⟩, -, found⟩ := Option.bind_eq_some_iff.mp found
  simp only at found
  split at found
  · obtain ⟨fraction, -, found⟩ := Option.bind_eq_some_iff.mp found
    obtain ⟨exponent, -, found⟩ := Option.bind_eq_some_iff.mp found
    obtain ⟨value, made, ⟨⟩⟩ := Option.bind_eq_some_iff.mp found
    exact wellKeyed_of_floatOf? made
  · split at found
    · obtain ⟨exponent, -, found⟩ := Option.bind_eq_some_iff.mp found
      obtain ⟨value, made, ⟨⟩⟩ := Option.bind_eq_some_iff.mp found
      exact wellKeyed_of_floatOf? made
    · cases found
  · cases found

theorem yields_specialFloat? : Yields Value.WellKeyed specialFloat? := by
  intro cs value rest found
  simp only [specialFloat?] at found
  split at found
  · cases found
    exact .float _
  · cases found
    exact .float _
  · cases found

theorem yields_datetime? : Yields Value.WellKeyed datetime? := by
  intro cs value rest found
  rw [datetime?] at found
  split at found
  · obtain ⟨afterwards, -, ⟨⟩⟩ := Option.bind_eq_some_iff.mp found
    exact .datetime _
  · obtain ⟨afterwards, -, ⟨⟩⟩ := Option.bind_eq_some_iff.mp found
    exact .datetime _

theorem yields_number? : Yields Value.WellKeyed number? := by
  intro cs value rest found
  simp only [number?, Option.orElse_eq_orElse, Option.orElse_eq_or, Option.or_eq_some_iff] at found
  rcases found with found | ⟨-, found | ⟨-, found | ⟨-, found⟩⟩⟩
  · exact yields_datetime? found
  · exact yields_float? found
  · exact yields_specialFloat? found
  · exact yields_integer? found

theorem wellKeyed_of_string {found : Option (String × List Char)} {value : Value}
    {rest : List Char}
    (read : found.map (fun (text, rest) => (.string text, rest)) = some (value, rest)) :
    value.WellKeyed := by
  obtain ⟨⟨text, afterText⟩, -, ⟨⟩⟩ := Option.map_eq_some_iff.mp read
  exact .string text

theorem yields_scalar? : Yields Value.WellKeyed scalar? := by
  intro cs value rest found
  rw [scalar?.eq_def] at found
  split at found
  · exact wellKeyed_of_string found
  · exact wellKeyed_of_string found
  · exact wellKeyed_of_string found
  · exact wellKeyed_of_string found
  · cases found
    exact .boolean true
  · cases found
    exact .boolean false
  · split at found
    · exact yields_number? found
    · exact yields_specialFloat? found
  · cases found

section Scanners

variable {scan? : Scanner Value} (yields : Yields Value.WellKeyed scan?)
include yields

theorem yields_items? (fuel : Nat) :
    Yields (fun items : List Value => ∀ item ∈ items, item.WellKeyed) (items? scan? fuel) := by
  induction fuel with
  | zero =>
      intro cs items rest found
      cases found
  | succ fuel ih =>
      intro cs items rest found
      rw [items?] at found
      split at found
      · cases found
        simp
      · obtain ⟨⟨item, afterItem⟩, first, found⟩ := Option.bind_eq_some_iff.mp found
        simp only at found
        split at found
        · cases found
          exact List.forall_mem_cons.mpr ⟨yields first, by simp⟩
        · obtain ⟨⟨others, afterOthers⟩, more, ⟨⟩⟩ := Option.bind_eq_some_iff.mp found
          exact List.forall_mem_cons.mpr ⟨yields first, ih more⟩
        · cases found

theorem yields_assignment? :
    Yields (fun a : Assignment => a.value.WellKeyed) (assignment? scan?) := by
  intro cs assignment rest found
  obtain ⟨key, -, found⟩ := Option.bind_eq_some_iff.mp found
  obtain ⟨afterEquals, -, found⟩ := Option.bind_eq_some_iff.mp found
  obtain ⟨⟨value, afterValue⟩, read, ⟨⟩⟩ := Option.bind_eq_some_iff.mp found
  exact yields read

theorem yields_assignments? (fuel : Nat) :
    Yields Nodes.ProperAssignments (assignments? scan? fuel) := by
  induction fuel with
  | zero =>
      intro cs assignments rest found
      cases found
  | succ fuel ih =>
      intro cs assignments rest found
      obtain ⟨⟨assignment, afterFirst⟩, first, found⟩ := Option.bind_eq_some_iff.mp found
      have firstProper := yields_assignment? yields first
      simp only at found
      split at found
      · cases found
        exact List.forall_mem_cons.mpr ⟨firstProper, by simp⟩
      · obtain ⟨⟨others, afterOthers⟩, more, ⟨⟩⟩ := Option.bind_eq_some_iff.mp found
        exact List.forall_mem_cons.mpr ⟨firstProper, ih more⟩
      · cases found

theorem yields_inlineBody? : Yields Nodes.ProperAssignments (inlineBody? scan?) := by
  intro cs assignments rest found
  rw [inlineBody?] at found
  split at found
  · cases found
    exact fun a mem => absurd mem List.not_mem_nil
  · exact yields_assignments? yields _ found

end Scanners

theorem yields_value? (depth : Nat) : Yields Value.WellKeyed (value? depth) := by
  induction depth with
  | zero => exact yields_scalar?
  | succ depth ih =>
      intro cs value rest found
      rw [value?.eq_def] at found
      simp only at found
      split at found
      · obtain ⟨⟨items, afterItems⟩, read, ⟨⟩⟩ := Option.map_eq_some_iff.mp found
        exact .array (yields_items? ih _ read)
      · obtain ⟨⟨assignments, afterBody⟩, read, found⟩ := Option.bind_eq_some_iff.mp found
        obtain ⟨entries, made, ⟨⟩⟩ := Option.bind_eq_some_iff.mp found
        exact Value.wellKeyed_table.mpr (keyed_of_tableOf? (yields_inlineBody? ih read) made)
      · exact yields_scalar? found

/-! ## Documents -/

/-- A header, or an assignment of a value whose own tables have distinct keys. -/
def Statement.Proper : Statement → Prop
  | .header _ => True
  | .assign assignment => assignment.value.WellKeyed

theorem yields_headerKey? (inArray : Bool) : Yields Statement.Proper (headerKey? inArray) := by
  intro cs statement rest found
  obtain ⟨key, -, found⟩ := Option.bind_eq_some_iff.mp found
  obtain ⟨afterBracket, -, found⟩ := Option.bind_eq_some_iff.mp found
  cases inArray with
  | true =>
      obtain ⟨afterHeader, -, ⟨⟩⟩ := Option.bind_eq_some_iff.mp found
      trivial
  | false =>
      cases found
      trivial

theorem yields_statement? : Yields Statement.Proper statement? := by
  intro cs statement rest found
  rw [statement?.eq_def] at found
  split at found
  · exact yields_headerKey? true found
  · exact yields_headerKey? false found
  · obtain ⟨⟨assignment, afterwards⟩, read, ⟨⟩⟩ := Option.map_eq_some_iff.mp found
    exact yields_assignment? (yields_value? _) read

theorem proper_of_statements? {fuel : Nat} {cs : List Char} {statements : List Statement}
    (read : statements? fuel cs = some statements) : ∀ s ∈ statements, s.Proper := by
  induction fuel generalizing cs statements with
  | zero => cases read
  | succ fuel ih =>
      rw [statements?] at read
      split at read
      · cases read
        simp
      · split at read
        · obtain ⟨afterLine, -, read⟩ := Option.bind_eq_some_iff.mp read
          exact ih read
        · obtain ⟨⟨statement, afterStatement⟩, first, read⟩ := Option.bind_eq_some_iff.mp read
          obtain ⟨afterLine, -, read⟩ := Option.bind_eq_some_iff.mp read
          obtain ⟨others, more, ⟨⟩⟩ := Option.bind_eq_some_iff.mp read
          exact List.forall_mem_cons.mpr ⟨yields_statement? first, ih more⟩

theorem proper_sections {statements : List Statement} (proper : ∀ s ∈ statements, s.Proper) :
    Nodes.ProperAssignments (sections statements).1 ∧
      ∀ s ∈ (sections statements).2, Nodes.ProperAssignments s.assignments := by
  induction statements with
  | nil => exact ⟨by simp [sections, Nodes.ProperAssignments], by simp [sections]⟩
  | cons statement statements ih =>
      obtain ⟨first, others⟩ := List.forall_mem_cons.mp proper
      obtain ⟨leading, later⟩ := ih others
      cases statement with
      | header header =>
          exact ⟨fun a mem => absurd mem List.not_mem_nil,
            List.forall_mem_cons.mpr ⟨leading, later⟩⟩
      | assign assignment => exact ⟨List.forall_mem_cons.mpr ⟨first, leading⟩, later⟩

theorem keyed_of_openHeaders {sections : List Section}
    (proper : ∀ s ∈ sections, Nodes.ProperAssignments s.assignments) {nodes opened : Nodes}
    (keyed : Keyed Node.WellKeyed nodes)
    (done : sections.foldlM (fun nodes s => nodes.openHeader? s.header s.assignments) nodes =
      some opened) : Keyed Node.WellKeyed opened := by
  induction sections generalizing nodes with
  | nil => exact Option.some.inj done ▸ keyed
  | cons s sections ih =>
      obtain ⟨first, others⟩ := List.forall_mem_cons.mp proper
      obtain ⟨next, opens, done⟩ := Option.bind_eq_some_iff.mp done
      exact ih others (Nodes.keyed_of_openHeader? first keyed opens) done

/-- A document has no key twice in any of its tables. -/
theorem keyed_of_read? {text : List Char} {document : Entries}
    (read : read? text = some document) : Keyed Value.WellKeyed document := by
  obtain ⟨statements, scanned, made⟩ := Option.bind_eq_some_iff.mp read
  obtain ⟨root, assigned, made⟩ := Option.bind_eq_some_iff.mp made
  obtain ⟨nodes, opened, ⟨⟩⟩ := Option.bind_eq_some_iff.mp made
  obtain ⟨leading, later⟩ := proper_sections (proper_of_statements? scanned)
  have rootKeyed := Nodes.keyed_of_assignAll? leading keyed_nil assigned
  exact Node.keyed_values nodes (keyed_of_openHeaders later rootKeyed opened)

end LoadShape.Toml
