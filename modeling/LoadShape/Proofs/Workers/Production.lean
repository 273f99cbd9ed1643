import LoadShape.Workers.Ticker
import Mathlib.Algebra.Ring.Int.Defs
import Mathlib.Data.List.Basic
import Mathlib.Data.Nat.Init

/-!
# Productions

What a ticker produces in a run, and when: the history of the steps in which it goes
on from waiting for a tick to offering it.  A consumer that takes tick `i` after a
delay of its own lets the ticker on a stream of some capacity produce the ticks at the
instants of `producedAt`; the ticks themselves follow from these instants.
-/

namespace LoadShape.Workers

open LoadShape.Time

/-! ## The history of a run -/

/-- A tick and the instant at which it was produced. -/
structure Production where
  tick : Tick
  instant : Nat
  deriving DecidableEq, Repr

namespace Run

/-- What the ticker produced between two runs that are one step apart. -/
def production? (before after : Run) : Option Production :=
  match before.phase, after.phase with
  | .waiting _ _, .offering tick _ _ => some ⟨tick, after.clock⟩
  | _, _ => none

/-- What the ticker produces while it goes on for as long as it can. -/
def settleLog (source : TickSource) (capacity : Nat) (r : Run) : List Production :=
  match _h : r.step? source capacity with
  | some s => (r.production? s).toList ++ s.settleLog source capacity
  | none => []
termination_by r.progress capacity
decreasing_by exact progress_lt_of_step? _h

end Run

/-- What the ticker produces while its consumer takes ticks. -/
def consumeLog (source : TickSource) (capacity : Nat) :
    (limit : Nat) → (delays : List Nat) → Run → List Production
  | 0, _, _ => []
  | limit + 1, delays, r =>
    match (r.delay (delays.headD 0)).take? with
    | none => []
    | some (tick, taken) =>
      taken.settleLog source capacity ++
        if tick.done then []
        else consumeLog source capacity limit delays.tail (taken.settle source capacity)

/-- What a ticker produces in one run on a stream: the first tick at once, and the
others as the run goes on. -/
def Ticker.productions (ticker : Ticker) (consumer : Consumer) (stream : TickStream) :
    List Production :=
  if stream.closed then []
  else
    let start := Run.initial ticker.source stream.queue
    ⟨ticker.source.first, 0⟩ :: (start.settleLog ticker.source stream.capacity ++
      consumeLog ticker.source stream.capacity consumer.limit consumer.delays
        (start.settle ticker.source stream.capacity))

/-! ## Numbered things -/

/-- The numbers from `i` on, below a number `j` beyond it. -/
theorem range'_eq_cons {i j : Nat} (bound : i < j) :
    List.range' i (j - i) = i :: List.range' (i + 1) (j - (i + 1)) := by
  have size : j - i = j - (i + 1) + 1 := by omega
  rw [size, List.range'_succ]

/-- The things that are numbered below `j`, looked up by number. -/
theorem getElem?_numbered_eq_some {α : Type} {thing : Nat → α} {j n : Nat} {found : α} :
    ((List.range' 0 (j - 0)).map thing)[n]? = some found ↔ n < j ∧ thing n = found := by
  rw [Nat.sub_zero, ← List.range_eq_range', List.getElem?_map, Option.map_eq_some_iff]
  by_cases below : n < j
  · simp [below]
  · simp [below]

/-! ## Instants and ticks -/

/-- The delay that passes before tick number `i` is taken. -/
def delayBefore (delays : List Nat) (i : Nat) : Nat := delays.getD i 0

/-- The instant at which tick number `n` is produced.  A tick that finds room follows
after one period; every other one also waits until the tick `capacity` places before
it has been taken. -/
def producedAt (period capacity : Nat) (delays : List Nat) : Nat → Nat
  | 0 => 0
  | n + 1 =>
    producedAt period capacity delays n +
      if n < capacity then period else max period (delayBefore delays (n - capacity))

/-- The instants at which the ticks of one run on a fresh stream are produced for a
consumer. -/
def Consumer.instants (consumer : Consumer) (period capacity : Nat) : Nat → Nat :=
  producedAt period capacity consumer.delays

/-- A tick that finds room is followed by another after a period. -/
theorem Consumer.instants_succ_of_room (consumer : Consumer) (period : Nat) {capacity n : Nat}
    (room : n < capacity) :
    consumer.instants period capacity (n + 1) = consumer.instants period capacity n + period := by
  rw [instants, producedAt, if_pos room]

/-- Every other tick is followed by another after a period, or after the delay before the
take that makes room for it if that is longer. -/
theorem Consumer.instants_succ_of_full (consumer : Consumer) (period capacity i : Nat) :
    consumer.instants period capacity (i + capacity + 1) =
      consumer.instants period capacity (i + capacity) +
        max period (delayBefore consumer.delays i) := by
  rw [instants, producedAt, if_neg (Nat.not_lt.mpr (Nat.le_add_left _ _)), Nat.add_sub_cancel]

/-- Ticks are never produced closer together than a period, however late the one before
was. -/
theorem producedAt_add_period_le (period capacity : Nat) (delays : List Nat) (n : Nat) :
    producedAt period capacity delays n + period ≤ producedAt period capacity delays (n + 1) := by
  rw [producedAt]
  apply Nat.add_le_add_left
  split
  · exact Nat.le_refl _
  · exact Nat.le_max_left _ _

theorem mul_period_le_producedAt (period capacity : Nat) (delays : List Nat) (n : Nat) :
    n * period ≤ producedAt period capacity delays n := by
  induction n with
  | zero => simp [producedAt]
  | succ n ih =>
      rw [Nat.succ_mul]
      exact Nat.le_trans (Nat.add_le_add_right ih period)
        (producedAt_add_period_le period capacity delays n)

/-- A consumer that never delays on a stream without capacity takes every tick on
time. -/
theorem producedAt_punctual {delays : List Nat} (punctual : ∀ delay ∈ delays, delay = 0)
    (period n : Nat) : producedAt period 0 delays n = n * period := by
  have none_before (i : Nat) : delayBefore delays i = 0 := by
    unfold delayBefore
    rw [List.getD_eq_getElem?_getD]
    cases found : delays[i]? with
    | none => rfl
    | some delay => exact punctual delay (List.mem_of_getElem? found)
  induction n with
  | zero => simp [producedAt]
  | succ n ih => simp [producedAt, ih, none_before, Nat.succ_mul]

namespace TickSource

variable (source : TickSource) (instants : Nat → Nat)

/-- Tick number `n` and the workers before it, when tick `k` is produced at
`instants k`. -/
def course : Nat → Tick × Int
  | 0 => (source.first, 0)
  | n + 1 =>
    let workers := (course n).2 + (course n).1.delta
    (source.following workers (instants (n + 1)), workers)

/-- Tick number `n`. -/
def tickNo (n : Nat) : Tick := (source.course instants n).1

/-- The workers before tick number `n`. -/
def workersBefore (n : Nat) : Int := (source.course instants n).2

@[simp]
theorem tickNo_zero : source.tickNo instants 0 = source.first := rfl

@[simp]
theorem workersBefore_zero : source.workersBefore instants 0 = 0 := rfl

theorem workersBefore_succ (n : Nat) :
    source.workersBefore instants (n + 1) =
      source.workersBefore instants n + (source.tickNo instants n).delta := rfl

theorem tickNo_succ (n : Nat) :
    source.tickNo instants (n + 1) =
      source.following (source.workersBefore instants (n + 1)) (instants (n + 1)) := rfl

/-- The ticker offers tick number `n`. -/
def offers (n : Nat) : Phase :=
  .offering (source.tickNo instants n) (instants n + source.period)
    (source.workersBefore instants n)

/-- The ticker has handed over tick number `n`. -/
def handsOver (n : Nat) : Phase :=
  .afterHandover (source.tickNo instants n) (instants n + source.period)
    (source.workersBefore instants n)

/-- How the run ends after tick number `n` was handed over, unless it goes on. -/
def ending? (n : Nat) : Option (Except TickerFault Unit) :=
  if (source.tickNo instants n).done then some (.ok ())
  else if countMax < source.workersBefore instants (n + 1) then some (.error .countOverflow)
  else if clockEnd ≤ instants (n + 1) + source.period then some (.error .clockOverflow)
  else none

/-- The run gets as far as producing tick number `n`. -/
def Reaches (n : Nat) : Prop := ∀ k < n, source.ending? instants k = none

instance (n : Nat) : Decidable (source.Reaches instants n) :=
  inferInstanceAs (Decidable (∀ k < n, source.ending? instants k = none))

/-- How many of the first `m` ticks the run gets to produce. -/
def reached : Nat → Nat
  | 0 => 0
  | m + 1 => if source.Reaches instants m then m + 1 else reached m

/-- The ticks from number `i` on, below number `j`. -/
def ticksFrom (i j : Nat) : List Tick :=
  (List.range' i (j - i)).map (source.tickNo instants)

/-- The productions from number `i` on, below number `j`. -/
def productionsFrom (i j : Nat) : List Production :=
  (List.range' i (j - i)).map fun n => ⟨source.tickNo instants n, instants n⟩

variable {source instants}

theorem reaches_zero : source.Reaches instants 0 := fun _ bound => absurd bound (Nat.not_lt_zero _)

theorem Reaches.of_le {m n : Nat} (reaches : source.Reaches instants n) (bound : m ≤ n) :
    source.Reaches instants m :=
  fun k below => reaches k (Nat.lt_of_lt_of_le below bound)

theorem reaches_succ_iff {n : Nat} :
    source.Reaches instants (n + 1) ↔
      source.Reaches instants n ∧ source.ending? instants n = none := by
  constructor
  · intro reaches
    exact ⟨reaches.of_le (Nat.le_succ n), reaches n (Nat.lt_succ_self n)⟩
  · rintro ⟨reaches, goesOn⟩ k below
    rcases Nat.lt_succ_iff_lt_or_eq.mp below with earlier | rfl
    · exact reaches k earlier
    · exact goesOn

theorem reached_le (m : Nat) : source.reached instants m ≤ m := by
  induction m with
  | zero => exact Nat.le_refl _
  | succ m ih =>
      rw [reached]
      split
      · exact Nat.le_refl _
      · exact Nat.le_succ_of_le ih

theorem reached_succ_of_reaches {m : Nat} (reaches : source.Reaches instants m) :
    source.reached instants (m + 1) = m + 1 := by
  rw [reached, if_pos reaches]

theorem reached_of_reaches {m : Nat} (reaches : source.Reaches instants m) :
    source.reached instants m = m := by
  cases m with
  | zero => rfl
  | succ m => exact reached_succ_of_reaches (reaches.of_le (Nat.le_succ m))

/-- Beyond a tick that is not produced the count stands still. -/
theorem reached_of_not_reaches {i m : Nat} (stops : ¬ source.Reaches instants i)
    (bound : i ≤ m) : source.reached instants m = source.reached instants i := by
  induction bound with
  | refl => rfl
  | step bound ih => rw [reached, if_neg (fun reaches => stops (reaches.of_le bound)), ih]

theorem reached_mono {m n : Nat} (bound : m ≤ n) :
    source.reached instants m ≤ source.reached instants n := by
  induction bound with
  | refl => exact Nat.le_refl _
  | @step n bound ih =>
      rw [reached]
      split
      · exact Nat.le_trans (reached_le m) (Nat.le_succ_of_le bound)
      · exact ih

theorem lt_reached_of_reaches {i m : Nat} (reaches : source.Reaches instants i) (bound : i < m) :
    i < source.reached instants m := by
  rw [← Nat.succ_le_iff, Nat.succ_eq_add_one, ← reached_succ_of_reaches reaches]
  exact reached_mono bound

theorem reaches_of_lt_reached {i m : Nat} (below : i < source.reached instants m) :
    source.Reaches instants i := by
  induction m with
  | zero => exact absurd below (Nat.not_lt_zero i)
  | succ m ih =>
      rw [reached] at below
      split at below
      · rename_i reaches
        exact reaches.of_le (Nat.le_of_lt_succ below)
      · exact ih below

theorem reached_reached (m : Nat) :
    source.reached instants (source.reached instants m) = source.reached instants m := by
  cases count : source.reached instants m with
  | zero => rfl
  | succ last =>
      have below : last < source.reached instants m := by omega
      exact reached_succ_of_reaches (reaches_of_lt_reached below)

/-- A tick that ends the run is the last one. -/
theorem not_reaches_succ {n : Nat} {outcome : Except TickerFault Unit}
    (ending : source.ending? instants n = some outcome) :
    ¬ source.Reaches instants (n + 1) := by
  intro reaches
  rw [(reaches_succ_iff.mp reaches).2] at ending
  cases ending

theorem ending?_of_done {n : Nat} (done : (source.tickNo instants n).done = true) :
    source.ending? instants n = some (.ok ()) := by
  rw [ending?, if_pos done]

/-- What it takes for a run to go on. -/
theorem ending?_eq_none_iff {n : Nat} :
    source.ending? instants n = none ↔
      (source.tickNo instants n).done = false ∧
        source.workersBefore instants (n + 1) ≤ countMax ∧
        instants (n + 1) + source.period < clockEnd := by
  rw [← Bool.not_eq_true, ← Int.not_lt, ← Nat.not_le]
  unfold ending?
  split
  · rename_i done
    exact iff_of_false (Option.some_ne_none _) fun goesOn => goesOn.1 done
  · rename_i notDone
    split
    · rename_i tooMany
      exact iff_of_false (Option.some_ne_none _) fun goesOn => goesOn.2.1 tooMany
    · rename_i counted
      split
      · rename_i tooLate
        exact iff_of_false (Option.some_ne_none _) fun goesOn => goesOn.2.2 tooLate
      · rename_i onClock
        exact iff_of_true rfl ⟨notDone, counted, onClock⟩

theorem not_done_of_goes_on {n : Nat} (goesOn : source.ending? instants n = none) :
    (source.tickNo instants n).done = false :=
  (ending?_eq_none_iff.mp goesOn).1

/-- The ways in which a run ends after tick number `n`. -/
theorem ending?_eq_some_cases {n : Nat} {outcome : Except TickerFault Unit}
    (ending : source.ending? instants n = some outcome) :
    (source.tickNo instants n).done = true ∧ outcome = .ok () ∨
      countMax < source.workersBefore instants (n + 1) ∧ outcome = .error .countOverflow ∨
      clockEnd ≤ instants (n + 1) + source.period ∧ outcome = .error .clockOverflow := by
  unfold ending? at ending
  split at ending
  · rename_i done
    cases ending
    exact Or.inl ⟨done, rfl⟩
  · split at ending
    · rename_i tooMany
      cases ending
      exact Or.inr (Or.inl ⟨tooMany, rfl⟩)
    · split at ending
      · rename_i tooLate
        cases ending
        exact Or.inr (Or.inr ⟨tooLate, rfl⟩)
      · cases ending

theorem done_of_ending?_ok {n : Nat} (ending : source.ending? instants n = some (.ok ())) :
    (source.tickNo instants n).done = true := by
  rcases ending?_eq_some_cases ending with ⟨done, _⟩ | ⟨_, fails⟩ | ⟨_, fails⟩
  · exact done
  · cases fails
  · cases fails

theorem ticksFrom_eq_nil {i j : Nat} (bound : j ≤ i) : source.ticksFrom instants i j = [] := by
  rw [ticksFrom, Nat.sub_eq_zero_of_le bound]
  rfl

theorem ticksFrom_cons {i j : Nat} (bound : i < j) :
    source.ticksFrom instants i j =
      source.tickNo instants i :: source.ticksFrom instants (i + 1) j := by
  rw [ticksFrom, range'_eq_cons bound, List.map_cons]
  rfl

theorem ticksFrom_succ {i j : Nat} (bound : i ≤ j) :
    source.ticksFrom instants i (j + 1) =
      source.ticksFrom instants i j ++ [source.tickNo instants j] := by
  obtain ⟨k, rfl⟩ := Nat.exists_eq_add_of_le bound
  have size : i + k + 1 - i = k + 1 := by omega
  have rest : i + k - i = k := by omega
  rw [ticksFrom, ticksFrom, size, rest, List.range'_concat, List.map_append]
  simp

theorem length_ticksFrom (i j : Nat) : (source.ticksFrom instants i j).length = j - i := by
  rw [ticksFrom, List.length_map, List.length_range']

theorem ticksFrom_append {i j k : Nat} (first : i ≤ j) (second : j ≤ k) :
    source.ticksFrom instants i j ++ source.ticksFrom instants j k =
      source.ticksFrom instants i k := by
  have start : j = i + (j - i) := by omega
  have size : k - i = (j - i) + (k - j) := by omega
  rw [ticksFrom, ticksFrom, ticksFrom, ← List.map_append, size, ← List.range'_append_1, ← start]

theorem mem_ticksFrom_iff {i j : Nat} {tick : Tick} :
    tick ∈ source.ticksFrom instants i j ↔
      ∃ n, i ≤ n ∧ n < j ∧ source.tickNo instants n = tick := by
  simp only [ticksFrom, List.mem_map, List.mem_range'_1]
  constructor
  · rintro ⟨n, ⟨low, high⟩, same⟩
    exact ⟨n, low, by omega, same⟩
  · rintro ⟨n, low, high, same⟩
    exact ⟨n, ⟨low, by omega⟩, same⟩

/-- The workers before a tick are all that the ticks before it added up to. -/
theorem workersBefore_eq_sum (n : Nat) :
    source.workersBefore instants n = ((source.ticksFrom instants 0 n).map (·.delta)).sum := by
  induction n with
  | zero => rfl
  | succ n ih =>
      rw [workersBefore_succ, ih, ticksFrom_succ (Nat.zero_le n), List.map_append,
        List.sum_append]
      simp

/-- The first ticks of those below number `j`. -/
theorem take_ticksFrom (n j : Nat) :
    (source.ticksFrom instants 0 j).take n = source.ticksFrom instants 0 (min n j) := by
  rw [ticksFrom, ticksFrom, ← List.map_take, Nat.sub_zero, Nat.sub_zero, ← List.range_eq_range',
    ← List.range_eq_range', List.take_range]

theorem map_tick_productionsFrom (i j : Nat) :
    (source.productionsFrom instants i j).map (·.tick) = source.ticksFrom instants i j :=
  List.map_map

theorem productionsFrom_append {i j k : Nat} (first : i ≤ j) (second : j ≤ k) :
    source.productionsFrom instants i j ++ source.productionsFrom instants j k =
      source.productionsFrom instants i k := by
  have start : j = i + (j - i) := by omega
  have size : k - i = (j - i) + (k - j) := by omega
  rw [productionsFrom, productionsFrom, productionsFrom, ← List.map_append, size,
    ← List.range'_append_1, ← start]

theorem length_productionsFrom (i j : Nat) :
    (source.productionsFrom instants i j).length = j - i := by
  rw [productionsFrom, List.length_map, List.length_range']

theorem productionsFrom_eq_nil {i j : Nat} (bound : j ≤ i) :
    source.productionsFrom instants i j = [] := by
  rw [productionsFrom, Nat.sub_eq_zero_of_le bound]
  rfl

theorem productionsFrom_single (i : Nat) :
    source.productionsFrom instants i (i + 1) = [⟨source.tickNo instants i, instants i⟩] := by
  rw [productionsFrom, Nat.add_sub_cancel_left]
  rfl

/-- The last of these productions is at the instant before number `j`. -/
theorem getLast?_productionsFrom (i j : Nat) :
    (source.productionsFrom instants i j).getLast?.map (·.instant) =
      if i < j then some (instants (j - 1)) else none := by
  split
  · rename_i bound
    obtain ⟨k, rfl⟩ : ∃ k, j = k + 1 := ⟨j - 1, by omega⟩
    rw [← productionsFrom_append (j := k) (by omega) (Nat.le_succ k), productionsFrom_single,
      List.getLast?_concat]
    rfl
  · rename_i bound
    rw [productionsFrom_eq_nil (Nat.not_lt.mp bound)]
    rfl

end TickSource

end LoadShape.Workers
