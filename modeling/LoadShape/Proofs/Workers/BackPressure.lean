import LoadShape.Proofs.Workers.FreshRun
import Mathlib.Algebra.BigOperators.Group.Finset.Basic

/-!
# Timing under back-pressure

A stream of some capacity lets its ticker run ahead of the consumer by that many ticks.
After them every tick waits for a period and for the consumer, whichever takes longer, so
the instants of all productions are sums; the instants of the takes follow from them.
-/

namespace LoadShape.Workers

open LoadShape.Time

/-- As many ticks as find room follow one another after a period; each of the others
takes a period or a delay of the consumer, if that is longer. -/
theorem producedAt_eq_sum (period capacity : Nat) (delays : List Nat) (n : Nat) :
    producedAt period capacity delays n =
      min n capacity * period +
        ∑ i ∈ Finset.range (n - capacity), max period (delayBefore delays i) := by
  induction n with
  | zero => simp [producedAt]
  | succ n ih =>
      rw [producedAt, ih]
      split
      · rename_i room
        have early : n - capacity = 0 := by omega
        have next : n + 1 - capacity = 0 := by omega
        have low : min n capacity = n := by omega
        have high : min (n + 1) capacity = n + 1 := by omega
        rw [early, next, low, high, Nat.succ_mul]
        omega
      · rename_i full
        have next : n + 1 - capacity = n - capacity + 1 := by omega
        have low : min n capacity = capacity := by omega
        have high : min (n + 1) capacity = capacity := by omega
        rw [next, low, high, Finset.sum_range_succ, Nat.add_assoc]

/-- The instant of the take before tick number `i`; the beginning of the run for the
first one. -/
def takenBefore (events : List Event) : Nat → Nat
  | 0 => 0
  | i + 1 => (events[i]?).elim 0 (·.takenAt)

namespace Ticker

variable {ticker : Ticker} {consumer : Consumer} {capacity : Nat} {source : TickSource}
  {instants : Nat → Nat} (source_eq : ticker.source = source)
  (instants_eq : consumer.instants source.period capacity = instants)
include source_eq instants_eq

/-- A tick is taken, after the delay before it, from the instant on at which the tick that
waits for its place is produced. -/
theorem takenAt_of_waiting {i : Nat} {event : Event}
    (found : (ticker.run consumer { capacity }).1.events[i]? = some event)
    (waiting : i + capacity < (ticker.productions consumer { capacity }).length) :
    event.takenAt = instants (i + capacity) + delayBefore consumer.delays i := by
  obtain ⟨_, rfl⟩ := (getElem?_events_eq_some source_eq instants_eq).mp found
  have reaches := reaches_of_lt_length source_eq instants_eq waiting
  subst instants_eq
  rw [TickSource.event, TickSource.restsAt_of_reaches
    (consumer.instants_succ_of_full source.period capacity) reaches]

/-- When no tick waits for its place, a tick is taken, after the delay before it, from the
last production or the take before on. -/
theorem takenAt_of_last {i last : Nat} {event : Event}
    (found : (ticker.run consumer { capacity }).1.events[i]? = some event)
    (size : (ticker.productions consumer { capacity }).length = last + 1)
    (beyond : last < i + capacity) :
    event.takenAt =
      max (instants last) (takenBefore (ticker.run consumer { capacity }).1.events i) +
        delayBefore consumer.delays i := by
  obtain ⟨below, rfl⟩ := (getElem?_events_eq_some source_eq instants_eq).mp found
  have stops : ¬ source.Reaches instants (i + capacity) := by
    intro reaches
    have further := lt_length_of_reaches source_eq instants_eq reaches (by omega)
    omega
  have final : source.reached instants (i + capacity + 1) = last + 1 := by
    have taken := length_events source_eq instants_eq
    have later : i + capacity ≤ source.reached instants consumer.limit + capacity + 1 := by omega
    rw [← size, length_productions source_eq instants_eq,
      TickSource.reached_of_not_reaches stops (Nat.le_succ _),
      TickSource.reached_of_not_reaches stops later]
  cases i with
  | zero =>
      rw [Nat.zero_add] at final
      rw [TickSource.event, TickSource.restsAt, final, Nat.add_sub_cancel, takenBefore,
        Nat.max_eq_left (Nat.zero_le _)]
  | succ i =>
      have before := (getElem?_events_eq_some source_eq instants_eq).mpr
        ⟨Nat.lt_of_succ_lt below, rfl⟩
      rw [TickSource.event, TickSource.restsAt, final, Nat.add_sub_cancel, takenBefore, before]
      rfl

/-- A run that does not wait for its consumer has handed over its last tick, counted too
far, or come to the end of the clock. -/
theorem over_cases (notRunning : (ticker.run consumer { capacity }).1.state ≠ .running) :
    ∃ last production, (ticker.productions consumer { capacity }).length = last + 1 ∧
      (ticker.productions consumer { capacity })[last]? = some production ∧
      (production.tick.done = true ∧
          (ticker.run consumer { capacity }).1.state = .over (.ok ()) ∨
        countMax < ((ticker.productions consumer { capacity }).map (·.tick.delta)).sum ∧
          (ticker.run consumer { capacity }).1.state = .over (.error .countOverflow) ∨
        clockEnd ≤ instants (last + 1) + source.period ∧
          (ticker.run consumer { capacity }).1.state = .over (.error .clockOverflow)) := by
  obtain ⟨last, outcome, size, ending, state⟩ :=
    ending_of_not_running source_eq instants_eq notRunning
  refine ⟨last, _, size, (getElem?_productions_eq_some source_eq instants_eq).mpr
    ⟨by omega, rfl⟩, ?_⟩
  have total : ((ticker.productions consumer { capacity }).map (·.tick.delta)).sum =
      source.workersBefore instants (last + 1) := by
    rw [TickSource.workersBefore_eq_sum, ← size, ← map_tick_productions source_eq instants_eq,
      List.map_map]
    rfl
  rw [total, state]
  rcases TickSource.ending?_eq_some_cases ending with ⟨done, rfl⟩ | ⟨more, rfl⟩ | ⟨late, rfl⟩
  · exact Or.inl ⟨done, rfl⟩
  · exact Or.inr (Or.inl ⟨more, rfl⟩)
  · exact Or.inr (Or.inr ⟨late, rfl⟩)

end Ticker

/-- A run of a step ticker under back-pressure, for every consumer and every capacity of a
fresh stream.  Each tick that is produced is produced at the instant of the sum, at least a
period after the one before.  It is taken, after the delay before it, from the instant on at
which the tick `capacity` places behind it is produced; if the run ends before that tick,
from its last production or the take before on, whichever is later.  The consumer takes all
that is produced up to its limit, and the ticker goes as far as it can: a run that does not
wait for its consumer has handed over its last tick, counted too far, or come to the end of
the clock. -/
theorem StepTicker.produced_and_taken (ticker : StepTicker) (consumer : Consumer)
    (capacity : Nat) :
    let period := ticker.ramp.period.nanos
    let delay := delayBefore consumer.delays
    let instant (n : Nat) :=
      min n capacity * period + ∑ i ∈ Finset.range (n - capacity), max period (delay i)
    let produced := (Ticker.step ticker).productions consumer { capacity }
    let record := ((Ticker.step ticker).run consumer { capacity }).1
    (∀ n production, produced[n]? = some production → production.instant = instant n) ∧
      (∀ n, instant n + period ≤ instant (n + 1)) ∧
      (∀ i event, record.events[i]? = some event →
        (i + capacity < produced.length → event.takenAt = instant (i + capacity) + delay i) ∧
        ∀ last, produced.length = last + 1 → last < i + capacity →
          event.takenAt = max (instant last) (takenBefore record.events i) + delay i) ∧
      (∀ n production, produced[n]? = some production → production.tick.done = true →
        produced.length = n + 1) ∧
      record.events.length = min consumer.limit produced.length ∧
      (record.state = .running → produced.length = record.events.length + capacity + 1) ∧
      (record.state ≠ .running → ∃ last production,
        produced.length = last + 1 ∧ produced[last]? = some production ∧
          (production.tick.done = true ∧ record.state = .over (.ok ()) ∨
            countMax < (produced.map (·.tick.delta)).sum ∧
              record.state = .over (.error .countOverflow) ∨
            clockEnd ≤ instant (last + 1) + period ∧
              record.state = .over (.error .clockOverflow))) := by
  intro period delay instant produced record
  have instants_eq : consumer.instants (Ticker.step ticker).source.period capacity = instant :=
    funext (producedAt_eq_sum period capacity consumer.delays)
  refine ⟨?_, ?_, ?_, ?_, ?_, ?_, ?_⟩
  · intro n production found
    rw [← ((Ticker.getElem?_productions_eq_some rfl instants_eq).mp found).2]
  · intro n
    rw [← instants_eq]
    exact producedAt_add_period_le period capacity consumer.delays n
  · intro i event found
    exact ⟨Ticker.takenAt_of_waiting rfl instants_eq found,
      fun last => Ticker.takenAt_of_last rfl instants_eq found⟩
  · intro n production found done
    obtain ⟨below, rfl⟩ := (Ticker.getElem?_productions_eq_some rfl instants_eq).mp found
    exact Ticker.length_productions_of_done rfl instants_eq below done
  · exact Ticker.length_events_eq_min rfl instants_eq
  · exact Ticker.length_productions_of_running rfl instants_eq
  · exact Ticker.over_cases rfl instants_eq

/-- One worker and one more every two seconds up to three, on a stream for two ticks, and a
consumer that waits three, five and one seconds.  The last tick is produced after seven
seconds; the second tick waits for it, and the third one for the take before. -/
theorem StepTicker.produced_and_taken_two_ahead :
    let ticker : StepTicker := ⟨
      { start := 1, step := 1, period := .ofSeconds 2, target := 3
        step_ne_zero := by decide, period_ne_zero := by decide }⟩
    let consumer : Consumer := { delays := [3000000000, 5000000000, 1000000000] }
    let produced := (Ticker.step ticker).productions consumer { capacity := 2 }
    let record := ((Ticker.step ticker).run consumer { capacity := 2 }).1
    produced.length = 4 ∧ (produced[3]?).map (·.instant) = some 7000000000 ∧
      (record.events[1]?).map (·.takenAt) = some 12000000000 ∧
      (record.events[2]?).map (·.takenAt) = some 13000000000 := by
  intro ticker consumer produced record
  have source_eq : (Ticker.step ticker).source = ticker.source := rfl
  have size : produced.length = 4 :=
    (Ticker.length_productions source_eq rfl).trans (by decide)
  have seen : record.events.length = 4 :=
    (Ticker.length_events source_eq rfl).trans (by decide)
  obtain ⟨instants, _, takes, _⟩ := ticker.produced_and_taken consumer 2
  have last : produced[3]? = some produced[3] := List.getElem?_eq_getElem _
  have second : record.events[1]? = some record.events[1] := List.getElem?_eq_getElem _
  have third : record.events[2]? = some record.events[2] := List.getElem?_eq_getElem _
  have waited : record.events[1].takenAt = 12000000000 :=
    ((takes 1 _ second).1 (by rw [size]; decide)).trans (by decide)
  refine ⟨size, ?_, ?_, ?_⟩
  · rw [last, Option.map_some, instants 3 _ last]
    decide
  · rw [second, Option.map_some, waited]
  · rw [third, Option.map_some, (takes 2 _ third).2 3 size (by decide), takenBefore, second,
      Option.elim_some, waited]
    decide

end LoadShape.Workers
