import LoadShape.Proofs.Workers.Settled

/-!
# One run on a fresh stream

What a consumer sees of a run that begins with an empty stream: the ticks of the course,
when it takes each of them, and how many workers it counts with it.  What the ticker
produces meanwhile, and how the run stands when the consumer is through.
-/

namespace LoadShape.Workers

open LoadShape.Time

namespace TickSource

variable (source : TickSource) (instants : Nat → Nat)

/-- The workers that a consumer counts before it takes tick number `n`. -/
def countedBefore : Nat → Int
  | 0 => 0
  | n + 1 => countAfter (countedBefore n) (source.tickNo instants n).delta

/-- The clock when the ticker has gone on for as long as it can before tick number `i` is
taken: it stands at the last production until then, or at the last take if that was
later. -/
def restsAt (capacity : Nat) (delays : List Nat) : Nat → Nat
  | 0 => instants (source.reached instants (capacity + 1) - 1)
  | i + 1 =>
    max (instants (source.reached instants (i + 1 + capacity + 1) - 1))
      (restsAt capacity delays i + delayBefore delays i)

/-- Tick number `i` as its consumer sees it. -/
def event (capacity : Nat) (delays : List Nat) (i : Nat) : Event where
  tick := source.tickNo instants i
  takenAt := source.restsAt instants capacity delays i + delayBefore delays i
  workers := source.countedBefore instants (i + 1)

/-- The events from number `i` on, below number `j`. -/
def eventsFrom (capacity : Nat) (delays : List Nat) (i j : Nat) : List Event :=
  (List.range' i (j - i)).map (source.event instants capacity delays)

variable {source instants} {capacity : Nat} {delays : List Nat}

theorem eventsFrom_eq_nil {i j : Nat} (bound : j ≤ i) :
    source.eventsFrom instants capacity delays i j = [] := by
  rw [eventsFrom, Nat.sub_eq_zero_of_le bound]
  rfl

theorem eventsFrom_cons {i j : Nat} (bound : i < j) :
    source.eventsFrom instants capacity delays i j =
      source.event instants capacity delays i ::
        source.eventsFrom instants capacity delays (i + 1) j := by
  rw [eventsFrom, range'_eq_cons bound, List.map_cons]
  rfl

@[simp]
theorem length_eventsFrom (i j : Nat) :
    (source.eventsFrom instants capacity delays i j).length = j - i := by
  rw [eventsFrom, List.length_map, List.length_range']

theorem map_tick_eventsFrom (i j : Nat) :
    (source.eventsFrom instants capacity delays i j).map (·.tick) =
      source.ticksFrom instants i j :=
  List.map_map

theorem last_le_restsAt (i : Nat) :
    instants (source.reached instants (i + capacity + 1) - 1) ≤
      source.restsAt instants capacity delays i := by
  cases i with
  | zero =>
      rw [Nat.zero_add]
      exact Nat.le_refl _
  | succ i => exact Nat.le_max_left _ _

/-- While the ticker can go on it rests with the tick that finds no room. -/
theorem restsAt_of_reaches {i : Nat}
    (instant : ∀ i, instants (i + capacity + 1) =
      instants (i + capacity) + max source.period (delayBefore delays i))
    (reaches : source.Reaches instants (i + capacity)) :
    source.restsAt instants capacity delays i = instants (i + capacity) := by
  have last := reached_succ_of_reaches reaches
  cases i with
  | zero =>
      rw [Nat.zero_add] at last ⊢
      rw [restsAt, last, Nat.add_sub_cancel]
  | succ i =>
      have before := restsAt_of_reaches instant (i := i) (reaches.of_le (by omega))
      have place : i + 1 + capacity = i + capacity + 1 := by omega
      rw [restsAt, last, Nat.add_sub_cancel, before, place, instant]
      apply Nat.max_eq_left
      exact Nat.add_le_add_left (Nat.le_max_right _ _) _

/-- Once the run is over only the consumer's delays pass. -/
theorem restsAt_succ_of_over {i : Nat} (stops : ¬ source.Reaches instants (i + 1 + capacity)) :
    source.restsAt instants capacity delays (i + 1) =
      source.restsAt instants capacity delays i + delayBefore delays i := by
  have still : source.reached instants (i + 1 + capacity + 1) =
      source.reached instants (i + capacity + 1) := by
    have place : i + 1 + capacity = i + capacity + 1 := by omega
    rw [reached_of_not_reaches stops (Nat.le_succ _), place]
  rw [restsAt, still]
  exact Nat.max_eq_right (Nat.le_add_right_of_le (last_le_restsAt i))

end TickSource

open Run

variable {source : TickSource} {instants : Nat → Nat} {capacity : Nat} {delays : List Nat}

/-- When a tick was taken from a settled run, the ticker rests again. -/
theorem Run.clock_settle_taken {i : Nat} {r taken : Run} {tick : Tick}
    (instant : ∀ i, instants (i + capacity + 1) =
      instants (i + capacity) + max source.period (delayBefore delays i))
    (rests : r.clock = source.restsAt instants capacity delays i)
    (found : (r.delay (delayBefore delays i)).take? = some (tick, taken))
    (log : taken.settleLog source capacity =
      source.productionsFrom instants (source.reached instants (i + capacity + 1))
        (source.reached instants (i + 1 + capacity + 1))) :
    (taken.settle source capacity).clock =
      source.restsAt instants capacity delays (i + 1) := by
  have now : taken.clock = source.restsAt instants capacity delays i + delayBefore delays i := by
    rw [clock_take? found, ← rests]
    rfl
  have place : i + 1 + capacity = i + capacity + 1 := by omega
  rw [clock_settle, log, TickSource.getLast?_productionsFrom, now]
  by_cases goesOn : source.Reaches instants (i + 1 + capacity)
  · have next := TickSource.reached_succ_of_reaches goesOn
    have before : source.reached instants (i + capacity + 1) ≤ i + capacity + 1 :=
      TickSource.reached_le _
    rw [TickSource.restsAt_of_reaches instant goesOn, if_pos (by omega), next]
    rfl
  · rw [TickSource.restsAt_succ_of_over goesOn, TickSource.reached_of_not_reaches goesOn
      (Nat.le_succ _), place, if_neg (Nat.lt_irrefl _)]
    rfl

/-- A consumer that has taken all ticks before number `i` takes the following ones, up
to its limit or to the end of the run, and leaves a settled run. -/
theorem consume_settled
    (instant : ∀ i, instants (i + capacity + 1) =
      instants (i + capacity) + max source.period (delayBefore delays i))
    (limit i : Nat) (r : Run) (settled : Settled source instants capacity i r)
    (rests : r.clock = source.restsAt instants capacity delays i)
    (taken : source.reached instants i = i) :
    let result := consume source capacity limit (delays.drop i)
      (source.countedBefore instants i) r
    let m := source.reached instants (i + limit)
    result.1 = source.eventsFrom instants capacity delays i m ∧
      Settled source instants capacity m result.2 ∧
      consumeLog source capacity limit (delays.drop i) r =
        source.productionsFrom instants (source.reached instants (i + capacity + 1))
          (source.reached instants (m + capacity + 1)) := by
  induction limit generalizing i r with
  | zero =>
      simp only [Nat.add_zero, taken, consume, consumeLog]
      exact ⟨(TickSource.eventsFrom_eq_nil (Nat.le_refl _)).symm, settled,
        (TickSource.productionsFrom_eq_nil (Nat.le_refl _)).symm⟩
  | succ limit ih =>
      have delay : (delays.drop i).headD 0 = delayBefore delays i := by
        rw [delayBefore, List.headD_eq_head?_getD, List.head?_drop, List.getD_eq_getElem?_getD]
      by_cases reaches : source.Reaches instants i
      · obtain ⟨next, found, settles, log⟩ := settled.take reaches (instant i)
        have restsNext := clock_settle_taken instant rests found log
        have seen : (⟨source.tickNo instants i, next.clock, countAfter
            (source.countedBefore instants i) (source.tickNo instants i).delta⟩ : Event) =
            source.event instants capacity delays i := by
          rw [clock_take? found, TickSource.event, ← rests]
          rfl
        rw [← delay] at found
        have count : source.reached instants (i + 1) = i + 1 :=
          TickSource.reached_succ_of_reaches reaches
        have order : i + (limit + 1) = i + 1 + limit := by omega
        simp only [consume, consumeLog, found, List.tail_drop, order, seen]
        cases done : (source.tickNo instants i).done with
        | true =>
            have stops := TickSource.not_reaches_succ (TickSource.ending?_of_done done)
            have last : source.reached instants (i + 1 + limit) = i + 1 := by
              rw [TickSource.reached_of_not_reaches stops (Nat.le_add_right _ _), count]
            simp only [last, if_true, List.append_nil]
            refine ⟨?_, settles, log⟩
            rw [TickSource.eventsFrom_cons (Nat.lt_succ_self i),
              TickSource.eventsFrom_eq_nil (Nat.le_refl _)]
        | false =>
            obtain ⟨events, final, rest⟩ := ih (i + 1) _ settles restsNext count
            have further : i + 1 ≤ source.reached instants (i + 1 + limit) := by
              exact TickSource.lt_reached_of_reaches reaches (by omega)
            simp only [Bool.false_eq_true, if_false]
            refine ⟨?_, final, ?_⟩
            · rw [TickSource.eventsFrom_cons further, ← events]
              rfl
            · rw [log, rest]
              exact TickSource.productionsFrom_append (TickSource.reached_mono (by omega))
                (TickSource.reached_mono (by omega))
      · have last : source.reached instants (i + (limit + 1)) = i := by
          rw [TickSource.reached_of_not_reaches reaches (Nat.le_add_right _ _), taken]
        simp only [consume, consumeLog, settled.take_none reaches, last]
        exact ⟨(TickSource.eventsFrom_eq_nil (Nat.le_refl _)).symm, settled,
          (TickSource.productionsFrom_eq_nil (Nat.le_refl _)).symm⟩

/-- Before its first tick is taken the ticker fills the stream, and rests. -/
theorem settle_initial (start : instants 0 = 0)
    (onTime : ∀ k < capacity, instants (k + 1) = instants k + source.period) :
    Settled source instants capacity 0 ((Run.initial source []).settle source capacity) ∧
      ((Run.initial source []).settle source capacity).clock =
        source.restsAt instants capacity delays 0 ∧
      ⟨source.first, 0⟩ :: (Run.initial source []).settleLog source capacity =
        source.productionsFrom instants 0 (source.reached instants (capacity + 1)) := by
  obtain ⟨settled, filled⟩ := settled_of_filling (Nat.zero_le capacity) onTime
    source.reaches_zero
  have initial : Run.mk (instants 0) (source.ticksFrom instants 0 0) (source.offers instants 0) =
      Run.initial source [] := by
    simp [Run.initial, TickSource.ticksFrom_eq_nil, TickSource.offers, start]
  rw [initial] at settled filled
  have first : 1 ≤ source.reached instants (capacity + 1) :=
    TickSource.lt_reached_of_reaches TickSource.reaches_zero (Nat.succ_pos capacity)
  refine ⟨settled, ?_, ?_⟩
  · rw [clock_settle, filled, TickSource.getLast?_productionsFrom, TickSource.restsAt]
    split
    · rfl
    · -- no tick follows the first one, and the clock stands at the beginning
      have only : source.reached instants (capacity + 1) - 1 = 0 := by omega
      rw [only, start]
      rfl
  · rw [filled, ← TickSource.productionsFrom_append (Nat.zero_le 1) first,
      TickSource.productionsFrom_single, start]
    rfl

/-- All ticks that were handed over in a run: those that the consumer took, and those
that are left in the stream. -/
def RunRecord.handedOver (record : RunRecord) (rest : TickStream) : List Tick :=
  record.events.map (·.tick) ++ rest.queue

/-- In one run on a fresh stream the consumer takes the ticks of the course from the
first one on; so many more are handed over as the stream has room for, and one more is
produced. -/
theorem Ticker.run_fresh (ticker : Ticker) (consumer : Consumer) (capacity : Nat) :
    let source := ticker.source
    let instants := consumer.instants source.period capacity
    let result := ticker.run consumer { capacity }
    let taken := source.reached instants consumer.limit
    result.1.events = source.eventsFrom instants capacity consumer.delays 0 taken ∧
      result.1.handedOver result.2 =
        source.ticksFrom instants 0 (source.reached instants (taken + capacity)) ∧
      ticker.productions consumer { capacity } =
        source.productionsFrom instants 0 (source.reached instants (taken + capacity + 1)) ∧
      (source.Reaches instants (taken + capacity) → result.1.state = .running) ∧
      (¬ source.Reaches instants (taken + capacity) →
        ∃ last outcome, source.reached instants (taken + capacity) = last + 1 ∧
          source.ending? instants last = some outcome ∧ result.1.state = .over outcome) := by
  intro source instants
  obtain ⟨settled, rests, produced⟩ := settle_initial rfl
    fun _ room => consumer.instants_succ_of_room source.period room
  obtain ⟨events, final, log⟩ := consume_settled
    (consumer.instants_succ_of_full source.period capacity) consumer.limit 0 _ settled rests rfl
  have nobody : source.countedBefore instants 0 = 0 := rfl
  rw [List.drop_zero, Nat.zero_add] at events final log
  rw [nobody] at events final
  have ticks := congrArg (List.map (·.tick)) events
  rw [TickSource.map_tick_eventsFrom] at ticks
  simp only [run, productions, RunRecord.handedOver, Bool.false_eq_true, if_false]
  refine ⟨events, ?_, ?_, ?_, ?_⟩
  · rw [ticks, final.queue]
    apply TickSource.ticksFrom_append (Nat.zero_le _)
    conv_lhs => rw [← TickSource.reached_reached]
    exact TickSource.reached_mono (Nat.le_add_right _ _)
  · rw [log, ← List.cons_append, produced, Nat.zero_add]
    exact TickSource.productionsFrom_append (Nat.zero_le _)
      (TickSource.reached_mono (by omega))
  · intro full
    rw [(final.offering full).2]
    rfl
  · intro finished
    obtain ⟨last, outcome, count, ending, phase⟩ := final.ended finished
    exact ⟨last, outcome, count, ending, by rw [phase]⟩

namespace Ticker

variable {ticker : Ticker} {consumer : Consumer} (source_eq : ticker.source = source)
  (instants_eq : consumer.instants source.period capacity = instants)
include source_eq instants_eq

theorem length_events :
    (ticker.run consumer { capacity }).1.events.length =
      source.reached instants consumer.limit := by
  subst source_eq instants_eq
  rw [(ticker.run_fresh consumer capacity).1, TickSource.length_eventsFrom, Nat.sub_zero]

/-- Event number `i` is that of tick number `i`. -/
theorem getElem?_events_eq_some {i : Nat} {event : Event} :
    (ticker.run consumer { capacity }).1.events[i]? = some event ↔
      i < (ticker.run consumer { capacity }).1.events.length ∧
        source.event instants capacity consumer.delays i = event := by
  rw [length_events source_eq instants_eq]
  subst source_eq instants_eq
  rw [(ticker.run_fresh consumer capacity).1]
  exact getElem?_numbered_eq_some

theorem length_productions :
    (ticker.productions consumer { capacity }).length =
      source.reached instants (source.reached instants consumer.limit + capacity + 1) := by
  subst source_eq instants_eq
  rw [(ticker.run_fresh consumer capacity).2.2.1, TickSource.length_productionsFrom, Nat.sub_zero]

/-- Production number `n` is that of tick number `n`. -/
theorem getElem?_productions_eq_some {n : Nat} {production : Production} :
    (ticker.productions consumer { capacity })[n]? = some production ↔
      n < (ticker.productions consumer { capacity }).length ∧
        ⟨source.tickNo instants n, instants n⟩ = production := by
  rw [length_productions source_eq instants_eq]
  subst source_eq instants_eq
  rw [(ticker.run_fresh consumer capacity).2.2.1]
  exact getElem?_numbered_eq_some

theorem reaches_of_lt_length {n : Nat}
    (below : n < (ticker.productions consumer { capacity }).length) :
    source.Reaches instants n := by
  rw [length_productions source_eq instants_eq] at below
  exact TickSource.reaches_of_lt_reached below

/-- As far as room and the consumer's limit go, the ticker produces all that it gets to. -/
theorem lt_length_of_reaches {n : Nat} (reaches : source.Reaches instants n)
    (bound : n ≤ (ticker.run consumer { capacity }).1.events.length + capacity) :
    n < (ticker.productions consumer { capacity }).length := by
  rw [length_events source_eq instants_eq] at bound
  rw [length_productions source_eq instants_eq]
  exact TickSource.lt_reached_of_reaches reaches (Nat.lt_succ_of_le bound)

theorem productions_eq_productionsFrom :
    ticker.productions consumer { capacity } =
      source.productionsFrom instants 0 (ticker.productions consumer { capacity }).length := by
  rw [length_productions source_eq instants_eq]
  subst source_eq instants_eq
  exact (ticker.run_fresh consumer capacity).2.2.1

/-- The ticks that are produced, without their instants. -/
theorem map_tick_productions :
    (ticker.productions consumer { capacity }).map (·.tick) =
      source.ticksFrom instants 0 (ticker.productions consumer { capacity }).length := by
  rw [← TickSource.map_tick_productionsFrom,
    ← productions_eq_productionsFrom source_eq instants_eq]

/-- A consumer takes every tick that is produced, up to its limit. -/
theorem length_events_eq_min :
    (ticker.run consumer { capacity }).1.events.length =
      min consumer.limit (ticker.productions consumer { capacity }).length := by
  have bound : source.reached instants consumer.limit ≤ consumer.limit := TickSource.reached_le _
  have taken := length_events source_eq instants_eq
  have made := length_productions source_eq instants_eq
  rw [taken, made]
  by_cases goesOn : source.Reaches instants (source.reached instants consumer.limit)
  · have all : source.reached instants consumer.limit = consumer.limit := by
      by_contra short
      have below := TickSource.lt_reached_of_reaches goesOn (Nat.lt_of_le_of_ne bound short)
      exact absurd below (Nat.lt_irrefl _)
    have more : source.reached instants consumer.limit ≤
        source.reached instants (source.reached instants consumer.limit + capacity + 1) :=
      TickSource.reached_mono (by omega)
    rw [all] at more ⊢
    exact (Nat.min_eq_left more).symm
  · have still := TickSource.reached_of_not_reaches goesOn
      (m := source.reached instants consumer.limit + capacity + 1) (by omega)
    rw [still, TickSource.reached_reached, Nat.min_eq_right bound]

/-- A run that waits for its consumer has produced one tick more than it has room for. -/
theorem length_productions_of_running
    (running : (ticker.run consumer { capacity }).1.state = .running) :
    (ticker.productions consumer { capacity }).length =
      (ticker.run consumer { capacity }).1.events.length + capacity + 1 := by
  rw [length_productions source_eq instants_eq, length_events source_eq instants_eq]
  apply TickSource.reached_succ_of_reaches
  subst source_eq instants_eq
  by_contra stops
  obtain ⟨_, _, _, _, state⟩ := (ticker.run_fresh consumer capacity).2.2.2.2 stops
  rw [running] at state
  cases state

/-- A run that does not wait for its consumer has ended after its last production. -/
theorem ending_of_not_running
    (notRunning : (ticker.run consumer { capacity }).1.state ≠ .running) :
    ∃ last outcome, (ticker.productions consumer { capacity }).length = last + 1 ∧
      source.ending? instants last = some outcome ∧
      (ticker.run consumer { capacity }).1.state = .over outcome := by
  have made := length_productions source_eq instants_eq
  subst source_eq instants_eq
  obtain ⟨_, _, _, running, finished⟩ := ticker.run_fresh consumer capacity
  have stops := fun reaches => notRunning (running reaches)
  obtain ⟨last, outcome, count, ending, state⟩ := finished stops
  rw [TickSource.reached_of_not_reaches stops (Nat.le_succ _), count] at made
  exact ⟨last, outcome, made, ending, state⟩

/-- A run that has handed over a tick with which it ends has ended so. -/
theorem state_of_ending? {n : Nat} {outcome : Except TickerFault Unit}
    (ending : source.ending? instants n = some outcome) (reaches : source.Reaches instants n)
    (bound : n < (ticker.run consumer { capacity }).1.events.length + capacity) :
    (ticker.run consumer { capacity }).1.state = .over outcome := by
  rw [length_events source_eq instants_eq] at bound
  subst source_eq instants_eq
  obtain ⟨_, _, _, _, finished⟩ := ticker.run_fresh consumer capacity
  have stops := TickSource.not_reaches_succ ending
  obtain ⟨last, outcome', count, lastEnding, state⟩ :=
    finished fun goesOn => stops (goesOn.of_le bound)
  have handed := TickSource.lt_reached_of_reaches reaches bound
  have same : n = last := by
    by_contra other
    have reachesLast := TickSource.reaches_of_lt_reached (Nat.lt_of_lt_of_eq
      (Nat.lt_succ_self last) count.symm)
    exact stops (reachesLast.of_le (by omega))
  subst same
  rw [ending] at lastEnding
  cases lastEnding
  exact state

/-- A last tick is the last one that is produced. -/
theorem length_productions_of_done {n : Nat}
    (below : n < (ticker.productions consumer { capacity }).length)
    (done : (source.tickNo instants n).done = true) :
    (ticker.productions consumer { capacity }).length = n + 1 := by
  have stops := TickSource.not_reaches_succ (TickSource.ending?_of_done done)
  by_contra more
  exact stops (reaches_of_lt_length source_eq instants_eq (by omega))

end Ticker

/-- A run succeeds exactly if its last tick was handed over. -/
theorem Ticker.run_ok_iff (ticker : Ticker) (consumer : Consumer) (capacity : Nat) :
    let result := ticker.run consumer { capacity }
    result.1.state = .over (.ok ()) ↔
      ∃ tick ∈ result.1.handedOver result.2, tick.done = true := by
  intro result
  obtain ⟨_, handed, _, running, finished⟩ := ticker.run_fresh consumer capacity
  rw [handed]
  constructor
  · intro succeeds
    by_cases full : ticker.source.Reaches (consumer.instants ticker.source.period capacity)
        (ticker.source.reached (consumer.instants ticker.source.period capacity)
          consumer.limit + capacity)
    · rw [running full] at succeeds
      cases succeeds
    · obtain ⟨last, outcome, count, ending, state⟩ := finished full
      rw [state] at succeeds
      cases succeeds
      refine ⟨_, TickSource.mem_ticksFrom_iff.mpr ⟨last, Nat.zero_le _, ?_, rfl⟩,
        TickSource.done_of_ending?_ok ending⟩
      rw [count]
      exact Nat.lt_succ_self last
  · rintro ⟨tick, member, done⟩
    obtain ⟨n, _, below, rfl⟩ := TickSource.mem_ticksFrom_iff.mp member
    refine state_of_ending? rfl rfl (TickSource.ending?_of_done done)
      (TickSource.reaches_of_lt_reached below) ?_
    rw [length_events rfl rfl]
    exact Nat.lt_of_lt_of_le below (TickSource.reached_le _)

end LoadShape.Workers
