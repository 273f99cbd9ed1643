import LoadShape.Proofs.Workers.Settled

/-!
# The history of a channel

A channel is used through its clones and receivers in any order.  The ticks that its runs put
in come out in that order, to whichever receiver asks first; those that have not come out yet
are in the stream.  A closed channel takes no tick any more and still gives away those it has.
-/

namespace LoadShape.Workers

/-! ## Exchanges -/

/-- A step with its answer. -/
abbrev Exchange := ChannelStep × ChannelReply

namespace Exchange

/-- The tick of a run that succeeded. -/
def sent? : Exchange → Option Tick
  | (.run workers, .ran (.ok ())) => some ⟨workers.toNat, true⟩
  | _ => none

/-- The tick that was taken. -/
def taken? : Exchange → Option Tick
  | (_, .received (.tick tick)) => some tick
  | _ => none

end Exchange

/-- The ticks of the runs that succeeded, in their order. -/
def sentIn (history : List Exchange) : List Tick := history.filterMap Exchange.sent?

/-- The ticks that were taken by any receiver, in the order of taking. -/
def takenIn (history : List Exchange) : List Tick := history.filterMap Exchange.taken?

theorem sentIn_cons (e : Exchange) (history : List Exchange) :
    sentIn (e :: history) = e.sent?.toList ++ sentIn history := by
  rw [sentIn, List.filterMap_cons]
  cases e.sent? <;> rfl

theorem takenIn_cons (e : Exchange) (history : List Exchange) :
    takenIn (e :: history) = e.taken?.toList ++ takenIn history := by
  rw [takenIn, List.filterMap_cons]
  cases e.taken? <;> rfl

namespace Channel

/-- The steps with their answers. -/
def history (c : Channel) (steps : List ChannelStep) : List Exchange :=
  steps.zip (c.perform steps).1

/-- The channel after the steps. -/
def after (c : Channel) (steps : List ChannelStep) : Channel := (c.perform steps).2

theorem history_cons (c : Channel) (s : ChannelStep) (steps : List ChannelStep) :
    c.history (s :: steps) = (s, (c.step s).1) :: (c.step s).2.history steps := rfl

theorem after_cons (c : Channel) (s : ChannelStep) (steps : List ChannelStep) :
    c.after (s :: steps) = (c.step s).2.after steps := rfl

/-! ## One step -/

/-- What an exchange makes of a stream. -/
inductive Changes (stream : TickStream) : Exchange → TickStream → Prop where
  | sends {workers : UInt32} (opened : stream.closed = false) (room : stream.hasRoom = true) :
      Changes stream (.run workers, .ran (.ok ())) (stream.put ⟨workers.toNat, true⟩)
  | takes {receiver : Nat} {tick : Tick} {rest : List Tick}
      (front : stream.queue = tick :: rest) :
      Changes stream (.receive receiver, .received (.tick tick)) { stream with queue := rest }
  | closes : Changes stream (.close, .nothing) stream.close
  | keeps {e : Exchange} (sends : e.sent? = none) (takes : e.taken? = none)
      (closes : e.1 ≠ .close) : Changes stream e stream

theorem changes_step (c : Channel) (s : ChannelStep) :
    Changes c.stream (s, (c.step s).1) (c.step s).2.stream := by
  cases s with
  | run workers =>
      cases closed : c.stream.closed with
      | true =>
          simp only [step, closed, if_true]
          exact .keeps rfl rfl (by simp)
      | false =>
          cases room : c.stream.hasRoom with
          | true =>
              simp only [step, closed, room, if_true, Bool.false_eq_true, if_false]
              exact .sends closed room
          | false =>
              simp only [step, closed, room, Bool.false_eq_true, if_false]
              exact .keeps rfl rfl (by simp)
  | receive receiver =>
      cases front : c.stream.queue with
      | nil =>
          simp only [step, TickStream.receive, front]
          refine .keeps rfl ?_ (by simp)
          cases c.stream.closed <;> rfl
      | cons tick rest =>
          simp only [step, TickStream.receive, front]
          exact .takes front
  | length receiver => exact .keeps rfl rfl (by simp)
  | newReceiver => exact .keeps rfl rfl (by simp)
  | isClosed => exact .keeps rfl rfl (by simp)
  | close => exact .closes
  | clone => exact .keeps rfl rfl (by simp)

variable {stream later : TickStream} {e : Exchange}

/-- What is taken comes from the front of the stream, and what is sent goes to its end. -/
theorem Changes.queue (changes : Changes stream e later) :
    e.taken?.toList ++ later.queue = stream.queue ++ e.sent?.toList := by
  cases changes with
  | sends opened room => rfl
  | takes front =>
      rw [front]
      exact (List.append_nil _).symm
  | closes => exact (List.append_nil _).symm
  | keeps sends takes closes =>
      rw [sends, takes]
      exact (List.append_nil _).symm

/-- Only closing closes a stream, and nothing opens it again. -/
theorem Changes.closed_iff (changes : Changes stream e later) :
    later.closed = true ↔ stream.closed = true ∨ e.1 = .close := by
  cases changes with
  | sends opened room => simp [TickStream.put]
  | takes front => simp
  | closes => simp
  | keeps sends takes closes => simp [closes]

theorem Changes.capacity (changes : Changes stream e later) :
    later.capacity = stream.capacity := by
  cases changes <;> rfl

/-- A stream with room has room for the tick that is sent. -/
theorem Changes.length_le (changes : Changes stream e later)
    (fits : stream.queue.length ≤ stream.capacity) : later.queue.length ≤ later.capacity := by
  cases changes with
  | sends opened room =>
      rw [TickStream.queue_put, List.length_append]
      exact of_decide_eq_true room
  | takes front =>
      rw [front] at fits
      exact Nat.le_of_succ_le fits
  | closes => exact fits
  | keeps sends takes closes => exact fits

/-! ## Many steps -/

/-- The ticks that were taken and those in the stream are the ones that were there and those
that were sent. -/
theorem taken_append_queue (c : Channel) (steps : List ChannelStep) :
    takenIn (c.history steps) ++ (c.after steps).stream.queue =
      c.stream.queue ++ sentIn (c.history steps) := by
  induction steps generalizing c with
  | nil => exact (List.append_nil _).symm
  | cons s steps ih =>
      have first := (c.changes_step s).queue
      rw [history_cons, after_cons, takenIn_cons, sentIn_cons, List.append_assoc, ih,
        ← List.append_assoc, first, List.append_assoc]

theorem closed_after_iff (c : Channel) (steps : List ChannelStep) :
    (c.after steps).stream.closed = true ↔ c.stream.closed = true ∨ .close ∈ steps := by
  induction steps generalizing c with
  | nil => simp [after, perform]
  | cons s steps ih =>
      rw [after_cons, ih, (c.changes_step s).closed_iff, or_assoc, List.mem_cons]
      exact or_congr_right (or_congr_left eq_comm)

theorem capacity_after (c : Channel) (steps : List ChannelStep) :
    (c.after steps).stream.capacity = c.stream.capacity := by
  induction steps generalizing c with
  | nil => rfl
  | cons s steps ih => rw [after_cons, ih, (c.changes_step s).capacity]

theorem length_after_le (c : Channel) (steps : List ChannelStep)
    (fits : c.stream.queue.length ≤ c.stream.capacity) :
    (c.after steps).stream.queue.length ≤ c.stream.capacity := by
  induction steps generalizing c with
  | nil => exact fits
  | cons s steps ih =>
      have changes := c.changes_step s
      rw [after_cons, ← changes.capacity]
      exact ih _ (changes.length_le fits)

/-! ## Receiving and running -/

/-- What a receiver finds in an empty stream. -/
def foundEmpty (closed : Bool) : Received := if closed then .disconnected else .empty

/-- Receivers get the ticks of the stream one after another, whichever of them asks, and then
find it empty. -/
theorem perform_receive (c : Channel) (receivers : List Nat) :
    (c.perform (receivers.map .receive)).1 =
      (c.stream.queue.take receivers.length).map (fun tick => .received (.tick tick)) ++
        List.replicate (receivers.length - c.stream.queue.length)
          (.received (foundEmpty c.stream.closed)) := by
  induction receivers generalizing c with
  | nil => simp [perform]
  | cons receiver receivers ih =>
      rw [List.map_cons, perform]
      cases front : c.stream.queue with
      | nil =>
          have same : c.step (.receive receiver) =
              (.received (foundEmpty c.stream.closed), c) := by
            simp [step, TickStream.receive, front, foundEmpty]
          simp [same, ih, front, List.replicate_succ]
      | cons tick rest =>
          have next : c.step (.receive receiver) =
              (.received (.tick tick), { c with stream := { c.stream with queue := rest } }) := by
            simp [step, TickStream.receive, front]
          simp [next, ih]

/-- A ticker of constantly many workers puts one tick into a stream with room, without waiting
for a consumer. -/
theorem run_constant_of_room (workers : UInt32) (opened : stream.closed = false)
    (room : stream.hasRoom = true) :
    (Ticker.constant workers).run { limit := 0 } stream =
      (⟨[], .over (.ok ())⟩, stream.put ⟨workers.toNat, true⟩) := by
  have handedOver : (Run.initial (Ticker.constant workers).source stream.queue).step?
      (Ticker.constant workers).source stream.capacity =
        some ⟨0, stream.queue ++ [⟨workers.toNat, true⟩], .ended (.ok ())⟩ :=
    if_pos (of_decide_eq_true room)
  have settled := (Run.settle_of_step handedOver).trans (Run.settle_ended _ _ _ _ _).1
  have notClosed : ¬ stream.closed = true := by simp [opened]
  rw [Ticker.run, if_neg notClosed]
  simp only [settled, consume]
  rfl

/-- A run on a channel is the run of a ticker of constantly many workers, unless it would have
to wait. -/
theorem step_run (c : Channel) (workers : UInt32)
    (ready : c.stream.closed = true ∨ c.stream.hasRoom = true) :
    ∃ outcome stream, (Ticker.constant workers).run { limit := 0 } c.stream =
        (⟨[], .over outcome⟩, stream) ∧
      c.step (.run workers) = (.ran outcome, { c with stream }) := by
  cases closed : c.stream.closed with
  | true =>
      refine ⟨.error .finished, c.stream, ?_, ?_⟩
      · rw [Ticker.run, closed, if_pos rfl]
      · simp [step, closed]
  | false =>
      have room : c.stream.hasRoom = true := ready.resolve_left (by simp [closed])
      refine ⟨.ok (), _, run_constant_of_room workers closed room, ?_⟩
      simp [step, closed, room]

/-- A channel loses, repeats and reorders nothing.  After any steps, by any of its clones and
receivers, the ticks that were taken and then those in the stream are the ticks of the runs that
succeeded.  The length of the stream is what was sent and not taken, and never more than its
capacity.  A run that need not wait for room is that of a ticker: it succeeds unless the channel
was closed before, by whichever clone, and then it fails and changes nothing.  Receivers get what
is in the stream, closed or not, and only then find it disconnected, if it was closed, or
empty. -/
theorem keeps_every_tick (capacity : Nat) (steps : List ChannelStep) :
    let c := (ofCapacity capacity).after steps
    let sent := sentIn ((ofCapacity capacity).history steps)
    let taken := takenIn ((ofCapacity capacity).history steps)
    let length := sent.length - taken.length
    taken ++ c.stream.queue = sent ∧ length ≤ capacity ∧
      (∀ receiver, c.step (.length receiver) = (.length length, c)) ∧
      c.step .isClosed = (.closed (decide (.close ∈ steps)), c) ∧
      (∀ workers, .close ∈ steps ∨ length < capacity →
        ∃ outcome stream, (Ticker.constant workers).run { limit := 0 } c.stream =
            (⟨[], .over outcome⟩, stream) ∧
          c.step (.run workers) = (.ran outcome, { c with stream })) ∧
      (∀ workers, .close ∉ steps → length < capacity →
        c.step (.run workers) =
          (.ran (.ok ()), { c with stream := c.stream.put ⟨workers.toNat, true⟩ })) ∧
      (∀ workers, .close ∈ steps → c.step (.run workers) = (.ran (.error .finished), c)) ∧
      TickerFault.finished.report = ⟨.ticker, "tick stream already finished"⟩ ∧
      ∀ receivers : List Nat, (c.perform (receivers.map .receive)).1 =
        (c.stream.queue.take receivers.length).map (fun tick => .received (.tick tick)) ++
          List.replicate (receivers.length - length)
            (.received (if .close ∈ steps then .disconnected else .empty)) := by
  intro c sent taken length
  have order : taken ++ c.stream.queue = sent := taken_append_queue _ steps
  have in_stream : c.stream.queue.length = length := by
    have total := congrArg List.length order
    rw [List.length_append] at total
    omega
  have closed_iff : c.stream.closed = true ↔ .close ∈ steps := by
    rw [closed_after_iff]
    simp [ofCapacity]
  have same_capacity : c.stream.capacity = capacity := capacity_after _ steps
  have room_iff : c.stream.hasRoom = true ↔ length < capacity := by
    rw [TickStream.hasRoom, decide_eq_true_iff, in_stream, same_capacity]
  refine ⟨order, ?_, ?_, ?_, ?_, ?_, ?_, rfl, ?_⟩
  · rw [← in_stream]
    exact length_after_le _ steps (Nat.zero_le _)
  · intro receiver
    rw [step, in_stream]
  · have closed_eq : c.stream.closed = decide (.close ∈ steps) :=
      Bool.eq_iff_iff.mpr (closed_iff.trans decide_eq_true_iff.symm)
    rw [step, closed_eq]
  · intro workers ready
    exact c.step_run workers (ready.imp closed_iff.mpr room_iff.mpr)
  · intro workers opened room
    rw [step, if_neg (closed_iff.not.mpr opened), if_pos (room_iff.mpr room)]
  · intro workers closed
    rw [step, if_pos (closed_iff.mpr closed)]
  · intro receivers
    rw [perform_receive, in_stream, foundEmpty, if_congr closed_iff rfl rfl]

/-- A stream for two ticks is closed by a clone while one is in it: a further run fails, and the
tick still reaches whoever asks first. -/
theorem keeps_every_tick_of_clone :
    let steps : List ChannelStep := [.run 3, .newReceiver, .run 4, .receive 1, .clone, .close]
    let c := (ofCapacity 2).after steps
    .close ∈ steps ∧ takenIn ((ofCapacity 2).history steps) = [⟨3, true⟩] ∧
      c.step (.run 5) = (.ran (.error .finished), c) ∧
      (c.perform ([1, 0].map .receive)).1 =
        [.received (.tick ⟨4, true⟩), .received .disconnected] := by
  intro steps c
  have closed : .close ∈ steps := by decide
  obtain ⟨-, -, -, -, -, -, fails, -, receives⟩ := keeps_every_tick 2 steps
  exact ⟨closed, by rfl, fails 5 closed, receives [1, 0]⟩

end Channel

end LoadShape.Workers
