import LoadShape.Fault

/-!
# Tick streams

A tick changes the number of workers.  Ticks reach their consumer through a stream
of bounded capacity, which is shared by everyone who holds one of its ends.  Once
it is closed nothing is put in any more, but what is in it can still be taken.
-/

namespace LoadShape.Workers

/-- One change of the number of workers. -/
structure Tick where
  /-- How many workers are added; fewer than none are removed. -/
  delta : Int
  /-- No further tick follows. -/
  done : Bool
  deriving DecidableEq, Repr

/-- A stream of ticks.  With no capacity every tick is handed over in person. -/
structure TickStream where
  capacity : Nat
  queue : List Tick := []
  closed : Bool := false
  deriving DecidableEq, Repr

/-- What an attempt to take a tick finds. -/
inductive Received where
  | tick (tick : Tick)
  | empty
  | disconnected
  deriving DecidableEq, Repr

namespace TickStream

/-- Whether one more tick fits. -/
def hasRoom (s : TickStream) : Bool := s.queue.length < s.capacity

/-- The stream with one more tick. -/
def put (s : TickStream) (tick : Tick) : TickStream := { s with queue := s.queue ++ [tick] }

/-- No more ticks are put in. -/
def close (s : TickStream) : TickStream := { s with closed := true }

/-- Take the first tick, without waiting for one. -/
def receive (s : TickStream) : Received × TickStream :=
  match s.queue with
  | tick :: rest => (.tick tick, { s with queue := rest })
  | [] => (if s.closed then .disconnected else .empty, s)

@[simp]
theorem queue_put (s : TickStream) (tick : Tick) : (s.put tick).queue = s.queue ++ [tick] := rfl

@[simp]
theorem queue_close (s : TickStream) : s.close.queue = s.queue := rfl

@[simp]
theorem closed_close (s : TickStream) : s.close.closed = true := rfl

end TickStream

/-- A stream together with the number of receivers that were handed out. -/
structure Channel where
  stream : TickStream
  receivers : Nat := 1
  deriving DecidableEq, Repr

/-- What can be done with a channel.  Clones of a channel, and all of its
receivers, share one stream. -/
inductive ChannelStep where
  /-- A ticker of constantly many workers runs on the channel. -/
  | run (workers : UInt32)
  | receive (receiver : Nat)
  | length (receiver : Nat)
  | newReceiver
  | isClosed
  | close
  | clone
  deriving DecidableEq, Repr

/-- What a step answers. -/
inductive ChannelReply where
  | ran (outcome : Except TickerFault Unit)
  /-- A run would have to wait for room. -/
  | full
  | received (found : Received)
  | length (n : Nat)
  | receiver (index : Nat)
  | closed (closed : Bool)
  | nothing

namespace Channel

/-- A fresh channel. -/
def ofCapacity (capacity : Nat) : Channel where
  stream := { capacity }

/-- The answer of one step, and the channel after it. -/
def step (c : Channel) : ChannelStep → ChannelReply × Channel
  | .run workers =>
    if c.stream.closed then (.ran (.error .finished), c)
    else if c.stream.hasRoom then
      (.ran (.ok ()), { c with stream := c.stream.put ⟨workers.toNat, true⟩ })
    else (.full, c)
  | .receive _ =>
    let (found, stream) := c.stream.receive
    (.received found, { c with stream })
  | .length _ => (.length c.stream.queue.length, c)
  | .newReceiver => (.receiver c.receivers, { c with receivers := c.receivers + 1 })
  | .isClosed => (.closed c.stream.closed, c)
  | .close => (.nothing, { c with stream := c.stream.close })
  | .clone => (.nothing, c)

/-- The answers of the steps in turn, and the channel after the last one. -/
def perform (c : Channel) : List ChannelStep → List ChannelReply × Channel
  | [] => ([], c)
  | s :: steps =>
    let (reply, c) := c.step s
    let (replies, c) := c.perform steps
    (reply :: replies, c)

end Channel

end LoadShape.Workers
