/-
  Asking several upstream servers at once (`forward_parallel` and
  `forward_fastest_addr` of `dns/upstream.rs`).

  The caller submits one task for each selected server to the pool of threads.  The
  first task that the pool refuses ends this, and the caller asks that server itself.
  Then it receives messages until its deadline, as many as there are tasks.  A task
  looks at the flag and at the clock before it asks its server, and sends its result
  last.

  A step is what one thread does between two accesses to what the threads share: the
  channel, the flag, and the clock, which runs on between them.  Both functions are
  one machine; they differ in what follows a success (`BatchMode`).
-/
import DnsBlackhole.Upstream.Transports

namespace DnsBlackhole.Upstream
open Lib Config Protocol

inductive BatchMode
  /-- `forward_parallel`, which takes the first success. -/
  | parallelRequests
  /-- `forward_fastest_addr`, which collects the successes. -/
  | fastestAddr
  deriving DecidableEq

/-- One call. -/
structure Batch where
  query : Packet
  selected : List RuntimeUpstream
  deadline : ℕ
  mode : BatchMode

/-! ## The threads -/

/-- Where a task is; the task at `place` is for the selected server at `place`. -/
inductive TaskStage
  | queued
  /-- It has not found the flag set, and not looked at the clock. -/
  | unflagged
  | running
  | finished (result : Except Text Reply)
  /-- It has set the flag, if its success does so. -/
  | sending (result : Except Text Reply)
  /-- It is over, and its sender dropped. -/
  | ended
  deriving DecidableEq

/-- Where the caller is; `left` is the number of messages it still waits for. -/
inductive CallerStage
  /-- About to submit the task for the server at `place`. -/
  | submitting (place : ℕ)
  /-- In the attempt at the server at `place`. -/
  | asking (place : ℕ)
  /-- About to call `recv_until`. -/
  | looking (left : ℕ)
  /-- `try_recv` has found nothing. -/
  | looked (left : ℕ)
  | timed (left remaining : ℕ)
  /-- In `recv_timeout`, which gives up at `expiry`. -/
  | waiting (left expiry : ℕ)
  /-- In `recv_timeout`, which has found nothing and not looked at the clock. -/
  | woken (left expiry : ℕ)
  /-- Behind the loop. -/
  | closing
  /-- Behind `cancel`. -/
  | closed
  | returned (result : Except Text Reply)
  deriving DecidableEq

structure Message where
  place : ℕ
  /-- When it has been sent. -/
  at_ : ℕ
  result : Except Text Reply
  deriving DecidableEq

structure BatchState where
  clock : ℕ := 0
  cancelled : Bool := false
  tasks : List TaskStage := []
  /-- The messages sent, the first `received` of which are not in the channel any more. -/
  delivered : List Message := []
  received : ℕ := 0
  /-- How many had been sent when the caller last looked into the channel. -/
  seen : ℕ := 0
  /-- The servers for which `forward_to_upstream` has been called, by their places. -/
  asked : List ℕ := []
  responses : List Reply := []
  lastError : Option Text := none
  stage : CallerStage

/-- What is measured of an address of the response at `responseIndex`. -/
structure IpLatencyProbe where
  responseIndex : ℕ
  duration : ℕ
  deriving DecidableEq

inductive BatchEvent
  | tick (n : ℕ)
  | submit (accepted : Bool)
  | attempt (network : Network)
  | look
  | readClock
  | startWaiting
  | checkExpiry
  | cancel
  /-- The call returns, with these probes in `fastest_response_index`. -/
  | conclude (probes : List IpLatencyProbe)
  | readFlag (place : ℕ)
  | readDeadline (place : ℕ)
  | finish (place : ℕ) (network : Network)
  | flag (place : ℕ)
  | send (place : ℕ)

/-! ## The choice of a response -/

def updateBestProbe (best : Option IpLatencyProbe) (probe : IpLatencyProbe) :
    Option IpLatencyProbe :=
  match best with
  | none => some probe
  | some current => if probe.duration < current.duration then some probe else some current

/-- The probes come from the responses they are for. -/
def fastestResponseIndex (probes : List IpLatencyProbe) : Option ℕ :=
  (probes.foldl updateBestProbe none).map IpLatencyProbe.responseIndex

namespace Batch
variable (batch : Batch)

/-- What the call returns behind the loop. -/
def conclusion (s : BatchState) (probes : List IpLatencyProbe) : Option (Except Text Reply) :=
  match s.responses with
  | [] => some (.error (s.lastError.getD (if s.tasks.length = 0 then "并发任务队列已满".toList
      else "并行请求上游 DNS 超时".toList)))
  | first :: _ =>
    match batch.mode, fastestResponseIndex probes with
    | .fastestAddr, some index => (s.responses[index]?).map .ok
    | _, _ => some (.ok first)

/-! ## Steps -/

def init : BatchState :=
  { stage := if batch.selected.length = 0 then .returned (.error "所有上游 DNS 暂不可用".toList)
      else .submitting 0 }

/-- The caller goes on to receive, or leaves the loop. -/
def receive (left : ℕ) : CallerStage := if left = 0 then .closing else .looking left

/-- The caller has the result of an attempt, and waits for `left` messages. -/
def note (s : BatchState) (left : ℕ) : Except Text Reply → BatchState
  | .ok reply =>
    { s with
      responses := s.responses ++ [reply]
      stage := if batch.mode = .parallelRequests then .closing else receive left }
  | .error error => { s with lastError := some error, stage := receive left }

/-- The result of `forward_to_upstream` for the server at `place`. -/
def resultAt (place : ℕ) (network : Network) : Option (Except Text Reply) :=
  (batch.selected[place]?).map fun upstream =>
    (forwardToUpstream batch.query upstream network).result

/-- The caller looks into the channel: it takes the next message, or finds that all
    senders are gone, or finds nothing. -/
def lookInto (s : BatchState) (left : ℕ) (nothing : CallerStage) : BatchState :=
  match s.delivered[s.received]? with
  | some message => batch.note { s with received := s.received + 1, seen := s.delivered.length }
      (left - 1) message.result
  | none => { s with
      seen := s.delivered.length
      stage := if s.tasks.all (· == .ended) then .closing else nothing }

def callerStep (s : BatchState) : BatchEvent → Option BatchState
  | .submit accepted =>
    match s.stage with
    | .submitting place =>
      if accepted then
        some { s with
          tasks := s.tasks ++ [.queued]
          stage := if place + 1 < batch.selected.length then .submitting (place + 1)
            else receive (place + 1) }
      else some { s with asked := s.asked ++ [place], stage := .asking place }
    | _ => none
  | .attempt network =>
    match s.stage with
    | .asking place =>
      (batch.resultAt place network).map fun result => batch.note s s.tasks.length result
    | _ => none
  | .look =>
    match s.stage with
    | .looking left => some (batch.lookInto s left (.looked left))
    | .waiting left expiry => some (batch.lookInto s left (.woken left expiry))
    | _ => none
  | .readClock =>
    match s.stage with
    | .looked left => some { s with
        stage := if batch.deadline < s.clock then .closing
          else .timed left (batch.deadline - s.clock) }
    | _ => none
  | .startWaiting =>
    match s.stage with
    | .timed left remaining => some { s with stage := .waiting left (s.clock + remaining) }
    | _ => none
  | .checkExpiry =>
    match s.stage with
    | .woken left expiry => some { s with
        stage := if expiry ≤ s.clock then .closing else .waiting left expiry }
    | _ => none
  | .cancel =>
    match s.stage with
    | .closing => some { s with cancelled := true, stage := .closed }
    | _ => none
  | .conclude probes =>
    match s.stage with
    | .closed =>
      if probes.all (·.responseIndex < s.responses.length) then
        (batch.conclusion s probes).map fun result => { s with stage := .returned result }
      else none
    | _ => none
  | _ => none

/-- The task at `place` comes to another stage. -/
def putTask (s : BatchState) (place : ℕ) (stage : TaskStage) : BatchState :=
  { s with tasks := s.tasks.set place stage }

def taskStep (s : BatchState) : BatchEvent → Option BatchState
  | .readFlag place =>
    match s.tasks[place]? with
    | some .queued => some (putTask s place (if s.cancelled then .ended else .unflagged))
    | _ => none
  | .readDeadline place =>
    match s.tasks[place]? with
    | some .unflagged =>
      if s.clock < batch.deadline then
        some { putTask s place .running with asked := s.asked ++ [place] }
      else some (putTask s place .ended)
    | _ => none
  | .finish place network =>
    match s.tasks[place]? with
    | some .running => (batch.resultAt place network).map fun result =>
        putTask s place (.finished result)
    | _ => none
  | .flag place =>
    match s.tasks[place]? with
    | some (.finished result) => some { putTask s place (.sending result) with
        cancelled := s.cancelled || (decide (batch.mode = .parallelRequests) && result.isOk) }
    | _ => none
  | .send place =>
    match s.tasks[place]? with
    | some (.sending result) => some { putTask s place .ended with
        delivered := s.delivered ++ [⟨place, s.clock, result⟩] }
    | _ => none
  | _ => none

def step (s : BatchState) : BatchEvent → Option BatchState
  | .tick n => some { s with clock := s.clock + n }
  | .readFlag place => batch.taskStep s (.readFlag place)
  | .readDeadline place => batch.taskStep s (.readDeadline place)
  | .finish place network => batch.taskStep s (.finish place network)
  | .flag place => batch.taskStep s (.flag place)
  | .send place => batch.taskStep s (.send place)
  | e => batch.callerStep s e

def machine : Machine BatchState BatchEvent := ⟨batch.init, batch.step⟩

end Batch

end DnsBlackhole.Upstream
