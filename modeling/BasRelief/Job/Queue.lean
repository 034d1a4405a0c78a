import BasRelief.Job.Basic
import BasRelief.Number.Word

/-!
# Job queues

A job waits until it gets a permit, and is then run by a worker; when its outcome is handed over to
its ticket, the permit is free again. A ticket that was dropped gets nothing, and changes nothing
else. A run that breaks off gives its fatal error as outcome, and frees its permit as any other.
-/

namespace BasRelief

structure Worker where
  ticket : Nat
  job : Job
  outcome? : Option Outcome := none

/-- The jobs that were submitted, in order, and the permits that are free (`JobQueue`). -/
structure JobQueue where
  /-- How many permits nobody holds. -/
  free : Nat
  /-- How many tickets were given out; they are numbered from zero. -/
  tickets : Nat := 0
  waiting : List (Nat × Job) := []
  working : List Worker := []
  dropped : List Nat := []
  delivered : List (Nat × Outcome) := []

namespace JobQueue

/-- A queue without jobs, with a permit for each worker and at least one (`JobQueue::new`). -/
def ofWorkers (workers : Nat) : JobQueue := { free := max workers 1 }

/-- The most permits that can be counted: three bits of their word are kept for other use. -/
def maxWorkers : Nat := wordSize / 8 - 1

def ofWorkers? (workers : Nat) : Option JobQueue :=
  if workers ≤ maxWorkers then some (ofWorkers workers) else none

/-! ### Moves -/

/-- The queue with one more job, which waits for a permit (`JobQueue::submit`). -/
def submit (q : JobQueue) (job : Job) : JobQueue :=
  { q with tickets := q.tickets + 1, waiting := q.waiting ++ [(q.tickets, job)] }

/-- The queue after a ticket was given up: the outcome of its job goes nowhere. -/
def drop (q : JobQueue) (ticket : Nat) : JobQueue := { q with dropped := ticket :: q.dropped }

/-- Gives a permit to the job of a ticket, if one is free and the job waits. -/
def acquire (q : JobQueue) (ticket : Nat) : JobQueue :=
  match q.free, q.waiting.lookup ticket with
  | free + 1, some job =>
    { q with
      free := free
      waiting := q.waiting.filter (·.1 ≠ ticket)
      working := ⟨ticket, job, none⟩ :: q.working }
  | _, _ => q

def finish (q : JobQueue) (ticket : Nat) (outcome : Outcome) : JobQueue :=
  { q with working := q.working.map fun w =>
      if w.ticket = ticket then { w with outcome? := some outcome } else w }

def execute (lib : ImageLibrary) (config : Config) (time : String) (q : JobQueue) (d : Disk)
    (ticket : Nat) : JobQueue × Disk :=
  match q.working.find? (·.ticket = ticket) with
  | some ⟨_, job, none⟩ =>
    let (outcome, d) := job.run lib config time d
    (q.finish ticket outcome, d)
  | _ => (q, d)

def release (q : JobQueue) (ticket : Nat) : JobQueue :=
  match q.working.find? (·.ticket = ticket) with
  | some ⟨_, _, some outcome⟩ =>
    { q with
      free := q.free + 1
      working := q.working.filter (·.ticket ≠ ticket)
      delivered :=
        if q.dropped.contains ticket then q.delivered else q.delivered ++ [(ticket, outcome)] }
  | _ => q

/-- What the holder of a ticket is told (`JobTicket::wait`). -/
def outcome? (q : JobQueue) (ticket : Nat) : Option Outcome :=
  if q.dropped.contains ticket then none else q.delivered.lookup ticket

/-! ### Schedules -/

inductive Move where
  | submit (job : Job)
  | acquire (ticket : Nat)
  | execute (ticket : Nat) (time : String)
  | release (ticket : Nat)
  | drop (ticket : Nat)

/-- What a move does to the queue and the disk. Any job that waits may be the next to get a permit.
The outcome of a job is what its run on the disk gives at that time; a ticket is dropped at most
once. -/
inductive Step (lib : ImageLibrary) (config : Config) :
    JobQueue × Disk → Move → JobQueue × Disk → Prop where
  | submit (q : JobQueue) (d : Disk) (job : Job) :
      Step lib config (q, d) (.submit job) (q.submit job, d)
  | acquire (q : JobQueue) (d : Disk) (ticket : Nat) (free : 0 < q.free)
      (waits : ∃ job, (ticket, job) ∈ q.waiting) :
      Step lib config (q, d) (.acquire ticket) (q.acquire ticket, d)
  | execute (q : JobQueue) (d : Disk) (ticket : Nat) (time : String)
      (ready : ∃ job, (⟨ticket, job, none⟩ : Worker) ∈ q.working) :
      Step lib config (q, d) (.execute ticket time) (q.execute lib config time d ticket)
  | release (q : JobQueue) (d : Disk) (ticket : Nat)
      (done : ∃ job outcome, (⟨ticket, job, some outcome⟩ : Worker) ∈ q.working) :
      Step lib config (q, d) (.release ticket) (q.release ticket, d)
  | drop (q : JobQueue) (d : Disk) (ticket : Nat) (known : ticket < q.tickets)
      (held : ticket ∉ q.dropped) : Step lib config (q, d) (.drop ticket) (q.drop ticket, d)

/-- The moves of a schedule lead from one state to another. -/
inductive Run (lib : ImageLibrary) (config : Config) (start : JobQueue × Disk) :
    List Move → JobQueue × Disk → Prop where
  | start : Run lib config start [] start
  | step {moves : List Move} {move : Move} {s t : JobQueue × Disk}
      (before : Run lib config start moves s) (last : Step lib config s move t) :
      Run lib config start (moves ++ [move]) t

namespace Move

def submitted? : Move → Option Job
  | submit job => some job
  | _ => none

def executed? : Move → Option Nat
  | execute ticket _ => some ticket
  | _ => none

def released? : Move → Option Nat
  | release ticket => some ticket
  | _ => none

def drops (ticket : Nat) : Move → Bool
  | drop other => other = ticket
  | _ => false

/-- The moves that bring jobs nearer to their end. -/
def serves : Move → Bool
  | acquire _ | execute _ _ | release _ => true
  | submit _ | drop _ => false

end Move

/-- The jobs that were submitted; the place of a job is its ticket. -/
def submitted (moves : List Move) : List Job := moves.filterMap Move.submitted?

/-- The tickets whose jobs were run, one for each run. -/
def executed (moves : List Move) : List Nat := moves.filterMap Move.executed?

/-- The tickets whose permits were given back. -/
def released (moves : List Move) : List Nat := moves.filterMap Move.released?

/-! ### One worker -/

def serveFirst (lib : ImageLibrary) (config : Config) (time : String) (q : JobQueue) (d : Disk) :
    JobQueue × Disk :=
  match q.waiting with
  | [] => (q, d)
  | (ticket, _) :: _ =>
    let (q, d) := (q.acquire ticket).execute lib config time d ticket
    (q.release ticket, d)

def serve (lib : ImageLibrary) (config : Config) (time : String) :
    Nat → JobQueue → Disk → JobQueue × Disk
  | 0, q, d => (q, d)
  | n + 1, q, d =>
    let (q, d) := q.serveFirst lib config time d
    serve lib config time n q d

def serveAll (lib : ImageLibrary) (config : Config) (time : String) (q : JobQueue) (d : Disk) :
    JobQueue × Disk :=
  serve lib config time q.waiting.length q d

end JobQueue
end BasRelief
