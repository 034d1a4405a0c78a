import BasRelief.Image.Standard
import BasRelief.Proofs.Job.Schedule
import Mathlib.Algebra.GroupWithZero.Nat

/-!
# Service of a job queue

Two properties of schedules beyond the account that a queue keeps. A schedule without the drops of
a ticket gives every other ticket the same outcome. And a queue never gets stuck: from every state
some moves serve all the jobs that were submitted.
-/

namespace BasRelief.JobQueue

/-! ### Dropped tickets -/

/-- Two queues that differ only in what one ticket has got, and in whether it is held. -/
structure SameBut (ticket : Nat) (q q' : JobQueue) : Prop where
  free : q'.free = q.free
  tickets : q'.tickets = q.tickets
  waiting : q'.waiting = q.waiting
  working : q'.working = q.working
  dropped : ∀ other, other ≠ ticket → (other ∈ q'.dropped ↔ other ∈ q.dropped)
  delivered : (q'.delivered.filter fun (other, _) => other ≠ ticket) =
    q.delivered.filter fun (other, _) => other ≠ ticket

section SameBut
variable {lib : ImageLibrary} {config : Config} {ticket : Nat} {q q' : JobQueue} {d : Disk}

theorem SameBut.refl (ticket : Nat) (q : JobQueue) : SameBut ticket q q :=
  ⟨rfl, rfl, rfl, rfl, fun _ _ => .rfl, rfl⟩

theorem SameBut.outcome?_eq (h : SameBut ticket q q') {other : Nat} (hother : other ≠ ticket) :
    q'.outcome? other = q.outcome? other := by
  have hdropped : q'.dropped.contains other = q.dropped.contains other := by
    rw [Bool.eq_iff_iff, List.contains_iff_mem, List.contains_iff_mem]
    exact h.dropped other hother
  have hlookup : q'.delivered.lookup other = q.delivered.lookup other := by
    rw [← Disk.lookup_filter_ne ticket other hother q'.delivered, h.delivered,
      Disk.lookup_filter_ne ticket other hother]
  rw [outcome?, outcome?, hdropped, hlookup]

theorem SameBut.exists_eq (h : SameBut ticket q q') :
    ∃ dropped delivered, q' = { q with dropped := dropped, delivered := delivered } := by
  obtain ⟨free, tickets, waiting, working, dropped, delivered⟩ := q'
  obtain ⟨rfl, rfl, rfl, rfl, -, -⟩ := h
  exact ⟨dropped, delivered, rfl⟩

/-- Permits and workers do not look at what tickets have got. -/
theorem acquire_with (q : JobQueue) (dropped : List Nat) (delivered : List (Nat × Outcome))
    (ticket : Nat) :
    acquire { q with dropped := dropped, delivered := delivered } ticket =
      { q.acquire ticket with dropped := dropped, delivered := delivered } := by
  simp only [acquire]
  split <;> rfl

theorem execute_with (lib : ImageLibrary) (config : Config) (time : String) (q : JobQueue)
    (dropped : List Nat) (delivered : List (Nat × Outcome)) (d : Disk) (ticket : Nat) :
    execute lib config time { q with dropped := dropped, delivered := delivered } d ticket =
      ({ (q.execute lib config time d ticket).1 with dropped := dropped, delivered := delivered },
        (q.execute lib config time d ticket).2) := by
  simp only [execute]
  split <;> rfl

theorem acquire_keeps (q : JobQueue) (ticket : Nat) :
    (q.acquire ticket).dropped = q.dropped ∧ (q.acquire ticket).delivered = q.delivered := by
  simp only [acquire]
  split <;> exact ⟨rfl, rfl⟩

theorem execute_keeps (lib : ImageLibrary) (config : Config) (time : String) (q : JobQueue)
    (d : Disk) (ticket : Nat) :
    (q.execute lib config time d ticket).1.dropped = q.dropped ∧
      (q.execute lib config time d ticket).1.delivered = q.delivered := by
  simp only [execute]
  split <;> exact ⟨rfl, rfl⟩

/-- Such queues make the same moves, and stay so; the drop of the ticket is made by none. -/
theorem SameBut.step (h : SameBut ticket q q') {move : Move} {t : JobQueue × Disk}
    (hstep : Step lib config (q, d) move t) (hmove : move.drops ticket = false) :
    ∃ r', Step lib config (q', d) move (r', t.2) ∧ SameBut ticket t.1 r' := by
  obtain ⟨dropped, delivered, rfl⟩ := h.exists_eq
  have hdropped := h.dropped
  have hdelivered := h.delivered
  cases hstep with
  | submit _ _ job => exact ⟨_, .submit _ _ job, rfl, rfl, rfl, rfl, hdropped, hdelivered⟩
  | acquire _ _ other free waits =>
    have hstep' : Step lib config _ _ _ :=
      .acquire { q with dropped := dropped, delivered := delivered } d other free waits
    rw [acquire_with] at hstep'
    refine ⟨_, hstep', rfl, rfl, rfl, rfl, ?_, ?_⟩
    · rw [(acquire_keeps q other).1]
      exact hdropped
    · rw [(acquire_keeps q other).2]
      exact hdelivered
  | execute _ _ other time ready =>
    have hstep' : Step lib config _ _ _ :=
      .execute { q with dropped := dropped, delivered := delivered } d other time ready
    rw [execute_with] at hstep'
    refine ⟨_, hstep', rfl, rfl, rfl, rfl, ?_, ?_⟩
    · rw [(execute_keeps lib config time q d other).1]
      exact hdropped
    · rw [(execute_keeps lib config time q d other).2]
      exact hdelivered
  | release _ _ other done =>
    refine ⟨_, .release _ _ other done, ?_⟩
    simp only [JobQueue.release]
    split
    · refine ⟨rfl, rfl, rfl, rfl, hdropped, ?_⟩
      by_cases hother : other = ticket
      · -- what the ticket itself gets is left out
        subst hother
        dsimp only
        split <;> split <;> simpa using hdelivered
      · have hcontains : dropped.contains other = q.dropped.contains other := by
          rw [Bool.eq_iff_iff, List.contains_iff_mem, List.contains_iff_mem]
          exact hdropped other hother
        dsimp only
        rw [hcontains]
        split
        · exact hdelivered
        · rw [List.filter_append, List.filter_append, hdelivered]
    · exact h
  | drop _ _ other known held =>
    have hother : other ≠ ticket := by simpa [Move.drops] using hmove
    refine ⟨_, .drop _ _ other known (mt (hdropped other hother).1 held), rfl, rfl, rfl, rfl, ?_,
      hdelivered⟩
    intro another hanother
    simp only [JobQueue.drop, List.mem_cons, hdropped another hanother]

theorem SameBut.drop (h : SameBut ticket q q') : SameBut ticket (q.drop ticket) q' where
  free := h.free
  tickets := h.tickets
  waiting := h.waiting
  working := h.working
  dropped := by
    intro other hother
    simp only [JobQueue.drop, List.mem_cons, hother, false_or]
    exact h.dropped other hother
  delivered := h.delivered

end SameBut

/-- Without the drops of a ticket a schedule leads to the same, but for that ticket. -/
theorem run_undropped {lib : ImageLibrary} {config : Config} {start : JobQueue × Disk}
    {moves : List Move} {s : JobQueue × Disk} (run : Run lib config start moves s) (ticket : Nat) :
    ∃ q', Run lib config start (moves.filter fun move => !move.drops ticket) (q', s.2) ∧
      SameBut ticket s.1 q' := by
  induction run with
  | start => exact ⟨start.1, .start, .refl ticket start.1⟩
  | @step moves move s t before last ih =>
    obtain ⟨q', hrun, hsame⟩ := ih
    rw [List.filter_append]
    cases hmove : move.drops ticket with
    | false =>
      obtain ⟨r', hlast, hsame'⟩ := hsame.step last hmove
      refine ⟨r', ?_, hsame'⟩
      rw [List.filter_cons_of_pos (by simp [hmove]), List.filter_nil]
      exact hrun.step hlast
    | true =>
      rw [List.filter_cons_of_neg (by simp [hmove]), List.filter_nil, List.append_nil]
      cases last with
      | submit _ _ job => cases hmove
      | acquire _ _ other free waits => cases hmove
      | execute _ _ other time ready => cases hmove
      | release _ _ other done => cases hmove
      | drop _ d other known held =>
        obtain rfl : other = ticket := by simpa [Move.drops] using hmove
        exact ⟨q', hrun, hsame.drop⟩

/-! ### Progress -/

/-- How many moves serve all the jobs that wait or work. -/
def pending (q : JobQueue) : Nat :=
  3 * q.waiting.length +
    (q.working.map fun w => if w.outcome?.isSome then 1 else 2).sum

section Progress
variable {lib : ImageLibrary} {config : Config} {capacity : Nat} {start : JobQueue × Disk}
  {moves : List Move}
  {q : JobQueue}

/-- While a job waits or works, some move serves; it leaves tickets and what was dropped. -/
theorem Accounts.exists_move (h : Accounts lib config capacity start moves q)
    (hcapacity : 0 < capacity) (busy : 0 < q.pending) (d : Disk) :
    ∃ move t, move.serves = true ∧ Step lib config (q, d) move t ∧ t.1.pending < q.pending ∧
      t.1.tickets = q.tickets ∧ t.1.dropped = q.dropped := by
  cases hworking : q.working with
  | cons w rest =>
    have hmem : w ∈ q.working := hworking ▸ List.mem_cons_self
    obtain ⟨ticket, job, outcome?⟩ := w
    cases outcome? with
    | none =>
      obtain ⟨before, after, hsplit, hexecute⟩ := execute_eq h.distinct.2.1 hmem lib config "" d
      refine ⟨.execute ticket "", _, rfl, .execute q d ticket "" ⟨job, hmem⟩, ?_⟩
      rw [hexecute]
      refine ⟨?_, rfl, rfl⟩
      simp only [pending, hsplit, List.map_append, List.map_cons, List.sum_append, List.sum_cons,
        Option.isSome_some, Option.isSome_none, if_true, Bool.false_eq_true, if_false]
      omega
    | some outcome =>
      obtain ⟨before, after, hsplit, hrelease⟩ := release_eq h.distinct.2.1 hmem
      refine ⟨.release ticket, _, rfl, .release q d ticket ⟨job, outcome, hmem⟩, ?_⟩
      rw [hrelease]
      refine ⟨?_, rfl, rfl⟩
      simp only [pending, hsplit, List.map_append, List.map_cons, List.sum_append, List.sum_cons,
        Option.isSome_some, if_true]
      omega
  | nil =>
    -- nobody holds a permit, so one is free for the job that waits
    have hfree : 0 < q.free := by
      have hpermits := h.permits
      rw [hworking] at hpermits
      simp only [List.length_nil, Nat.zero_add] at hpermits
      omega
    cases hwaiting : q.waiting with
    | nil => simp [pending, hworking, hwaiting] at busy
    | cons first rest =>
      obtain ⟨ticket, job⟩ := first
      have hmem : (ticket, job) ∈ q.waiting := hwaiting ▸ List.mem_cons_self
      obtain ⟨before, after, job', hsplit, hacquire⟩ := acquire_eq hfree h.distinct.1 ⟨job, hmem⟩
      refine ⟨.acquire ticket, _, rfl, .acquire q d ticket hfree ⟨job, hmem⟩, ?_⟩
      rw [hacquire]
      refine ⟨?_, rfl, rfl⟩
      simp only [pending, hsplit, List.length_append, List.length_cons, List.map_cons,
        List.sum_cons, Option.isSome_none, Bool.false_eq_true, if_false]
      omega

/-- From every state some moves serve all the jobs. -/
theorem exists_service {workers : Nat} {disk : Disk} {s : JobQueue × Disk}
    (run : Run lib config (ofWorkers workers, disk) moves s) :
    ∃ rest t, (∀ move ∈ rest, move.serves = true) ∧
      Run lib config (ofWorkers workers, disk) (moves ++ rest) t ∧ t.1.pending = 0 ∧
      t.1.tickets = s.1.tickets ∧ t.1.dropped = s.1.dropped := by
  induction hpending : s.1.pending using Nat.strongRecOn generalizing moves s with
  | _ n ih =>
    cases n with
    | zero => exact ⟨[], s, by simp, by simpa using run, hpending, rfl, rfl⟩
    | succ n =>
      have haccounts := accounts_run run
      obtain ⟨move, t, hserves, hstep, hless, htickets, hdropped⟩ :=
        haccounts.exists_move (by omega) (by omega) s.2
      obtain ⟨rest, u, hrest, hrun, hnone, htickets', hdropped'⟩ :=
        ih t.1.pending (by omega) (run.step hstep) rfl
      refine ⟨move :: rest, u, ?_, ?_, hnone, htickets'.trans htickets, hdropped'.trans hdropped⟩
      · simpa [hserves] using hrest
      · simpa using hrun

theorem waiting_eq_nil_of_pending (h : q.pending = 0) : q.waiting = [] ∧ q.working = [] := by
  unfold pending at h
  obtain ⟨hwaiting, hworking⟩ := Nat.add_eq_zero_iff.1 h
  refine ⟨List.length_eq_zero_iff.1 (by omega), ?_⟩
  cases hcases : q.working with
  | nil => rfl
  | cons w rest =>
    rw [hcases, List.map_cons, List.sum_cons] at hworking
    split at hworking <;> omega

/-- Where no job waits or works, every ticket that is held has its outcome. -/
theorem Accounts.outcome?_isSome (h : Accounts lib config capacity start moves q)
    (hnone : q.pending = 0) {ticket : Nat} (known : ticket < q.tickets)
    (held : ticket ∉ q.dropped) : (q.outcome? ticket).isSome = true := by
  obtain ⟨hwaiting, hworking⟩ := waiting_eq_nil_of_pending hnone
  have hplaces := h.places
  rw [hwaiting, hworking] at hplaces
  have hreleased : ticket ∈ released moves := by
    simpa using hplaces.mem_iff.2 (List.mem_range.2 known)
  have hmem := (h.reached ticket hreleased).resolve_left held
  rw [outcome?, if_neg (by simpa using held), Option.isSome_iff_ne_none, Ne,
    List.lookup_eq_none_iff]
  intro hnone
  obtain ⟨entry, hentry, rfl⟩ := List.mem_map.1 hmem
  simpa using hnone entry hentry

end Progress

/-! ### All schedules -/

/-- How a queue has served the jobs of a schedule. -/
structure Service (lib : ImageLibrary) (config : Config) (workers : Nat) (disk : Disk)
    (moves : List Move) (q : JobQueue) (d : Disk) : Prop where
  permits : q.working.length + q.free = max workers 1
  /-- No job is lost: it waits, works or was handed over. -/
  places : (q.waiting.map Prod.fst ++ q.working.map Worker.ticket ++ released moves).Perm
    (List.range (submitted moves).length)
  runs_once : (executed moves).Nodup
  outcome_once : (q.delivered.map Prod.fst).Nodup
  /-- An outcome is that of a run of the very job of its ticket. -/
  outcome_of_run : ∀ ticket outcome, (ticket, outcome) ∈ q.delivered →
    Produced lib config (ofWorkers workers, disk) moves ticket outcome
  /-- Had a ticket never been dropped, permits and the other tickets would have the same. -/
  drops_alone : ∀ ticket, ∃ q',
    Run lib config (ofWorkers workers, disk) (moves.filter fun move => !move.drops ticket) (q', d) ∧
      q'.free = q.free ∧ q'.waiting = q.waiting ∧ q'.working = q.working ∧
      ∀ other, other ≠ ticket → q'.outcome? other = q.outcome? other
  permit_free : q.waiting ≠ [] → q.working = [] → 0 < q.free
  /-- Some moves give every ticket that is held its outcome. -/
  never_stuck : ∃ rest q' d', (∀ move ∈ rest, move.serves = true) ∧
    Run lib config (ofWorkers workers, disk) (moves ++ rest) (q', d') ∧
      ∀ ticket, ticket < (submitted moves).length → ticket ∉ q.dropped →
        (q'.outcome? ticket).isSome = true

/-- On every schedule the queue keeps its permits, runs each job at most once, gives its outcome to
its own ticket alone, and leaves no job behind one that is finished or dropped. -/
theorem schedules_serve_jobs (lib : ImageLibrary) (config : Config) (workers : Nat) (disk : Disk)
    (moves : List Move) (q : JobQueue) (d : Disk)
    (run : Run lib config (ofWorkers workers, disk) moves (q, d)) :
    Service lib config workers disk moves q d := by
  have haccounts : Accounts lib config (max workers 1) (ofWorkers workers, disk) moves q :=
    accounts_run run
  have hdistinct : ((q.working.filter fun w => w.outcome?.isSome).map Worker.ticket ++
      released moves).Nodup := by
    have hall := haccounts.places.nodup_iff.2 List.nodup_range
    rw [List.append_assoc] at hall
    exact hall.of_append_right.sublist
      ((List.filter_sublist.map Worker.ticket).append (.refl _))
  refine ⟨haccounts.permits, haccounts.tickets ▸ haccounts.places,
    haccounts.runs.nodup_iff.2 hdistinct, haccounts.distinct.2.2.sublist haccounts.handed,
    haccounts.delivered, ?drops, ?free, ?stuck⟩
  case drops =>
    intro ticket
    obtain ⟨q', hrun, hsame⟩ := run_undropped run ticket
    exact ⟨q', hrun, hsame.free, hsame.waiting, hsame.working, fun _ => hsame.outcome?_eq⟩
  case free =>
    intro _ hworking
    have hpermits := haccounts.permits
    rw [hworking, List.length_nil] at hpermits
    omega
  case stuck =>
    obtain ⟨rest, t, hrest, hrun, hnone, htickets, hdropped⟩ := exists_service run
    refine ⟨rest, t.1, t.2, hrest, hrun, fun ticket known held => ?_⟩
    refine (accounts_run hrun).outcome?_isSome hnone ?_ ?_
    · rw [htickets, haccounts.tickets]
      exact known
    · rw [hdropped]
      exact held

/-- Two jobs for one worker: the second overtakes, and the ticket of the first is dropped. -/
def overtaking : List Move :=
  [.submit (.analyze "first.nc"), .submit (.analyze "second.nc"), .acquire 1, .drop 0,
    .execute 1 "noon", .release 1, .acquire 0, .execute 0 "later", .release 0]

theorem overtaking_served :
    ∃ q d, Run .standard {} (ofWorkers 0, {}) overtaking (q, d) ∧
      Service .standard {} 0 {} overtaking q d ∧
      (q.outcome? 0).isNone = true ∧ (q.outcome? 1).isSome = true := by
  obtain ⟨q, d, hrun, hfirst, hsecond⟩ :
      ∃ q d, Run .standard {} (ofWorkers 0, {}) overtaking (q, d) ∧
      (q.outcome? 0).isNone = true ∧ (q.outcome? 1).isSome = true := by
    have hstart : Run .standard {} (ofWorkers 0, {}) [] (ofWorkers 0, {}) := .start
    have hrun := ((((((((hstart.step
      (.submit _ _ (.analyze "first.nc"))).step (.submit _ _ (.analyze "second.nc"))).step
      (.acquire _ _ 1 (by decide) ⟨_, .tail _ (.head _)⟩)).step
      (.drop _ _ 0 (by decide) (by decide))).step
      (.execute _ _ 1 "noon" ⟨_, .head _⟩)).step
      (.release _ _ 1 ⟨_, _, .head _⟩)).step
      (.acquire _ _ 0 (by decide) ⟨_, .head _⟩)).step
      (.execute _ _ 0 "later" ⟨_, .head _⟩)).step
      (.release _ _ 0 ⟨_, _, .head _⟩)
    exact ⟨_, _, hrun, by rfl, by rfl⟩
  exact ⟨q, d, hrun, schedules_serve_jobs .standard {} 0 {} overtaking q d hrun, hfirst, hsecond⟩

end BasRelief.JobQueue
