import BasRelief.Job.Queue
import Mathlib.Data.List.Perm.Basic
import Mathlib.Data.List.Nodup

/-!
# Schedules of a job queue

Whatever the schedule, a queue keeps account: every permit is free or held by one job, and every
ticket waits, works or has been handed over, in exactly one of the three. From this account follow
the properties of all schedules at the end.
-/

namespace BasRelief.JobQueue

/-! ### What the moves do -/

theorem exists_split {ws : List Worker} (distinct : (ws.map Worker.ticket).Nodup) {w : Worker}
    (h : w ∈ ws) :
    ∃ before after, ws = before ++ w :: after ∧ (∀ v ∈ before, v.ticket ≠ w.ticket) ∧
      ∀ v ∈ after, v.ticket ≠ w.ticket := by
  obtain ⟨before, after, rfl⟩ := List.append_of_mem h
  rw [List.map_append, List.map_cons, List.nodup_middle, List.nodup_cons, List.mem_append,
    not_or] at distinct
  refine ⟨before, after, rfl, fun v hv heq => distinct.1.1 ?_, fun v hv heq => distinct.1.2 ?_⟩
  · exact heq ▸ List.mem_map_of_mem hv
  · exact heq ▸ List.mem_map_of_mem hv

theorem find?_split {before after : List Worker} {w : Worker}
    (hbefore : ∀ v ∈ before, v.ticket ≠ w.ticket) :
    (before ++ w :: after).find? (·.ticket = w.ticket) = some w := by
  rw [List.find?_append, List.find?_eq_none.2 (by simpa using hbefore)]
  simp

/-- A job that waits leaves the line and works. -/
theorem acquire_eq {q : JobQueue} {ticket : Nat} (free : 0 < q.free)
    (distinct : (q.waiting.map Prod.fst).Nodup) (waits : ∃ job, (ticket, job) ∈ q.waiting) :
    ∃ before after job, q.waiting = before ++ (ticket, job) :: after ∧
      q.acquire ticket = { q with
        free := q.free - 1, waiting := before ++ after,
        working := ⟨ticket, job, none⟩ :: q.working } := by
  obtain ⟨job, hjob⟩ := waits
  obtain ⟨before, after, hsplit⟩ := List.append_of_mem hjob
  rw [hsplit, List.map_append, List.map_cons, List.nodup_middle, List.nodup_cons, List.mem_append,
    not_or] at distinct
  obtain ⟨⟨hbefore, hafter⟩, -⟩ := distinct
  have hne : ∀ {l : List (Nat × Job)}, ticket ∉ l.map Prod.fst → ∀ e ∈ l, e.1 ≠ ticket :=
    fun hl e he heq => hl (heq ▸ List.mem_map_of_mem he)
  have hlookup : q.waiting.lookup ticket = some job := by
    rw [List.lookup_eq_some_iff]
    exact ⟨before, after, hsplit, fun e he => by simpa using (hne hbefore e he).symm⟩
  have hfilter : q.waiting.filter (·.1 ≠ ticket) = before ++ after := by
    rw [hsplit, List.filter_append, List.filter_cons_of_neg (by simp),
      List.filter_eq_self.2 (by simpa using hne hbefore),
      List.filter_eq_self.2 (by simpa using hne hafter)]
  refine ⟨before, after, job, hsplit, ?_⟩
  obtain ⟨n, hn⟩ := Nat.exists_eq_succ_of_ne_zero (Nat.pos_iff_ne_zero.1 free)
  simp only [acquire, hn, hlookup, hfilter, Nat.succ_sub_one]

/-- A job that works is run on the disk, and its worker keeps the outcome. -/
theorem execute_eq {q : JobQueue} {ticket : Nat} {job : Job}
    (distinct : (q.working.map Worker.ticket).Nodup)
    (ready : (⟨ticket, job, none⟩ : Worker) ∈ q.working) (lib : ImageLibrary) (config : Config)
    (time : String)
    (d : Disk) :
    ∃ before after, q.working = before ++ ⟨ticket, job, none⟩ :: after ∧
      q.execute lib config time d ticket =
        ({ q with working :=
            before ++ ⟨ticket, job, some (job.run lib config time d).1⟩ :: after },
          (job.run lib config time d).2) := by
  obtain ⟨before, after, hsplit, hbefore, hafter⟩ := exists_split distinct ready
  have hfind : q.working.find? (·.ticket = ticket) = some ⟨ticket, job, none⟩ := by
    rw [hsplit]
    exact find?_split hbefore
  have hmap : ∀ {ws : List Worker}, (∀ v ∈ ws, v.ticket ≠ ticket) → ∀ outcome : Outcome,
      (ws.map fun w => if w.ticket = ticket then { w with outcome? := some outcome } else w) = ws :=
    fun hws outcome => (List.map_congr_left fun v hv => if_neg (hws v hv)).trans (List.map_id' _)
  refine ⟨before, after, hsplit, ?_⟩
  simp only [execute, hfind]
  simp only [finish, hsplit, List.map_append, List.map_cons, hmap hbefore, hmap hafter, if_true]

/-- A job that was run hands its outcome over, if its ticket is held, and its permit is free. -/
theorem release_eq {q : JobQueue} {ticket : Nat} {job : Job} {outcome : Outcome}
    (distinct : (q.working.map Worker.ticket).Nodup)
    (done : (⟨ticket, job, some outcome⟩ : Worker) ∈ q.working) :
    ∃ before after, q.working = before ++ ⟨ticket, job, some outcome⟩ :: after ∧
      q.release ticket = { q with
        free := q.free + 1, working := before ++ after,
        delivered :=
          if q.dropped.contains ticket then q.delivered
          else q.delivered ++ [(ticket, outcome)] } := by
  obtain ⟨before, after, hsplit, hbefore, hafter⟩ := exists_split distinct done
  have hfind : q.working.find? (·.ticket = ticket) = some ⟨ticket, job, some outcome⟩ := by
    rw [hsplit]
    exact find?_split hbefore
  have hfilter : q.working.filter (·.ticket ≠ ticket) = before ++ after := by
    rw [hsplit, List.filter_append, List.filter_cons_of_neg (by simp),
      List.filter_eq_self.2 (by simpa using hbefore), List.filter_eq_self.2 (by simpa using hafter)]
  refine ⟨before, after, hsplit, ?_⟩
  simp only [release, hfind, hfilter]

/-! ### Accounts -/

/-- An outcome for a ticket that some run of its job gave, at some time and on some disk that the
schedule came to. -/
def Produced (lib : ImageLibrary) (config : Config) (start : JobQueue × Disk)
    (moves : List Move) (ticket : Nat)
    (outcome : Outcome) : Prop :=
  ∃ (earlier later : List Move) (time : String) (q : JobQueue) (d : Disk) (job : Job),
    moves = earlier ++ .execute ticket time :: later ∧ Run lib config start earlier (q, d) ∧
      (submitted moves)[ticket]? = some job ∧ outcome = (job.run lib config time d).1

/-- What a queue has made of the moves so far. -/
structure Accounts (lib : ImageLibrary) (config : Config) (capacity : Nat) (start : JobQueue × Disk)
    (moves : List Move) (q : JobQueue) : Prop where
  permits : q.working.length + q.free = capacity
  tickets : q.tickets = (submitted moves).length
  /-- Every ticket waits, works or has been handed over, and none does so twice. -/
  places : (q.waiting.map Prod.fst ++ q.working.map Worker.ticket ++ released moves).Perm
    (List.range q.tickets)
  waiting : ∀ ticket job, (ticket, job) ∈ q.waiting → (submitted moves)[ticket]? = some job
  working : ∀ w ∈ q.working, (submitted moves)[w.ticket]? = some w.job
  /-- The runs so far are those of the jobs that have an outcome or were handed over. -/
  runs : (executed moves).Perm
    ((q.working.filter fun w => w.outcome?.isSome).map Worker.ticket ++ released moves)
  outcomes : ∀ w ∈ q.working, ∀ outcome, w.outcome? = some outcome →
    Produced lib config start moves w.ticket outcome
  delivered : ∀ ticket outcome, (ticket, outcome) ∈ q.delivered →
    Produced lib config start moves ticket outcome
  handed : (q.delivered.map Prod.fst).Sublist (released moves)
  reached : ∀ ticket ∈ released moves, ticket ∈ q.dropped ∨ ticket ∈ q.delivered.map Prod.fst

section Accounts
variable {lib : ImageLibrary} {config : Config} {capacity : Nat} {start : JobQueue × Disk}
  {moves : List Move}
  {q : JobQueue}

theorem filterMap_snoc {α : Type} (f : Move → Option α) (moves : List Move) (move : Move) :
    (moves ++ [move]).filterMap f = moves.filterMap f ++ (f move).toList := by
  rw [List.filterMap_append]
  cases h : f move <;> simp [h]

theorem submitted_snoc (moves : List Move) (move : Move) :
    submitted (moves ++ [move]) = submitted moves ++ move.submitted?.toList := filterMap_snoc ..

theorem executed_snoc (moves : List Move) (move : Move) :
    executed (moves ++ [move]) = executed moves ++ move.executed?.toList := filterMap_snoc ..

theorem released_snoc (moves : List Move) (move : Move) :
    released (moves ++ [move]) = released moves ++ move.released?.toList := filterMap_snoc ..

theorem submitted_mono {ticket : Nat} {job : Job} (h : (submitted moves)[ticket]? = some job)
    (move : Move) : (submitted (moves ++ [move]))[ticket]? = some job := by
  rw [submitted_snoc, List.getElem?_append_left (List.getElem?_eq_some_iff.1 h).1, h]

theorem Produced.snoc {ticket : Nat} {outcome : Outcome}
    (h : Produced lib config start moves ticket outcome) (move : Move) :
    Produced lib config start (moves ++ [move]) ticket outcome := by
  obtain ⟨earlier, later, time, q, d, job, rfl, hrun, hjob, houtcome⟩ := h
  exact ⟨earlier, later ++ [move], time, q, d, job, by simp, hrun, submitted_mono hjob move,
    houtcome⟩

theorem Accounts.distinct (h : Accounts lib config capacity start moves q) :
    (q.waiting.map Prod.fst).Nodup ∧ (q.working.map Worker.ticket).Nodup ∧
      (released moves).Nodup := by
  have hall := h.places.nodup_iff.2 List.nodup_range
  rw [List.nodup_append', List.nodup_append'] at hall
  exact ⟨hall.1.1, hall.1.2.1, hall.2.1⟩

theorem accounts_start (lib : ImageLibrary) (config : Config) (workers : Nat) (d : Disk) :
    Accounts lib config (max workers 1) (ofWorkers workers, d) [] (ofWorkers workers) where
  permits := by simp [ofWorkers]
  tickets := rfl
  places := .refl _
  waiting := by simp [ofWorkers]
  working := by simp [ofWorkers]
  runs := .refl _
  outcomes := by simp [ofWorkers]
  delivered := by simp [ofWorkers]
  handed := .refl _
  reached := by simp [released]

theorem Accounts.submit (h : Accounts lib config capacity start moves q) (job : Job) :
    Accounts lib config capacity start (moves ++ [.submit job]) (q.submit job) where
  permits := h.permits
  tickets := by
    rw [submitted_snoc, List.length_append, ← h.tickets]
    rfl
  places := by
    have hplaces := h.places
    rw [List.perm_iff_count] at hplaces ⊢
    intro ticket
    have hcount := hplaces ticket
    simp only [JobQueue.submit, released_snoc, Move.released?, Option.toList_none,
      List.append_nil, List.map_append, List.map_cons, List.map_nil, List.range_succ,
      List.count_append] at hcount ⊢
    omega
  waiting := by
    intro ticket waiter hmem
    obtain hold | hnew := List.mem_append.1 hmem
    · exact submitted_mono (h.waiting ticket waiter hold) _
    · cases List.mem_singleton.1 hnew
      rw [submitted_snoc, h.tickets, List.getElem?_append_right (Nat.le_refl _), Nat.sub_self]
      rfl
  working := fun w hw => submitted_mono (h.working w hw) _
  runs := by
    simpa [JobQueue.submit, executed_snoc, released_snoc, Move.executed?, Move.released?]
      using h.runs
  outcomes := fun w hw outcome ho => (h.outcomes w hw outcome ho).snoc _
  delivered := fun ticket outcome ho => (h.delivered ticket outcome ho).snoc _
  handed := by simpa [JobQueue.submit, released_snoc, Move.released?] using h.handed
  reached := by simpa [JobQueue.submit, released_snoc, Move.released?] using h.reached

theorem Accounts.acquire (h : Accounts lib config capacity start moves q) {ticket : Nat}
    (free : 0 < q.free) (waits : ∃ job, (ticket, job) ∈ q.waiting) :
    Accounts lib config capacity start (moves ++ [.acquire ticket]) (q.acquire ticket) := by
  obtain ⟨before, after, job, hsplit, hacquire⟩ := acquire_eq free h.distinct.1 waits
  have hjob : (submitted moves)[ticket]? = some job :=
    h.waiting ticket job (hsplit ▸ List.mem_append_right _ List.mem_cons_self)
  rw [hacquire]
  refine ⟨?permits, ?tickets, ?places, ?waiting, ?working, ?runs, ?outcomes, ?delivered, ?handed,
    ?reached⟩
  case permits =>
    have hpermits := h.permits
    simp only [List.length_cons]
    omega
  case tickets => simpa [submitted_snoc, Move.submitted?] using h.tickets
  case places =>
    have hplaces := h.places
    rw [List.perm_iff_count] at hplaces ⊢
    intro other
    have hcount := hplaces other
    simp only [hsplit, released_snoc, Move.released?, Option.toList_none, List.append_nil,
      List.map_append, List.map_cons, List.count_append, List.count_cons] at hcount ⊢
    omega
  case waiting =>
    intro other waiter hmem
    refine submitted_mono (h.waiting other waiter ?_) _
    rw [hsplit]
    exact (List.mem_append.1 hmem).elim (List.mem_append_left _)
      fun hafter => List.mem_append_right _ (List.mem_cons_of_mem _ hafter)
  case working =>
    intro w hw
    obtain rfl | hold := List.mem_cons.1 hw
    · exact submitted_mono hjob _
    · exact submitted_mono (h.working w hold) _
  case runs => simpa [executed_snoc, released_snoc, Move.executed?, Move.released?] using h.runs
  case outcomes =>
    intro w hw outcome ho
    obtain rfl | hold := List.mem_cons.1 hw
    · cases ho
    · exact (h.outcomes w hold outcome ho).snoc _
  case delivered => exact fun other outcome ho => (h.delivered other outcome ho).snoc _
  case handed => simpa [released_snoc, Move.released?] using h.handed
  case reached => simpa [released_snoc, Move.released?] using h.reached

theorem Accounts.execute (h : Accounts lib config capacity start moves q) {d : Disk}
    (run : Run lib config start moves (q, d)) {ticket : Nat} (time : String)
    (ready : ∃ job, (⟨ticket, job, none⟩ : Worker) ∈ q.working) :
    Accounts lib config capacity start (moves ++ [.execute ticket time])
      (q.execute lib config time d ticket).1 := by
  obtain ⟨job, hready⟩ := ready
  obtain ⟨before, after, hsplit, hexecute⟩ := execute_eq h.distinct.2.1 hready lib config time d
  have hjob : (submitted moves)[ticket]? = some job := h.working _ hready
  -- a worker is the one that ran or one that worked before
  have hold : ∀ w ∈ before ++ ⟨ticket, job, some (job.run lib config time d).1⟩ :: after,
      w = ⟨ticket, job, some (job.run lib config time d).1⟩ ∨ w ∈ q.working := by
    intro w hw
    rw [hsplit]
    simp only [List.mem_append, List.mem_cons] at hw ⊢
    tauto
  rw [hexecute]
  refine ⟨?permits, ?tickets, ?places, ?waiting, ?working, ?runs, ?outcomes, ?delivered, ?handed,
    ?reached⟩
  case permits =>
    have hpermits := h.permits
    simp only [hsplit, List.length_append, List.length_cons] at hpermits ⊢
    exact hpermits
  case tickets => simpa [submitted_snoc, Move.submitted?] using h.tickets
  case places => simpa [hsplit, released_snoc, Move.released?] using h.places
  case waiting => exact fun other waiter hmem => submitted_mono (h.waiting other waiter hmem) _
  case working =>
    intro w hw
    obtain rfl | hw := hold w hw
    · exact submitted_mono hjob _
    · exact submitted_mono (h.working w hw) _
  case runs =>
    have hruns := h.runs
    rw [List.perm_iff_count] at hruns ⊢
    intro other
    have hcount := hruns other
    simp [hsplit, executed_snoc, released_snoc, Move.executed?, Move.released?,
      List.count_cons] at hcount ⊢
    omega
  case outcomes =>
    intro w hw outcome ho
    obtain rfl | hw := hold w hw
    · cases ho
      exact ⟨moves, [], time, q, d, job, rfl, run, submitted_mono hjob _, rfl⟩
    · exact (h.outcomes w hw outcome ho).snoc _
  case delivered => exact fun other outcome ho => (h.delivered other outcome ho).snoc _
  case handed => simpa [released_snoc, Move.released?] using h.handed
  case reached => simpa [released_snoc, Move.released?] using h.reached

theorem Accounts.release (h : Accounts lib config capacity start moves q) {ticket : Nat}
    (done : ∃ job outcome, (⟨ticket, job, some outcome⟩ : Worker) ∈ q.working) :
    Accounts lib config capacity start (moves ++ [.release ticket]) (q.release ticket) := by
  obtain ⟨job, outcome, hdone⟩ := done
  obtain ⟨before, after, hsplit, hrelease⟩ := release_eq h.distinct.2.1 hdone
  have hproduced := h.outcomes _ hdone outcome rfl
  have hold : ∀ w ∈ before ++ after, w ∈ q.working := by
    intro w hw
    rw [hsplit]
    exact (List.mem_append.1 hw).elim (List.mem_append_left _)
      fun hafter => List.mem_append_right _ (List.mem_cons_of_mem _ hafter)
  rw [hrelease]
  refine ⟨?permits, ?tickets, ?places, ?waiting, ?working, ?runs, ?outcomes, ?delivered, ?handed,
    ?reached⟩
  case permits =>
    have hpermits := h.permits
    simp only [hsplit, List.length_append, List.length_cons] at hpermits ⊢
    omega
  case tickets => simpa [submitted_snoc, Move.submitted?] using h.tickets
  case places =>
    have hplaces := h.places
    rw [List.perm_iff_count] at hplaces ⊢
    intro other
    have hcount := hplaces other
    simp only [hsplit, released_snoc, Move.released?, Option.toList_some, List.map_append,
      List.map_cons, List.count_append, List.count_cons, List.count_nil] at hcount ⊢
    omega
  case waiting => exact fun other waiter hmem => submitted_mono (h.waiting other waiter hmem) _
  case working => exact fun w hw => submitted_mono (h.working w (hold w hw)) _
  case runs =>
    have hruns := h.runs
    rw [List.perm_iff_count] at hruns ⊢
    intro other
    have hcount := hruns other
    simp [hsplit, executed_snoc, released_snoc, Move.executed?, Move.released?,
      List.count_cons] at hcount ⊢
    omega
  case outcomes => exact fun w hw o ho => (h.outcomes w (hold w hw) o ho).snoc _
  case delivered =>
    intro other o ho
    dsimp only at ho
    split at ho
    · exact (h.delivered other o ho).snoc _
    · obtain hbefore | hnew := List.mem_append.1 ho
      · exact (h.delivered other o hbefore).snoc _
      · cases List.mem_singleton.1 hnew
        exact hproduced.snoc _
  case handed =>
    rw [released_snoc]
    dsimp only [Move.released?, Option.toList_some]
    split
    · exact h.handed.trans (List.sublist_append_left _ _)
    · rw [List.map_append]
      exact h.handed.append (.refl _)
  case reached =>
    intro other hother
    rw [released_snoc] at hother
    dsimp only
    obtain hbefore | hnew := List.mem_append.1 hother
    · refine (h.reached other hbefore).imp_right fun hmem => ?_
      split
      · exact hmem
      · rw [List.map_append]
        exact List.mem_append_left _ hmem
    · cases List.mem_singleton.1 hnew
      by_cases hdropped : q.dropped.contains ticket = true
      · exact .inl (List.contains_iff_mem.1 hdropped)
      · rw [if_neg hdropped]
        exact .inr (by simp)

theorem Accounts.drop (h : Accounts lib config capacity start moves q) (ticket : Nat) :
    Accounts lib config capacity start (moves ++ [.drop ticket]) (q.drop ticket) where
  permits := h.permits
  tickets := by simpa [JobQueue.drop, submitted_snoc, Move.submitted?] using h.tickets
  places := by simpa [JobQueue.drop, released_snoc, Move.released?] using h.places
  waiting := fun other waiter hmem => submitted_mono (h.waiting other waiter hmem) _
  working := fun w hw => submitted_mono (h.working w hw) _
  runs := by
    simpa [JobQueue.drop, executed_snoc, released_snoc, Move.executed?, Move.released?]
      using h.runs
  outcomes := fun w hw outcome ho => (h.outcomes w hw outcome ho).snoc _
  delivered := fun other outcome ho => (h.delivered other outcome ho).snoc _
  handed := by simpa [JobQueue.drop, released_snoc, Move.released?] using h.handed
  reached := by
    intro other hother
    rw [released_snoc] at hother
    exact (h.reached other (by simpa [Move.released?] using hother)).imp_left
      (List.mem_cons_of_mem _)

theorem Accounts.step (h : Accounts lib config capacity start moves q) {d : Disk}
    (run : Run lib config start moves (q, d)) {move : Move} {t : JobQueue × Disk}
    (hstep : Step lib config (q, d) move t) :
    Accounts lib config capacity start (moves ++ [move]) t.1 := by
  cases hstep with
  | submit _ _ job => exact h.submit job
  | acquire _ _ ticket free waits => exact h.acquire free waits
  | execute _ _ ticket time ready => exact h.execute run time ready
  | release _ _ ticket done => exact h.release done
  | drop _ _ ticket known held => exact h.drop ticket

end Accounts

/-- The queue keeps account on every schedule. -/
theorem accounts_run {lib : ImageLibrary} {config : Config} {workers : Nat} {disk : Disk}
    {moves : List Move} {s : JobQueue × Disk}
    (run : Run lib config (ofWorkers workers, disk) moves s) :
    Accounts lib config (max workers 1) (ofWorkers workers, disk) moves s.1 := by
  induction run with
  | start => exact accounts_start lib config workers disk
  | step before last ih => exact ih.step before last

end BasRelief.JobQueue
