import BasRelief.Proofs.Analysis.Modal

/-!
# Analysis and modal reading

The invariant of an analysis: after any number of lines its machine and its tally are those that
the modal reading gives for the tokens so far. One token keeps it, so a whole program does, and
the report at the end is the modal one.
-/

namespace BasRelief.Modal
open Gcode
variable {α : Type} [Scalar α]

/-! ### The first G word of a token -/

/-- The motion of a token is the one that its first G word asks for. -/
structure Classified (t : Token α) : Prop where
  rapid : t.motion = some .rapid ↔ t.gNumber = some 0
  cut : t.motion = some .cut ↔ t.gNumber = some 1

theorem motionOf_eq_iff {ds : List Char} {kind : MotionKind} {n : Nat}
    (h : ∀ k, MotionKind.ofNumber k = kind ↔ k = n) (hother : kind ≠ .other) :
    Token.motionOf ds = kind ↔ gNumber? ds = some n := by
  unfold Token.motionOf
  cases hd : gNumber? ds with
  | none =>
    constructor
    · intro hk
      exact absurd hk.symm hother
    · intro hk
      cases hk
  | some k => rw [h k, Option.some_inj]

theorem classified_of_read {number : Nat} {line : List Char} {t : Token α}
    (h : Token.read? number line = some t) : Classified t := by
  unfold Token.read? at h
  dsimp only at h
  split at h
  · cases h
  have ht := Option.some.inj h
  subst ht
  have rapidNumber : ∀ k, MotionKind.ofNumber k = .rapid ↔ k = 0 := by
    intro k
    match k with
    | 0 | 1 | k + 2 => simp [MotionKind.ofNumber]
  have cutNumber : ∀ k, MotionKind.ofNumber k = .cut ↔ k = 1 := by
    intro k
    match k with
    | 0 | 1 | k + 2 => simp [MotionKind.ofNumber]
  simp only [Token.ofText]
  cases gDigits? (Text.trim (stripComment line)) with
  | none => exact ⟨by simp, by simp⟩
  | some ds =>
    constructor
    · simpa using motionOf_eq_iff rapidNumber (by simp)
    · simpa using motionOf_eq_iff cutNumber (by simp)

/-! ### What one more token adds -/

theorem total_moves_snoc (f : Moment α → α) (tolerance : α) (n : Nat) (ts : List (Token α))
    (t : Token α) :
    total ((moves tolerance n (ts ++ [t])).map f) =
      Tally.addIf
        (t.gNumber = some n && Scalar.less tolerance (Moment.distance ⟨ts, t⟩))
        (total ((moves tolerance n ts).map f)) (f ⟨ts, t⟩) := by
  rw [moves, moments_snoc, List.filter_append, List.filter_singleton]
  cases hm : (t.gNumber = some n && Scalar.less tolerance (Moment.distance ⟨ts, t⟩)) with
  | false =>
    rw [cond_false, List.append_nil]
    rfl
  | true =>
    rw [cond_true, List.map_append, List.map_singleton, total_snoc]
    rfl

theorem feeds_snoc (ts : List (Token α)) (t : Token α) :
    feeds (ts ++ [t]) =
      feeds ts ++ if Scalar.less Scalar.zero (feed (ts ++ [t])) then [feed (ts ++ [t])] else [] := by
  rw [feeds, moments_snoc, List.map_append, List.filter_append, List.map_singleton,
    List.filter_singleton, Bool.cond_eq_ite]
  rfl

theorem points_snoc (ts : List (Token α)) (t : Token α) :
    points (ts ++ [t]) = points ts ++ if t.words.setsPlane then [Moment.point ⟨ts, t⟩] else [] := by
  rw [points, moments_snoc, List.filter_append, List.filter_singleton, List.map_append]
  cases t.words.setsPlane <;> rfl

omit [Scalar α] in
theorem gWords_snoc (ts : List (Token α)) (t : Token α) :
    gWords (ts ++ [t]) = match t.gNumber with
      | some n => (gWords ts).add (Tally.gWordName n)
      | none => gWords ts := by
  cases hg : t.gNumber <;> simp [gWords, hg]

theorem take_snoc {β : Type} (vs : List β) (v : β) (limit : Nat) :
    (vs ++ [v]).take limit =
      if (vs.take limit).length < limit then vs.take limit ++ [v] else vs.take limit := by
  have hlength : (vs ++ [v]).length = vs.length + 1 := List.length_append
  rw [List.length_take]
  by_cases h : vs.length < limit
  · rw [if_pos (by omega), List.take_of_length_le (by omega), List.take_of_length_le (by omega)]
  · rw [if_neg (by omega), List.take_append_of_le_length (by omega)]

/-! ### The invariant -/

def tally (limits : AnalysisLimits α) (ts : List (Token α)) : Tally α where
  processed := ts.length
  rapidMoves := ts.countP fun t => t.gNumber = some 0
  cutMoves := ts.countP fun t => t.gNumber = some 1
  gWords := gWords ts
  cutDistance := total ((moves limits.tolerance 1 ts).map Moment.distance)
  cutTime := total ((moves limits.tolerance 1 ts).map Moment.seconds)
  rapidDistance := total ((moves limits.tolerance 0 ts).map Moment.distance)
  warnings := (ts.flatMap Token.warnings).length
  feeds := .ofList (feeds ts)
  heights := .ofList (ts.filterMap fun t => t.words.z)
  xs := .ofList (ts.filterMap fun t => t.words.x)
  ys := .ofList (ts.filterMap fun t => t.words.y)
  feedValues := (feeds ts).toArray
  zValues := (ts.filterMap fun t => t.words.z).toArray
  trajectory := ((points ts).take limits.trajectory).toArray

def analysis (limits : AnalysisLimits α) (lineCount : Nat) (ts : List (Token α)) : Analysis α where
  linesRead := lineCount
  machine := ⟨position ts, feed ts⟩
  tally := tally limits ts

theorem after_snoc (ts : List (Token α)) (t : Token α) :
    (⟨position ts, feed ts⟩ : MachineState α).after t.words =
      ⟨position (ts ++ [t]), feed (ts ++ [t])⟩ := by
  rw [position_snoc, feed_snoc]
  rfl

theorem ofList_filterMap_snoc {β : Type} (f : β → Option α) (bs : List β) (b : β) :
    Series.ofList ((bs ++ [b]).filterMap f) = (Series.ofList (bs.filterMap f)).push? (f b) := by
  cases h : f b <;> simp [h, Series.ofList_append_single, Series.push?]

theorem pushIf_filterMap_snoc {β γ : Type} (f : β → Option γ) (bs : List β) (b : β) :
    ((bs ++ [b]).filterMap f).toArray = Tally.pushIf (bs.filterMap f).toArray (f b) := by
  cases h : f b <;> simp [h, Tally.pushIf]

/-! ### The step -/

theorem segment_analysis (limits : AnalysisLimits α) (lineCount number : Nat)
    (ts : List (Token α)) (t : Token α) :
    (analysis limits lineCount ts).machine.segment limits.tolerance number t =
      { line := number
        gNumber := t.gNumber
        motion := t.motion
        distance := Moment.distance ⟨ts, t⟩
        time := MachineState.cutTime t.motion
          (Scalar.less limits.tolerance (Moment.distance ⟨ts, t⟩)) (Moment.distance ⟨ts, t⟩)
          (feed (ts ++ [t]))
        feed := feed (ts ++ [t])
        moved := Scalar.less limits.tolerance (Moment.distance ⟨ts, t⟩)
        words := t.words
        stop := position (ts ++ [t]) } := by
  have hafter := after_snoc ts t
  simp only [MachineState.segment, analysis, hafter]
  rfl

/-- A cut that moved takes the seconds of its moment; other tokens add no time. -/
theorem addIf_cutTime (tolerance sum : α) (ts : List (Token α)) (t : Token α) :
    Tally.addIf (t.motion = some .cut && Scalar.less tolerance (Moment.distance ⟨ts, t⟩)) sum
        (MachineState.cutTime t.motion (Scalar.less tolerance (Moment.distance ⟨ts, t⟩))
          (Moment.distance ⟨ts, t⟩) (feed (ts ++ [t]))) =
      Tally.addIf (t.motion = some .cut && Scalar.less tolerance (Moment.distance ⟨ts, t⟩)) sum
        (Moment.seconds ⟨ts, t⟩) := by
  by_cases hm : t.motion = some .cut
  · cases hl : Scalar.less tolerance (Moment.distance ⟨ts, t⟩) with
    | false => simp [Tally.addIf]
    | true =>
      rw [MachineState.cutTime, Moment.seconds]
      simp only [hm, true_and]
      rfl
  · simp [Tally.addIf, hm]

omit [Scalar α] in
theorem countP_number_snoc (n : Nat) (ts : List (Token α)) (t : Token α) :
    (ts ++ [t]).countP (fun u => u.gNumber = some n) =
      if t.gNumber = some n then (ts.countP fun u => u.gNumber = some n) + 1
      else ts.countP fun u => u.gNumber = some n := by
  rw [List.countP_append, List.countP_singleton]
  by_cases h : t.gNumber = some n <;> simp [h]

theorem trajectory_snoc (limit : Nat) (ts : List (Token α)) (t : Token α) :
    ((points (ts ++ [t])).take limit).toArray =
      if t.words.setsPlane && ((points ts).take limit).toArray.size < limit then
        ((points ts).take limit).toArray.push (Moment.point ⟨ts, t⟩)
      else ((points ts).take limit).toArray := by
  rw [points_snoc]
  cases hp : t.words.setsPlane with
  | false => simp
  | true =>
    rw [if_pos rfl, take_snoc]
    by_cases h : ((points ts).take limit).length < limit
    · rw [if_pos h, if_pos (by simpa using h), List.push_toArray]
    · rw [if_neg h, if_neg (by simpa using h)]

theorem tally_snoc (limits : AnalysisLimits α) (lineCount number : Nat) (ts : List (Token α))
    {t : Token α} (h : Classified t) :
    ((tally limits ts).warn t.warnings.length).record limits.trajectory
        ((analysis limits lineCount ts).machine.segment limits.tolerance number t) =
      tally limits (ts ++ [t]) := by
  have hcut : decide (t.motion = some .cut) = decide (t.gNumber = some 1) :=
    decide_eq_decide.mpr h.cut
  have hrapid : decide (t.motion = some .rapid) = decide (t.gNumber = some 0) :=
    decide_eq_decide.mpr h.rapid
  rw [segment_analysis]
  simp only [Tally.record, Tally.warn, Tally.feed?, tally, Tally.mk.injEq]
  refine ⟨?processed, ?rapidMoves, ?cutMoves, ?gWords, ?cutDistance, ?cutTime, ?rapidDistance,
    ?warnings, ?feeds, ?heights, ?xs, ?ys, ?feedValues, ?zValues, ?trajectory⟩
  case processed => rw [List.length_append, List.length_singleton]
  case rapidMoves => simp only [countP_number_snoc, h.rapid]
  case cutMoves => simp only [countP_number_snoc, h.cut]
  case gWords => exact (gWords_snoc ts t).symm
  case cutDistance => rw [total_moves_snoc, hcut]
  case cutTime => rw [total_moves_snoc, addIf_cutTime, hcut]
  case rapidDistance => rw [total_moves_snoc, hrapid]
  case warnings => rw [List.flatMap_append, List.flatMap_singleton, List.length_append]
  case feeds =>
    rw [feeds_snoc]
    split
    · rw [Series.ofList_append_single]
      rfl
    · rw [List.append_nil]
      rfl
  case heights => rw [ofList_filterMap_snoc]
  case xs => rw [ofList_filterMap_snoc]
  case ys => rw [ofList_filterMap_snoc]
  case feedValues =>
    rw [feeds_snoc]
    split
    · rw [← List.push_toArray]
      rfl
    · rw [List.append_nil]
      rfl
  case zValues => rw [pushIf_filterMap_snoc]
  case trajectory => exact (trajectory_snoc limits.trajectory ts t).symm

theorem token_analysis (limits : AnalysisLimits α) (lineCount number : Nat)
    (ts : List (Token α)) {t : Token α} (h : Classified t) :
    (analysis limits lineCount ts).token limits number t =
      analysis limits number (ts ++ [t]) := by
  have hmachine := after_snoc ts t
  have htally := tally_snoc limits lineCount number ts h
  have htoken : (analysis limits lineCount ts).token limits number t =
      ⟨number, MachineState.after ⟨position ts, feed ts⟩ t.words,
        ((tally limits ts).warn t.warnings.length).record limits.trajectory
          ((analysis limits lineCount ts).machine.segment limits.tolerance number t)⟩ := rfl
  rw [htoken, hmachine, htally]
  rfl

/-! ### The run -/

theorem start_eq (limits : AnalysisLimits α) : Analysis.start = analysis limits 0 [] := by
  have hpoints : ((points ([] : List (Token α))).take limits.trajectory).toArray = #[] := by
    simp [points, moments]
  simp only [analysis, tally, hpoints]
  rfl

theorem line_analysis (limits : AnalysisLimits α) (ls : List (List Char)) (l : List Char) :
    (analysis limits ls.length (tokens 1 ls)).line limits l =
      analysis limits (ls ++ [l]).length (tokens 1 (ls ++ [l])) := by
  have hlength : (ls ++ [l]).length = ls.length + 1 := List.length_append
  have htokens : (tokens 1 (ls ++ [l]) : List (Token α)) =
      tokens 1 ls ++ (Token.read? (ls.length + 1) l).toList := by
    rw [tokens_append, tokens_cons, Nat.add_comm 1]
    exact congrArg _ (List.append_nil _)
  rw [hlength, htokens, Analysis.line]
  dsimp only [analysis]
  cases hread : (Token.read? (ls.length + 1) l : Option (Token α)) with
  | none => rw [Option.toList_none, List.append_nil]
  | some t => exact token_analysis limits ls.length (ls.length + 1) _ (classified_of_read hread)

theorem lines_start (limits : AnalysisLimits α) (ls : List (List Char)) :
    Analysis.start.lines limits ls = analysis limits ls.length (tokens 1 ls) := by
  -- from the last line, since the invariant speaks of all the lines before it
  induction ls using List.reverseRecOn with
  | nil => exact start_eq limits
  | append_singleton ls l ih =>
    have hone (a : Analysis α) : a.lines limits [l] = a.line limits l := rfl
    rw [Analysis.lines_append, ih, hone, line_analysis]

theorem report_analysis (limits : AnalysisLimits α) (lineCount : Nat) (ts : List (Token α)) :
    (analysis limits lineCount ts).report = report limits lineCount ts := rfl

end BasRelief.Modal

namespace BasRelief

/-- An analysis gives the report that the modal reading of the program gives. -/
theorem analyzeLines_eq_report {α : Type} [Scalar α] (limits : AnalysisLimits α)
    (ls : List (List Char)) :
    analyzeLines limits ls = Modal.report limits ls.length (Modal.tokens 1 ls) := by
  rw [analyzeLines, Modal.lines_start, Modal.report_analysis]

end BasRelief
