import BasRelief.Analysis.Analyzer
import Mathlib.Data.List.Induction
import Mathlib.Data.List.Infix

/-!
# The modal reading of a program

What a program means, told without a machine that moves: the value of a letter after some tokens
is the one that the last of them with that letter gives, and distances, times and points follow
from the values before and after each token. The analysis of a program is the report read off in
this way.
-/

namespace BasRelief.Modal
open Gcode
variable {α : Type} [Scalar α]

/-! ### Values -/

def tokens (first : Nat) (ls : List (List Char)) : List (Token α) :=
  (ls.zipIdx first).filterMap fun (l, number) => Token.read? number l

/-- The value in the last token that carries the letter; zero if none does. -/
def lastValue (a : Axis) (ts : List (Token α)) : α :=
  (ts.reverse.findSome? fun t => t.words.get a).getD Scalar.zero

def position (ts : List (Token α)) : Position α :=
  ⟨lastValue .x ts, lastValue .y ts, lastValue .z ts⟩

def feed (ts : List (Token α)) : α := lastValue .f ts

/-! ### Moments -/

structure Moment (α : Type) where
  before : List (Token α)
  token : Token α

namespace Moment

def upTo (m : Moment α) : List (Token α) := m.before ++ [m.token]

def distance (m : Moment α) : α := (position m.before).distance (position m.upTo)

def feed (m : Moment α) : α := Modal.feed m.upTo

def seconds (m : Moment α) : α :=
  if Scalar.less Scalar.zero m.feed then m.distance / (m.feed / Scalar.natural 60)
  else Scalar.zero

def point (m : Moment α) : α × α := ((position m.upTo).x, (position m.upTo).y)

/-- The root of the squared differences of the last values, summed from X to Z. -/
theorem distance_eq_root (m : Moment α) :
    m.distance = Scalar.root
      ((lastValue .x m.upTo - lastValue .x m.before) *
          (lastValue .x m.upTo - lastValue .x m.before) +
        (lastValue .y m.upTo - lastValue .y m.before) *
          (lastValue .y m.upTo - lastValue .y m.before) +
        (lastValue .z m.upTo - lastValue .z m.before) *
          (lastValue .z m.upTo - lastValue .z m.before)) := rfl

end Moment

def moments (ts : List (Token α)) : List (Moment α) := List.zipWith Moment.mk ts.inits ts

/-- The moments whose first G word has the given number and whose distance exceeds the
tolerance. -/
def moves (tolerance : α) (n : Nat) (ts : List (Token α)) : List (Moment α) :=
  (moments ts).filter fun m => m.token.gNumber = some n && Scalar.less tolerance m.distance

def total (vs : List α) : α := vs.foldl (· + ·) Scalar.zero

/-- The feeds above zero, one for each token with such a feed in force. -/
def feeds (ts : List (Token α)) : List α :=
  ((moments ts).map Moment.feed).filter fun v => Scalar.less Scalar.zero v

def points (ts : List (Token α)) : List (α × α) :=
  ((moments ts).filter fun m => m.token.words.setsPlane).map Moment.point

def gWords (ts : List (Token α)) : WordCounts :=
  (ts.filterMap Token.gNumber).foldl (fun counts n => counts.add (Tally.gWordName n)) []

/-! ### The report -/

def report (limits : AnalysisLimits α) (lineCount : Nat) (ts : List (Token α)) :
    AnalysisReport α where
  summary :=
    { linesRead := lineCount
      processedLines := ts.length
      rapidMoves := ts.countP fun t => t.gNumber = some 0
      cutMoves := ts.countP fun t => t.gNumber = some 1
      gWordCounts := gWords ts
      cutDistance := total ((moves limits.tolerance 1 ts).map Moment.distance)
      cutTime := total ((moves limits.tolerance 1 ts).map Moment.seconds)
      rapidDistance := total ((moves limits.tolerance 0 ts).map Moment.distance)
      warnings := (ts.flatMap Token.warnings).length }
  feeds := (Series.ofList (feeds ts)).stats
  heights := (Series.ofList (ts.filterMap fun t => t.words.z)).stats
  bounds :=
    { xMin := (Series.ofList (ts.filterMap fun t => t.words.x)).stats.min
      xMax := (Series.ofList (ts.filterMap fun t => t.words.x)).stats.max
      yMin := (Series.ofList (ts.filterMap fun t => t.words.y)).stats.min
      yMax := (Series.ofList (ts.filterMap fun t => t.words.y)).stats.max }
  chart :=
    { feeds := feeds ts
      zValues := ts.filterMap fun t => t.words.z
      trajectory := (points ts).take limits.trajectory }

/-! ### One more token -/

theorem tokens_append (first : Nat) (ls ms : List (List Char)) :
    (tokens first (ls ++ ms) : List (Token α)) =
      tokens first ls ++ tokens (first + ls.length) ms := by
  simp only [tokens, List.zipIdx_append, List.filterMap_append]

theorem tokens_cons (first : Nat) (l : List Char) (ls : List (List Char)) :
    (tokens first (l :: ls) : List (Token α)) =
      (Token.read? first l).toList ++ tokens (first + 1) ls := by
  rw [tokens, List.zipIdx_cons, List.filterMap_cons, tokens]
  dsimp only
  cases (Token.read? first l : Option (Token α)) <;> rfl

theorem lastValue_snoc (a : Axis) (ts : List (Token α)) (t : Token α) :
    lastValue a (ts ++ [t]) = (t.words.get a).getD (lastValue a ts) := by
  rw [lastValue, List.reverse_append, List.reverse_singleton, List.singleton_append,
    List.findSome?_cons]
  cases t.words.get a <;> rfl

theorem position_snoc (ts : List (Token α)) (t : Token α) :
    position (ts ++ [t]) = t.words.move (position ts) := by
  simp only [position, lastValue_snoc]
  rfl

theorem feed_snoc (ts : List (Token α)) (t : Token α) :
    feed (ts ++ [t]) = t.words.f.getD (feed ts) := lastValue_snoc .f ts t

omit [Scalar α] in
/-- The last moment sees all the tokens before it, and the others see what they saw. -/
theorem moments_snoc (ts : List (Token α)) (t : Token α) :
    moments (ts ++ [t]) = moments ts ++ [⟨ts, t⟩] := by
  have key (ps : List (Token α)) : ∀ ts : List (Token α),
      List.zipWith Moment.mk ((ts ++ [t]).inits.map (ps ++ ·)) (ts ++ [t]) =
        List.zipWith Moment.mk (ts.inits.map (ps ++ ·)) ts ++ [⟨ps ++ ts, t⟩] := by
    intro ts
    induction ts generalizing ps with
    | nil => simp
    | cons u us ih =>
      have hrest := ih (ps ++ [u])
      simpa [Function.comp_def] using hrest
  simpa [moments] using key [] ts

omit [Scalar α] in
theorem map_token_moments (ts : List (Token α)) : (moments ts).map Moment.token = ts := by
  induction ts using List.reverseRecOn with
  | nil => rfl
  | append_singleton ts t ih => rw [moments_snoc, List.map_append, ih, List.map_singleton]

theorem length_points (ts : List (Token α)) :
    (points ts).length = ts.countP fun t => t.words.setsPlane :=
  calc (points ts).length
    _ = (moments ts).countP fun m => m.token.words.setsPlane := by
      rw [points, List.length_map, List.countP_eq_length_filter]
    _ = ((moments ts).map Moment.token).countP fun t => t.words.setsPlane := by
      rw [List.countP_map]
      rfl
    _ = ts.countP fun t => t.words.setsPlane := by rw [map_token_moments]

theorem total_snoc (vs : List α) (v : α) : total (vs ++ [v]) = total vs + v := by
  simp only [total, List.foldl_append, List.foldl_cons, List.foldl_nil]

end BasRelief.Modal
