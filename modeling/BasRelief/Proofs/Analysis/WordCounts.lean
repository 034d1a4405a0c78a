import BasRelief.Proofs.Analysis.Modal
import Mathlib.Algebra.GroupWithZero.Nat
import Mathlib.Data.List.Count

/-!
# Counts of words

Words that are added one by one are counted: the entries stand in the order of the words, each word
has one entry, and the entry says how often the word was added. A G word stands for its number.
-/

namespace BasRelief

namespace WordCounts

/-! ### The order of the words -/

/-- Every word has one entry, and the entries stand in the order of the words. -/
def Ordered (c : WordCounts) : Prop := (c.map Prod.fst).Pairwise (· < ·)

theorem word_lt_of_not_lt {w v : String} (hne : w ≠ v) (h : ¬w < v) : v < w :=
  Std.lt_of_le_of_ne h hne.symm

theorem mem_words_add {w v : String} {c : WordCounts} (h : w ∈ (c.add v).map Prod.fst) :
    w = v ∨ w ∈ c.map Prod.fst := by
  induction c with
  | nil => exact .inl (List.mem_singleton.mp h)
  | cons e c ih =>
    obtain ⟨u, n⟩ := e
    rw [add] at h
    split at h
    · exact .inr h
    · split at h
      · exact List.mem_cons.mp h
      · obtain h | h := List.mem_cons.mp h
        · exact .inr (h ▸ List.mem_cons_self)
        · exact (ih h).imp_right (List.mem_cons_of_mem u)

theorem ordered_add {c : WordCounts} (h : c.Ordered) (v : String) : (c.add v).Ordered := by
  induction c with
  | nil => exact List.pairwise_singleton _ _
  | cons e c ih =>
    obtain ⟨u, n⟩ := e
    obtain ⟨hfirst, hrest⟩ := List.pairwise_cons.mp h
    rw [add]
    split
    · exact h
    · split
      case isTrue hlt =>
        refine List.pairwise_cons.mpr ⟨?_, h⟩
        intro w hw
        obtain rfl | hw := List.mem_cons.mp hw
        · exact hlt
        · exact String.lt_trans hlt (hfirst w hw)
      case isFalse hne hnot =>
        refine List.pairwise_cons.mpr ⟨?_, ih hrest⟩
        intro w hw
        obtain rfl | hw := mem_words_add hw
        · exact word_lt_of_not_lt hne hnot
        · exact hfirst w hw

/-! ### How often a word was added -/

theorem count_cons (w v : String) (n : Nat) (c : WordCounts) :
    count w ((v, n) :: c) = if w = v then n else count w c := by
  by_cases h : w = v
  · simp [count, h]
  · have hbeq : (w == v) = false := beq_false_of_ne h
    simp [count, h, List.lookup_cons, hbeq]

theorem count_eq_zero {w : String} {c : WordCounts} (h : w ∉ c.map Prod.fst) : count w c = 0 := by
  induction c with
  | nil => rfl
  | cons e c ih =>
    obtain ⟨v, n⟩ := e
    have hne : w ≠ v := fun heq => h (heq ▸ List.mem_cons_self)
    rw [count_cons, if_neg hne]
    exact ih fun hmem => h (List.mem_cons_of_mem _ hmem)

theorem count_add {c : WordCounts} (h : c.Ordered) (w v : String) :
    count w (c.add v) = count w c + if w = v then 1 else 0 := by
  induction c with
  | nil =>
    rw [add, count_cons]
    exact (Nat.zero_add _).symm
  | cons e c ih =>
    obtain ⟨u, n⟩ := e
    obtain ⟨hfirst, hrest⟩ := List.pairwise_cons.mp h
    rw [add]
    by_cases hvu : v = u
    · rw [if_pos hvu, count_cons, count_cons, hvu]
      split <;> rfl
    · rw [if_neg hvu]
      by_cases hlt : v < u
      · rw [if_pos hlt, count_cons]
        by_cases hwv : w = v
        · -- a word below the first one has no entry yet
          have hnew : w ∉ ((u, n) :: c).map Prod.fst := by
            intro hmem
            obtain hmem | hmem := List.mem_cons.mp hmem
            · exact hvu (hwv.symm.trans hmem)
            · exact String.lt_irrefl v (String.lt_trans hlt (hwv ▸ hfirst w hmem))
          rw [if_pos hwv, if_pos hwv, count_eq_zero hnew]
        · rw [if_neg hwv, if_neg hwv, Nat.add_zero]
      · rw [if_neg hlt, count_cons, count_cons, ih hrest]
        by_cases hwu : w = u
        · have hwv : w ≠ v := fun heq => hvu (heq ▸ hwu)
          rw [if_pos hwu, if_pos hwu, if_neg hwv, Nat.add_zero]
        · rw [if_neg hwu, if_neg hwu]

theorem sum_add (c : WordCounts) (v : String) :
    ((c.add v).map Prod.snd).sum = (c.map Prod.snd).sum + 1 := by
  induction c with
  | nil => rfl
  | cons e c ih =>
    obtain ⟨u, n⟩ := e
    rw [add]
    split
    · simp only [List.map_cons, List.sum_cons]
      omega
    · split
      · simp only [List.map_cons, List.sum_cons]
        omega
      · simp only [List.map_cons, List.sum_cons, ih]
        omega

theorem positive_add {c : WordCounts} (h : ∀ e ∈ c, 0 < e.2) (v : String) :
    ∀ e ∈ c.add v, 0 < e.2 := by
  induction c with
  | nil =>
    intro e he
    rw [List.mem_singleton.mp he]
    exact Nat.one_pos
  | cons e c ih =>
    obtain ⟨hfirst, hrest⟩ := List.forall_mem_cons.mp h
    obtain ⟨u, n⟩ := e
    rw [add]
    split
    · exact List.forall_mem_cons.mpr ⟨Nat.succ_pos n, hrest⟩
    · split
      · exact List.forall_mem_cons.mpr ⟨Nat.one_pos, h⟩
      · exact List.forall_mem_cons.mpr ⟨hfirst, ih hrest⟩

/-! ### Words that were counted -/

/-- What counts say of the words that were added. -/
structure IsCountOf (c : WordCounts) (ws : List String) : Prop where
  ordered : c.Ordered
  positive : ∀ e ∈ c, 0 < e.2
  total : (c.map Prod.snd).sum = ws.length
  count_eq : ∀ w, count w c = ws.count w

theorem isCountOf_nil : IsCountOf [] [] where
  ordered := List.Pairwise.nil
  positive := by
    intro e he
    cases he
  total := rfl
  count_eq _ := rfl

theorem IsCountOf.add {c : WordCounts} {ws : List String} (h : c.IsCountOf ws) (v : String) :
    (c.add v).IsCountOf (ws ++ [v]) where
  ordered := ordered_add h.ordered v
  positive := positive_add h.positive v
  total := by rw [sum_add, h.total, List.length_append, List.length_singleton]
  count_eq w := by
    rw [count_add h.ordered, h.count_eq, List.count_append, List.count_singleton]
    by_cases hw : w = v
    · rw [hw, if_pos rfl, if_pos (beq_self_eq_true v)]
    · rw [if_neg hw, if_neg (by simpa using Ne.symm hw)]

end WordCounts

/-! ### G words -/

theorem Tally.gWordName_injective : Function.Injective Tally.gWordName := by
  intro m n h
  have hdigits : Decimal.digits m = Decimal.digits n := by
    have hlist := congrArg String.toList h
    simpa [Tally.gWordName, Decimal.natText] using hlist
  rw [← Decimal.value_digits m, hdigits, Decimal.value_digits]

theorem Modal.isCountOf_gWords {α : Type} (ts : List (Gcode.Token α)) :
    (gWords ts).IsCountOf ((ts.filterMap Gcode.Token.gNumber).map Tally.gWordName) := by
  rw [gWords]
  generalize ts.filterMap Gcode.Token.gNumber = ns
  induction ns using List.reverseRecOn with
  | nil => exact WordCounts.isCountOf_nil
  | append_singleton ns n ih =>
    rw [List.foldl_append, List.map_append]
    exact ih.add (Tally.gWordName n)

end BasRelief
