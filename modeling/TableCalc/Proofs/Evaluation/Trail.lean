import Mathlib.Data.Finset.Basic
import Mathlib.Tactic.Lemma
import TableCalc.Evaluation.Trail

/-!
# The history of a trail

Cells enter a trail and leave it in any order, and some of them are refused. The path of the trail
follows from this history alone: the cells that have entered and not left since, by the time of
their last entry (`Records`).

A trail can be kept with a set of its cells beside the path, so that a cell is looked up without a
search. Then the set decides what enters and leaves, and the path only follows. Both hold the same
cells after any history (`Coherent.follow`), and so there is no telling such a trail from a plain
one (`Coherent.agrees`).
-/

namespace TableCalc

/-- A change to a trail. -/
inductive Move where
  | enter (cell : Address)
  | leave (cell : Address)
deriving DecidableEq, Repr

namespace Trail

/-- The trail after a change. -/
def move (t : Trail) : Move → Trail
  | .enter cell => (t.enter cell).2
  | .leave cell => t.leave cell

/-- The trail after changes, one after another. -/
def follow (t : Trail) (moves : List Move) : Trail := moves.foldl move t

end Trail

/-- A trail with a set of its cells. -/
structure IndexedTrail where
  cells : Finset Address := ∅
  path : List Address := []
deriving DecidableEq

namespace IndexedTrail

/-- Whether a cell is under evaluation, by the set. -/
def contains (s : IndexedTrail) (cell : Address) : Bool := decide (cell ∈ s.cells)

/-- Whether no cell is under evaluation, by the path. -/
def isEmpty (s : IndexedTrail) : Bool := s.path.isEmpty

/-- Puts a cell into the set and, if it is new there, at the end of the path. Says whether it is
new. -/
def enter (s : IndexedTrail) (cell : Address) : Bool × IndexedTrail :=
  if cell ∈ s.cells then (false, s) else
    (true, { cells := insert cell s.cells, path := s.path ++ [cell] })

/-- Takes a cell out of the set and, if it was there, off the path. -/
def leave (s : IndexedTrail) (cell : Address) : IndexedTrail :=
  if cell ∈ s.cells then { cells := s.cells.erase cell, path := s.path.filter (· ≠ cell) } else s

/-- The trail after a change. -/
def move (s : IndexedTrail) : Move → IndexedTrail
  | .enter cell => (s.enter cell).2
  | .leave cell => s.leave cell

/-- The trail after changes, one after another. -/
def follow (s : IndexedTrail) (moves : List Move) : IndexedTrail := moves.foldl move s

/-- The trail without the set. -/
def plain (s : IndexedTrail) : Trail := ⟨s.path⟩

/-- The set and the path have the same cells, and the path has each of them once. -/
structure Coherent (s : IndexedTrail) : Prop where
  mem_cells : ∀ cell, cell ∈ s.cells ↔ cell ∈ s.path
  nodup : s.path.Nodup

/-- The cell has entered, and it has not left since. -/
def Inside (moves : List Move) (cell : Address) : Prop :=
  ∃ before after, moves = before ++ .enter cell :: after ∧ .leave cell ∉ after

/-- The change with this number lets the cell in: it is an entry, and the cell is new. -/
def EntersAt (moves : List Move) (cell : Address) (n : Nat) : Prop :=
  moves[n]? = some (.enter cell) ∧ ((follow {} (moves.take n)).enter cell).1 = true

/-- The change with this number is the last one to let the cell in. -/
def LastEntersAt (moves : List Move) (cell : Address) (n : Nat) : Prop :=
  EntersAt moves cell n ∧ ∀ m, EntersAt moves cell m → m ≤ n

/-- The last entry of one cell comes before the last entry of the other one. -/
def EntersBefore (moves : List Move) (cell other : Address) : Prop :=
  ∃ m n, LastEntersAt moves cell m ∧ LastEntersAt moves other n ∧ m < n

/-- The path has the cells that are inside after these changes, by the time of their last entry. -/
structure Records (moves : List Move) (path : List Address) : Prop where
  mem_iff : ∀ cell, cell ∈ path ↔ Inside moves cell
  entered : ∀ cell ∈ path, ∃ n, LastEntersAt moves cell n
  ordered : path.Pairwise (EntersBefore moves)

/-- What a trail with a set answers, and what becomes of it, by its path. -/
structure Answers (s : IndexedTrail) : Prop where
  contains_iff : ∀ cell, s.contains cell = true ↔ cell ∈ s.path
  isEmpty_iff : s.isEmpty = true ↔ ∀ cell, s.contains cell = false
  refuses_iff : ∀ cell, (s.enter cell).1 = false ↔ cell ∈ s.path
  enter_of_mem : ∀ cell ∈ s.path, (s.enter cell).2 = s
  path_enter : ∀ cell, cell ∉ s.path → (s.enter cell).2.path = s.path ++ [cell]
  path_leave : ∀ cell, (s.leave cell).path = s.path.filter (· ≠ cell)
  leave_of_not_mem : ∀ cell, cell ∉ s.path → s.leave cell = s
  /-- An entry can be undone when the path is again what it was right after it. -/
  undone : ∀ cell between, (s.enter cell).1 = true →
    ((s.enter cell).2.follow between).path = (s.enter cell).2.path →
      ((s.enter cell).2.follow between).leave cell = s

/-- The two trails have the same path and give the same answers. -/
structure Agrees (s : IndexedTrail) (t : Trail) : Prop where
  path_eq : s.path = t.path
  contains_eq : ∀ cell, s.contains cell = t.contains cell
  isEmpty_eq : s.isEmpty = t.isEmpty
  enters_eq : ∀ cell, (s.enter cell).1 = (t.enter cell).1

variable {s s' : IndexedTrail} {moves : List Move} {cell other : Address} {n : Nat}

/-- Nothing has entered at first, neither the set nor the path. -/
lemma coherent_empty : Coherent {} := ⟨by simp, List.nodup_nil⟩

namespace Coherent

/-- A cell enters both or none of them. -/
lemma enter (h : Coherent s) (cell : Address) : Coherent (s.enter cell).2 := by
  unfold IndexedTrail.enter
  split
  case isTrue _ => exact h
  case isFalse hcell =>
    refine ⟨fun other => ?_, ?_⟩
    · simp [h.mem_cells, or_comm]
    · exact List.concat_eq_append ▸ h.nodup.concat (mt (h.mem_cells cell).2 hcell)

/-- A cell leaves both of them. -/
lemma leave (h : Coherent s) (cell : Address) : Coherent (s.leave cell) := by
  unfold IndexedTrail.leave
  split
  case isTrue _ =>
    refine ⟨fun other => ?_, h.nodup.filter _⟩
    simp [h.mem_cells, and_comm]
  case isFalse _ => exact h

/-- No move tears the set and the path apart. -/
lemma move (h : Coherent s) (m : Move) : Coherent (s.move m) := by
  cases m with
  | enter cell => exact h.enter cell
  | leave cell => exact h.leave cell

/-- The set and the path stay in step. -/
lemma follow (h : Coherent s) (moves : List Move) : Coherent (s.follow moves) := by
  induction moves generalizing s with
  | nil => exact h
  | cons m moves ih => exact ih (h.move m)

/-- The path says everything about a coherent trail. -/
lemma ext (h : Coherent s) (h' : Coherent s') (path : s.path = s'.path) : s = s' := by
  obtain ⟨cells, path'⟩ := s
  obtain rfl : path' = s'.path := path
  have same : cells = s'.cells := Finset.ext fun cell =>
    (h.mem_cells cell).trans (h'.mem_cells cell).symm
  rw [same]

/-- A cell may enter unless it is on the path. -/
lemma enters_iff (h : Coherent s) : (s.enter cell).1 = true ↔ cell ∉ s.path := by
  rw [← h.mem_cells]
  unfold IndexedTrail.enter
  split <;> simp_all

/-- A cell that enters comes last on the path. -/
lemma path_enter (h : Coherent s) (hcell : cell ∉ s.path) :
    (s.enter cell).2.path = s.path ++ [cell] := by
  rw [IndexedTrail.enter, if_neg (mt (h.mem_cells cell).1 hcell)]

/-- A cell that is on the path already does not enter again. -/
lemma enter_of_mem (h : Coherent s) (hcell : cell ∈ s.path) : (s.enter cell).2 = s := by
  rw [IndexedTrail.enter, if_pos ((h.mem_cells cell).2 hcell)]

/-- A cell that is not on the path does not leave it. -/
lemma leave_of_not_mem (h : Coherent s) (hcell : cell ∉ s.path) : s.leave cell = s :=
  if_neg (mt (h.mem_cells cell).1 hcell)

/-- A cell that is not there leaves nothing behind either. -/
lemma path_leave (h : Coherent s) : (s.leave cell).path = s.path.filter (· ≠ cell) := by
  by_cases hcell : cell ∈ s.path
  · rw [IndexedTrail.leave, if_pos ((h.mem_cells cell).2 hcell)]
  · rw [h.leave_of_not_mem hcell, eq_comm, List.filter_eq_self]
    intro other hother
    exact decide_eq_true (ne_of_mem_of_not_mem hother hcell)

/-- With a coherent set, a move changes the path as it changes that of a plain trail. -/
lemma plain_move (h : Coherent s) (m : Move) : (s.move m).plain = s.plain.move m := by
  cases m with
  | enter cell =>
    show Trail.mk (s.enter cell).2.path = (s.plain.enter cell).2
    by_cases hcell : cell ∈ s.path
    · rw [h.enter_of_mem hcell, Trail.enter, if_pos (Trail.contains_iff.2 hcell)]
      rfl
    · rw [h.path_enter hcell, Trail.enter, if_neg (mt Trail.contains_iff.1 hcell)]
      rfl
  | leave cell => exact congrArg Trail.mk h.path_leave

/-- With a coherent set, all moves change the path as they change that of a plain trail. -/
lemma plain_follow (h : Coherent s) (moves : List Move) :
    (s.follow moves).plain = s.plain.follow moves := by
  induction moves generalizing s with
  | nil => rfl
  | cons m moves ih =>
    show ((s.move m).follow moves).plain = (s.plain.move m).follow moves
    rw [ih (h.move m), h.plain_move m]

/-- There is no telling a trail with a set from the one without it. -/
lemma agrees (h : Coherent s) : Agrees s s.plain where
  path_eq := rfl
  contains_eq cell := decide_eq_decide.2 (h.mem_cells cell)
  isEmpty_eq := rfl
  enters_eq cell := by
    rw [Bool.eq_iff_iff, h.enters_iff, Trail.enter_fst_iff]
    rfl

/-- A coherent trail answers every question as its path does. -/
lemma answers (h : Coherent s) : Answers s where
  contains_iff cell := decide_eq_true_iff.trans (h.mem_cells cell)
  isEmpty_iff := by
    simp [isEmpty, contains, h.mem_cells, List.eq_nil_iff_forall_not_mem]
  refuses_iff cell := by
    rw [← Bool.not_eq_true, h.enters_iff, not_not]
  enter_of_mem _ := h.enter_of_mem
  path_enter _ := h.path_enter
  path_leave _ := h.path_leave
  leave_of_not_mem _ := h.leave_of_not_mem
  undone cell between enters same := by
    have hcell : cell ∉ s.path := h.enters_iff.1 enters
    have entered : Coherent ((s.enter cell).2.follow between) := (h.enter cell).follow between
    refine (entered.leave cell).ext h ?_
    have kept : s.path.filter (· ≠ cell) = s.path :=
      List.filter_eq_self.2 fun other hother => decide_eq_true (ne_of_mem_of_not_mem hother hcell)
    rw [entered.path_leave, same, h.path_enter hcell, List.filter_append, kept]
    simp

end Coherent

/-- The last one of several moves comes after the others. -/
lemma follow_concat {m : Move} : s.follow (moves ++ [m]) = (s.follow moves).move m := by
  simp [follow]

/-- A cell is inside after a move if it entered with it, or if it was inside and did not leave. -/
lemma inside_concat {m : Move} :
    Inside (moves ++ [m]) cell ↔ m = .enter cell ∨ m ≠ .leave cell ∧ Inside moves cell := by
  constructor
  · rintro ⟨before, after, split, hafter⟩
    rcases List.eq_nil_or_concat' after with rfl | ⟨rest, last, rfl⟩
    · obtain ⟨-, hm⟩ := List.append_inj' split rfl
      exact .inl (List.singleton_inj.1 hm)
    · rw [← List.cons_append, ← List.append_assoc] at split
      obtain ⟨rfl, hm⟩ := List.append_inj' split rfl
      obtain rfl := List.singleton_inj.1 hm
      simp only [List.mem_append, List.mem_singleton, not_or] at hafter
      exact .inr ⟨Ne.symm hafter.2, before, rest, rfl, hafter.1⟩
  · rintro (rfl | ⟨hm, before, after, rfl, hafter⟩)
    · exact ⟨moves, [], rfl, by simp⟩
    · exact ⟨before, after ++ [m], by simp, by simp [hafter, Ne.symm hm]⟩

/-- A cell enters with one of the moves. -/
lemma EntersAt.lt (h : EntersAt moves cell n) : n < moves.length :=
  (List.getElem?_eq_some_iff.1 h.1).1

/-- A cell enters with one of the moves before the last, or with that one. -/
lemma entersAt_concat {m : Move} : EntersAt (moves ++ [m]) cell n ↔
    EntersAt moves cell n ∨
      n = moves.length ∧ m = .enter cell ∧ ((follow {} moves).enter cell).1 = true := by
  unfold EntersAt
  rcases Nat.lt_trichotomy n moves.length with hn | rfl | hn
  · rw [List.getElem?_append_left hn, List.take_append_of_le_length hn.le]
    simp [hn.ne]
  · simp
  · have none : (moves ++ [m])[n]? = none :=
      List.getElem?_eq_none (by simpa [Nat.succ_le_iff] using hn)
    rw [none, List.getElem?_eq_none hn.le]
    simp [hn.ne']

/-- A change that does not let the cell in leaves its last entry as it is. -/
lemma LastEntersAt.concat {m : Move} (h : LastEntersAt moves cell n)
    (other : ¬ (m = .enter cell ∧ ((follow {} moves).enter cell).1 = true)) :
    LastEntersAt (moves ++ [m]) cell n := by
  refine ⟨entersAt_concat.2 (.inl h.1), fun k hk => ?_⟩
  rcases entersAt_concat.1 hk with hk | ⟨-, hk⟩
  · exact h.2 k hk
  · exact absurd hk other

/-- A cell that has just entered did so with the last move. -/
lemma lastEntersAt_concat_self (enters : ((follow {} moves).enter cell).1 = true) :
    LastEntersAt (moves ++ [.enter cell]) cell moves.length := by
  refine ⟨entersAt_concat.2 (.inr ⟨rfl, rfl, enters⟩), fun k hk => ?_⟩
  rcases entersAt_concat.1 hk with hk | ⟨rfl, -⟩
  · exact hk.lt.le
  · exact Nat.le_refl _

namespace Records

variable {path path' : List Address}

/-- After a change that lets no cell in, some cells of the path may be gone. -/
lemma concat {m : Move} (h : Records moves path) (sub : path'.Sublist path)
    (mem_iff : ∀ cell, cell ∈ path' ↔ Inside (moves ++ [m]) cell)
    (none : ∀ cell, ¬ (m = .enter cell ∧ ((follow {} moves).enter cell).1 = true)) :
    Records (moves ++ [m]) path' where
  mem_iff := mem_iff
  entered cell hcell := by
    obtain ⟨n, last⟩ := h.entered cell (sub.subset hcell)
    exact ⟨n, last.concat (none cell)⟩
  ordered := by
    refine (h.ordered.sublist sub).imp ?_
    rintro cell other ⟨k, n, hk, hn, lt⟩
    exact ⟨k, n, hk.concat (none cell), hn.concat (none other), lt⟩

/-- The record stays right when a cell enters. -/
lemma enter (h : Records moves path) (hcell : cell ∉ path)
    (enters : ((follow {} moves).enter cell).1 = true) :
    Records (moves ++ [.enter cell]) (path ++ [cell]) := by
  have kept {other n} (hother : other ∈ path) (last : LastEntersAt moves other n) :
      LastEntersAt (moves ++ [.enter cell]) other n :=
    last.concat fun ⟨same, _⟩ => hcell (Move.enter.inj same ▸ hother)
  refine ⟨fun other => ?_, fun other hother => ?_, ?_⟩
  · rw [inside_concat, List.mem_append, List.mem_singleton, h.mem_iff, Move.enter.injEq]
    simp [or_comm, eq_comm]
  · rcases List.mem_append.1 hother with hother | hother
    · obtain ⟨n, last⟩ := h.entered other hother
      exact ⟨n, kept hother last⟩
    · obtain rfl := List.mem_singleton.1 hother
      exact ⟨_, lastEntersAt_concat_self enters⟩
  · refine List.pairwise_append.2 ⟨?_, List.pairwise_singleton _ _, fun other hother z hz => ?_⟩
    · refine h.ordered.imp_of_mem ?_
      rintro a b ha hb ⟨k, n, hk, hn, lt⟩
      exact ⟨k, n, kept ha hk, kept hb hn, lt⟩
    · obtain rfl := List.mem_singleton.1 hz
      obtain ⟨n, last⟩ := h.entered other hother
      exact ⟨n, _, kept hother last, lastEntersAt_concat_self enters, last.1.lt⟩

end Records

/-- What is on the path follows from the history. -/
lemma records_follow (moves : List Move) : Records moves (follow {} moves).path := by
  induction moves using List.reverseRecOn with
  | nil => exact ⟨by simp [follow, Inside], by simp [follow], .nil⟩
  | append_singleton moves m ih =>
    have coherent : Coherent (follow {} moves) := coherent_empty.follow moves
    rw [follow_concat]
    cases m with
    | enter cell =>
      show Records _ ((follow {} moves).enter cell).2.path
      by_cases hcell : cell ∈ (follow {} moves).path
      · rw [coherent.enter_of_mem hcell]
        refine ih.concat (.refl _) (fun other => ?_) ?_
        · rw [inside_concat, ih.mem_iff]
          simp only [Move.enter.injEq, ne_eq, reduceCtorEq, not_false_eq_true, true_and,
            iff_or_self]
          rintro rfl
          exact (ih.mem_iff _).1 hcell
        · rintro other ⟨⟨⟩, enters⟩
          exact coherent.enters_iff.1 enters hcell
      · rw [coherent.path_enter hcell]
        exact ih.enter hcell (coherent.enters_iff.2 hcell)
    | leave cell =>
      show Records _ ((follow {} moves).leave cell).path
      rw [coherent.path_leave]
      refine ih.concat List.filter_sublist (fun other => ?_) nofun
      rw [inside_concat, List.mem_filter, ih.mem_iff, decide_eq_true_iff, and_comm]
      simp only [reduceCtorEq, false_or, ne_eq, Move.leave.injEq, @eq_comm _ cell]

/-- A trail after any history has the cells that have entered and not left since, each once and by
the time of its last entry. It answers by its path, it lets in only what is not there, and it lets
go only of what it is told to. All this goes for a trail with a set of its cells, where the set and
the path are changed apart, and the plain trail is no different. -/
theorem history_determines_trail (moves : List Move) :
    let s := follow {} moves
    Records moves s.path ∧ s.path.Nodup ∧ Answers s ∧ Agrees s (Trail.empty.follow moves) := by
  have coherent : Coherent (follow {} moves) := coherent_empty.follow moves
  have plain : (follow {} moves).plain = Trail.empty.follow moves :=
    coherent_empty.plain_follow moves
  exact ⟨records_follow moves, coherent.nodup, coherent.answers, plain ▸ coherent.agrees⟩

/-- A cell that enters again comes last, and it cannot enter twice. -/
example :
  (follow {} [.enter ⟨0, 0⟩, .enter ⟨0, 1⟩, .leave ⟨0, 0⟩, .enter ⟨0, 1⟩, .enter ⟨0, 0⟩]).path =
    [⟨0, 1⟩, ⟨0, 0⟩] := by decide

end IndexedTrail

end TableCalc
