import Mathlib.Data.List.Induction
import Mathlib.Data.List.Perm.Subperm
import Mathlib.Logic.Relation
import Mathlib.Tactic.Lemma
import TableCalc.Expression.Token
import TableCalc.Proofs.Grid

/-!
# References between cells

The reference graph of a raw grid: an expression cell points to every cell that a lexeme of its
normalized source stands for (`References`), whether that cell is there or not.

`Leads raw start e path e'` says that the cells of `path` go from the evaluation of `e` for `start`
to the evaluation of `e'`, each by a reference in the expression before it. If `e` is the expression
of `start`, every cell on such a path reaches every cell that `e'` mentions (`Leads.reaches`), so a
reference back to the path closes a cycle of the graph.

Expressions are read from the right. `RightmostReference P lexemes z` says which of their references
to cells with a property is met first.
-/

namespace TableCalc
open Expression Relation

/-- A lexeme of the expression refers to `z`. -/
def Mentions (expression : String) (z : Address) : Prop :=
  ∃ lexeme ∈ tokenize expression, Token.classify lexeme = .ok (.reference z)

/-- `x` is an expression cell and `expression` the normal form of its source. -/
def Holds (raw : Grid) (x : Address) (expression : String) : Prop :=
  ∃ source, raw[x]? = some (.expression source) ∧ expression = normalize source

/-- The edges of the reference graph. -/
def References (raw : Grid) (x z : Address) : Prop := ∃ expression, Holds raw x expression ∧
    Mentions expression z

/-- No cycle of the reference graph can be reached from `x`. -/
def Acyclic (raw : Grid) (x : Address) : Prop :=
  ∀ y, ReflTransGen (References raw) x y → ¬ TransGen (References raw) y y

variable {raw : Grid}

/-- An expression cell holds its source in normal form. -/
lemma Holds.of_eq {x source} (h : raw[x]? = some (.expression source)) :
    Holds raw x (normalize source) :=
  ⟨source, h, rfl⟩

/-- A cell holds one expression at most. -/
lemma Holds.unique {x e e'} (h : Holds raw x e) (h' : Holds raw x e') : e = e' := by
  obtain ⟨source, hx, rfl⟩ := h
  obtain ⟨source', hx', rfl⟩ := h'
  cases hx.symm.trans hx'
  rfl

/-- A cell that reaches no cycle is on none. -/
lemma Acyclic.not_reaches_self {x} (h : Acyclic raw x) : ¬ TransGen (References raw) x x :=
  h x .refl

/-- A cell that reaches no cycle refers to cells that reach none. -/
lemma Acyclic.of_references {x z} (h : Acyclic raw x) (edge : References raw x z) : Acyclic raw z :=
  fun y hy => h y (.head edge hy)

/-- A cycle through a cell goes through one of the cells it refers to. -/
lemma acyclic_of_forall {x} (h : ∀ z, References raw x z → Acyclic raw z) : Acyclic raw x := by
  have loose : ¬ TransGen (References raw) x x := by
    intro cycle
    obtain ⟨z, edge, back⟩ := TransGen.head'_iff.1 cycle
    exact h z edge x back cycle
  intro y hy
  rcases hy.cases_head with rfl | ⟨z, edge, rest⟩
  · exact loose
  · exact h z edge y rest

/-- If no cell has two successors, there is a way back from wherever a cycle leads. -/
lemma reaches_back {r : Address → Address → Prop} (unique : Relator.RightUnique r) {x y}
    (cycle : TransGen r x x) (path : ReflTransGen r x y) : TransGen r y x := by
  induction path with
  | refl => exact cycle
  | tail _ edge ih =>
    obtain ⟨z, edge', back⟩ := TransGen.head'_iff.1 ih
    obtain rfl := unique edge edge'
    exact TransGen.trans_right back cycle

/-- `Leads raw start e path e'`: the path leads from the evaluation of `e` for `start` to the
evaluation of `e'`. -/
inductive Leads (raw : Grid) (start : Address) (expression : String) :
    List Address → String → Prop where
  | start :
    Leads raw start expression [start] expression
  | on {path e z e'} :
    Leads raw start expression path e →
    Mentions e z →
    Holds raw z e' →
    Leads raw start expression (path ++ [z]) e'

/-- A path starts at its start, and goes on with expression cells. -/
lemma Leads.exists_tail {start e path e'} (leads : Leads raw start e path e') :
    ∃ rest, path = start :: rest ∧ ∀ y ∈ rest, ∃ e', Holds raw y e' := by
  induction leads with
  | start => exact ⟨[], rfl, by simp⟩
  | @on path e z e' _ _ hz ih =>
    obtain ⟨rest, rfl, hrest⟩ := ih
    refine ⟨rest ++ [z], rfl, ?_⟩
    intro y hy
    rcases List.mem_append.1 hy with hy | hy
    · exact hrest y hy
    · exact ⟨e', List.mem_singleton.1 hy ▸ hz⟩

/-- If `start` holds the expression it is evaluated with, the last cell of a path holds the
expression that the path leads to. -/
lemma Leads.holds_last {start e path z e'} (leads : Leads raw start e (path ++ [z]) e')
    (own : Holds raw start e) :
    Holds raw z e' := by
  generalize hpath : path ++ [z] = whole at leads
  cases leads with
  | start =>
    obtain ⟨rfl, e⟩ := List.append_eq_singleton_iff.1 hpath |>.resolve_right (by simp)
    cases e
    exact own
  | on _ _ hz =>
    obtain ⟨-, e⟩ := List.append_inj' hpath rfl
    cases e
    exact hz

/-- Every cell on a path reaches the cells that the expression at its end mentions. -/
lemma Leads.reaches {start e path e' z} (leads : Leads raw start e path e')
    (own : Holds raw start e)
    (mentions : Mentions e' z) : ∀ y ∈ path, TransGen (References raw) y z := by
  induction leads generalizing z with
  | start =>
    intro y hy
    rw [List.mem_singleton.1 hy]
    exact .single ⟨e, own, mentions⟩
  | @on path e z' e' _ hmentions hz ih =>
    intro y hy
    have edge : References raw z' z := ⟨e', hz, mentions⟩
    rcases List.mem_append.1 hy with hy | hy
    · exact .tail (ih hmentions y hy) edge
    · rw [List.mem_singleton.1 hy]
      exact .single edge

/-- A path stays at its start, or leads on to a cell that the first expression reaches. -/
lemma Leads.exists_last {start e path e'} (leads : Leads raw start e path e') :
    ∃ front y, path = front ++ [y] ∧
      (y = start ∨ Holds raw y e' ∧ ∃ w, Mentions e w ∧ ReflTransGen (References raw) w y) := by
  cases leads with
  | start => exact ⟨[], start, rfl, .inl rfl⟩
  | @on path e₁ z _ leads mentions hz =>
    refine ⟨path, z, rfl, .inr ⟨hz, ?_⟩⟩
    clear hz
    induction leads generalizing z with
    | start => exact ⟨z, mentions, .refl⟩
    | @on path e₁ y e₂ _ hmentions hy ih =>
      obtain ⟨w, hw, reaches⟩ := ih hmentions
      exact ⟨w, hw, reaches.tail ⟨e₂, hy, mentions⟩⟩

/-- Without repetitions a path has no more cells than its start and all expression cells. -/
lemma Leads.length_le {start e path e'} (leads : Leads raw start e path e') (nodup : path.Nodup) :
    path.length ≤ 1 + raw.expressions.length := by
  obtain ⟨rest, rfl, hrest⟩ := leads.exists_tail
  have sub : rest ⊆ raw.expressions.map Prod.fst := by
    intro y hy
    obtain ⟨_, source, h, -⟩ := hrest y hy
    exact List.mem_map.2 ⟨(y, source), Grid.mem_expressions.2 h, rfl⟩
  have bound := (List.subperm_of_subset (List.nodup_cons.1 nodup).2 sub).length_le
  rw [List.length_map] at bound
  rw [List.length_cons]
  omega

/-- Of the lexemes that refer to cells with the property, the rightmost one refers to `z`. -/
def RightmostReference (P : Address → Prop) (lexemes : List String) (z : Address) : Prop :=
  ∃ before lexeme after, lexemes = before ++ lexeme :: after ∧
    Token.classify lexeme = .ok (.reference z) ∧ P z ∧
    ∀ other ∈ after, ∀ w, Token.classify other = .ok (.reference w) → ¬ P w

namespace RightmostReference

variable {P Q : Address → Prop}

/-- The rightmost reference is the last lexeme, or else the rightmost one before it. -/
lemma snoc_iff {lexemes last z} :
    RightmostReference P (lexemes ++ [last]) z ↔
      Token.classify last = .ok (.reference z) ∧ P z ∨
        (∀ w, Token.classify last = .ok (.reference w) → ¬ P w) ∧
          RightmostReference P lexemes z := by
  refine ⟨?_, ?_⟩
  · rintro ⟨before, lexeme, after, split, hc, hz, hafter⟩
    rcases after.eq_nil_or_concat with rfl | ⟨after, other, rfl⟩
    · obtain ⟨-, e⟩ := List.append_inj' split rfl
      cases e
      exact .inl ⟨hc, hz⟩
    · rw [List.concat_eq_append, ← List.cons_append, ← List.append_assoc] at split
      obtain ⟨rfl, e⟩ := List.append_inj' split rfl
      cases e
      exact .inr ⟨hafter last (by simp), before, lexeme, after, rfl, hc, hz, fun other hother =>
        hafter other (by simp [hother])⟩
  · rintro (⟨hc, hz⟩ | ⟨hlast, before, lexeme, after, rfl, hc, hz, hafter⟩)
    · exact ⟨lexemes, last, [], rfl, hc, hz, by simp⟩
    · refine ⟨before, lexeme, after ++ [last], by simp, hc, hz, fun other hother => ?_⟩
      rcases List.mem_append.1 hother with hother | hother
      · exact hafter other hother
      · exact List.mem_singleton.1 hother ▸ hlast

/-- The cell that is referred to has the property. -/
lemma property {lexemes z} (h : RightmostReference P lexemes z) : P z := by
  obtain ⟨before, lexeme, after, -, -, hz, -⟩ := h
  exact hz

/-- An expression mentions the cell of its rightmost reference. -/
lemma mentions {e z} (h : RightmostReference P (tokenize e) z) : Mentions e z := by
  obtain ⟨before, lexeme, after, split, hc, -⟩ := h
  exact ⟨lexeme, by simp [split], hc⟩

/-- If any of the cells has the property, there is a rightmost one. -/
lemma exists_of_mem {lexemes lexeme w} (hmem : lexeme ∈ lexemes)
    (hc : Token.classify lexeme = .ok (.reference w))
    (hw : P w) : ∃ z, RightmostReference P lexemes z := by
  induction lexemes using List.reverseRecOn with
  | nil => cases hmem
  | append_singleton lexemes last ih =>
    by_cases hlast : ∃ z, Token.classify last = .ok (.reference z) ∧ P z
    · obtain ⟨z, hz⟩ := hlast
      exact ⟨z, snoc_iff.2 (.inl hz)⟩
    · have others : ∀ z, Token.classify last = .ok (.reference z) → ¬ P z :=
        fun z hc hz => hlast ⟨z, hc, hz⟩
      rcases List.mem_append.1 hmem with hmem | hmem
      · obtain ⟨z, rightmost⟩ := ih hmem
        exact ⟨z, snoc_iff.2 (.inr ⟨others, rightmost⟩)⟩
      · exact absurd hw (others w (List.mem_singleton.1 hmem ▸ hc))

/-- The reference remains the rightmost one for a property of its cell that no other cell gains. -/
lemma imp {lexemes z} (h : RightmostReference P lexemes z) (hz : Q z)
    (hQP : ∀ lexeme ∈ lexemes, ∀ w, Token.classify lexeme = .ok (.reference w) → Q w → P w) :
    RightmostReference Q lexemes z := by
  obtain ⟨before, lexeme, after, rfl, hc, -, hafter⟩ := h
  refine ⟨before, lexeme, after, rfl, hc, hz, fun other hother w hw => ?_⟩
  exact mt (hQP other (by simp [hother]) w hw) (hafter other hother w hw)

end RightmostReference

end TableCalc
