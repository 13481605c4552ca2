import Mathlib.Tactic.Lemma
import TableCalc.Files

/-!
# Writing and reading files

A path either names a place where a file can be written, whatever the content, or it cannot be
written to for a reason that has nothing to do with the content (`write_cases`). Writing puts the
content at this place and changes no other one, and the path leads to the content afterwards
(`Opens.read`).

Which paths can be written to depends on the directories alone (`SameDirectories.exists_opens_iff`).

A path that leads to no file leads to a directory or to nothing (`read_error_cases`).
-/

namespace TableCalc.FileTree

/-- A file can be written at the path, and `place` is where it stands then. -/
def Opens (t : FileTree) (path : Path) (place : List Name) : Prop :=
  ∀ content, t.write path content = .ok (t.insert place (.file content))

/-- The trees have the same directories, whatever their files are. -/
structure SameDirectories (t t' : FileTree) : Prop where
  workingDirectory_eq : t'.workingDirectory = t.workingDirectory
  directory_iff : ∀ place, t'.node place = some .directory ↔ t.node place = some .directory

/-- `t.Way place parts q`: the parts of a path lead through directories, from `place` to `q`. -/
inductive Way (t : FileTree) : List Name → List Name → List Name → Prop where
  | here {place} :
    Way t place [] place
  | stay {place part parts q} :
    part = [] ∨ part = Path.here →
    Way t place parts q →
    Way t place (part :: parts) q
  | up {place parts q} :
    Way t place.dropLast parts q →
    Way t place (Path.up :: parts) q
  | down {place part parts q} :
    ¬ (part = [] ∨ part = Path.here) →
    part ≠ Path.up →
    part.length ≤ maxName →
    t.node (place ++ [part]) = some .directory →
    Way t (place ++ [part]) parts q →
    Way t place (part :: parts) q

variable {t t' : FileTree}

/-- Only the node that is put there is another one. -/
@[simp] lemma node_insert {place p : List Name} {n : FileNode} :
    (t.insert place n).node p = if p = place then some n else t.node p := rfl

namespace Way

variable {place parts q : List Name}

/-- A path goes on from the directory to which its first parts lead. -/
lemma follow_append (way : t.Way place parts q) (rest : List Name) :
    t.follow place (parts ++ rest) = t.follow q rest := by
  induction way with
  | here => rfl
  | stay hstay _ ih => rw [List.cons_append, follow, if_pos hstay, ih]
  | up _ ih => rw [List.cons_append, follow, if_neg (by decide), if_pos rfl, ih]
  | down hstay hup hshort hnode _ ih =>
    rw [List.cons_append, follow, if_neg hstay, if_neg hup, if_neg (Nat.not_lt.2 hshort), hnode]
    exact ih

/-- A way is followed to its end. -/
lemma follow_eq (way : t.Way place parts q) : t.follow place parts = .ok (q, .directory) := by
  have h := way.follow_append []
  rwa [List.append_nil] at h

/-- There is no other way to end at a directory. -/
lemma of_follow (h : t.follow place parts = .ok (q, .directory)) : t.Way place parts q := by
  induction parts generalizing place with
  | nil =>
    cases h
    exact .here
  | cons part parts ih =>
    unfold follow at h
    split at h
    case isTrue hstay => exact .stay hstay (ih h)
    case isFalse hstay =>
      split at h
      case isTrue hup => exact hup ▸ .up (ih h)
      case isFalse hup =>
        split at h
        case isTrue _ => cases h
        case isFalse hshort =>
          split at h
          case h_1 _ => cases h
          case h_2 hnode => exact .down hstay hup (Nat.not_lt.1 hshort) hnode (ih h)
          case h_3 _ => split at h <;> cases h

/-- The way is there wherever its directories are. -/
lemma of_directories (way : t.Way place parts q)
    (kept : ∀ p, t.node p = some .directory → t'.node p = some .directory) :
    t'.Way place parts q := by
  induction way with
  | here => exact .here
  | stay hstay _ ih => exact .stay hstay ih
  | up _ ih => exact .up ih
  | down hstay hup hshort hnode _ ih => exact .down hstay hup hshort (kept _ hnode) ih

end Way

/-- The path names a place in the directory `parent`, and there is no directory at this place. -/
structure Targets (t : FileTree) (path : Path) (parents : List Name) (name : Name)
    (parent : List Name) :
    Prop where
  check : checkPath path = .ok ()
  parts : splitLast path.parts = some (parents, name, false)
  way : t.Way (t.start path) parents parent
  not_dots : ¬ (name = Path.here ∨ name = Path.up)
  short : name.length ≤ maxName
  free : t.node (parent ++ [name]) ≠ some .directory

/-- If no slashes follow the last name, it comes after the other parts. -/
lemma splitLast_eq_some {parts parents : List Name} {name : Name}
    (h : splitLast parts = some (parents, name, false)) :
    parts = parents ++ [name] ∧ name ≠ [] := by
  unfold splitLast at h
  dsimp only at h
  split at h
  case h_1 _ => cases h
  case h_2 last front hdrop =>
    obtain ⟨rfl, rfl, hslash⟩ : front.reverse = parents ∧ last = name ∧
        parts.reverse.head? ≠ some [] := by
      simpa using h
    have hname : last ≠ [] := by
      have kept : parts.reverse.dropWhile (· = []) ≠ [] := by simp [hdrop]
      have := List.head_dropWhile_not _ kept
      simpa [hdrop] using this
    -- no slash follows the name, so there was nothing to drop
    have hparts : parts.reverse = last :: front := by
      cases hrev : parts.reverse with
      | nil => simp [hrev] at hdrop
      | cons x xs =>
        have hx : x ≠ [] := by simpa [hrev] using hslash
        simpa [hrev, hx] using hdrop
    exact ⟨by rw [← List.reverse_reverse parts, hparts, List.reverse_cons], hname⟩

/-- What writing does once the directory is found. -/
lemma write_eq {path parents name slashed parent} (check : checkPath path = .ok ())
    (parts : splitLast path.parts = some (parents, name, slashed))
    (found : t.follow (t.start path) parents = .ok (parent, .directory)) (content : ByteArray) :
    t.write path content =
      if slashed = true ∨ name = Path.here ∨ name = Path.up then .error .isADirectory
      else if maxName < name.length then .error .nameTooLong
      else match t.node (parent ++ [name]) with
        | some .directory => .error .isADirectory
        | _ => .ok (t.insert (parent ++ [name]) (.file content)) := by
  unfold write
  rw [check, parts]
  show (t.follow (t.start path) parents >>= _) = _
  rw [found]
  show (if slashed = true ∨ name = Path.here ∨
      name = Path.up then _ else _ : Except FileError FileTree) = _
  split
  case isTrue _ => rfl
  case isFalse _ =>
    split
    case isTrue _ => rfl
    case isFalse _ =>
      cases t.node (parent ++ [name]) with
      | none => rfl
      | some node => cases node <;> rfl

/-- A target can be opened. -/
lemma Targets.opens {path parents name parent} (h : t.Targets path parents name parent) :
    t.Opens path (parent ++ [name]) := by
  intro content
  rw [write_eq h.check h.parts h.way.follow_eq, if_neg, if_neg (Nat.not_lt.2 h.short)]
  · split
    case h_1 hnode => exact absurd hnode h.free
    case h_2 _ => rfl
  · simpa using h.not_dots

/-- Whether a file can be written, and where, does not depend on its content. -/
lemma write_cases (t : FileTree) (path : Path) :
    (∃ parents name parent, t.Targets path parents name parent) ∨ ∃ e, ∀ content,
      t.write path content = .error e := by
  cases hcheck : checkPath path with
  | error e => exact .inr ⟨e, fun content => by rw [write, hcheck]; rfl⟩
  | ok _ =>
    cases hparts : splitLast path.parts with
    | none => exact .inr ⟨.isADirectory, fun content => by rw [write, hcheck, hparts]; rfl⟩
    | some last =>
      obtain ⟨parents, name, slashed⟩ := last
      cases hfollow : t.follow (t.start path) parents with
      | error e =>
        refine .inr ⟨e, fun content => ?_⟩
        simp only [write, hcheck, hparts, hfollow, bind, Except.bind]
      | ok found =>
        obtain ⟨parent, node⟩ := found
        cases node with
        | file _ =>
          exact .inr ⟨.notADirectory, fun content => by
            simp only [write, hcheck, hparts, hfollow, bind, Except.bind]
            rfl⟩
        | directory =>
          simp only [write_eq hcheck hparts hfollow]
          by_cases hdots : slashed = true ∨ name = Path.here ∨ name = Path.up
          · exact .inr ⟨_, fun _ => if_pos hdots⟩
          by_cases hshort : maxName < name.length
          · exact .inr ⟨_, fun _ => by rw [if_neg hdots, if_pos hshort]⟩
          by_cases hfree : t.node (parent ++ [name]) = some .directory
          · exact .inr ⟨_, fun _ => by rw [if_neg hdots, if_neg hshort, hfree]⟩
          obtain ⟨hslashed, hname⟩ := not_or.1 hdots
          obtain rfl : slashed = false := Bool.eq_false_iff.2 hslashed
          exact .inl ⟨parents, name, parent, hcheck, hparts, .of_follow hfollow, hname,
            Nat.not_lt.1 hshort, hfree⟩

/-- The paths that can be opened are those with a target. -/
theorem exists_opens_iff {path} :
    (∃ place, t.Opens path place) ↔ ∃ parents name parent, t.Targets path parents name parent := by
  refine ⟨?_, fun ⟨_, _, _, h⟩ => ⟨_, h.opens⟩⟩
  rintro ⟨place, opens⟩
  refine (write_cases t path).resolve_right ?_
  rintro ⟨e, refuses⟩
  cases (opens .empty).symm.trans (refuses .empty)

/-- Where no file can be written, writing fails. -/
lemma exists_write_eq_error {path} (h : ¬ ∃ place, t.Opens path place) :
    ∃ e, ∀ content, t.write path content = .error e :=
  (write_cases t path).resolve_left (mt exists_opens_iff.2 h)

/-- What was written is what is read. -/
theorem Opens.read {path place} (opens : t.Opens path place) (content : ByteArray) :
    (t.insert place (.file content)).read path = .ok content := by
  obtain ⟨parents, name, parent, h⟩ := exists_opens_iff.1 ⟨place, opens⟩
  -- the path names one place only, so the tree is the one with the content there
  have same : t.insert place (.file content) = t.insert (parent ++ [name]) (.file content) :=
    Except.ok.inj ((opens content).symm.trans (h.opens content))
  obtain ⟨hparts, hname⟩ := splitLast_eq_some h.parts
  have kept : ∀ p, t.node p = some .directory →
      (t.insert (parent ++ [name]) (.file content)).node p = some .directory := by
    rintro p hp
    rw [node_insert, if_neg, hp]
    rintro rfl
    exact h.free hp
  have found : (t.insert (parent ++ [name]) (.file content)).follow (t.start path) path.parts =
      .ok (parent ++ [name], .file content) := by
    rw [hparts, (h.way.of_directories kept).follow_append, follow, if_neg, if_neg,
      if_neg (Nat.not_lt.2 h.short),
      node_insert, if_pos rfl]
    · exact if_pos rfl
    · exact fun hup => h.not_dots (.inr hup)
    · rintro (hempty | hdot)
      · exact hname hempty
      · exact h.not_dots (.inl hdot)
  have start : (t.insert (parent ++ [name]) (.file content)).start path = t.start path := rfl
  rw [same, FileTree.read, h.check, start, found]
  rfl

/-- A path that cannot be followed leads to nothing. -/
lemma isAbsence_of_follow {place parts e} (h : t.follow place parts = .error e) :
    e.isAbsence = true := by
  induction parts generalizing place with
  | nil => cases h
  | cons part parts ih =>
    unfold follow at h
    split at h
    case isTrue _ => exact ih h
    case isFalse _ =>
      split at h
      case isTrue _ => exact ih h
      case isFalse _ =>
        split at h
        case isTrue _ =>
          cases h
          rfl
        case isFalse _ =>
          split at h
          case h_1 _ =>
            cases h
            rfl
          case h_2 _ => exact ih h
          case h_3 _ =>
            split at h <;> cases h
            rfl

/-- A path that is refused leads to nothing. -/
lemma isAbsence_of_checkPath {path e} (h : checkPath path = .error e) : e.isAbsence = true := by
  unfold checkPath at h
  split at h
  case isTrue _ =>
    cases h
    rfl
  case isFalse _ =>
    split at h
    case isTrue _ =>
      cases h
      rfl
    case isFalse _ =>
      split at h <;> cases h
      rfl

/-- A path that cannot be read leads to nothing or to a directory. -/
lemma read_error_cases {path e} (h : t.read path = .error e) :
    e.isAbsence = true ∨ e = .isADirectory := by
  unfold read at h
  cases hcheck : checkPath path with
  | error e' =>
    rw [hcheck] at h
    cases h
    exact .inl (isAbsence_of_checkPath hcheck)
  | ok _ =>
    cases hfollow : t.follow (t.start path) path.parts with
    | error e' =>
      simp only [hcheck, hfollow, bind, Except.bind] at h
      cases h
      exact .inl (isAbsence_of_follow hfollow)
    | ok found =>
      obtain ⟨place, node⟩ := found
      simp only [hcheck, hfollow, bind, Except.bind] at h
      cases node with
      | file content => cases h
      | directory =>
        cases h
        exact .inr rfl

/-- A file that cannot be written leaves the tree as it is. -/
lemma run_writeFile {input content : ByteArray} {path : Path} :
    ((host input).writeFile path content).run t = match t.write path content with
      | .ok t' => (.ok (), t')
      | .error e => (.error e, t) := by
  show (match t.write path content with
    | .ok t' => _
    | .error e => _ : StateM FileTree (Except FileError Unit)).run t = _
  cases t.write path content <;> rfl

namespace SameDirectories

/-- Two trees have the same directories as each other. -/
lemma symm (same : SameDirectories t t') : SameDirectories t' t :=
  ⟨same.workingDirectory_eq.symm, fun place => (same.directory_iff place).symm⟩

/-- With the same directories, the targets are the same. -/
lemma targets (same : SameDirectories t t') {path parents name parent}
    (h : t.Targets path parents name parent) :
    t'.Targets path parents name parent := by
  have start : t'.start path = t.start path := by
    unfold FileTree.start
    rw [same.workingDirectory_eq]
  refine ⟨h.check, h.parts, ?_, h.not_dots, h.short, mt (same.directory_iff _).1 h.free⟩
  rw [start]
  exact h.way.of_directories fun p => (same.directory_iff p).2

/-- In trees with the same directories, the same paths can be written to. -/
theorem exists_opens_iff (same : SameDirectories t t') {path} :
    (∃ place, t'.Opens path place) ↔ ∃ place, t.Opens path place := by
  rw [FileTree.exists_opens_iff, FileTree.exists_opens_iff]
  exact ⟨fun ⟨_, _, _, h⟩ => ⟨_, _, _, same.symm.targets h⟩,
    fun ⟨_, _, _, h⟩ => ⟨_, _, _, same.targets h⟩⟩

end SameDirectories

end TableCalc.FileTree
