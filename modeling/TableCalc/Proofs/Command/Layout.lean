import TableCalc.Proofs.Command
import TableCalc.Proofs.Config

/-!
# The layout of a run

Each field of the layout that a run writes with comes from the command line, or else from the
configuration, or else it is as usual. The command line only comes on top of the layout that was
loaded (`decided_overrideLayout`), so what is known of loading it carries over to the run.
-/

namespace TableCalc.Command
open Config

variable {parse : String → Except String Settings} {i : Invocation} {s : OutputSection}
  {layout : Layout}

/-- What the command line gives comes on top of a layout. -/
lemma decided_overrideLayout (h : Decided none false s layout) (i : Invocation) :
    Decided i.delimiter i.lf s (overrideLayout i layout) where
  delimiter_given given hgiven := by simp [overrideLayout, hgiven]
  delimiter_set hnone text htext hne := by
    simpa [overrideLayout, hnone] using h.delimiter_set rfl text htext hne
  delimiter_usual hnone empty := by
    simpa [overrideLayout, hnone] using h.delimiter_usual rfl empty
  lineEnding_given hlf := by simp [overrideLayout, hlf]
  lineEnding_set hlf written ending hwritten spells := by
    simpa [overrideLayout, hlf] using h.lineEnding_set rfl written ending hwritten spells
  lineEnding_usual hlf unknown := by
    simpa [overrideLayout, hlf] using h.lineEnding_usual rfl unknown
  leadingBlankLine_set := h.leadingBlankLine_set
  leadingBlankLine_usual := h.leadingBlankLine_usual

/-- With a configuration file that the user has named, the one at the usual place is not looked
for. -/
lemma run_of_named {path : Path} (named : i.config = some path) {m : Type → Type} [Monad m]
    (host : Host m) (usual usual' : Option Path) :
    run host parse usual i = run host parse usual' i := by
  have load (found : Option Path) :
      load host parse (some path) found = load host parse (some path) none := by
    cases found <;> rfl
  unfold run
  dsimp only
  rw [named, load, load (if i.useDefaultConfig then usual' else none)]

/-- The layout of a run is decided field by field, and what cannot be used of a configuration file
is warned of, with one warning for each field, or with a single one for the file as a whole. -/
theorem runOn_decides_layout (parse : String → Except String Settings) (t : FileTree)
    (input : ByteArray) (usualConfig : Option Path) (i : Invocation) :
    let usual := if i.useDefaultConfig then usualConfig else none
    (∃ s warnings, Consults parse t i.config usual s warnings) ∧
    (∀ s warnings, Consults parse t i.config usual s warnings → ∃ loaded layout,
      (load (FileTree.host input) parse i.config usual).run t = (loaded, t) ∧
      loaded.warnings = warnings ∧ loaded.layout.delimiter ≠ "" ∧
      Decided none false s loaded.layout ∧ Decided i.delimiter i.lf s layout ∧
      ∀ table, Loads (tableBytes t input i) table → OutputOpens t i.output →
        Delivers t warnings i.output (layout.render table.compute.2)
          (runOn parse t input usualConfig i)) ∧
    ∀ path, i.config = some path → ∀ {m : Type → Type} [Monad m] (host : Host m)
      (other : Option Path), run host parse other i = run host parse usualConfig i := by
  refine ⟨exists_consults parse t _ _, fun s warnings consults => ?_,
    fun path named m _ host other => run_of_named named host other usualConfig⟩
  obtain ⟨loaded, loading, decided, warned⟩ := run_load_of_consults consults
  obtain rfl : configOn parse t usualConfig i = loaded :=
    congrArg Prod.fst (run_configLoad.symm.trans loading)
  have overridden : Decided i.delimiter i.lf s (layoutOn parse t usualConfig i) :=
    decided_overrideLayout decided i
  refine ⟨_, _, loading, warned, decided.delimiter_ne, decided, overridden, ?_⟩
  intro table loads opens
  exact warned ▸ runOn_delivers loads opens

/-- Settings with an empty delimiter and a line ending in other letters. -/
def untidySettings : String := "[output]\ndelimiter = ''\nline_ending = ' Lf'\n"

/-- Finds these settings in their text. -/
def parseUntidy (text : String) : Except String Settings :=
  if text = untidySettings then
    .ok { output := some { delimiter := some "", lineEnding := some " Lf" } }
  else .error "no settings"

/-- A directory `/tmp` that is worked in, with these settings in the file `c`. -/
def configTree : FileTree :=
  bareTree.insert [Name.ofText "tmp", Name.ofText "c"] (.file untidySettings.toUTF8)

/-- The settings are found in the file. -/
lemma finds_configTree : Finds parseUntidy (configTree.read (Path.ofText "c"))
    (.accepted { output := some { delimiter := some "", lineEnding := some " Lf" } }) := by
  have content : configTree.read (Path.ofText "c") = .ok untidySettings.toUTF8 := rfl
  have decoded : String.fromUTF8? untidySettings.toUTF8 = some untidySettings := by decide +kernel
  rw [content]
  exact .accepted (by decide +kernel) decoded (if_pos rfl)

/-- The delimiter is the empty text that is given, the line ending is the one that is set, and the
rest is as usual. That the file sets the delimiter to an empty text is warned of, though it does not
count. -/
theorem runOn_decides_layout_configTree :
    ∃ table, Loads (.ok "1 1\n5\n".toUTF8) table ∧
      Delivers configTree [.emptyDelimiter] none
        (({ delimiter := "", lineEnding := .lf } : Layout).render table.compute.2)
        (runOn parseUntidy configTree "1 1\n5\n".toUTF8 (some (Path.ofText "usual"))
          { config := some (Path.ofText "c"), delimiter := some "" }) := by
  obtain ⟨table, read⟩ : ∃ table, (Table.ofText "1 1\n5\n").result = .ok table := ⟨_, rfl⟩
  have loads : Loads (.ok "1 1\n5\n".toUTF8) table := ⟨_, _, rfl, by decide +kernel, read⟩
  obtain ⟨-, decides, -⟩ := runOn_decides_layout parseUntidy configTree "1 1\n5\n".toUTF8
    (some (Path.ofText "usual")) { config := some (Path.ofText "c"), delimiter := some "" }
  obtain ⟨loaded, layout, -, -, -, -, decided, delivers⟩ := decides _ _ (.named finds_configTree)
  have same : layout = { delimiter := "", lineEnding := .lf } := by
    obtain ⟨delimiter, lineEnding, leadingBlankLine⟩ := layout
    obtain rfl : delimiter = "" := decided.delimiter_given "" rfl
    obtain rfl : lineEnding = .lf := decided.lineEnding_set rfl " Lf" .lf rfl (by decide +kernel)
    obtain rfl : leadingBlankLine = true := decided.leadingBlankLine_usual rfl
    rfl
  exact ⟨table, loads, same ▸ delivers table loads nofun⟩

end TableCalc.Command
