import Mathlib.Logic.Basic
import TableCalc.Command
import TableCalc.Proofs.Files

/-!
# Runs of the command

A run on a tree of files either fails or delivers a text. It fails if no table can be read or if the
file for the output cannot be written, and then it prints nothing and leaves the files alone
(`runOn_fails`). Otherwise it delivers the computed table, printed or written to the file, and
changes no other file (`runOn_delivers`).

A run does three things one after another: it loads the layout, it loads the table, and it delivers.
The layout comes from the configuration and from some options, and it matters to nothing but the
text. So the equation of a run (`runOn_eq`) has the table and the layout apart, and each of the
statements is read off from it. All this goes for any invocation and whatever reads the text of a
configuration file.
-/

namespace TableCalc.Command

/-- A run on a tree of files. -/
def runOn (parse : String → Except String Settings) (t : FileTree) (input : ByteArray)
    (usualConfig : Option Path) (i : Invocation) : Outcome × FileTree :=
  (run (FileTree.host input) parse usualConfig i).run t

/-- What an invocation takes the table from: the bytes of a file, or those of the input. -/
def tableBytes (t : FileTree) (input : ByteArray) (i : Invocation) : Except FileError ByteArray :=
  match inputFile? i with
  | some path => t.read path
  | none => .ok input

/-- The bytes are the text of a table. -/
def Loads (bytes : Except FileError ByteArray) (table : Table) : Prop :=
  ∃ content text, bytes = .ok content ∧ String.fromUTF8? content = some text ∧
    (Table.ofText text).result = .ok table

/-- The configuration that an invocation finds. -/
def configOn (parse : String → Except String Settings) (t : FileTree) (usualConfig : Option Path)
    (i : Invocation) : Config.Loaded :=
  match i.config, if i.useDefaultConfig then usualConfig else none with
  | some path, _ => Config.ofFile parse path true (t.read path)
  | none, some path => Config.ofFile parse path false (t.read path)
  | none, none => {}

/-- The layout that an invocation writes with. -/
def layoutOn (parse : String → Except String Settings) (t : FileTree) (usualConfig : Option Path)
    (i : Invocation) : Layout :=
  overrideLayout i (configOn parse t usualConfig i).layout

/-- The file for the output, if there is one, can be written. -/
def OutputOpens (t : FileTree) (output : Option Path) : Prop :=
  ∀ path, output = some path → ∃ place, t.Opens path place

/-- A run has failed, with nothing printed and no file changed. -/
structure Fails (t : FileTree) (r : Outcome × FileTree) : Prop where
  code : r.1.code = 1
  out : r.1.out = ""
  tree : r.2 = t

/-- A run has ended well. Its text is printed, or it is in the file for the output and nothing is
printed; no other file has changed. Nothing but the warnings is shown besides. -/
structure Delivers (t : FileTree) (warnings : List Config.Warning) (output : Option Path)
    (text : String) (r : Outcome × FileTree) : Prop where
  code : r.1.code = 0
  printed : output = none → r.1.out = text ∧ r.2 = t
  written : ∀ path, output = some path → r.1.out = "" ∧ r.2.read path = .ok text.toUTF8 ∧
    ∃ place, t.Opens path place ∧ r.2.node place = some (.file text.toUTF8) ∧
      ∀ p ≠ place, r.2.node p = t.node p
  err : r.1.err = warningLines warnings

/-- Two runs have ended alike, but for what a failure to load says of where the table was to come
from. -/
structure SameButSource (i i' : Invocation) (r r' : Outcome × FileTree) : Prop where
  code : r'.1.code = r.1.code
  out : r'.1.out = r.1.out
  tree : r'.2 = r.2
  err : r'.1.err = r.1.err ∨ ∃ before after,
    r.1.err = before ++ loadContext (inputFile? i) ++ after ∧
    r'.1.err = before ++ loadContext (inputFile? i') ++ after

/-- Two runs, of which the second one has another configuration, have ended alike, but for the
layout of the text and for warnings. -/
structure SameButLayout (config config' : Config.Loaded) (t t' : FileTree) (i i' : Invocation)
    (bytes : Except FileError ByteArray) (r r' : Outcome × FileTree) : Prop where
  code : r'.1.code = r.1.code
  text : ∀ table, Loads bytes table → r.1.code = 0 →
    Delivers t config.warnings i.output
      ((overrideLayout i config.layout).render table.compute.2) r ∧
    Delivers t' config'.warnings i.output
      ((overrideLayout i' config'.layout).render table.compute.2) r'
  err : (¬ ∃ table, Loads bytes table) → ∃ failure,
    r.1.err = warningLines config.warnings ++ failure ∧
    r'.1.err = warningLines config'.warnings ++ failure

variable {parse : String → Except String Settings} {t t' : FileTree} {input input' : ByteArray}
  {usualConfig usualConfig' : Option Path} {i i' : Invocation} {table : Table}

/-- A dash stands for the input. -/
lemma tableBytes_dash (h : i.input = some (Path.ofText "-")) :
    tableBytes t input i = .ok input := by
  have dash : isStandardInput (Path.ofText "-") = true := by decide +kernel
  have file : inputFile? i = none := by
    rw [inputFile?, h, Option.filter, dash]
    rfl
  rw [tableBytes, file]

/-- A text is loaded if it is the text of a table. -/
lemma result_ofText {text : String} :
    (Document.ofText text).result = match (Table.ofText text).result with
      | .ok table => .ok { table }
      | .error e => .error (.content e) := by
  show (((Table.ofText text).result.map fun table => ({ table } : Document)).mapError
    DocumentError.content) = _
  cases (Table.ofText text).result <;> rfl

/-- Bytes are loaded as the text that they encode. -/
lemma result_ofBytes {content : ByteArray} {text : String}
    (h : String.fromUTF8? content = some text) :
    (Document.ofBytes (.ok content)).result = (Document.ofText text).result := by
  have decoded : (Except.ok content).bind decodeText = .ok text := by
    rw [Except.bind, decodeText, h]
  rw [Document.ofBytes, decoded]

/-- Bytes that encode no text are not loaded. -/
lemma result_ofBytes_of_not_text {content : ByteArray} (h : String.fromUTF8? content = none) :
    (Document.ofBytes (.ok content)).result = .error (.file .notText) := by
  have refused : (Except.ok content).bind decodeText = .error .notText := by
    rw [Except.bind, decodeText, h]
  rw [Document.ofBytes, refused]

/-- A document that is loaded has nothing but its table. -/
lemma Loads.result {bytes : Except FileError ByteArray} {table : Table} (h : Loads bytes table) :
    (Document.ofBytes bytes).result = .ok { table } := by
  obtain ⟨content, text, rfl, htext, hread⟩ := h
  rw [result_ofBytes htext, result_ofText, hread]

/-- Bytes are the text of a table, or they cannot be loaded. -/
lemma loads_cases (bytes : Except FileError ByteArray) :
    (∃ table, Loads bytes table ∧ (Document.ofBytes bytes).result = .ok { table }) ∨
      (¬ ∃ table, Loads bytes table) ∧ ∃ e, (Document.ofBytes bytes).result = .error e := by
  cases bytes with
  | error e => exact .inr ⟨nofun, .file e, rfl⟩
  | ok content =>
    cases htext : String.fromUTF8? content with
    | none =>
      refine .inr ⟨?_, _, result_ofBytes_of_not_text htext⟩
      rintro ⟨table, _, text, ⟨⟩, h, -⟩
      cases htext.symm.trans h
    | some text =>
      rw [result_ofBytes htext, result_ofText]
      cases hread : (Table.ofText text).result with
      | ok table => exact .inl ⟨table, ⟨content, text, rfl, htext, hread⟩, rfl⟩
      | error e =>
        refine .inr ⟨?_, _, rfl⟩
        rintro ⟨table, _, text', ⟨⟩, h, h'⟩
        cases htext.symm.trans h
        cases hread.symm.trans h'

/-- The configuration is loaded from the files as they are, and they stay so. -/
lemma run_configLoad :
    (Config.load (FileTree.host input) parse i.config
      (if i.useDefaultConfig then usualConfig else none)).run t =
      (configOn parse t usualConfig i, t) := by
  unfold Config.load configOn
  cases i.config with
  | some path => rfl
  | none =>
    cases (if i.useDefaultConfig then usualConfig else none) with
    | some path => rfl
    | none => rfl

/-- Saving writes the rendered text, or it fails and writes nothing. -/
lemma run_save {path : Path} {layout : Layout} {d : Document} :
    (d.save (FileTree.host input) path layout).run t =
      match t.write path (d.render layout).toUTF8 with
      | .ok t' => (.ok (), t')
      | .error e => (.error (.file e), t) := by
  unfold Document.save
  rw [StateT.run_bind, FileTree.run_writeFile]
  cases t.write path (d.render layout).toUTF8 <;> rfl

/-- What is delivered is the text of the table, whatever else the document says. -/
lemma run_deliver {err : String} {layout : Layout} {d : Document} :
    (deliver (FileTree.host input) i err layout d.compute.2).run t =
      match i.output with
      | none => ({ out := layout.render d.table.compute.2, err }, t)
      | some path =>
        match t.write path (layout.render d.table.compute.2).toUTF8 with
        | .ok t' => ({ err }, t')
        | .error e => (fail err ("Failed to write " ++ path.text) (.file e), t) := by
  unfold deliver
  cases i.output with
  | none => rfl
  | some path =>
    have text : d.compute.2.render layout = layout.render d.table.compute.2 := rfl
    dsimp only
    rw [StateT.run_bind, run_save, text]
    cases t.write path (layout.render d.table.compute.2).toUTF8 <;> rfl

/-- What a run does. -/
lemma runOn_eq : runOn parse t input usualConfig i =
    let err := warningLines (configOn parse t usualConfig i).warnings
    match (Document.ofBytes (tableBytes t input i)).result with
    | .error e => (fail err (loadContext (inputFile? i)) e, t)
    | .ok d =>
      (deliver (FileTree.host input) i err (layoutOn parse t usualConfig i) d.compute.2).run t := by
  unfold runOn run tableBytes
  dsimp only
  rw [StateT.run_bind, run_configLoad]
  cases inputFile? i with
  | none =>
    show (match (Document.ofBytes (.ok input)).result with
      | .error e => _
      | .ok d => _ : StateM FileTree Outcome).run t = _
    cases (Document.ofBytes (.ok input)).result <;> rfl
  | some path =>
    show (match (Document.ofBytes (t.read path)).result.map
        fun d => { d with source := some path } with
      | .error e => _
      | .ok d => _ : StateM FileTree Outcome).run t = _
    cases (Document.ofBytes (t.read path)).result with
    | error e => rfl
    | ok d => exact run_deliver.trans run_deliver.symm

/-- What is shown of a failure comes after what was shown before. -/
lemma err_fail {err context : String} {e : DocumentError} : (fail err context e).err =
    err ++ ("Error: " ++ context ++ ": " ++ e.messageWithCauses ++ "\n") := by
  simp only [fail, String.append_assoc]

/-- A run that cannot load its table ends with the failure. -/
lemma runOn_of_error {e : DocumentError}
    (failed : (Document.ofBytes (tableBytes t input i)).result = .error e) :
    runOn parse t input usualConfig i =
      (fail (warningLines (configOn parse t usualConfig i).warnings) (loadContext (inputFile? i)) e,
        t) := by
  rw [runOn_eq]
  dsimp only
  rw [failed]

/-- A run that has loaded its table prints it or writes it. -/
lemma runOn_of_loads (loads : (Document.ofBytes (tableBytes t input i)).result = .ok { table }) :
    runOn parse t input usualConfig i =
      let err := warningLines (configOn parse t usualConfig i).warnings
      let text := (layoutOn parse t usualConfig i).render table.compute.2
      match i.output with
      | none => ({ out := text, err }, t)
      | some path =>
        match t.write path text.toUTF8 with
        | .ok t' => ({ err }, t')
        | .error e => (fail err ("Failed to write " ++ path.text) (.file e), t) := by
  rw [runOn_eq]
  dsimp only
  rw [loads]
  exact run_deliver

/-- A run that has no table, or cannot write its output, fails without a trace. -/
theorem runOn_fails
    (bad : (¬ ∃ table, Loads (tableBytes t input i) table) ∨ ¬ OutputOpens t i.output) :
    Fails t (runOn parse t input usualConfig i) := by
  rcases loads_cases (tableBytes t input i) with ⟨table, loads, result⟩ | ⟨-, e, result⟩
  · obtain ⟨path, hpath, closed⟩ : ∃ path, i.output = some path ∧
        ¬ ∃ place, t.Opens path place := by
      simpa [OutputOpens] using bad.resolve_left fun absent => absent ⟨table, loads⟩
    obtain ⟨e, refuses⟩ := FileTree.exists_write_eq_error closed
    rw [runOn_of_loads result, hpath]
    dsimp only
    rw [refuses]
    exact ⟨rfl, rfl, rfl⟩
  · rw [runOn_of_error result]
    exact ⟨rfl, rfl, rfl⟩

/-- A run that has a table, and can write its output, delivers the computed table. -/
theorem runOn_delivers (loads : Loads (tableBytes t input i) table)
    (opens : OutputOpens t i.output) :
    Delivers t (configOn parse t usualConfig i).warnings i.output
      ((layoutOn parse t usualConfig i).render table.compute.2)
      (runOn parse t input usualConfig i) := by
  rw [runOn_of_loads loads.result]
  cases hout : i.output with
  | none => exact ⟨rfl, fun _ => ⟨rfl, rfl⟩, nofun, rfl⟩
  | some path =>
    obtain ⟨place, opens⟩ := opens path hout
    dsimp only
    rw [opens]
    refine ⟨rfl, nofun, ?_, rfl⟩
    rintro _ ⟨⟩
    refine ⟨rfl, opens.read _, place, opens, ?_, fun p hp => ?_⟩
    · exact if_pos rfl
    · exact if_neg hp

/-- It does not matter how the bytes of the table are given. -/
theorem runOn_sameButSource {source : Option Path} {content : ByteArray}
    (bytes : tableBytes t input i = .ok content)
    (bytes' : tableBytes t input' { i with input := source } = .ok content) :
    SameButSource i { i with input := source } (runOn parse t input usualConfig i)
      (runOn parse t input' usualConfig { i with input := source }) := by
  rcases loads_cases (.ok content) with ⟨table, -, result⟩ | ⟨-, e, result⟩
  · have first : (Document.ofBytes (tableBytes t input i)).result = .ok { table } := bytes ▸ result
    have second : (Document.ofBytes (tableBytes t input' { i with input := source })).result =
        .ok { table } := bytes' ▸ result
    have same : runOn parse t input' usualConfig { i with input := source } =
        runOn parse t input usualConfig i := by
      rw [runOn_of_loads first, runOn_of_loads second]
      rfl
    exact ⟨by rw [same], by rw [same], by rw [same], .inl (by rw [same])⟩
  · have first : (Document.ofBytes (tableBytes t input i)).result = .error e := bytes ▸ result
    have second : (Document.ofBytes (tableBytes t input' { i with input := source })).result =
        .error e := bytes' ▸ result
    rw [runOn_of_error first, runOn_of_error second]
    have err {context : String} :
        (fail (warningLines (configOn parse t usualConfig i).warnings) context e).err =
          warningLines (configOn parse t usualConfig i).warnings ++ "Error: " ++ context ++
            (": " ++ e.messageWithCauses ++ "\n") := by
      simp only [err_fail, String.append_assoc]
    exact ⟨rfl, rfl, rfl, .inr ⟨_, _, err, err⟩⟩

/-- Whether the file for the output can be written depends on the directories alone. -/
lemma outputOpens_congr (same : t.SameDirectories t') {output : Option Path} :
    OutputOpens t' output ↔ OutputOpens t output :=
  forall₂_congr fun _ _ => same.exists_opens_iff

/-- It does not matter for anything but the layout and the warnings what the configuration files
hold, and which of the options for the configuration and the layout are given. -/
theorem runOn_sameButLayout (source : i'.input = i.input) (output : i'.output = i.output)
    (same : t.SameDirectories t') (bytes : tableBytes t' input' i' = tableBytes t input i) :
    SameButLayout (configOn parse t usualConfig i) (configOn parse t' usualConfig' i') t t' i i'
      (tableBytes t input i) (runOn parse t input usualConfig i)
      (runOn parse t' input' usualConfig' i') := by
  have opens : OutputOpens t' i'.output ↔ OutputOpens t i.output :=
    output ▸ outputOpens_congr same
  by_cases good : (∃ table, Loads (tableBytes t input i) table) ∧ OutputOpens t i.output
  · obtain ⟨⟨table, loads⟩, hopens⟩ := good
    have delivered {table : Table} (loads : Loads (tableBytes t input i) table) :
        Delivers t (configOn parse t usualConfig i).warnings i.output
            ((layoutOn parse t usualConfig i).render table.compute.2)
            (runOn parse t input usualConfig i) ∧
          Delivers t' (configOn parse t' usualConfig' i').warnings i.output
            ((layoutOn parse t' usualConfig' i').render table.compute.2)
            (runOn parse t' input' usualConfig' i') :=
      ⟨runOn_delivers loads hopens, output ▸ runOn_delivers (bytes ▸ loads) (opens.2 hopens)⟩
    obtain ⟨first, second⟩ := delivered loads
    exact ⟨second.code.trans first.code.symm, fun _ loads _ => delivered loads,
      fun absent => absurd ⟨table, loads⟩ absent⟩
  · have bad := not_and_or.1 good
    have first : Fails t (runOn parse t input usualConfig i) := runOn_fails bad
    have second : Fails t' (runOn parse t' input' usualConfig' i') := by
      refine runOn_fails ?_
      rwa [bytes, opens]
    refine ⟨second.code.trans first.code.symm, fun _ _ hcode => ?_, fun absent => ?_⟩
    · cases first.code.symm.trans hcode
    obtain ⟨-, e, result⟩ :=
      (loads_cases (tableBytes t input i)).resolve_left fun ⟨table, loads, _⟩ =>
        absent ⟨table, loads⟩
    have file : inputFile? i' = inputFile? i := by rw [inputFile?, inputFile?, source]
    rw [runOn_of_error result, runOn_of_error (bytes ▸ result), file]
    exact ⟨_, err_fail, err_fail⟩

/-- What a run comes to. Without a table, or without a file to write to, it fails, prints nothing
and changes no file. Otherwise it delivers the computed table, whatever its cells hold, and the text
is the same whether it is printed or written to a file. The bytes of the table may come from a file
or from the input. Nothing but the layout and the warnings depends on the configuration, nor on the
options for it and for the layout. -/
theorem runOn_contract (parse : String → Except String Settings) (t : FileTree) (input : ByteArray)
    (usualConfig : Option Path) (i : Invocation) :
    ((¬ ∃ table, Loads (tableBytes t input i) table) ∨ ¬ OutputOpens t i.output →
      Fails t (runOn parse t input usualConfig i)) ∧
    (∀ table, Loads (tableBytes t input i) table → ∀ output, OutputOpens t output →
      Delivers t (configOn parse t usualConfig i).warnings output
        ((layoutOn parse t usualConfig i).render table.compute.2)
        (runOn parse t input usualConfig { i with output })) ∧
    (∀ input' source content, tableBytes t input i = .ok content →
      tableBytes t input' { i with input := source } = .ok content →
        SameButSource i { i with input := source } (runOn parse t input usualConfig i)
          (runOn parse t input' usualConfig { i with input := source })) ∧
    ∀ t' input' usualConfig' i', i'.input = i.input → i'.output = i.output →
      t.SameDirectories t' → tableBytes t' input' i' = tableBytes t input i →
        SameButLayout (configOn parse t usualConfig i) (configOn parse t' usualConfig' i') t t' i i'
          (tableBytes t input i) (runOn parse t input usualConfig i)
          (runOn parse t' input' usualConfig' i') := by
  refine ⟨runOn_fails, ?_, ?_, ?_⟩
  · intro table loads output opens
    have given : Loads (tableBytes t input { i with output }) table := loads
    exact runOn_delivers given opens
  · intro input' source content bytes bytes'
    exact runOn_sameButSource bytes bytes'
  · intro t' input' usualConfig' i' source output same bytes
    exact runOn_sameButLayout source output same bytes

/-- No files, and a directory `/tmp` that is worked in. -/
def bareTree : FileTree where
  workingDirectory := [Name.ofText "tmp"]
  node := fun p => if p = [Name.ofText "tmp"] then some .directory else none

/-- A file can be written in the directory. -/
lemma bareTree_opens :
    bareTree.Opens (Path.ofText "out") [Name.ofText "tmp", Name.ofText "out"] := by
  have targets : bareTree.Targets (Path.ofText "out") [] (Name.ofText "out") [Name.ofText "tmp"] :=
    ⟨rfl, rfl, .here, by decide, by decide, nofun⟩
  exact targets.opens

/-- A table of one failing cell, given by a dash, ends up in a file or is printed, with the same
text; it is printed as well if no source is named, and with another delimiter it takes another
layout. -/
theorem runOn_contract_bareTree :
    ∃ table, Loads (.ok "1 1\n=1/0\n".toUTF8) table ∧
      Delivers bareTree [] (some (Path.ofText "out"))
        (({ lineEnding := .lf } : Layout).render table.compute.2)
        (runOn (fun _ => .ok {}) bareTree "1 1\n=1/0\n".toUTF8 none
          { input := some (Path.ofText "-"), output := some (Path.ofText "out"), lf := true }) ∧
      Delivers bareTree [] none (({ lineEnding := .lf } : Layout).render table.compute.2)
        (runOn (fun _ => .ok {}) bareTree "1 1\n=1/0\n".toUTF8 none
          { input := some (Path.ofText "-"), lf := true }) ∧
      (runOn (fun _ => .ok {}) bareTree "1 1\n=1/0\n".toUTF8 none
        { output := some (Path.ofText "out"), lf := true }).2 =
        (runOn (fun _ => .ok {}) bareTree "1 1\n=1/0\n".toUTF8 none
          { input := some (Path.ofText "-"), output := some (Path.ofText "out"), lf := true }).2 ∧
      Delivers bareTree [] (some (Path.ofText "out"))
        (({ delimiter := ";" } : Layout).render table.compute.2)
        (runOn (fun _ => .ok {}) bareTree "1 1\n=1/0\n".toUTF8 none
          { input := some (Path.ofText "-"), output := some (Path.ofText "out"),
            delimiter := some ";" }) ∧
      Fails bareTree (runOn (fun _ => .ok {}) bareTree "1 1\n".toUTF8 none { lf := true }) := by
  have opens : OutputOpens bareTree (some (Path.ofText "out")) := by
    rintro _ ⟨⟩
    exact ⟨_, bareTree_opens⟩
  obtain ⟨table, read⟩ : ∃ table, (Table.ofText "1 1\n=1/0\n").result = .ok table := ⟨_, rfl⟩
  have loads : Loads (.ok "1 1\n=1/0\n".toUTF8) table := ⟨_, _, rfl, by decide +kernel, read⟩
  have bytes : tableBytes bareTree "1 1\n=1/0\n".toUTF8
      { input := some (Path.ofText "-"), output := some (Path.ofText "out"), lf := true } =
        .ok "1 1\n=1/0\n".toUTF8 := tableBytes_dash rfl
  obtain ⟨-, delivers, source, layout⟩ :=
    runOn_contract (fun _ => .ok {}) bareTree "1 1\n=1/0\n".toUTF8 none
      { input := some (Path.ofText "-"), output := some (Path.ofText "out"), lf := true }
  obtain ⟨fails, -⟩ :=
    runOn_contract (fun _ => .ok {}) bareTree "1 1\n".toUTF8 none { lf := true }
  have written := delivers table (bytes ▸ loads) _ opens
  refine ⟨table, loads, written, delivers table (bytes ▸ loads) none nofun,
    (source _ none _ bytes rfl).tree, ?_, fails (.inl ?_)⟩
  · have same : bareTree.SameDirectories bareTree := ⟨rfl, fun _ => Iff.rfl⟩
    have alike := layout bareTree "1 1\n=1/0\n".toUTF8 none
      { input := some (Path.ofText "-"), output := some (Path.ofText "out"), delimiter := some ";" }
      rfl rfl same ((tableBytes_dash rfl).trans bytes.symm)
    exact (alike.text table (bytes ▸ loads) written.code).2
  · rintro ⟨table, _, text, ⟨⟩, htext, read⟩
    have decoded : String.fromUTF8? "1 1\n".toUTF8 = some "1 1\n" := by decide +kernel
    cases decoded.symm.trans htext
    have failed : (Table.ofText "1 1\n").result = .error (.missingRow 0) := by rfl
    cases failed.symm.trans read

end TableCalc.Command
