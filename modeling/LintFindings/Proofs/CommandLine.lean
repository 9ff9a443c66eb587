/-
The command line is all or nothing.

What a request comes to can be told from what its paths hold, without touching any file:
`planned` is the run and the text to write, or the first reason to fail.  Carrying out a
request is this plan and then one write (`convert_run`), so a run that fails has written
nothing, or has failed to write, and one that succeeds has written the text of its plan.

All of it holds for files of any kind that are lawful, and whatever engine compiles the
patterns.  `allOrNothing_fileTree` is the case of a tree of files, with one path for the report
and the document.

The input is any row of bytes.  What a run finds in it is told line by line: each line
is decoded on its own, and the broken ones among them change no other (`findings_byteLines`).
-/
import LintFindings.CommandLine.Run
import LintFindings.Proofs.Config.RoundTrip
import LintFindings.Proofs.Converter
import LintFindings.Proofs.Report.Bytes

namespace LintFindings.CommandLine

variable {σ : Type} {files : FileOps (StateM σ)} {Same : σ → Text → Text → Prop}
  {content : Text → Except FileFailure (List UInt8)} {engine : RegexEngine} {r : Request} {s s' : σ}

/-! ### Plans -/

/-- The configuration that a request asks for. -/
def askedConfig (content : Text → Except FileFailure (List UInt8)) (r : Request) :
    Except Error Config :=
  match r.config with
  | none => .ok .standard
  | some path =>
    match content path with
    | .error failure => .error (.fileRead path failure)
    | .ok bytes => Config.ofBytes path bytes

/-- The converter that a request asks for. -/
def askedConverter (content : Text → Except FileFailure (List UInt8)) (engine : RegexEngine)
    (r : Request) : Except Error Converter := do
  let config ← askedConfig content r
  let c ← Converter.ofConfig config engine
  .ok (if r.compact then c.withPretty false else c)

/-- The run that a request comes to, and the text to write. -/
def planned (content : Text → Except FileFailure (List UInt8)) (engine : RegexEngine)
    (r : Request) : Except RunError (Run × Text) := do
  let converter ← (askedConverter content engine r).mapError .error
  let bytes ← (content r.input).mapError (.unreadableInput r.input)
  let run ← (converter.readRun r.label r.mnemonic (Utf8.decodeLossy bytes)).mapError .error
  .ok (run, converter.encode run)

theorem planned_eq_ok {run : Run} {text : Text} (h : planned content engine r = .ok (run, text)) :
    ∃ converter bytes, askedConverter content engine r = .ok converter ∧ content r.input = .ok bytes ∧
      converter.readRun r.label r.mnemonic (Utf8.decodeLossy bytes) = .ok run ∧
      converter.convert r.label r.mnemonic (Utf8.decodeLossy bytes) = .ok text := by
  obtain ⟨converter, hconverter, h⟩ := Except.bind_eq_ok.mp h
  obtain ⟨bytes, hbytes, h⟩ := Except.bind_eq_ok.mp h
  obtain ⟨run', hrun, h⟩ := Except.bind_eq_ok.mp h
  cases h
  rw [Except.mapError_eq_ok] at hconverter hbytes hrun
  exact ⟨converter, bytes, hconverter, hbytes, hrun, Converter.convert_of_readRun hrun⟩

theorem planned_of_content {converter : Converter} {bytes : List UInt8}
    (hconverter : askedConverter content engine r = .ok converter) (hbytes : content r.input = .ok bytes) :
    planned content engine r =
      match converter.readRun r.label r.mnemonic (Utf8.decodeLossy bytes) with
      | .error e => .error (.error e)
      | .ok run => .ok (run, converter.encode run) := by
  rw [planned, hconverter, hbytes]
  cases hrun : converter.readRun r.label r.mnemonic (Utf8.decodeLossy bytes) <;>
    simp [bind, Except.bind, Except.mapError, hrun]

/-! ### Carrying them out -/

section

variable {α β ε ε' : Type} {x : ExceptT ε (StateM σ) α} {f : α → ExceptT ε (StateM σ) β} {a : α}
  {e : ε}

theorem bind_run_of_ok (h : x.run.run s = (.ok a, s')) :
    (x >>= f).run.run s = (f a).run.run s' := by
  rw [ExceptT.run_bind, StateT.run_bind, h]
  rfl

theorem bind_run_of_error (h : x.run.run s = (.error e, s')) :
    (x >>= f).run.run s = (.error e, s') := by
  rw [ExceptT.run_bind, StateT.run_bind, h]
  rfl

theorem adapt_run (g : ε → ε') (x : ExceptT ε (StateM σ) α) (s : σ) :
    (x.adapt g).run.run s = ((x.run.run s).1.mapError g, (x.run.run s).2) := rfl

theorem lift_run (x : StateM σ α) (s : σ) :
    (liftM x : ExceptT ε (StateM σ) α).run.run s = (.ok (x.run s).1, (x.run s).2) := rfl

end

/-- The configuration of a request, from its file if it names one. -/
def configOf (files : FileOps (StateM σ)) (r : Request) : ExceptT Error (StateM σ) Config :=
  r.config.elim (pure .standard) fun path => ExceptT.mk (Config.load files path)

theorem converterOf_run (h : files.Lawful Same) (engine : RegexEngine) (r : Request) (s : σ) :
    (converterOf files r engine).run.run s = (askedConverter (files.content s) engine r, s) := by
  have hconfig : (configOf files r).run.run s = (askedConfig (files.content s) r, s) := by
    unfold configOf askedConfig
    cases r.config with
    | none => rfl
    | some path => exact Config.load_run h path s
  have hsteps : converterOf files r engine = configOf files r >>= fun config =>
      ExceptT.mk (pure ((Converter.ofConfig config engine).map fun c =>
        if r.compact then c.withPretty false else c)) := by
    unfold converterOf configOf
    -- with a file or without one, the steps that follow are the same
    cases r.config
    all_goals
      refine bind_congr fun config => ?_
      dsimp only
      cases Converter.ofConfig config engine <;> rfl
  rw [hsteps, askedConverter]
  cases hasked : askedConfig (files.content s) r with
  | error e =>
      rw [hasked] at hconfig
      exact bind_run_of_error hconfig
  | ok config =>
      rw [hasked] at hconfig
      refine (bind_run_of_ok hconfig).trans ?_
      dsimp only [bind, Except.bind]
      cases Converter.ofConfig config engine <;> rfl

/-- **A request is a plan and then one write.** -/
theorem convert_run (h : files.Lawful Same) (engine : RegexEngine) (r : Request) (s : σ) :
    (convert files r engine).run.run s =
      match planned (files.content s) engine r with
      | .error e => (.error e, s)
      | .ok (run, text) =>
        match (files.write r.output (Utf8.encode text)).run s with
        | (.ok (), s') => (.ok run, s')
        | (.error failure, s') => (.error (.unwritableOutput r.output failure), s') := by
  have hadapt := adapt_run RunError.error (converterOf files r engine) s
  have hread := lift_run (ε := RunError) (files.read r.input) s
  rw [converterOf_run h] at hadapt
  rw [h.read_run] at hread
  unfold convert
  cases hconverter : askedConverter (files.content s) engine r with
  | error e =>
      rw [hconverter] at hadapt
      rw [planned, hconverter]
      exact bind_run_of_error hadapt
  | ok converter =>
      rw [hconverter] at hadapt
      refine (bind_run_of_ok hadapt).trans ?_
      refine (bind_run_of_ok hread).trans ?_
      cases hcontent : files.content s r.input with
      | error failure =>
          rw [planned, hconverter, hcontent]
          rfl
      | ok bytes =>
          rw [planned_of_content hconverter hcontent]
          dsimp only
          rw [pure_bind]
          cases converter.readRun r.label r.mnemonic (Utf8.decodeLossy bytes) with
          | error e => rfl
          | ok run =>
              dsimp only
              rw [pure_bind]
              refine (bind_run_of_ok (lift_run _ s)).trans ?_
              cases (files.write r.output (Utf8.encode (converter.encode run))).run s with
              | mk result s' => cases result <;> rfl

/-! ### What a run does -/

/-- A run fails: it leaves everything as it was and says on the error output only why. -/
structure Failed (s s' : σ) (o : Outcome) : Prop where
  exitCode : o.exitCode = 1
  unchanged : s' = s
  silent : o.stdout = []
  explained : "Error: ".toList <+: o.stderr

/-- A run tells of the program: its help text or its version. -/
structure Informed (s s' : σ) (o : Outcome) : Prop where
  exitCode : o.exitCode = 0
  unchanged : s' = s

/-- The configuration of a request: the one in the file it names, or the standard one. -/
inductive Configured (content : Text → Except FileFailure (List UInt8)) :
    Option Text → Config → Prop
  | standard : Configured content none .standard
  | file {path : Text} {bytes : List UInt8} {t : Text} {config : Config} :
    content path = .ok bytes → Utf8.decode? bytes = some t → Config.ofText t = .ok config →
    Configured content (some path) config

/-- A run converts what a request asks for: the document of the report as it was before is what
the output file holds after, and no other path has changed. -/
structure Converted (files : FileOps (StateM σ)) (Same : σ → Text → Text → Prop)
    (engine : RegexEngine) (colors : Bool) (r : Request) (s s' : σ) (o : Outcome) : Prop where
  exitCode : o.exitCode = 0
  document : ∃ config converter bytes text run,
    Configured (files.content s) r.config config ∧
    Converter.ofConfig config engine = .ok converter ∧
    files.content s r.input = .ok bytes ∧
    (converter.withPretty (config.pretty && !r.compact)).convert r.label r.mnemonic
      (Utf8.decodeLossy bytes) = .ok text ∧
    (converter.withPretty (config.pretty && !r.compact)).readRun r.label r.mnemonic
      (Utf8.decodeLossy bytes) = .ok run ∧
    files.content s' r.output = .ok (Utf8.encode text) ∧
    o.stdout = if r.summary then run.summary colors else []
  elsewhere : ∀ path, ¬ Same s r.output path →
    (files.content s' path).toOption = (files.content s path).toOption

theorem configured_of_askedConfig {config : Config} (h : askedConfig content r = .ok config) :
    Configured content r.config config := by
  unfold askedConfig at h
  cases hpath : r.config with
  | none =>
      rw [hpath] at h
      cases h
      exact .standard
  | some path =>
      rw [hpath] at h
      dsimp only at h
      cases hbytes : content path with
      | error failure =>
          rw [hbytes] at h
          cases h
      | ok bytes =>
          rw [hbytes] at h
          dsimp only [Config.ofBytes] at h
          cases ht : Utf8.decode? bytes with
          | none =>
              rw [ht] at h
              cases h
          | some t =>
              rw [ht] at h
              exact .file hbytes ht h

/-- The layout of the document is that of the configuration, unless it has to be compact. -/
theorem withPretty_of_askedConverter {converter : Converter}
    (h : askedConverter content engine r = .ok converter) :
    ∃ config c, Configured content r.config config ∧ Converter.ofConfig config engine = .ok c ∧
      converter = c.withPretty (config.pretty && !r.compact) := by
  obtain ⟨config, hconfig, h⟩ := Except.bind_eq_ok.mp h
  obtain ⟨c, hc, h⟩ := Except.bind_eq_ok.mp h
  refine ⟨config, c, configured_of_askedConfig hconfig, hc, ?_⟩
  obtain ⟨reader, -, hreader⟩ := Except.bind_eq_ok.mp hc
  cases hreader
  cases h
  cases r.compact <;> simp [Converter.withPretty]

theorem failed_failure (s : σ) (message : Text) : Failed s s (.failure message) where
  exitCode := rfl
  unchanged := rfl
  silent := rfl
  explained := by
    rw [Outcome.failure, List.append_assoc]
    exact List.prefix_append _ _

theorem carryOut_run (files : FileOps (StateM σ)) (engine : RegexEngine) (colors : Bool)
    (r : Request) (s : σ) :
    (carryOut files colors r engine).run s =
      (match ((convert files r engine).run.run s).1 with
        | .ok run => .success (if r.summary then run.summary colors else [])
        | .error e => .failure e.message,
        ((convert files r engine).run.run s).2) := by
  rw [carryOut, StateT.run_bind]
  cases (convert files r engine).run.run s with
  | mk result s' => cases result <;> rfl

/-- **A request fails and changes nothing, or it is carried out.** -/
theorem carryOut_spec (h : files.Lawful Same) (engine : RegexEngine) (colors : Bool) (r : Request)
    (s : σ) :
    let result := (carryOut files colors r engine).run s
    Failed s result.2 result.1 ∨ Converted files Same engine colors r s result.2 result.1 := by
  dsimp only
  rw [carryOut_run, convert_run h]
  cases hplanned : planned (files.content s) engine r with
  | error e => exact .inl (failed_failure s _)
  | ok plan =>
      obtain ⟨run, text⟩ := plan
      dsimp only
      cases hwrite : (files.write r.output (Utf8.encode text)).run s with
      | mk result s' =>
          cases result with
          | error failure =>
              left
              rw [h.write_error _ _ _ _ _ hwrite]
              exact failed_failure s _
          | ok written =>
              right
              obtain ⟨converter, bytes, hconverter, hbytes, hrun, htext⟩ := planned_eq_ok hplanned
              obtain ⟨config, c, hconfig, hc, rfl⟩ := withPretty_of_askedConverter hconverter
              exact
                { exitCode := rfl
                  document := ⟨config, c, bytes, text, run, hconfig, hc, hbytes, htext, hrun,
                    h.write_same _ _ _ _ _ hwrite (h.same_refl s r.output), rfl⟩
                  elsewhere := fun path hpath => h.write_other _ _ _ _ path hwrite hpath }

/-- **The command line is all or nothing.**  A run fails and changes nothing, or tells of the
program, or writes the document it is asked for and changes nothing else. -/
theorem run_allOrNothing (h : files.Lawful Same) (engine : RegexEngine) (colors : Bool)
    (args : List Text) (s : σ) :
    let result := (run files colors args engine).run s
    Failed s result.2 result.1 ∨
    ((Arguments.read args = .ok .help ∨ Arguments.read args = .ok .version) ∧
      Informed s result.2 result.1) ∨
    (∃ r, Arguments.read args = .ok (.convert r) ∧
      Converted files Same engine colors r s result.2 result.1) := by
  dsimp only
  unfold run
  cases Arguments.read args with
  | error e => exact .inl (failed_failure s _)
  | ok command =>
      cases command with
      | help => exact .inr (.inl ⟨.inl rfl, rfl, rfl⟩)
      | version => exact .inr (.inl ⟨.inr rfl, rfl, rfl⟩)
      | convert r =>
          rcases carryOut_spec h engine colors r s with hfailed | hconverted
          · exact .inl hfailed
          · exact .inr (.inr ⟨r, rfl, hconverted⟩)

/-- A tree of one file, which is a report. -/
def reportTree : FileTree :=
  ⟨[(["report".toList], .file (Utf8.encode "a.c:3: error: unused".toList))]⟩

/-- Arguments that name a report and, by another path, the same file for its document. -/
def inPlace : List Text :=
  ["--label".toList, "//a".toList, "--mnemonic".toList, "Cc".toList, "--in".toList,
    "report".toList, "--out=./report".toList, "--summary".toList]

/-- In a tree of files, a report is replaced by its document. -/
theorem allOrNothing_fileTree :
    FileTree.ops.Lawful FileTree.Same ∧ reportTree.Same "report".toList "./report".toList ∧
    let result := (run FileTree.ops false inPlace).run reportTree
    result.1.stdout = "//a (Cc)\nERROR a.c:3 - unused\n1 errors, 0 warnings\n".toList ∧
    ∃ r, r.input = "report".toList ∧ r.output = "./report".toList ∧
      Arguments.read inPlace = .ok (.convert r) ∧
      Converted FileTree.ops FileTree.Same .builtin false r reportTree result.2 result.1 := by
  refine ⟨FileTree.lawful_ops, rfl, by decide +kernel, ?_⟩
  have hexit : ((run FileTree.ops false inPlace).run reportTree).1.exitCode = 0 := by
    decide +kernel
  have hread : Arguments.read inPlace = .ok (.convert
      ⟨"//a".toList, "Cc".toList, "report".toList, "./report".toList, none, false, true⟩) := rfl
  rcases run_allOrNothing FileTree.lawful_ops .builtin false inPlace reportTree with
    hfailed | ⟨hcommand, -⟩ | ⟨r, hr, hconverted⟩
  · rw [hfailed.exitCode] at hexit
    exact absurd hexit (by decide)
  · rw [hread] at hcommand
    rcases hcommand with h | h <;> cases h
  · obtain rfl := Command.convert.inj (Except.ok.inj (hr.symm.trans hread))
    exact ⟨_, rfl, rfl, hread, hconverted⟩

/-! ### Files of any bytes -/

/-- The findings of a run that succeeds are those of the lines of its input file. -/
theorem findings_of_convert (h : files.Lawful Same) {run : Run}
    (hrun : (convert files r engine).run.run s = (.ok run, s')) :
    ∃ config converter bytes, Configured (files.content s) r.config config ∧
      Converter.ofConfig config engine = .ok converter ∧ files.content s r.input = .ok bytes ∧
      run.findings = converter.reader.read (Utf8.decodeLossy bytes)
        (Label.reference (Text.trim r.label)) := by
  rw [convert_run h] at hrun
  cases hplanned : planned (files.content s) engine r with
  | error e =>
      rw [hplanned] at hrun
      cases hrun
  | ok plan =>
      obtain ⟨run', text⟩ := plan
      rw [hplanned] at hrun
      dsimp only at hrun
      obtain rfl : run' = run := by
        split at hrun
        · exact Except.ok.inj (congrArg Prod.fst hrun)
        · cases congrArg Prod.fst hrun
      obtain ⟨converter, bytes, hconverter, hbytes, hread, -⟩ := planned_eq_ok hplanned
      obtain ⟨config, c, hconfig, hc, rfl⟩ := withPretty_of_askedConverter hconverter
      exact ⟨config, c, bytes, hconfig, hc, hbytes, by rw [Converter.eq_of_readRun hread]; rfl⟩

/-- **Bytes that are no text disturb no other line.**  A line feed parts what is decoded, and
what is a text is decoded as it is.  So the findings of a file are those of its lines, each
decoded on its own and trimmed, and a line that is recognized has its finding whatever bytes
there are around it. -/
theorem findings_byteLines (h : files.Lawful Same) (engine : RegexEngine) (r : Request) (s : σ) :
    (∀ first second, Utf8.decodeLossy (first ++ 0x0A :: second)
      = Utf8.decodeLossy first ++ '\n' :: Utf8.decodeLossy second) ∧
    (∀ t, Utf8.decodeLossy (Utf8.encode t) = t) ∧
    (∀ run s', (convert files r engine).run.run s = (.ok run, s') →
      ∃ config converter bytes, Configured (files.content s) r.config config ∧
        Converter.ofConfig config engine = .ok converter ∧ files.content s r.input = .ok bytes ∧
        run.findings =
          if Text.trim (Utf8.decodeLossy bytes) ≠ [] ∧
              converter.reader.byteLineFindings bytes = [] ∧ converter.reader.fallback = true then
            [ReportReader.opaqueFinding (Label.reference (Text.trim r.label))
              (Text.trim (Utf8.decodeLossy bytes))]
          else converter.reader.byteLineFindings bytes) ∧
    (∀ (reader : ReportReader) (artifact : Text) bytes front back t m,
      bytes.splitOn 0x0A = front ++ Utf8.encode t :: back → Text.trim t ≠ [] →
      reader.matchLine? (Text.trim t) = some m →
      reader.read (Utf8.decodeLossy bytes) artifact
        = front.filterMap reader.byteLineFinding? ++
          ReportReader.findingOf reader.severities m ::
            back.filterMap reader.byteLineFinding?) := by
  refine ⟨Utf8.decodeLossy_append_newline, Utf8.decodeLossy_encode, ?_, ?_⟩
  · intro run s' hrun
    obtain ⟨config, converter, bytes, hconfig, hconverter, hbytes, hfindings⟩ :=
      findings_of_convert h hrun
    exact ⟨config, converter, bytes, hconfig, hconverter, hbytes,
      hfindings.trans (ReportReader.read_decodeLossy _ bytes _)⟩
  · intro reader artifact bytes front back t m hlines hne hm
    exact ReportReader.read_around reader artifact hlines hne hm

/-- A line with a finding, between a broken character and a byte that begins none. -/
def brokenReport : List UInt8 :=
  [0xE2, 0x82, 0x0A] ++ Utf8.encode "a.c:3: error: unused".toList ++ [0x0A, 0xBF]

/-- A tree whose one file is that report. -/
def brokenTree : FileTree := ⟨[(["report".toList], .file brokenReport)]⟩

/-- The finding of a line is the only one of a file with broken bytes around it. -/
theorem findings_byteLines_broken :
    let r : Request := ⟨"//a".toList, "Cc".toList, "report".toList, "out".toList, none, false, false⟩
    let found : Finding :=
      ⟨"a.c".toList, some 3, none, none, none, none, none, .error, "unused".toList⟩
    FileTree.ops.Lawful FileTree.Same ∧
    (∃ run tree, (convert FileTree.ops r).run.run brokenTree = (.ok run, tree) ∧
      run.findings = [found]) ∧
    ReportReader.standard.read (Utf8.decodeLossy brokenReport) [] = [found] := by
  intro r found
  obtain ⟨-, -, hrun, hline⟩ := findings_byteLines FileTree.lawful_ops .builtin r brokenTree
  refine ⟨FileTree.lawful_ops, ?_, ?_⟩
  · have hok : ((convert FileTree.ops r).run.run brokenTree).1.isOk = true := by decide +kernel
    cases hresult : (convert FileTree.ops r).run.run brokenTree with
    | mk result tree =>
        rw [hresult] at hok
        cases result with
        | error e => cases hok
        | ok run =>
            refine ⟨run, tree, rfl, ?_⟩
            obtain ⟨config, converter, bytes, hconfig, hconverter, hbytes, hfindings⟩ :=
              hrun run tree hresult
            cases hconfig
            cases hconverter
            cases hbytes
            rw [hfindings]
            decide +kernel
  · let t : Text := "a.c:3: error: unused".toList
    let m : LineMatch := ⟨"a.c".toList, some 3, none, none, none, some "error".toList, none, none,
      "unused".toList⟩
    have hm : ReportReader.standard.matchLine? t = some m := by decide +kernel
    have hlines : brokenReport.splitOn 0x0A = [[0xE2, 0x82]] ++ Utf8.encode t :: [[0xBF]] := by
      decide +kernel
    rw [hline .standard [] brokenReport [[0xE2, 0x82]] [[0xBF]] t m hlines (by decide) hm]
    decide +kernel

end LintFindings.CommandLine
