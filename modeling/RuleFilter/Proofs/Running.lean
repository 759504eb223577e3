import RuleFilter.Proofs.Reporting

/-! # Stages of a run

A run reads its payload, reads its settings, and compiles; the first stage that fails decides how it
ends (`run_stages`). Nothing fails behind them, because the query of a compilation has a value for
every placeholder. The settings file is read in the way of the payload, so the failure of one is
reported like that of the other, although settings errors have a place for it
(`run_unreadable_settings`). -/

namespace RuleFilter.Cli

/-! ### Outcomes -/

/-- What a run writes to the standard output. -/
def Outcome.output : Outcome → String
  | .printed text => text
  | .failed _ | .usage => ""

/-! ### What can be read -/

namespace Surroundings

variable (s : Surroundings)

/-- The text of a file, if it can be read as text. -/
def textOf? (path : String) : Option String :=
  (s.file path).bind String.fromUTF8?

/-- The text of a payload, if its source can be read as text. -/
def payloadOf? (source : String) : Option String :=
  if source = "-" then String.fromUTF8? s.input else s.textOf? source

/-- The settings of a job: those in its file, or the default ones without a file. -/
def Loads : Option String → Settings → Prop
  | none, settings => settings = {}
  | some path, settings => ∃ text, s.textOf? path = some text ∧ Settings.ofText text = .ok settings

/-- The settings file of a job cannot be read as text. -/
def Misses (file : Option String) : Prop :=
  ∃ path, file = some path ∧ s.textOf? path = none

/-- The settings file of a job can be read, but its text is refused. -/
def Refuses (file : Option String) (e : SettingsError) : Prop :=
  ∃ path text, file = some path ∧ s.textOf? path = some text ∧ Settings.ofText text = .error e

variable {s}

theorem readFile_eq (path : String) : s.readFile path =
    match s.textOf? path with
    | some text => .ok text
    | none => .error .unreadable := rfl

theorem readPayload_eq (source : String) : s.readPayload source =
    match s.payloadOf? source with
    | some text => .ok text
    | none => .error .unreadable := by
  unfold readPayload payloadOf?
  split_ifs
  · rfl
  · exact readFile_eq source

theorem readPayload_eq_ok_iff {source text : String} :
    s.readPayload source = .ok text ↔ s.payloadOf? source = some text := by
  rw [readPayload_eq]
  cases s.payloadOf? source <;> simp

theorem readPayload_eq_error_iff {source : String} {failure : Failure} :
    s.readPayload source = .error failure ↔
      failure = .unreadable ∧ s.payloadOf? source = none := by
  rw [readPayload_eq]
  cases s.payloadOf? source <;> simp [eq_comm]

theorem readFile_eq_ok_iff {path text : String} :
    s.readFile path = .ok text ↔ s.textOf? path = some text := by
  rw [readFile_eq]
  cases s.textOf? path <;> simp

theorem readFile_eq_error_iff {path : String} {failure : Failure} :
    s.readFile path = .error failure ↔ failure = .unreadable ∧ s.textOf? path = none := by
  rw [readFile_eq]
  cases s.textOf? path <;> simp [eq_comm]

theorem readSettings_some (path : String) : s.readSettings (some path) =
    s.readFile path >>= fun text => (Settings.ofText text).mapError .settings := rfl

theorem readSettings_eq_ok_iff {file : Option String} {settings : Settings} :
    s.readSettings file = .ok settings ↔ s.Loads file settings := by
  cases file with
  | none => simp [readSettings, Loads, eq_comm]
  | some path =>
    simp only [readSettings_some, except_bind_eq_ok, readFile_eq_ok_iff, except_mapError_eq_ok,
      Loads]

/-- **A settings file fails in two ways**: it cannot be read, or its text is refused. -/
theorem readSettings_eq_error_iff {file : Option String} {failure : Failure} :
    s.readSettings file = .error failure ↔
      (failure = .unreadable ∧ s.Misses file) ∨ ∃ e, failure = .settings e ∧ s.Refuses file e := by
  cases file with
  | none => simp [readSettings, Misses, Refuses]
  | some path =>
    have hmisses : s.Misses (some path) ↔ s.textOf? path = none := by simp [Misses]
    have hrefuses : ∀ e, s.Refuses (some path) e ↔
        ∃ text, s.textOf? path = some text ∧ Settings.ofText text = .error e := by simp [Refuses]
    rw [readSettings_some, except_bind_eq_error, readFile_eq_error_iff, hmisses]
    refine or_congr_right ⟨?_, ?_⟩
    · rintro ⟨text, htext, hloaded⟩
      obtain ⟨e, he, rfl⟩ := except_mapError_eq_error.mp hloaded
      exact ⟨e, rfl, (hrefuses e).mpr ⟨text, readFile_eq_ok_iff.mp htext, he⟩⟩
    · rintro ⟨e, rfl, hrefused⟩
      obtain ⟨text, htext, he⟩ := (hrefuses e).mp hrefused
      exact ⟨text, readFile_eq_ok_iff.mpr htext, except_mapError_eq_error.mpr ⟨e, he, rfl⟩⟩

end Surroundings

/-! ### Jobs -/

namespace Job

/-- The payload and the settings that a job is run on. -/
def Reads (job : Job) (s : Surroundings) (payload : String) (settings : Settings) : Prop :=
  s.payloadOf? job.payload = some payload ∧ s.Loads job.settings settings

variable {job : Job} {s : Surroundings}

theorem run_eq : job.run s =
    s.readPayload job.payload >>= fun payload => s.readSettings job.settings >>= fun settings =>
      (queryOf job.fields settings payload).mapError .compile >>= fun q =>
        (Report.ofQuery q job.output).mapError .render >>= fun report =>
          .ok (report.print job.json) := rfl

/-- **Behind the compilation nothing fails.** -/
theorem exists_report {payload : String} {settings : Settings} {q : Query}
    (h : queryOf job.fields settings payload = .ok q) :
    ∃ report, (Report.ofQuery q job.output).mapError Failure.render = .ok report :=
  ⟨_, except_mapError_eq_ok.mpr (Report.ofQuery_eq (Query.complete_of_compile h) job.output)⟩

/-- **A job succeeds iff it can be read and compiled.** -/
theorem exists_run_eq_ok_iff : (∃ text, job.run s = .ok text) ↔
    ∃ payload settings q, job.Reads s payload settings ∧
      queryOf job.fields settings payload = .ok q := by
  simp only [run_eq, except_bind_eq_ok, Surroundings.readPayload_eq_ok_iff,
    Surroundings.readSettings_eq_ok_iff, except_mapError_eq_ok, Reads]
  constructor
  · rintro ⟨_, payload, hpayload, settings, hsettings, q, hq, -⟩
    exact ⟨payload, settings, q, ⟨hpayload, hsettings⟩, hq⟩
  · rintro ⟨payload, settings, q, ⟨hpayload, hsettings⟩, hq⟩
    exact ⟨_, payload, hpayload, settings, hsettings, q, hq, _,
      Report.ofQuery_eq (Query.complete_of_compile hq) job.output, rfl⟩

/-- **A job fails at the first of its stages that fails.** -/
theorem run_eq_error_iff {failure : Failure} : job.run s = .error failure ↔
    (failure = .unreadable ∧ s.payloadOf? job.payload = none) ∨
    ∃ payload, s.payloadOf? job.payload = some payload ∧
      ((failure = .unreadable ∧ s.Misses job.settings) ∨
        (∃ e, failure = .settings e ∧ s.Refuses job.settings e) ∨
        ∃ settings, s.Loads job.settings settings ∧
          ∃ e, failure = .compile e ∧ queryOf job.fields settings payload = .error e) := by
  -- the report is one more stage in the program, but none that can be the first to fail
  have hcompiled : ∀ payload settings,
      ((queryOf job.fields settings payload).mapError .compile >>= fun q =>
        (Report.ofQuery q job.output).mapError .render >>= fun report =>
          .ok (report.print job.json)) = .error failure ↔
      ∃ e, failure = .compile e ∧ queryOf job.fields settings payload = .error e := by
    intro payload settings
    rw [except_bind_eq_error, except_mapError_eq_error]
    constructor
    · rintro (⟨e, he, rfl⟩ | ⟨q, hq, hreport⟩)
      · exact ⟨e, rfl, he⟩
      · obtain ⟨report, hok⟩ := exists_report (except_mapError_eq_ok.mp hq)
        rw [hok] at hreport
        cases hreport
    · rintro ⟨e, rfl, he⟩
      exact Or.inl ⟨e, he, rfl⟩
  rw [run_eq, except_bind_eq_error, Surroundings.readPayload_eq_error_iff]
  simp only [Surroundings.readPayload_eq_ok_iff, except_bind_eq_error,
    Surroundings.readSettings_eq_error_iff, Surroundings.readSettings_eq_ok_iff, hcompiled,
    or_assoc]

theorem run_eq_unreadable_iff : job.run s = .error .unreadable ↔
    s.payloadOf? job.payload = none ∨ s.Misses job.settings := by
  rw [run_eq_error_iff]
  cases s.payloadOf? job.payload <;> simp

theorem run_eq_settings_iff {e : SettingsError} : job.run s = .error (.settings e) ↔
    (∃ payload, s.payloadOf? job.payload = some payload) ∧ s.Refuses job.settings e := by
  simp [run_eq_error_iff]

theorem run_eq_compile_iff {e : CompileError} : job.run s = .error (.compile e) ↔
    ∃ payload settings, job.Reads s payload settings ∧
      queryOf job.fields settings payload = .error e := by
  simp [run_eq_error_iff, Reads, and_assoc]

/-- A query that was compiled is rendered. -/
theorem run_ne_render (e : RenderError) : job.run s ≠ .error (.render e) := by
  simp [run_eq_error_iff]

end Job

/-! ### Runs -/

theorem ofResult_eq_failed_iff {result : Except Failure String} {failure : Failure} :
    Outcome.ofResult result = .failed failure ↔ result = .error failure := by
  cases result <;> simp [Outcome.ofResult]

theorem exitCode_ofResult_eq_zero_iff {result : Except Failure String} :
    (Outcome.ofResult result).exitCode = 0 ↔ ∃ text, result = .ok text := by
  cases result <;> simp [Outcome.ofResult, Outcome.exitCode]

/-- **A run ends with its first stage that fails.** It reports something unreadable iff the payload
or the settings file cannot be read as text; a settings error iff the payload can be read and the
text of the settings file is refused; a compile error iff both can be read and the compilation ends
with that error; and otherwise it ends with exit code 0. Any other run ends with exit code 1,
nothing is written to the standard output, and a query that cannot be rendered is never the reason.
-/
theorem run_stages (arguments : List String) (s : Surroundings) (job : Job)
    (line : Command.read? arguments = some (.compile job)) :
    (run arguments s = .failed .unreadable ↔
      s.payloadOf? job.payload = none ∨ s.Misses job.settings) ∧
    (∀ e, run arguments s = .failed (.settings e) ↔
      (∃ payload, s.payloadOf? job.payload = some payload) ∧ s.Refuses job.settings e) ∧
    (∀ e, run arguments s = .failed (.compile e) ↔
      ∃ payload settings, job.Reads s payload settings ∧
        queryOf job.fields settings payload = .error e) ∧
    ((run arguments s).exitCode = 0 ↔
      ∃ payload settings q, job.Reads s payload settings ∧
        queryOf job.fields settings payload = .ok q) ∧
    ((run arguments s).exitCode ≠ 0 →
      (run arguments s).exitCode = 1 ∧ (run arguments s).output = "" ∧
        ∀ e, run arguments s ≠ .failed (.render e)) := by
  simp only [run_of_job line, ofResult_eq_failed_iff, exitCode_ofResult_eq_zero_iff, ne_eq]
  refine ⟨Job.run_eq_unreadable_iff, fun e => Job.run_eq_settings_iff,
    fun e => Job.run_eq_compile_iff, Job.exists_run_eq_ok_iff, fun hfailed => ?_⟩
  cases hrun : job.run s with
  | ok text => exact (hfailed ⟨text, hrun⟩).elim
  | error failure =>
    refine ⟨rfl, rfl, fun e he => ?_⟩
    exact Job.run_ne_render e (hrun.trans he)

/-- A job with a settings file that reads its payload from the standard input. -/
def storedJob : Job :=
  ⟨"-", none, .named, some "s.json", false⟩

/-- The command line of the job. -/
def storedLine : List String :=
  ["translate", "--payload=-", "--settings", "s.json"]

/-- A payload that can be read, and settings that are no settings. -/
def refusedSettings : Surroundings :=
  ⟨fun _ => some "\x7b\"list_delimiter\":\"\"\x7d".toUTF8, "null".toUTF8⟩

/-- Settings with an empty delimiter are refused, and the failure says so. -/
theorem run_stages_refusedSettings :
    Command.read? storedLine = some (.compile storedJob) ∧
      run storedLine refusedSettings = .failed (.settings (.invalid .emptyDelimiter)) := by
  have hline : Command.read? storedLine = some (.compile storedJob) := rfl
  refine ⟨hline, ?_⟩
  obtain ⟨-, hsettings, -⟩ := run_stages storedLine refusedSettings storedJob hline
  have htext : refusedSettings.textOf? "s.json" = some "\x7b\"list_delimiter\":\"\"\x7d" :=
    fromUTF8?_toUTF8 "\x7b\"list_delimiter\":\"\"\x7d"
  exact (hsettings _).mpr ⟨⟨"null", fromUTF8?_toUTF8 "null"⟩, "s.json", _, rfl, htext, rfl⟩

/-- A payload that can be read, and no file. -/
def noFiles : Surroundings :=
  ⟨fun _ => none, "null".toUTF8⟩

/-- **A settings file that cannot be read is reported as an unreadable payload**, although the
payload was read. -/
theorem run_unreadable_settings :
    noFiles.payloadOf? "-" = some "null" ∧ noFiles.Misses (some "s.json") ∧
      run storedLine noFiles = .failed .unreadable ∧
      Failure.line .unreadable = "PayloadRead(..)" := by
  have hmisses : noFiles.Misses (some "s.json") := ⟨"s.json", rfl, rfl⟩
  have hline : Command.read? storedLine = some (.compile storedJob) := rfl
  refine ⟨fromUTF8?_toUTF8 "null", hmisses, ?_, rfl⟩
  rw [run_of_job hline, ofResult_eq_failed_iff, Job.run_eq_error_iff]
  exact Or.inr ⟨"null", fromUTF8?_toUTF8 "null", Or.inl ⟨rfl, hmisses⟩⟩

end RuleFilter.Cli
