import ScriptMinifier.Proofs.FileTrees
import ScriptMinifier.Run

/-!
# What a run does to the files

`Job.Answers` is said of the steps that only look: they change nothing but the
log. `Arguments.Ends` lists the ways a run can end, among them a console that
fails before or after the writing. All but two of them leave the files as they
were, and these two write a single file.
-/

namespace ScriptMinifier

/-! ## Jobs on a host -/

namespace Job

variable {α β ε : Type} {host : Host}

@[simp] theorem runOn_pure (result : α) (host : Host) :
    (pure result : Job α).runOn host = (result, host) := rfl

@[simp] theorem runOn_bind (job : Job α) (f : α → Job β) (host : Host) :
    (job >>= f).runOn host =
      (f (job.runOn host).1).runOn (job.runOn host).2 := by
  show (job.andThen f).runOn host = _
  induction job generalizing host with
  | done result => rfl
  | probe path next ih => exact ih _ host
  | read path next ih => exact ih _ host
  | write path content next ih =>
      rw [andThen, runOn, runOn]
      cases host.files.write path content with
      | ok files => exact ih _ { host with files }
      | error fault => exact ih _ host
  | print text next ih => exact ih _ { host with console := _ }
  | complain text next ih => exact ih { host with errors := _ }
  | log event next ih =>
      rw [andThen, runOn, runOn]
      split
      · exact ih { host with errors := _ }
      · exact ih host

/-- The job gives this result and leaves the host as it is but for the log. -/
def Answers (job : Job α) (host : Host) (result : α) : Prop :=
  ∃ errors, job.runOn host = (result, { host with errors })

theorem answers_done (result : α) (host : Host) :
    (done result).Answers host result :=
  ⟨host.errors, rfl⟩

theorem Answers.bind {job : Job α} {f : α → Job β} {x : α} {y : β}
    (hjob : job.Answers host x)
    (hrest : ∀ errors, (f x).Answers { host with errors } y) :
    (job >>= f).Answers host y := by
  obtain ⟨errors, hjob⟩ := hjob
  obtain ⟨more, hrest⟩ := hrest errors
  exact ⟨more, by rw [runOn_bind, hjob, hrest]⟩

theorem Answers.log {job : Job α} {event : Event} {x : α}
    (hjob : ∀ errors, job.Answers { host with errors } x) :
    (log event job).Answers host x := by
  unfold Answers
  rw [runOn]
  split
  · exact hjob _
  · exact hjob host.errors

theorem answers_logAll (events : List Event) (host : Host) :
    (logAll events).Answers host () := by
  induction events generalizing host with
  | nil => exact answers_done () host
  | cons event events ih => exact Answers.log fun errors => ih _

theorem runOn_attempt_bind (failure : ε → RunError) (step : Job (Except ε α))
    (rest : α → Attempt β) (host : Host) :
    ((attempt failure step >>= rest).run).runOn host =
      match step.runOn host with
      | (.ok x, after) => (rest x).run.runOn after
      | (.error e, after) => (.error (failure e), after) := by
  have hattempt : (attempt failure step).run.runOn host =
      ((step.runOn host).1.mapError failure, (step.runOn host).2) :=
    runOn_bind step _ host
  rw [ExceptT.run_bind, runOn_bind, hattempt]
  rcases step.runOn host with ⟨x | e, after⟩ <;> rfl

end Job

/-! ## Text in files -/

theorem encodeUtf8_injective {s t : Text} (h : encodeUtf8 s = encodeUtf8 t) :
    s = t :=
  String.ofList_inj.mp (String.toByteArray_inj.mp h)

theorem decodeUtf8_eq_ok_iff {bytes : ByteArray} {text : Text} :
    decodeUtf8 bytes = .ok text ↔ bytes = encodeUtf8 text := by
  unfold decodeUtf8 String.fromUTF8?
  constructor
  · intro h
    split at h
    · next s hs =>
        cases h
        split at hs
        · cases hs
          rw [encodeUtf8, String.ofList_toList]
          rfl
        · cases hs
    · cases h
  · rintro rfl
    have hvalid : (encodeUtf8 text).IsValidUTF8 :=
      (String.ofList text).isValidUTF8
    rw [dif_pos hvalid]
    exact congrArg Except.ok String.toList_ofList

theorem size_encodeUtf8 (s : Text) : (encodeUtf8 s).size = Text.byteSize s := by
  rw [encodeUtf8, String.toUTF8_eq_toByteArray, String.toByteArray_ofList]
  induction s with
  | nil => rfl
  | cons c s ih =>
      rw [List.utf8Encode_cons, ByteArray.size_append, ih,
        List.utf8Encode_singleton, List.size_toByteArray,
        String.length_utf8EncodeChar]
      rfl

/-- The file at this path holds this text. -/
def FileTree.Holds (tree : FileTree) (p : Path) (text : Text) : Prop :=
  tree.read p = .ok (encodeUtf8 text)

theorem FileTree.Holds.unique {tree : FileTree} {p : Path} {s t : Text}
    (hs : tree.Holds p s) (ht : tree.Holds p t) : s = t := by
  unfold FileTree.Holds at hs ht
  rw [hs, Except.ok.injEq] at ht
  exact encodeUtf8_injective ht

/-- What a step of reading finds in a file. -/
def FileTree.readText (tree : FileTree) (p : Path) : Except Fault Text :=
  tree.read p >>= decodeUtf8

theorem readText_eq_ok_iff {files : FileTree} {p : Path} {text : Text} :
    files.readText p = .ok text ↔ files.Holds p text := by
  rw [FileTree.readText, bind_eq_ok_iff]
  constructor
  · rintro ⟨bytes, hread, hdecode⟩
    rw [FileTree.Holds, hread, decodeUtf8_eq_ok_iff.mp hdecode]
  · intro h
    exact ⟨_, h, decodeUtf8_eq_ok_iff.mpr rfl⟩

theorem answers_readText (p : Path) (host : Host) :
    (readText p).Answers host (host.files.readText p) :=
  ⟨host.errors, rfl⟩

/-! ## Settings -/

/-- What the arguments build on: the defaults, or the settings in a file. -/
inductive Arguments.Base (a : Arguments) (files : FileTree) : Settings → Prop
  | defaults (hconfig : a.config = none) : Base a files {}
  | loaded {path : Path} {text : Text} {s : Settings}
      (hconfig : a.config = some path) (htext : files.Holds path text)
      (hjson : Settings.ofJson text = .ok s) : Base a files s

variable {a : Arguments} {files : FileTree} {host after : Host}
  {base s : Settings}

theorem Arguments.Base.unique {other : Settings} (h : a.Base files base)
    (hother : a.Base files other) : base = other := by
  cases h with
  | defaults hconfig =>
      cases hother with
      | defaults => rfl
      | loaded hconfig' => cases hconfig.symm.trans hconfig'
  | loaded hconfig htext hjson =>
      cases hother with
      | defaults hconfig' => cases hconfig.symm.trans hconfig'
      | loaded hconfig' htext' hjson' =>
          cases hconfig.symm.trans hconfig'
          cases htext.unique htext'
          exact Except.ok.inj (hjson.symm.trans hjson')

/-- The settings in a file. -/
def FileTree.settingsAt (tree : FileTree) (p : Path) :
    Except SettingsError Settings := do
  let text ← (tree.readText p).mapError .unreadable
  (Settings.ofJson text).mapError .malformed

/-- The settings of a run with these arguments. -/
def Arguments.settingsIn (a : Arguments) (files : FileTree) :
    Except SettingsError Settings :=
  (a.config.elim (.ok {}) files.settingsAt).map a.override

theorem mapError_eq_ok_iff {ε δ α : Type} {x : Except ε α} {f : ε → δ} {b : α} :
    x.mapError f = .ok b ↔ x = .ok b := by
  cases x <;> simp [Except.mapError]

theorem map_eq_ok_iff {ε α β : Type} {x : Except ε α} {f : α → β} {b : β} :
    x.map f = .ok b ↔ ∃ a, x = .ok a ∧ b = f a := by
  cases x <;> simp [Except.map, eq_comm]

theorem settingsAt_eq_ok_iff {p : Path} : files.settingsAt p = .ok s ↔
    ∃ text, files.Holds p text ∧ Settings.ofJson text = .ok s := by
  simp only [FileTree.settingsAt, bind_eq_ok_iff, mapError_eq_ok_iff,
    readText_eq_ok_iff]

theorem settingsIn_eq_ok_iff : a.settingsIn files = .ok s ↔
    ∃ base, a.Base files base ∧ s = a.override base := by
  rw [Arguments.settingsIn, map_eq_ok_iff]
  refine exists_congr fun base => and_congr_left fun _ => ?_
  cases hconfig : a.config with
  | none =>
      constructor
      · rintro ⟨⟩
        exact .defaults hconfig
      · intro hbase
        rw [hbase.unique (.defaults hconfig)]
        rfl
  | some path =>
      rw [Option.elim_some, settingsAt_eq_ok_iff]
      constructor
      · rintro ⟨text, htext, hjson⟩
        exact .loaded hconfig htext hjson
      · rintro (hnone | ⟨hsome, htext, hjson⟩)
        · cases hconfig.symm.trans hnone
        · cases hconfig.symm.trans hsome
          exact ⟨_, htext, hjson⟩

theorem answers_loadSettings (p : Path) (host : Host) :
    (loadSettings p).Answers host (host.files.settingsAt p) := by
  refine (answers_readText p host).bind fun errors => ?_
  rw [FileTree.settingsAt]
  cases host.files.readText p with
  | error fault => exact Job.answers_done _ _
  | ok text =>
      dsimp only [Except.mapError, bind, Except.bind]
      cases Settings.ofJson text with
      | error error => exact Job.answers_done _ _
      | ok settings => exact Job.Answers.log fun errors => Job.answers_done _ _

theorem answers_resolve (a : Arguments) (host : Host) :
    a.resolve.Answers host (a.settingsIn host.files) := by
  rw [Arguments.resolve, Arguments.settingsIn]
  cases a.config with
  | none =>
      exact (Job.answers_done _ host).bind fun errors => Job.answers_done _ _
  | some path =>
      exact (answers_loadSettings path host).bind fun errors =>
        Job.answers_done _ _

/-- The minifier that the settings ask for. -/
def Settings.toMinifier (s : Settings) : Minifier :=
  Minifier.withRenames { strategy := s.strategy } s.renames

theorem answers_minify (s : Settings) (text : Text) (host : Host) :
    (s.minify text).Answers host (s.toMinifier.minify text) := by
  have hminifier : s.minifier.Answers host s.toMinifier := by
    unfold Settings.minifier
    dsimp only
    split
    · exact Job.answers_done _ _
    · exact Job.Answers.log fun errors => Job.answers_done _ _
  refine hminifier.bind fun errors => ?_
  refine (Job.answers_logAll _ _).bind fun errors => ?_
  exact (Job.answers_logAll _ _).bind fun errors => Job.answers_done _ _

/-! ## Runs -/

/-- With these settings the run has read this text and written its minified
form. -/
structure Arguments.Writes (a : Arguments) (before after : FileTree)
    (base : Settings) (text : Text) : Prop where
  settings : a.Base before base
  script : before.Holds (a.root.join (a.override base).input) text
  output : before.write (a.root.join (a.override base).outputPath)
    (encodeUtf8 ((a.override base).toMinifier.minify text).output) = .ok after

/-- What a run can say before it writes. -/
def Settings.opening (s : Settings) : List Text :=
  [s!"Error: {missingMessage s.input}".toList ++ ['\n'],
    s!"Reading {s.input.toString}...".toList ++ ['\n'],
    "Minifying...".toList ++ ['\n']]

/-- How a run can end. -/
inductive Arguments.Ends (a : Arguments) (host after : Host) :
    Except RunError Outcome → Prop
  | settings {error : SettingsError} (h : ∀ base, ¬ a.Base host.files base)
      (hfiles : after.files = host.files) :
      Ends a host after (.error (.settings error))
  | missing {base : Settings} (hbase : a.Base host.files base)
      (h : host.files.contains (a.root.join (a.override base).input) = false)
      (hfiles : after.files = host.files) :
      Ends a host after (.ok (.missingInput (a.override base).input))
  | reading {base : Settings} {fault : Fault} (hbase : a.Base host.files base)
      (h : ∀ text,
        ¬ host.files.Holds (a.root.join (a.override base).input) text)
      (hfiles : after.files = host.files) :
      Ends a host after (.error (.reading
        (a.root.join (a.override base).input) fault))
  | writing {base : Settings} {fault : Fault} (hbase : a.Base host.files base)
      (h : ∀ location, host.files.target
        (a.root.join (a.override base).outputPath) ≠ .ok location)
      (hfiles : after.files = host.files) :
      Ends a host after (.error (.writing
        (a.root.join (a.override base).outputPath) fault))
  | unheard {base : Settings} {shown words : Text} {fault : Fault}
      (hbase : a.Base host.files base)
      (hwords : words ∈ (a.override base).opening)
      (h : host.display shown words = (after.console, .error fault))
      (hfiles : after.files = host.files) :
      Ends a host after (.error (.console fault))
  | unreported {base : Settings} {text shown : Text} {fault : Fault}
      (hwrites : a.Writes host.files after.files base text)
      (h : host.display shown
        (((a.override base).toMinifier.minify text).report.block
          (a.override base).outputPath) = (after.console, .error fault)) :
      Ends a host after (.error (.console fault))
  | minified {base : Settings} {text : Text}
      (hwrites : a.Writes host.files after.files base text) :
      Ends a host after (.ok (.minified (a.override base).input
        (a.override base).outputPath
        ((a.override base).toMinifier.minify text).report))

theorem runOn_printText (s : Text) (host : Host) :
    (printText s).runOn host =
      ((host.display host.console s).2,
        { host with console := (host.display host.console s).1 }) := rfl

/-- However far the console and the log are, what is left of a run ends it. -/
def Arguments.Leads (a : Arguments) (host : Host) (rest : Attempt Outcome) :
    Prop :=
  ∀ console errors,
    a.Ends host (rest.run.runOn { host with console, errors }).2
      (rest.run.runOn { host with console, errors }).1

section Steps

variable {α ε : Type} {rest : α → Attempt Outcome}

theorem leads_say {line : String} {rest : Unit → Attempt Outcome}
    (hbase : a.Base host.files base)
    (hline : line.toList ++ ['
'] ∈ (a.override base).opening)
    (hrest : a.Leads host (rest ())) :
    a.Leads host (sayLine line >>= rest) := by
  intro console errors
  rw [sayLine, Job.runOn_attempt_bind, runOn_printText]
  rcases hsay : host.display console (line.toList ++ ['
'])
    with ⟨shown, fault | ⟨⟩⟩
  · exact .unheard hbase hline hsay rfl
  · exact hrest shown errors

theorem leads_job {job : Job α} {x : α}
    (hjob : ∀ console errors, job.Answers { host with console, errors } x)
    (hrest : a.Leads host (rest x)) :
    a.Leads host ((job : Attempt α) >>= rest) := by
  intro console errors
  obtain ⟨more, hjob⟩ := hjob console errors
  have hlift : (job : Attempt α).run.runOn { host with console, errors } =
      (.ok x, { host with console, errors := more }) := by
    show (job >>= fun x =>
      pure (Except.ok x : Except RunError α)).runOn _ = _
    rw [Job.runOn_bind, hjob, Job.runOn_pure]
  rw [ExceptT.run_bind, Job.runOn_bind, hlift]
  exact hrest console more

theorem leads_attempt {failure : ε → RunError} {step : Job (Except ε α)}
    {answer : Except ε α}
    (hstep : ∀ console errors,
      step.Answers { host with console, errors } answer)
    (herror : ∀ e after, answer = .error e → after.files = host.files →
      a.Ends host after (.error (failure e)))
    (hrest : ∀ x, answer = .ok x → a.Leads host (rest x)) :
    a.Leads host (attempt failure step >>= rest) := by
  intro console errors
  obtain ⟨more, hstep⟩ := hstep console errors
  rw [Job.runOn_attempt_bind, hstep]
  cases answer with
  | error e => exact herror e _ rfl rfl
  | ok x => exact hrest x rfl console more

end Steps

theorem leads_write {text : Text} (hbase : a.Base host.files base)
    (htext : host.files.Holds (a.root.join (a.override base).input) text) :
    let result := (a.override base).toMinifier.minify text
    let target := a.root.join (a.override base).outputPath
    a.Leads host do
      attempt (.writing target) (writeText target result.output)
      attempt .console
        (printText (result.report.block (a.override base).outputPath))
      return .minified (a.override base).input (a.override base).outputPath
        result.report := by
  intro result target console errors
  rw [Job.runOn_attempt_bind, writeText, Job.runOn]
  cases hwrite : host.files.write target (encodeUtf8 result.output) with
  | error fault =>
      refine .writing hbase (fun location htarget => ?_) rfl
      rw [FileTree.write, htarget] at hwrite
      cases hwrite
  | ok files =>
      have hwrites : a.Writes host.files files base text :=
        ⟨hbase, htext, hwrite⟩
      dsimp only [Job.runOn]
      rw [Job.runOn_attempt_bind, runOn_printText]
      rcases hsay : host.display console
          (result.report.block (a.override base).outputPath)
        with ⟨shown, fault | ⟨⟩⟩
      · exact .unreported hwrites hsay
      · exact .minified hwrites

theorem leads_process (hbase : a.Base host.files base) :
    a.Leads host ((a.override base).process a.root) := by
  refine leads_say hbase (by simp [Settings.opening]) ?_
  have hanswers (console errors : Text) :
      (readText (a.root.join (a.override base).input)).Answers
        { host with console, errors }
        (host.files.readText (a.root.join (a.override base).input)) :=
    answers_readText _ _
  refine leads_attempt hanswers ?_ ?_
  · intro fault after hread hfiles
    refine .reading hbase (fun text htext => ?_) hfiles
    cases hread.symm.trans (readText_eq_ok_iff.mpr htext)
  · intro text hread
    refine leads_say hbase (by simp [Settings.opening]) ?_
    refine leads_job (fun console errors => answers_minify _ text _) ?_
    exact leads_write hbase (readText_eq_ok_iff.mp hread)

theorem leads_reportMissing (hbase : a.Base host.files base)
    (h : host.files.contains (a.root.join (a.override base).input) = false) :
    a.Leads host ((a.override base).reportMissing a.root) := by
  refine leads_job (fun console errors => Job.answers_logAll _ _) ?_
  refine leads_say hbase (by simp [Settings.opening]) ?_
  intro console errors
  exact .missing hbase h rfl

theorem ends_run (a : Arguments) (host : Host) :
    a.Ends host (a.run.runOn host).2 (a.run.runOn host).1 := by
  refine (show a.Leads host _ from ?_) host.console host.errors
  have hanswers (console errors : Text) :
      a.resolve.Answers { host with console, errors }
        (a.settingsIn host.files) :=
    answers_resolve a _
  refine leads_attempt hanswers ?_ ?_
  · intro error after hsettings hfiles
    refine .settings (fun base hbase => ?_) hfiles
    cases hsettings.symm.trans (settingsIn_eq_ok_iff.mpr ⟨base, hbase, rfl⟩)
  · intro s hsettings
    obtain ⟨base, hbase, rfl⟩ := settingsIn_eq_ok_iff.mp hsettings
    have hprobe (console errors : Text) :
        (Job.probe (a.root.join (a.override base).input) .done).Answers
          { host with console, errors }
          (host.files.contains (a.root.join (a.override base).input)) :=
      ⟨errors, rfl⟩
    refine leads_job hprobe ?_
    cases hfound :
        host.files.contains (a.root.join (a.override base).input) with
    | false => exact leads_reportMissing hbase hfound
    | true => exact leads_process hbase

/-! ## One file or none -/

/-- What keeps a run from writing anything. -/
inductive Arguments.Refused (a : Arguments) (files : FileTree) : Prop
  | settings (h : ∀ base, ¬ a.Base files base)
  | missing {base : Settings} (hbase : a.Base files base)
      (h : files.contains (a.root.join (a.override base).input) = false)
  | unreadable {base : Settings} {fault : Fault} (hbase : a.Base files base)
      (h : files.read (a.root.join (a.override base).input) = .error fault)
  | notText {base : Settings} {bytes : ByteArray} (hbase : a.Base files base)
      (hread : files.read (a.root.join (a.override base).input) = .ok bytes)
      (h : ∀ text, bytes ≠ encodeUtf8 text)
  | unwritable {base : Settings} {fault : Fault} (hbase : a.Base files base)
      (h : files.target (a.root.join (a.override base).outputPath) =
        .error fault)

/-- A run with settings, text to read and a place to write is not refused. -/
theorem not_refused {text : Text} {location : Location}
    (hbase : a.Base files base)
    (htext : files.Holds (a.root.join (a.override base).input) text)
    (htarget : files.target (a.root.join (a.override base).outputPath) =
      .ok location) : ¬ a.Refused files := by
  unfold FileTree.Holds at htext
  rintro (hnone | ⟨hother, hfound⟩ | ⟨hother, hread⟩ | ⟨hother, hread, hbytes⟩ |
    ⟨hother, hfault⟩)
  · exact hnone base hbase
  · cases hbase.unique hother
    obtain ⟨location, hlocate, -⟩ := FileTree.read_eq_ok_iff.mp htext
    rw [FileTree.contains, hlocate] at hfound
    cases hfound
  · cases hbase.unique hother
    cases htext.symm.trans hread
  · cases hbase.unique hother
    cases htext.symm.trans hread
    exact hbytes text rfl
  · cases hbase.unique hother
    cases htarget.symm.trans hfault

theorem refused_of_not_holds (hbase : a.Base files base)
    (h : ∀ text, ¬ files.Holds (a.root.join (a.override base).input) text) :
    a.Refused files := by
  cases hread : files.read (a.root.join (a.override base).input) with
  | error fault => exact .unreadable hbase hread
  | ok bytes =>
      refine .notText hbase hread ?_
      rintro text rfl
      exact h text hread

theorem refused_of_no_target (hbase : a.Base files base)
    (h : ∀ location,
      files.target (a.root.join (a.override base).outputPath) ≠ .ok location) :
    a.Refused files := by
  cases htarget : files.target (a.root.join (a.override base).outputPath) with
  | error fault => exact .unwritable hbase htarget
  | ok location => exact absurd htarget (h location)

/-- A run changes nothing, or it writes one file. -/
theorem Arguments.Ends.kept_or_written {result : Except RunError Outcome}
    (h : a.Ends host after result) :
    (after.files = host.files ∧
      (a.Refused host.files ∨ ∃ fault, result = .error (.console fault)) ∧
      ∀ input output report, result ≠ .ok (.minified input output report)) ∨
    ∃ base text, a.Writes host.files after.files base text ∧
      (result = .ok (.minified (a.override base).input
        (a.override base).outputPath
        ((a.override base).toMinifier.minify text).report) ∨
      ∃ fault, result = .error (.console fault)) := by
  cases h with
  | settings h hfiles => exact .inl ⟨hfiles, .inl (.settings h), by simp⟩
  | missing hbase h hfiles =>
      exact .inl ⟨hfiles, .inl (.missing hbase h), by simp⟩
  | reading hbase h hfiles =>
      exact .inl ⟨hfiles, .inl (refused_of_not_holds hbase h), by simp⟩
  | writing hbase h hfiles =>
      exact .inl ⟨hfiles, .inl (refused_of_no_target hbase h), by simp⟩
  | unheard hbase hwords h hfiles =>
      exact .inl ⟨hfiles, .inr ⟨_, rfl⟩, by simp⟩
  | unreported hwrites h => exact .inr ⟨_, _, hwrites, .inr ⟨_, rfl⟩⟩
  | minified hwrites => exact .inr ⟨_, _, hwrites, .inl rfl⟩

theorem Arguments.Writes.not_refused {after : FileTree} {text : Text}
    (h : a.Writes files after base text) : ¬ a.Refused files := by
  obtain ⟨location, htarget, -⟩ := FileTree.exists_set_of_write h.output
  exact ScriptMinifier.not_refused h.settings h.script htarget

/-- Without an output path the script is read as before. -/
theorem read_input_eq {root : Path} {content : ByteArray} {text : Text}
    {written : FileTree} (houtput : s.output = none)
    (htext : files.Holds (root.join s.input) text)
    (hwrite : files.write (root.join s.outputPath) content = .ok written) :
    written.read (root.join s.input) = files.read (root.join s.input) := by
  rw [Settings.outputPath, houtput, Option.getD_none] at hwrite
  rw [FileTree.read_write_of_ne hwrite htext
    (FileTree.locate_ne_target_minified htext), htext]

/-- The output of a run is in place: with these settings the script held this
text, and the output file holds its minified form. -/
structure Arguments.Delivered (a : Arguments) (before after : FileTree)
    (base : Settings) (text : Text) : Prop where
  settings : a.Base before base
  script : before.Holds (a.root.join (a.override base).input) text
  output : after.Holds (a.root.join (a.override base).outputPath)
    ((a.override base).toMinifier.minify text).output

theorem Arguments.Writes.delivered {after : FileTree} {text : Text}
    (h : a.Writes files after base text) : a.Delivered files after base text :=
  ⟨h.settings, h.script, FileTree.read_write h.output⟩

/-- A console that fails has been given a line before the writing, or the
report after it. -/
theorem Arguments.Ends.console_fault {result : Except RunError Outcome}
    (h : a.Ends host after result) :
    ∀ fault, result = .error (.console fault) →
      ∃ base shown words, a.Base host.files base ∧
        host.display shown words = (after.console, .error fault) ∧
        (words ∈ (a.override base).opening ∧ after.files = host.files ∨
        ∃ text, a.Delivered host.files after.files base text ∧
          words = ((a.override base).toMinifier.minify text).report.block
            (a.override base).outputPath) := by
  rintro fault rfl
  cases h with
  | unheard hbase hwords h hfiles =>
      exact ⟨_, _, _, hbase, h, .inl ⟨hwords, hfiles⟩⟩
  | unreported hwrites h =>
      exact ⟨_, _, _, hwrites.settings, h, .inr ⟨_, hwrites.delivered, rfl⟩⟩

/-- **A run changes one file or none.** Without settings, without a script that
holds text, or without a place for the result, the files stay as they were.
Otherwise the result is minified unless the console fails. If it is minified,
the output file holds the minified form of what the script held, and the report
has the two sizes in bytes. A console that fails ends the run with its fault:
at the lines before the writing no file has changed, and at the report the
output is already in place. In any case no entry but that of the output
changes, and the script itself stays if no output is asked for. -/
theorem files_run (a : Arguments) (host after : Host)
    (result : Except RunError Outcome)
    (hrun : a.run.runOn host = (result, after)) :
    (a.Refused host.files → after.files = host.files) ∧
    ((∃ input output report, result = .ok (.minified input output report)) ↔
      ¬ a.Refused host.files ∧ ∀ fault, result ≠ .error (.console fault)) ∧
    (∀ input output report, result = .ok (.minified input output report) →
      ∃ base text, a.Delivered host.files after.files base text ∧
        input = (a.override base).input ∧
        output = (a.override base).outputPath ∧
        report.source = (encodeUtf8 text).size ∧
        report.minified = (encodeUtf8
          ((a.override base).toMinifier.minify text).output).size) ∧
    (∀ fault, result = .error (.console fault) →
      ∃ base shown words, a.Base host.files base ∧
        host.display shown words = (after.console, .error fault) ∧
        (words ∈ (a.override base).opening ∧ after.files = host.files ∨
        ∃ text, a.Delivered host.files after.files base text ∧
          words = ((a.override base).toMinifier.minify text).report.block
            (a.override base).outputPath)) ∧
    (∀ location, after.files.get? location ≠ host.files.get? location →
      ∃ base, a.Base host.files base ∧
        host.files.target (a.root.join (a.override base).outputPath) =
          .ok location) ∧
    (∀ base, a.Base host.files base → a.output = none → base.output = none →
      after.files.read (a.root.join (a.override base).input) =
        host.files.read (a.root.join (a.override base).input)) := by
  have hends := ends_run a host
  rw [hrun] at hends
  have hconsole := hends.console_fault
  rcases hends.kept_or_written with ⟨hfiles, hcause, hresult⟩ |
    ⟨base, text, hwrites, hresult⟩
  · dsimp only at hfiles
    refine ⟨fun _ => hfiles, ⟨?_, ?_⟩, ?_, hconsole, ?_, ?_⟩
    · rintro ⟨input, output, report, h⟩
      exact absurd h (hresult input output report)
    · rintro ⟨hrefused, hheard⟩
      rcases hcause with h | ⟨fault, h⟩
      · exact absurd h hrefused
      · exact absurd h (hheard fault)
    · intro input output report h
      exact absurd h (hresult input output report)
    · intro location h
      exact absurd (congrArg (FileTree.get? · location) hfiles) h
    · intro base _ _ _
      rw [hfiles]
  · have hrefused := hwrites.not_refused
    refine ⟨fun h => absurd h hrefused, ⟨?_, ?_⟩, ?_, hconsole, ?_, ?_⟩
    · rintro ⟨input, output, report, rfl⟩
      exact ⟨hrefused, by simp⟩
    · rintro ⟨-, hheard⟩
      rcases hresult with h | ⟨fault, h⟩
      · exact ⟨_, _, _, h⟩
      · exact absurd h (hheard fault)
    · rintro input output report rfl
      rcases hresult with ⟨⟨⟩⟩ | ⟨fault, ⟨⟩⟩
      exact ⟨base, text, hwrites.delivered, rfl, rfl,
        (size_encodeUtf8 _).symm, (size_encodeUtf8 _).symm⟩
    · intro other hother
      refine ⟨base, hwrites.settings, ?_⟩
      by_contra hne
      exact hother (FileTree.get?_write hwrites.output hne)
    · intro other hother houtput hbaseOutput
      cases hwrites.settings.unique hother
      apply read_input_eq _ hwrites.script hwrites.output
      rw [Arguments.override, houtput, hbaseOutput]
      rfl

/-- A script at the top of the working directory. -/
def plainHost : Host where
  files := { entries := [([[], "app.js".toList],
    .file (encodeUtf8 "var total = 1 + 2;".toList))] }

def plainArguments : Arguments := { input := some (.ofString "app.js") }

theorem files_run_plainHost :
    let after := (plainArguments.run.runOn plainHost).2
    after.files.Holds (.ofString "./app.min.js")
      (({} : Settings).toMinifier.minify "var total = 1 + 2;".toList).output ∧
    after.files.read (.ofString "./app.js") =
      plainHost.files.read (.ofString "./app.js") := by
  have hbase : plainArguments.Base plainHost.files {} := .defaults rfl
  have htext : plainHost.files.Holds (plainArguments.root.join
      (plainArguments.override {}).input) "var total = 1 + 2;".toList := by
    rfl
  have htarget : plainHost.files.target (plainArguments.root.join
      (plainArguments.override {}).outputPath) =
        .ok [[], "app.min.js".toList] := by
    rfl
  obtain ⟨-, hminified, hwritten, hconsole, -, hinput⟩ :=
    files_run plainArguments plainHost _ _ rfl
  have hheard : ∀ fault,
      (plainArguments.run.runOn plainHost).1 ≠ .error (.console fault) := by
    intro fault hfault
    obtain ⟨-, shown, words, -, hdisplay, -⟩ := hconsole fault hfault
    have hanswer : (.ok () : Except Fault Unit) = .error fault :=
      congrArg Prod.snd hdisplay
    cases hanswer
  obtain ⟨input, output, report, hresult⟩ :=
    hminified.mpr ⟨not_refused hbase htext htarget, hheard⟩
  obtain ⟨base, text, hdelivered, -⟩ :=
    hwritten input output report hresult
  cases hbase.unique hdelivered.settings
  cases htext.unique hdelivered.script
  exact ⟨hdelivered.output, hinput _ hbase rfl rfl⟩

/-- The same files, and a console that is closed behind two lines. -/
def shortHost : Host where
  files := plainHost.files
  display shown text :=
    if shown.count '\n' < 2 then (shown ++ text, .ok ())
    else (shown, .error (.other "Broken pipe (os error 32)"))

example :
    let (result, after) := plainArguments.run.runOn shortHost
    result = .error (.console (.other "Broken pipe (os error 32)")) ∧
    after.files.Holds (.ofString "./app.min.js") "var total=1+2;".toList :=
  ⟨rfl, rfl⟩

end ScriptMinifier
