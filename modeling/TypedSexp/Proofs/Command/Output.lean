import TypedSexp.Command.Outcome
import TypedSexp.FileTree.System
import TypedSexp.Proofs.Compile.Written
import TypedSexp.Setting.Yaml.Document

/-!
# What a command line puts out

An invocation that ends with code 1 prints one diagnostic and nothing else, and leaves every file
as it was: what it needs was refused (`Command.Invocation.Refused`), or its source does not
compile, be it at the last of many forms. One that ends with code 0 puts out what was found out
about all forms of the source, in the way its action asks for (`Command.Action.Delivers`).

Both compile under the same options: those of the configuration and the overrides, with the
settings of the action merged into them (`Command.Action.merge_settings`).

All of this holds in every file system and with every reader of documents. An invocation may also
end with no code at all, which is kept apart: where an override or the reader of documents fails in
a way that is not reported, and where a script cannot be written. In the last case nothing is known
about the file system but that it is what the failed write left.

What is left out: the lines of the log, and what the usage text of the program says when a command
line is not understood. Nothing is assumed about the reader of documents, and so nothing is said
about which texts are configurations.
-/

namespace TypedSexp.Command

/-! ## Settings of actions -/

/-- The settings that an action lays over the options. -/
def Action.settings : Action → List (Value × Value)
  | .check types substitution script json =>
    [(.text "inference", .map [(.text "enabled", .bool true)]),
     (.text "output", .map <|
       (if types then [(.text "show_types", .bool true)] else []) ++
       (if substitution then [(.text "show_substitution", .bool true)] else []) ++
       (if script then [(.text "emit_javascript", .bool true)] else []) ++
       if json then [(.text "format", .text "json")] else [])]
  | .emit _ skipsTypes =>
    (.text "output", .map [(.text "emit_javascript", .bool true)]) ::
      if skipsTypes then [(.text "inference", .map [(.text "enabled", .bool false)])] else []

/-- Merging the settings of an action always succeeds, and gives the options of the action. What the
settings leave out is kept from the options before. -/
theorem Action.merge_settings (a : Action) (o : Options) :
    o.merge a.settings = .ok (a.options o) := by
  obtain ⟨infers, format, showsTypes, showsSubstitution, emits⟩ := o
  cases a with
  | check types substitution script json =>
    cases format <;> cases types <;> cases substitution <;> cases script <;> cases json <;> rfl
  | emit output skipsTypes => cases format <;> cases skipsTypes <;> rfl

/-! ## What an invocation works on -/

namespace Invocation

/-- The options and the source of an invocation: the settings of its action are merged into the
options that its configuration and its overrides give. The configuration is the one that it names,
or else the one of the setup. -/
def Loads (i : Invocation) (setup : Setup) (files : Files) (o : Options) (source : String) : Prop :=
  ∃ updates c, Override.collect i.overrides = .ok updates ∧
    files.options setup.reader (i.config <|> setup.config) updates = .ok c ∧
    files.readText i.source = .ok source ∧ c.merge i.action.settings = .ok o

/-- What an invocation needs is refused. Overrides are looked at first, then the configuration,
then the source. -/
inductive Refused (i : Invocation) (setup : Setup) (files : Files) : RunFault → Prop
  | override {f : OverrideFault} (refused : Override.collect i.overrides = .error f) :
      Refused i setup files (.override f)
  | configuration {updates : List (Value × Value)} {f : LoadFault}
      (collected : Override.collect i.overrides = .ok updates)
      (refused : files.options setup.reader (i.config <|> setup.config) updates = .error f) :
      Refused i setup files (.load f)
  | source {updates : List (Value × Value)} {c : Options} {f : TextFault}
      (collected : Override.collect i.overrides = .ok updates)
      (loaded : files.options setup.reader (i.config <|> setup.config) updates = .ok c)
      (refused : files.readText i.source = .error f) : Refused i setup files (.source f)

variable {i : Invocation} {setup : Setup} {files : Files}

/-- Loading fails exactly where something is refused, and with the fault of the first that is. The
stages are overrides, configuration and source, in this order. -/
theorem load_eq_error_iff {f : RunFault} :
    i.load setup files = .error f ↔ i.Refused setup files f := by
  constructor
  · intro h
    rcases eq_error_or_of_bind_eq_error h with h | ⟨updates, hcollect, h⟩
    · obtain ⟨g, hcollect, rfl⟩ := exists_of_mapError_eq_error h
      exact .override hcollect
    have hcollect := eq_ok_of_mapError_eq_ok hcollect
    rcases eq_error_or_of_bind_eq_error h with h | ⟨c, hoptions, h⟩
    · obtain ⟨g, hoptions, rfl⟩ := exists_of_mapError_eq_error h
      exact .configuration hcollect hoptions
    have hoptions := eq_ok_of_mapError_eq_ok hoptions
    rcases eq_error_or_of_bind_eq_error h with h | ⟨source, -, h⟩
    · obtain ⟨g, hsource, rfl⟩ := exists_of_mapError_eq_error h
      exact .source hcollect hoptions hsource
    · cases h
  · intro h
    unfold load
    cases h with
    | override refused =>
      rw [refused]
      rfl
    | configuration collected refused =>
      rw [collected]
      show (Except.mapError RunFault.load _ >>= _) = _
      rw [refused]
      rfl
    | source collected loaded refused =>
      rw [collected]
      show (Except.mapError RunFault.load _ >>= _) = _
      rw [loaded]
      show (Except.mapError RunFault.source _ >>= _) = _
      rw [refused]
      rfl

/-- What was loaded are the options before the action and the source. With the settings of the
action these are what the invocation works on. -/
theorem loads_of_load {c : Options} {source : String} (h : i.load setup files = .ok (c, source)) :
    i.Loads setup files (i.action.options c) source := by
  obtain ⟨updates, hcollect, h⟩ := exists_of_bind_eq_ok h
  obtain ⟨c', hoptions, h⟩ := exists_of_bind_eq_ok h
  obtain ⟨source', hsource, h⟩ := exists_of_bind_eq_ok h
  cases h
  exact ⟨updates, c, eq_ok_of_mapError_eq_ok hcollect, eq_ok_of_mapError_eq_ok hoptions,
    eq_ok_of_mapError_eq_ok hsource, i.action.merge_settings c⟩

/-! ## How it ends -/

/-- There is an outcome where something was refused in a way that is reported, and where all that is
needed was loaded. In the first case the outcome prints one line and nothing is compiled. -/
theorem outcome_inv {o : Outcome} (h : i.outcome setup files = .ok o) :
    (∃ f, i.Refused setup files f ∧ f.break? = none ∧ o = failure f.line) ∨
      ∃ c source, i.load setup files = .ok (c, source) ∧ o = i.finish c source := by
  unfold outcome at h
  split at h
  · next c source hload =>
    cases h
    exact .inr ⟨c, source, hload, rfl⟩
  · next f hload =>
    split at h
    · cases h
    · next reported =>
      cases h
      exact .inl ⟨f, load_eq_error_iff.mp hload, reported, rfl⟩

/-- There is no outcome where something was refused in a way that is not reported. What was refused
came from overrides or from the reader of documents. -/
theorem outcome_error_inv {b : Break} (h : i.outcome setup files = .error b) :
    ∃ f, i.Refused setup files f ∧ f.break? = some b := by
  unfold outcome at h
  split at h
  · cases h
  · next f hload =>
    split at h
    · next b' broken =>
      cases h
      exact ⟨f, load_eq_error_iff.mp hload, broken⟩
    · cases h

end Invocation

/-- What is put out for the forms of a source and their report: the text that is printed, and the
state of the file system after it. A check prints what was found out about all forms, as a text or
as a JSON document. A script is printed as it is, or it is written once, and then it is all that
changes in the files. -/
def Action.Delivers (a : Action) (o : Options) (filename : String) (es : List (Form Note))
    (r : Report) (system : FileSystem) (s s' : system.State) (out : String) : Prop :=
  match a with
  | .check _ _ _ _ => s' = s ∧
    match o.format with
    | .text => Compile.TellsAll o es out
    | .json => ∃ j, out = j.indented true 0 ++ "\n" ∧ Json.parse? out = some j ∧
      Compile.DescribesAll o filename es j
  | .emit none _ => s' = s ∧ out = r.script
  | .emit (some p) _ => out = "" ∧ system.write s p r.script.toUTF8 = (.ok (), s') ∧
    ∃ f, system.find? s' p = some f ∧ system.bytes? s' f = some r.script.toUTF8 ∧
      ∀ g, g ≠ f → system.bytes? s' g = system.bytes? s g

/-- An action that has a report ends well and prints no error. -/
theorem Action.code_finish (a : Action) (o : Options) (r : Report) :
    (a.finish o r).code = 0 ∧ (a.finish o r).err = "" := by
  cases a with
  | check types substitution script json => exact ⟨rfl, rfl⟩
  | emit output skipsTypes => cases output <;> exact ⟨rfl, rfl⟩

/-- Only a script is written to a file, and only where a file for it was named. So an action that
leaves a file to be written is the one that emits, and the file has what was emitted. -/
theorem Action.of_file_finish {a : Action} {o : Options} {r : Report} {p : Path} {text : String}
    (h : (a.finish o r).file = some (p, text)) :
    ∃ skipsTypes, a = .emit (some p) skipsTypes ∧ text = r.script := by
  cases a with
  | check types substitution script json => cases h
  | emit output skipsTypes =>
    cases output with
    | none => cases h
    | some q =>
      cases h
      exact ⟨skipsTypes, rfl, rfl⟩

/-- The state after an outcome: as it was, or with the file of the outcome written. -/
def Outcome.Leaves (o : Outcome) (system : FileSystem) (s s' : system.State) : Prop :=
  match o.file with
  | none => s' = s
  | some (p, text) => system.write s p text.toUTF8 = (.ok (), s')

/-- What an action makes of a report is delivered. A check is made with forms typed, so that every
form has something found out about it; a script may be made without. -/
theorem Action.delivers_of_leaves {a : Action} {o : Options} {es : List (Form Note)} {r : Report}
    {system : FileSystem} {s s' : system.State}
    (infers : ∀ types substitution script json, a = .check types substitution script json →
      o.infers = true) (ordered : Compile.InOrder o 0 es r.forms)
    (h : (a.finish o r).Leaves system s s') :
    a.Delivers o r.filename es r system s s' (a.finish o r).out := by
  cases a with
  | check types substitution script json =>
    refine ⟨h, ?_⟩
    cases hformat : o.format with
    | text =>
      have hout : (Action.finish o r (.check types substitution script json)).out = r.text o := by
        simp only [finish, Report.write, hformat]
      rw [hout]
      exact Report.tellsAll_text (infers _ _ _ _ rfl) ordered
    | json =>
      have hout : (Action.finish o r (.check types substitution script json)).out = r.jsonText := by
        simp only [finish, Report.write, hformat]
      rw [hout]
      exact Report.describesAll_jsonText (infers _ _ _ _ rfl) ordered
  | emit output skipsTypes =>
    cases output with
    | none => exact ⟨h, rfl⟩
    | some p => exact ⟨rfl, h, system.of_write h⟩

namespace Invocation

variable {i : Invocation} {setup : Setup} {system : FileSystem} {s s' : system.State}

/-- A run that ends with an outcome leaves what the outcome says: the files as they were, or with
one of them written. -/
theorem run_inv {o : Outcome} (h : i.run setup system s = (.ok o, s')) :
    i.outcome setup (system.files s) = .ok o ∧ o.Leaves system s s' := by
  unfold run at h
  split at h
  · cases h
  · next o' houtcome =>
    split at h
    · next hfile =>
      cases h
      exact ⟨houtcome, by simp only [Outcome.Leaves, hfile]⟩
    · next p text hfile =>
      split at h
      · next hwrite =>
        cases h
        exact ⟨houtcome, by simp only [Outcome.Leaves, hfile, hwrite]⟩
      · cases h

/-- A run that breaks off has changed nothing, or it broke off at writing. In the second case there
was an outcome, which is lost. -/
theorem run_error_inv {b : Break} (h : i.run setup system s = (.error b, s')) :
    (s' = s ∧ i.outcome setup (system.files s) = .error b) ∨
      ∃ o p text f, b = .write f ∧ i.outcome setup (system.files s) = .ok o ∧
        o.file = some (p, text) ∧ system.write s p text.toUTF8 = (.error f, s') := by
  unfold run at h
  split at h
  · next b' houtcome =>
    cases h
    exact .inl ⟨rfl, houtcome⟩
  · next o houtcome =>
    split at h
    · cases h
    · next p text hfile =>
      split at h
      · cases h
      · next f s'' hwrite =>
        cases h
        exact .inr ⟨o, p, text, f, rfl, houtcome, hfile, hwrite⟩

/-- What was loaded is compiled under the options of the action. Either the failure is described and
nothing else is left, or the action finishes with the report. -/
theorem finish_inv (i : Invocation) (c : Options) (source : String) :
    (∃ d, compile (i.action.options c) i.source.text source = .error d ∧
      i.finish c source = failure (d.describe source i.source.text)) ∨
      ∃ r, compile (i.action.options c) i.source.text source = .ok r ∧
        i.finish c source = i.action.finish (i.action.options c) r := by
  rw [finish]
  cases compile (i.action.options c) i.source.text source with
  | error d => exact .inl ⟨d, rfl, rfl⟩
  | ok r => exact .inr ⟨r, rfl, rfl⟩

/-- A report has the name of its source, as it was given on the command line. -/
theorem filename_of_compile {o : Options} {filename source : String} {r : Report}
    (h : compile o filename source = .ok r) : r.filename = filename := by
  rw [compile] at h
  split at h
  · cases h
  · obtain ⟨forms, -, rfl⟩ := exists_of_map_eq_ok h
    rfl

/-- The check of a source that stands at the root, from a directory elsewhere. -/
def checkRoot : Invocation := ⟨none, [], ⟨"/", ["a"]⟩, .check false false false false⟩

/-- A tree with a source of two forms at the root. -/
def treeOf (source : String) : FileTree := ⟨[(["a"], .file source.toUTF8)], ["w"]⟩

/-- The setup without a configuration. -/
def plainSetup : Setup := { reader := Yaml.reader }

/-- The command line is understood as the check of this source, with no options given and no
configuration named. All that the run does then comes from the defaults. -/
theorem parse_checkRoot : Invocation.parse ["check", "/a"] = .ok checkRoot := by
  have hcommand : Command.read mainOptions "command" true ["check", "/a"] =
      .ok ({ operand := some "check", rest := ["/a"] }, "check") := by
    have hkinds : classifyAll mainOptions ["check", "/a"] =
        .ok [.operand "check", .operand "/a"] := rfl
    rw [Command.read, hkinds]
    simp [readFrom, Argument.text]
  have hsource : Command.read checkOptions "source" false ["/a"] =
      .ok ({ operand := some "/a" }, "/a") := by
    have hkinds : classifyAll checkOptions ["/a"] = .ok [.operand "/a"] := rfl
    rw [Command.read, hkinds]
    simp [readFrom]
  have hpath : Path.ofText "/a" = ⟨"/", ["a"]⟩ := by decide +kernel
  have hread : readCommand "check" ["/a"] = .ok (checkRoot.source, checkRoot.action, []) := by
    rw [readCommand, if_pos rfl, hsource, checkRoot, ← hpath]
    rfl
  rw [Invocation.parse, hcommand]
  show (readCommand "check" ["/a"]).bind _ = _
  rw [hread]
  rfl

/-- What is loaded from a tree are the default options and the source, if reading leaves its line
ends as they are. -/
theorem load_checkRoot {source : String} (decoded : Text.Utf8.decode source.toUTF8 = .ok source)
    (unified : String.ofList (Text.unifyNewlines source.toList) = source) :
    checkRoot.load plainSetup (FileTree.system.files (treeOf source)) = .ok ({}, source) := by
  show ((Files.textOf source.toUTF8).mapError RunFault.source).bind _ = _
  rw [Files.textOf, decoded]
  show Except.ok (({} : Options), String.ofList (Text.unifyNewlines source.toList)) = _
  rw [unified]

/-- The first form alone compiles, so that a failure at the second one has something to hide. -/
theorem forms_one : Compile.forms {} 0 [.number { span := some ⟨0, 1⟩ } (.int 1)] =
    .ok [⟨0, .number { span := some ⟨0, 1⟩, type := some .number } (.int 1),
      some (.number, []), none⟩] := by
  rw [Compile.forms, Compile.form, Compile.typeForm, if_pos rfl, Form.infer_number]
  rfl

/-- The source with a name that is not bound fails at its second form. -/
theorem compile_unbound : compile {} "/a" "1\nx" =
    .error (TypeFault.diagnostic ⟨.unbound "x", some ⟨2, 3⟩⟩) := by
  have hlexed : Lexed.ofSource "1\nx" =
      { tokens := [⟨.number (.int 1), ⟨0, 1⟩⟩, ⟨.ident "x", ⟨2, 3⟩⟩] } := by
    decide +kernel
  have hparse : Form.parse "1\nx" = .ok ([.number { span := some ⟨0, 1⟩ } (.int 1)] ++
      [.symbol { span := some ⟨2, 3⟩ } "x"]) := by
    rw [Form.parse, hlexed]
    rfl
  exact Compile.compile_eq_error_iff.mpr (.typing hparse forms_one rfl rfl)

/-- The source of two numbers compiles to a report of two forms, in their order, each with the type
of numbers. No variable is solved for, so the solutions are empty. -/
theorem compile_numbers : compile {} "/a" "1\n2" = .ok ⟨"/a",
    [⟨0, .number { span := some ⟨0, 1⟩, type := some .number } (.int 1), some (.number, []), none⟩,
     ⟨1, .number { span := some ⟨2, 3⟩, type := some .number } (.int 2), some (.number, []),
      none⟩]⟩ := by
  have hlexed : Lexed.ofSource "1\n2" =
      { tokens := [⟨.number (.int 1), ⟨0, 1⟩⟩, ⟨.number (.int 2), ⟨2, 3⟩⟩] } := by
    decide +kernel
  have hparse : Form.parse "1\n2" = .ok ([.number { span := some ⟨0, 1⟩ } (.int 1)] ++
      [.number { span := some ⟨2, 3⟩ } (.int 2)]) := by
    rw [Form.parse, hlexed]
    rfl
  rw [Compile.compile_of_parse hparse, Compile.forms_append, forms_one]
  show ((Compile.forms {} 1 [_]).map _).map _ = _
  rw [Compile.forms, Compile.form, Compile.typeForm, if_pos rfl, Form.infer_number]
  rfl

end Invocation

end TypedSexp.Command
